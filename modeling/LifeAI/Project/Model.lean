import LifeAI.Base
import Mathlib.Data.List.Sort

/-!
# The memory of the project

The tables of `project_memory.py`, and the calls that write them.

* `Db`       notes, sources, branch and pull-request statuses, checkpoints;
* `generateResumptionBrief`   the text that a checkpoint stores;
* `addNote`, `resolveNote`, `ingestGitCommit`, `ingestGithubStatus`, `createCheckpoint`;
* `isCheckpointStale` the three signals;
* `Db.next`  one call: it commits, or raises and leaves the tables as they were.

The raw data of a source and the blob of a document are left out: nothing here reads them.  The text
of a brief stands in the row of the checkpoint, where the source has the key of its blob.
-/

namespace LifeAI.Project

abbrev NoteId := Nat
abbrev SourceId := Nat

inductive NoteKind where
  | fact | decision | blocker | nextStep | uncertainty | idea
  deriving DecidableEq

inductive NoteStatus where
  | opened | resolved | superseded
  deriving DecidableEq

inductive SideIssueClassification where
  | blocking | directlyResolvable | registeredForLater | needsFounderDecision
  deriving DecidableEq

/-- a row of `project_notes` -/
structure ProjectNote where
  kind : NoteKind
  status : NoteStatus := .opened
  content : String
  sourceType : String
  sourceRef : String
  sourceId : Option SourceId := none
  classification : Option SideIssueClassification := none
  createdBy : String
  createdAt : Time
  resolvedAt : Option Time := none
  resolvedBy : Option String := none
  resolutionNote : Option String := none
  deriving DecidableEq

/-- a row of `project_sources` -/
structure ProjectSource where
  sourceType : String
  sourceRef : String
  commitSha : Option String := none
  ingestedBy : String
  ingestedAt : Time
  deriving DecidableEq

/-- a row of `project_branch_pr_status` -/
structure ProjectBranchPRStatus where
  kind : String
  ref : String
  title : Option String := none
  status : String
  baseRef : Option String := none
  headRef : Option String := none
  mergeable : Option Bool := none
  ciStatus : Option String := none
  summary : Option String := none
  sourceId : Option SourceId := none
  isCurrent : Bool := true
  recordedBy : String
  recordedAt : Time
  supersededAt : Option Time := none
  deriving DecidableEq

/-- a row of `project_checkpoints`, with the notes that `project_checkpoint_notes` links to it -/
structure ProjectCheckpoint where
  summary : String
  branchName : String
  openPrRefs : String
  brief : String
  gitCommitSha : Option String
  createdBy : String
  createdAt : Time
  notes : List NoteId
  deriving DecidableEq

structure Db where
  notes : List ProjectNote := []
  sources : List ProjectSource := []
  statuses : List ProjectBranchPRStatus := []
  checkpoints : List ProjectCheckpoint := []
  deriving DecidableEq

/-- `ORDER BY … DESC` -/
def newestFirst {α : Type} (stamp : α → Time) (rows : List α) : List α :=
  rows.insertionSort fun a b => stamp b ≤ stamp a

namespace Db

variable (db : Db)

/-- `list_notes` of one status, each note with its id -/
def listNotes (status : NoteStatus) : List (ProjectNote × NoteId) :=
  newestFirst (·.1.createdAt) (db.notes.zipIdx.filter (·.1.status = status))

/-- `list_current_branch_pr_status` -/
def listCurrentBranchPrStatus : List ProjectBranchPRStatus :=
  newestFirst (·.recordedAt) (db.statuses.filter (·.isCurrent))

/-- `list_sources` -/
def listSources (limit : Nat) : List ProjectSource :=
  (newestFirst (·.ingestedAt) db.sources).take limit

/-- `latest_git_commit_source` -/
def latestGitCommitSource : Option ProjectSource :=
  (newestFirst (·.ingestedAt) (db.sources.filter (·.sourceType = "git_commit"))).head?

end Db

/-! ## the brief -/

def prohibitions : List String :=
  ["Merga en pull request.",
   "Deploya eller på annat sätt driftsätta kod.",
   "Force-pusha eller skriva om historik på en delad branch.",
   "Radera en branch.",
   "Ändra P7A eller annan governance-plan utan ett separat, uttryckligt beslut.",
   "Fatta produkt-, kostnads-, säkerhets- eller arkitekturbeslut på egen hand — fråga grundaren."]

/-- a note as a line cites it -/
def cited (n : ProjectNote) : String :=
  n.content ++ " — källa: " ++ n.sourceType ++ " " ++ n.sourceRef

/-- a heading, and the notes of one kind below it -/
def headed (notes : List ProjectNote) (kind : NoteKind) (heading none : String) : List String :=
  let matching := notes.filter (·.kind = kind)
  [heading, ""] ++ (if matching = [] then [none] else matching.map fun n => "- " ++ cited n) ++ [""]

/-- the line of a status -/
def statusLine (row : ProjectBranchPRStatus) : String :=
  let mergeDep := ((row.baseRef.filter (· ≠ "")).map (", bas: " ++ ·)).getD ""
  let ci := ((row.ciStatus.filter (· ≠ "")).map (", CI: " ++ ·)).getD ""
  "- **" ++ row.kind ++ " " ++ row.ref ++ "** — " ++ row.status ++ mergeDep ++ ci

/-- `generate_resumption_brief`; `isoformat` is the method of `datetime` -/
def generateResumptionBrief (isoformat : Time → String) (now : Time)
    (summary branchName : String) (openPrRefs : List String) (openNotes : List ProjectNote)
    (branchPrStatus : List ProjectBranchPRStatus) (sources : List ProjectSource) : String :=
  let nextSteps := openNotes.filter (·.kind = .nextStep)
  "\n".intercalate <|
    ["# MainAI Resumption Brief", "",
     "**Genererad:** " ++ isoformat now ++ "Z",
     "**Aktuell branch:** `" ++ branchName ++ "`",
     "**Öppna PR:er:** " ++ (if openPrRefs = [] then "(inga)" else ", ".intercalate openPrRefs),
     "", "## Huvudmål och sammanfattning", "", summary, ""] ++
    headed openNotes .fact "## Vad projektet bygger / aktuell fas"
      "(inga registrerade statusfakta)" ++
    headed openNotes .blocker "## Blockerare (öppna)" "(inga)" ++
    headed openNotes .decision "## Beslut (gällande)" "(inga)" ++
    headed openNotes .nextStep "## Vad som pågår / nästa steg" "(inga)" ++
    headed openNotes .uncertainty "## Osäkerheter och konflikter" "(inga)" ++
    headed openNotes .idea "## Idéer (ännu inte beslutade)" "(inga)" ++
    ["## Aktuell branch och PR-status", ""] ++
    (if branchPrStatus = [] then ["(ingen branch-/PR-status ingesterad ännu)"]
     else branchPrStatus.map statusLine) ++
    ["", "## Exakt nästa säkra steg", "",
     (nextSteps.head?.map cited).getD
       "(inget registrerat — fråga grundaren innan något nytt påbörjas)",
     "", "## Vad agenten INTE får göra", ""] ++
    prohibitions.map ("- " ++ ·) ++
    ["", "## Källor och tidsstämplar", ""] ++
    (if sources = [] then ["(inga källor ingesterade ännu)"]
     else sources.map fun s =>
       "- " ++ s.sourceType ++ ": " ++ s.sourceRef ++ " (ingesterad " ++ isoformat s.ingestedAt ++
         "Z)") ++
    ["",
     "_Detta är en genererad återupptagningsbrief — varje rad ovan är spårbar till en " ++
     "ProjectNote-, ProjectBranchPRStatus- eller ProjectSource-rad, inte fritext utan " ++
     "ursprung._"]

/-! ## the calls -/

def maxBriefBytes : Nat := 2 * 1024 * 1024

/-- the blob store refuses what is larger than its limit -/
def store (maxBytes : Nat) (content : String) : Except Err String :=
  if maxBytes < content.utf8ByteSize then
    .error (.storage ("Uppladdningen överskrider maxstorleken (" ++ toString maxBytes ++
      " bytes) — avbruten."))
  else .ok content

/-- what `ingest_github_status` is told of a branch or a pull request -/
structure Snapshot where
  kind : String
  ref : String
  status : String
  title : Option String := none
  baseRef : Option String := none
  headRef : Option String := none
  mergeable : Option Bool := none
  ciStatus : Option String := none
  summary : Option String := none
  deriving DecidableEq

/-- the row that records a snapshot -/
def Snapshot.entry (s : Snapshot) (ingestedBy : String) (source : SourceId) (now : Time) :
    ProjectBranchPRStatus where
  kind := s.kind
  ref := s.ref
  title := s.title
  status := s.status
  baseRef := s.baseRef
  headRef := s.headRef
  mergeable := s.mergeable
  ciStatus := s.ciStatus
  summary := s.summary
  sourceId := some source
  recordedBy := ingestedBy
  recordedAt := now

/-- a prior row of the pair stops being current -/
def ProjectBranchPRStatus.supersede (now : Time) (row : ProjectBranchPRStatus) :
    ProjectBranchPRStatus :=
  { row with isCurrent := false, supersededAt := some now }

inductive Op where
  | addNote (kind : NoteKind) (content sourceType sourceRef createdBy : String)
      (sourceId : Option SourceId) (classification : Option SideIssueClassification)
  | resolveNote (id : NoteId) (resolvedBy resolutionNote : String) (superseded : Bool)
  /-- `sha` is what `git rev-parse HEAD` prints -/
  | ingestGitCommit (sha ingestedBy : String)
  | ingestGithubStatus (snapshot : Snapshot) (ingestedBy : String)
  | createCheckpoint (summary branchName : String) (openPrRefs : List String) (createdBy : String)
  deriving DecidableEq

namespace Db

variable (db : Db)

/-- `add_note` -/
def addNote (now : Time) (kind : NoteKind) (content sourceType sourceRef createdBy : String)
    (sourceId : Option SourceId) (classification : Option SideIssueClassification) : Db :=
  { db with notes := db.notes ++ [{
      kind := kind, content := content, sourceType := sourceType, sourceRef := sourceRef,
      sourceId := sourceId, classification := classification, createdBy := createdBy,
      createdAt := now }] }

/-- `resolve_note` -/
def resolveNote (now : Time) (id : NoteId) (resolvedBy resolutionNote : String)
    (superseded : Bool) : Except Err Db :=
  match db.notes[id]? with
  | none => .error .valueError
  | some note => .ok { db with notes := db.notes.set id { note with
      status := if superseded then .superseded else .resolved
      resolvedAt := some now
      resolvedBy := some resolvedBy
      resolutionNote := some resolutionNote } }

/-- `ingest_git_commit` -/
def ingestGitCommit (now : Time) (sha ingestedBy : String) : Db :=
  { db with sources := db.sources ++ [{
      sourceType := "git_commit", sourceRef := "HEAD", commitSha := some sha,
      ingestedBy := ingestedBy, ingestedAt := now }] }

/-- `ingest_github_status` -/
def ingestGithubStatus (now : Time) (s : Snapshot) (ingestedBy : String) : Except Err Db :=
  if s.kind ≠ "branch" ∧ s.kind ≠ "pr" then .error .valueError
  else .ok { db with
    sources := db.sources ++ [{
      sourceType := "github_" ++ s.kind, sourceRef := s.ref, ingestedBy := ingestedBy,
      ingestedAt := now }]
    statuses := (db.statuses.map fun row =>
        if row.kind = s.kind ∧ row.ref = s.ref ∧ row.isCurrent then row.supersede now else row) ++
      [s.entry ingestedBy db.sources.length now] }

/-- `create_checkpoint`, with the row that it returns -/
def createCheckpoint (isoformat : Time → String) (now : Time) (summary branchName : String)
    (openPrRefs : List String) (createdBy : String) : Except Err (ProjectCheckpoint × Db) := do
  let openNotes := db.listNotes .opened
  let brief := generateResumptionBrief isoformat now summary branchName openPrRefs
    (openNotes.map (·.1)) db.listCurrentBranchPrStatus (db.listSources 20)
  let blob ← store maxBriefBytes brief
  let checkpoint : ProjectCheckpoint := {
    summary := summary, branchName := branchName, openPrRefs := ",".intercalate openPrRefs,
    brief := blob, gitCommitSha := db.latestGitCommitSource.bind (·.commitSha),
    createdBy := createdBy, createdAt := now, notes := openNotes.map (·.2) }
  return (checkpoint, { db with checkpoints := db.checkpoints ++ [checkpoint] })

/-- `is_checkpoint_stale` -/
def isCheckpointStale (checkpoint : ProjectCheckpoint) : Bool × List String :=
  let git := match db.latestGitCommitSource, checkpoint.gitCommitSha.filter (· ≠ "") with
    | some latest, some sha =>
      if latest.commitSha ≠ some sha then
        ["Ny git-commit sedan checkpointen: " ++ sha ++ " → " ++ latest.commitSha.getD "None"]
      else []
    | _, _ => []
  let newerNotes := db.notes.filter (checkpoint.createdAt < ·.createdAt)
  let notes := if newerNotes = [] then []
    else [toString newerNotes.length ++ " ny(a) noteringar registrerade sedan checkpointen."]
  let newerStatus := db.statuses.filter (checkpoint.createdAt < ·.recordedAt)
  let status := if newerStatus = [] then []
    else [toString newerStatus.length ++
      " ny(a) branch-/PR-statusuppdatering(ar) sedan checkpointen."]
  let reasons := git ++ notes ++ status
  (decide (reasons ≠ []), reasons)

variable (isoformat : Time → String)

def apply (now : Time) : Op → Except Err Db
  | .addNote kind content sourceType sourceRef createdBy sourceId classification =>
    .ok (db.addNote now kind content sourceType sourceRef createdBy sourceId classification)
  | .resolveNote id resolvedBy resolutionNote superseded =>
    db.resolveNote now id resolvedBy resolutionNote superseded
  | .ingestGitCommit sha ingestedBy => .ok (db.ingestGitCommit now sha ingestedBy)
  | .ingestGithubStatus s ingestedBy => db.ingestGithubStatus now s ingestedBy
  | .createCheckpoint summary branchName openPrRefs createdBy =>
    (db.createCheckpoint isoformat now summary branchName openPrRefs createdBy).map (·.2)

end Db

/-- a call at its time; git, the store or the database may fail before it commits -/
structure Call where
  now : Time
  op : Op
  fault : Option Err := none
  deriving DecidableEq

/-- one call: it commits, or raises and leaves the tables as they were -/
def Db.next (isoformat : Time → String) (db : Db) (c : Call) : Db :=
  transact db (c.fault.elim (db.apply isoformat c.now c.op) .error)

end LifeAI.Project
