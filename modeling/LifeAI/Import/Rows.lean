import LifeAI.Base
import LifeAI.Lib.Json

/-!
# The rows of the library import

`models/document.py`, `models/import_job.py` and the tables and files that the import writes.

* `Document`, `ImportJob`  a row of `documents`, of `knowledge_import_jobs`;
* `Entry`, `Package`       what `validate_and_extract_zip` makes of an upload;
* `Pipeline`               what the import takes from libraries and from the database server;
* `Store`                  the tables, the storage root and the locks in the cache server;
* `Act`                    what one statement or transaction writes; `Store.apply`.

A storage key is the checksum behind its own first two digits, so both are the checksum here.
Knowledge versions and chunks are kept as the list of their documents.
-/

namespace LifeAI.Import

abbrev DocId := Nat
abbrev ImportJobId := Nat
abbrev ProcId := Nat

/-! ## documents -/

inductive IndexStatus where
  | pending | received | originalStoring | originalStored | extracting | extracted
  | awaitingClassification | classifying | embedding | indexing | indexed | failed | cancelled
  | awaitingProvider | blockedProvider | storageFailed | extractionFailed | indexingFailed
  deriving DecidableEq

namespace IndexStatus

/-- `RESUMABLE_INDEX_STATUSES` -/
def resumable : IndexStatus → Bool
  | .pending | .received | .originalStoring | .originalStored | .extracting | .extracted
  | .awaitingClassification | .classifying | .embedding | .indexing => true
  | _ => false

/-- paused on the provider -/
def paused : IndexStatus → Bool
  | .awaitingProvider | .blockedProvider => true
  | _ => false

/-- `_FAILED_INDEX_STATUSES` -/
def failedIndex : IndexStatus → Bool
  | .failed | .storageFailed | .extractionFailed | .indexingFailed => true
  | _ => false

end IndexStatus

inductive DeletionStatus where
  | none | pending | purged | failed
  deriving DecidableEq

structure Document where
  uploadedBy : OwnerId
  checksum : String
  importJobId : ImportJobId
  status : IndexStatus := .received
  storageKey : Option String := none
  chunkCount : Nat := 0
  /-- `deleted_at` is set -/
  deleted : Bool := false
  deletionStatus : DeletionStatus := .none
  deriving DecidableEq

/-- a live document of the owner with these bytes -/
def Document.holds (d : Document) (owner : OwnerId) (checksum : String) : Bool :=
  ¬ d.deleted ∧ d.uploadedBy = owner ∧ d.checksum = checksum

/-! ## import jobs -/

inductive ImportJobStatus where
  | pending | running | completed | failed
  /-- the source's `partial` -/
  | partly
  | cancelled | blocked
  deriving DecidableEq

inductive OutcomeStatus where
  | indexed | duplicate | failed | skipped | cancelled | blocked | encrypted
  deriving DecidableEq

structure FileOutcome where
  filename : String
  status : OutcomeStatus
  sourceId : Option DocId := none
  deriving DecidableEq

/-- what `failure_reason` says; the texts of exceptions are left out -/
inductive FailureReason where
  /-- "En identisk import pågår redan i en annan process (jobblås upptaget)." -/
  | identicalImport
  /-- "Originalfilen kunde inte läsas från lagringen: …" -/
  | unreadable
  /-- "Alla filer i paketet misslyckades." -/
  | allFilesFailed
  /-- the text of a `ZipSecurityError` -/
  | zipSecurity
  /-- "Oväntat fel under import: …" -/
  | unexpected
  deriving DecidableEq

structure ImportJob where
  ownerId : OwnerId
  sourceFilename : String
  sourceChecksum : String
  sourceStorageKey : String
  status : ImportJobStatus := .pending
  progressCurrent : Nat := 0
  progressTotal : Nat := 0
  succeededCount : Nat := 0
  failedCount : Nat := 0
  skippedCount : Nat := 0
  blockedCount : Nat := 0
  failureReason : Option FailureReason := none
  manifest : Option Json := none
  fileResults : List FileOutcome := []
  startedAt : Option Time := none
  completedAt : Option Time := none
  attemptCount : Nat := 0
  maxAttempts : Nat := 3
  lastFailureTransient : Option Bool := none
  lockedBy : Option String := none
  leaseExpiresAt : Option Time := none
  lastHeartbeatAt : Option Time := none

namespace ImportJob

/-- the WHERE clause of `_CLAIM_SQL` -/
def claimable (now : Time) (j : ImportJob) : Bool :=
  j.status = .pending ∨ (j.status = .running ∧ j.leaseExpiresAt.any (· < now))

/-- `import_job_requeue_eligible` -/
def requeueEligible (j : ImportJob) : Bool :=
  j.status = .blocked ∨ (j.status = .partly ∧ 0 < j.blockedCount)

/-- `import_job_still_needs_raw_blob` -/
def stillNeedsRawBlob (j : ImportJob) : Bool :=
  j.status = .pending ∨ j.status = .running ∨ j.requeueEligible

/-- the statuses that `_reconcile_orphaned_documents` looks at -/
def finished (j : ImportJob) : Bool :=
  j.status = .completed ∨ j.status = .partly ∨ j.status = .failed

end ImportJob

/-! ## packages -/

/-- the last component of a `PurePosixPath` -/
def pathName (path : String) : List Char :=
  ((path.toList.splitOn '/').filter fun c => c ≠ [] ∧ c ≠ ['.']).getLast?.getD []

/-- `PurePosixPath(path).suffix.lower()` -/
def suffix (path : String) : List Char :=
  let name := pathName path
  let last := (name.reverse.takeWhile (· ≠ '.')).reverse
  if 0 < last.length ∧ last.length + 1 < name.length then '.' :: last.map Char.toLower else []

def isZip (filename : String) : Bool := suffix filename = ".zip".toList

/-- `media_kind_for` finds a kind -/
def isMedia (filename : String) : Bool :=
  suffix filename = ".mp3".toList ∨ suffix filename = ".mp4".toList

def isManifest (filename : String) : Bool :=
  (pathName filename).map Char.toLower = "manifest.json".toList

inductive EntryStatus (β : Type) where
  | ok (content : β)
  | encrypted
  | skipped
  | rejected

structure Entry (β : Type) where
  filename : String
  status : EntryStatus β

/-- `ZipImportResult` -/
structure Package (β : Type) where
  entries : List (Entry β)
  manifest : Option Json

/-- a column that takes a value from the upload -/
inductive Column where
  | title | category | originalFilename | rawMetadata | manifest | fileResults | contentPreview
  | chunkText
  deriving DecidableEq

/-- what is not code of the repository: the hash, archives and file formats, and the values that
the database server takes in a column -/
structure Pipeline (β : Type) where
  sha256 : β → String
  size : β → Nat
  /-- `validate_and_extract_zip`; `none` is a `ZipSecurityError` -/
  unzip : String → β → Option (Package β)
  /-- `extract_text`; `none` raises -/
  extractText : String → β → Option String
  chunkText : String → List String
  /-- `validate_media_bytes` passes -/
  validMedia : String → β → Bool
  /-- the texts of the timed chunks of a transcript; `none` raises -/
  transcribe : String → β → Option (List String)
  accepts : Column → Json → Bool

/-- the value of a key of a JSON object -/
def field (key : String) : Json → Option Json
  | .obj fields => (fields.find? (·.1 = key)).map (·.2)
  | _ => none

/-- an entry of a manifest's `documents` is about the file -/
def describes (filename : String) (entry : Json) : Bool :=
  match field "file" entry with
  | some (.str s) => s = filename ∨ s.toList = pathName filename
  | _ => false

/-- `_manifest_entry_for` -/
def manifestEntryFor (manifest : Option Json) (filename : String) : Json :=
  match manifest.bind (field "documents") with
  | some (.arr documents) => (documents.find? (describes filename)).getD (.obj [])
  | _ => .obj []

/-- the truth value of a JSON value -/
def truthy : Json → Bool
  | .null => false
  | .bool b => b
  | .int n => n ≠ 0
  | .real r => (r.text.takeWhile fun c => c ≠ 'e' ∧ c ≠ 'E').any fun c =>
      '1' ≤ c ∧ c ≤ '9' ∨ c = 'N' ∨ c = 'I'
  | .str s => s ≠ ""
  | .arr js => ¬ js.isEmpty
  | .obj fields => ¬ fields.isEmpty

/-- a value that `in` a set of strings raises a `TypeError` for -/
def unhashable : Option Json → Bool
  | some (.arr _) | some (.obj _) => true
  | _ => false

/-- the `checksum` that a manifest declares is another one -/
def declaresOther (entry : Json) (checksum : String) : Bool :=
  match field "checksum" entry with
  | some (.str s) => s ≠ "" ∧ s ≠ checksum
  | some j => truthy j
  | none => false

/-- `manifest_entry.get("title") or filename` -/
def titleOf (entry : Json) (filename : String) : Json :=
  match field "title" entry with
  | some j => if truthy j then j else .str filename
  | none => .str filename

/-! ## the store -/

/-- a key of the `JobLock`s in the cache server -/
structure HeldLock where
  owner : OwnerId
  checksum : String
  token : ProcId
  expiresAt : Time
  deriving DecidableEq

structure Store (β : Type) where
  clock : Time := 0
  documents : List Document := []
  /-- the `source_id`s of the knowledge versions -/
  versions : List DocId := []
  /-- the documents of the chunks -/
  chunks : List DocId := []
  jobs : List ImportJob := []
  /-- the keys of project sources and checkpoints -/
  projectKeys : List String := []
  /-- the storage root -/
  disk : String → Option β := fun _ => none
  locks : List HeldLock := []

inductive Exc where
  | jobLockUnavailable
  | osError
  | zipSecurity
  | typeError
  /-- the statement fails, or the transaction that it is part of has failed before -/
  | dbError
  deriving DecidableEq

/-- how `process_claimed_job` puts a permanent error -/
def Exc.reason : Exc → FailureReason
  | .zipSecurity => .zipSecurity
  | _ => .unexpected

/-- `is_transient_error` -/
def Exc.transient : Exc → Bool
  | .jobLockUnavailable | .osError => true
  | _ => false

/-- what is written of a job row -/
inductive JobWrite where
  /-- `job.status = running` on the copy that holds `held` -/
  | start (held : ImportJobStatus)
  | total (manifest : Option Json) (n : Nat)
  | record (outcomes : List FileOutcome)
  /-- `renew_lease` for a holder -/
  | renew (holder : String) (seconds : Nat)
  | rollUp (outcomes : List FileOutcome)
  /-- a transient error with attempts left -/
  | retry
  | fail (reason : FailureReason) (transient : Option Bool)

/-- one transaction or file operation of a worker -/
inductive Act (β : Type) where
  | idle
  | job (j : ImportJobId) (w : JobWrite)
  | create (d : Document) (title category : Json) (filename : String)
  | version (d : DocId) (filename : String)
  /-- `document.status = st` on the copy that holds `held`, with a preview -/
  | status (d : DocId) (held st : IndexStatus) (preview : Option String)
  | publish (content : β)
  | link (d : DocId) (key : String)
  | index (d : DocId) (texts : List String) (preview : String)
  | lock (l : HeldLock)
  | unlock (owner : OwnerId) (checksum : String) (token : ProcId)

variable {β : Type}

namespace Store

/-- a live document of the job is on its way -/
def stuck (s : Store β) (j : ImportJobId) : Bool :=
  s.documents.any fun d => d.importJobId = j ∧ ¬ d.deleted ∧ d.status.resumable

def setJob (s : Store β) (j : ImportJobId) (f : ImportJob → ImportJob) : Store β :=
  { s with jobs := s.jobs.modify j f }

/-- `storage.verify` -/
def verify (P : Pipeline β) (s : Store β) (key : String) : Bool :=
  (s.disk key).any (P.sha256 · = key)

def setDoc (s : Store β) (d : DocId) (f : Document → Document) : Store β :=
  { s with documents := s.documents.modify d f }

end Store

/-- how many files ended so -/
def count (outcomes : List FileOutcome) (st : OutcomeStatus) : Nat :=
  outcomes.countP (·.status = st)

/-- the status that `_run_once` computes from the counts -/
def rolledUpStatus (outcomes : List FileOutcome) : ImportJobStatus :=
  let n := count outcomes
  if 0 < n .cancelled ∧ n .indexed = 0 then .cancelled
  else if 0 < n .blocked ∧ n .indexed = 0 ∧ n .failed = 0 then .blocked
  else if 0 < n .failed then
    if 0 < n .indexed ∨ 0 < n .duplicate ∨ 0 < n .skipped ∨ 0 < n .blocked ∨ 0 < n .encrypted then
      .partly
    else .failed
  else .completed

/-- the roll-up at the end of `_run_once`, where `stuck` is the safety net -/
def rolledUp (now : Time) (stuck : Bool) (outcomes : List FileOutcome) (r : ImportJob) : ImportJob :=
  let st := rolledUpStatus outcomes
  let n := count outcomes
  let reopened : Bool := stuck ∧ (st = .completed ∨ st = .partly ∨ st = .failed)
  { r with
    succeededCount := n .indexed
    failedCount := n .failed
    skippedCount := n .skipped + n .duplicate + n .encrypted
    blockedCount := n .blocked
    status := if reopened then .pending else dirty .running st r.status
    completedAt := if reopened then none else if st = .blocked then r.completedAt else some now
    failureReason := if reopened then none else
      if st = .failed then some .allFilesFailed else r.failureReason }

def JobWrite.apply (now : Time) (stuck : Bool) (r : ImportJob) : JobWrite → ImportJob
  | .start held =>
    { r with
      status := dirty held .running r.status
      startedAt := some (r.startedAt.getD now) }
  | .total manifest n => { r with manifest := manifest, progressTotal := n }
  | .record outcomes => { r with progressCurrent := outcomes.length, fileResults := outcomes }
  | .renew holder seconds =>
    if r.lockedBy = some holder then
      { r with leaseExpiresAt := some (now + seconds), lastHeartbeatAt := some now }
    else r
  | .rollUp outcomes => rolledUp now stuck outcomes r
  | .retry =>
    { r with
      attemptCount := r.attemptCount + 1
      status := .pending
      lastFailureTransient := some true }
  | .fail reason transient =>
    { r with
      status := .failed
      failureReason := some reason
      completedAt := some now
      lastFailureTransient := transient.or r.lastFailureTransient }

/-- the store after an act -/
def Store.apply (P : Pipeline β) (s : Store β) : Act β → Store β
  | .idle => s
  | .job j w => s.setJob j fun r => w.apply s.clock (s.stuck j) r
  | .create d _ _ _ => { s with documents := s.documents ++ [d] }
  | .version d _ => { s with versions := s.versions ++ [d] }
  | .status d held st _ => s.setDoc d fun r => { r with status := dirty held st r.status }
  | .publish content =>
    { s with disk := fun k =>
        if k = P.sha256 content then some (((s.disk k).filter (P.sha256 · = k)).getD content)
        else s.disk k }
  | .link d key =>
    s.setDoc d fun r => { r with storageKey := some key, status := .originalStored }
  | .index d texts _ =>
    { s.setDoc d fun r => { r with status := .indexed, chunkCount := texts.length } with
      chunks := s.chunks ++ texts.map fun _ => d }
  | .lock l => { s with locks := l :: s.locks }
  | .unlock owner checksum token =>
    { s with locks := s.locks.filter fun l =>
        ¬ (l.owner = owner ∧ l.checksum = checksum ∧ l.token = token) }

/-- the database takes every value that the act writes -/
def Act.accepted (P : Pipeline β) : Act β → Bool
  | .job _ (.total manifest _) => manifest.all (P.accepts .manifest)
  | .job _ (.record outcomes) => outcomes.all fun o => P.accepts .fileResults (.str o.filename)
  | .create _ title category filename => P.accepts .title title ∧ P.accepts .category category ∧
      P.accepts .originalFilename (.str filename)
  | .version _ filename => P.accepts .rawMetadata (.str filename)
  | .status _ _ _ (some preview) => P.accepts .contentPreview (.str preview)
  | .index _ texts preview => (texts.all fun t => P.accepts .chunkText (.str t)) ∧
      P.accepts .contentPreview (.str preview)
  | _ => true

end LifeAI.Import
