import LifeAI.Base
import LifeAI.Lib.JsonReader
import Mathlib.Algebra.Group.Nat.Defs

/-!
# Task worktrees

* `TaskWorktree`, `Checkout`  the row, and the directory on disk with its marker file;
* `verifyWorktreeOwnership`   whether the marker names the row;
* `createTaskWorktreeSync`, `rebindWorktreeToJob`, `commitWorktreeChanges`, `releaseWorktree`
                              what each answers, and the writes that it makes, in their order;
* `Op`, `step`                a call, made whole or cut short; a commit; a rollback.

A write to the disk is durable at once, a write to a row with the commit of its transaction.
-/

namespace LifeAI.Worktree

open JsonReader

/-- a uuid, by its text -/
abbrev Uuid := String
abbrev WorktreeId := ℕ

/-- an INTEGER column that counts -/
abbrev Generation := Fin (2 ^ 31)

inductive WorktreeStatus where
  | active | released | abandoned
  deriving DecidableEq

/-- a row of `mainai_task_worktrees` -/
structure TaskWorktree where
  taskId : Uuid
  ownerId : OwnerId
  jobId : Uuid
  leaseGeneration : Generation
  executorId : String
  repo : String
  baseSha : String
  branch : String
  path : String
  markerToken : String
  currentCommit : Option String := none
  status : WorktreeStatus := .active
  createdAt : Time
  releasedAt : Option Time := none
  deriving DecidableEq

/-- a directory, with the bytes of its marker file, if they can be read -/
structure Checkout where
  marker : Option ByteArray := none

/-- what is on the disk, by its path -/
abbrev Files := String → Option Checkout

structure Sys where
  /-- the committed rows -/
  rows : List TaskWorktree := []
  /-- what the open transaction sees of them, if one is open -/
  session : Option (List TaskWorktree) := none
  files : Files := fun _ => none

/-- the rows, as a query of the session finds them -/
def Sys.view (s : Sys) : List TaskWorktree := s.session.getD s.rows

/-! ## the marker -/

/-- what `json.dumps` writes of a marker -/
def markerText (taskId jobId markerToken : String) (leaseGeneration : Generation)
    (createdAt : String) : List Char :=
  objectText [("task_id", Json.quote taskId), ("job_id", Json.quote jobId),
    ("marker_token", Json.quote markerToken),
    ("lease_generation", Nat.toDigits 10 leaseGeneration), ("created_at", Json.quote createdAt)]

def markerBytes (taskId jobId markerToken : String) (leaseGeneration : Generation)
    (createdAt : String) : ByteArray :=
  (String.ofList (markerText taskId jobId markerToken leaseGeneration createdAt)).toUTF8

/-- `marker.get(key) == text` -/
def holds (members : List (List ℕ × Doc)) (key text : String) : Bool :=
  match members.lookup (codePoints key) with
  | some (.str cs) => cs = codePoints text
  | _ => false

/-- the object of a marker names the task, the job and the token of the row -/
def TaskWorktree.named (w : TaskWorktree) (members : List (List ℕ × Doc)) : Bool :=
  holds members "task_id" w.taskId ∧ holds members "job_id" w.jobId ∧
    holds members "marker_token" w.markerToken

section

-- how many arrays and objects may be open around another one, when the interpreter reads a marker
variable (levels : ℕ)

/-- the part of `verify_worktree_ownership` that reads the marker; the line ends that `read_text`
translates are blanks of JSON before and after -/
def verifyMarker (w : TaskWorktree) (bytes : ByteArray) : Except Err Bool :=
  match String.fromUTF8? bytes with
  | none => .error .unicodeDecodeError
  | some text =>
    match loads levels text.toList with
    | .error .malformed => .ok false
    | .error .digits => .error .valueError
    | .error .depth => .error .recursionError
    | .ok (.obj members) => .ok (w.named members)
    | .ok _ => .error .attributeError

/-- `verify_worktree_ownership` -/
def verifyWorktreeOwnership (files : Files) (w : TaskWorktree) : Except Err Bool :=
  match (files w.path).bind (·.marker) with
  | none => .ok false
  | some bytes => verifyMarker levels w bytes

/-- `_require_ownership` -/
def requireOwnership (files : Files) (w : TaskWorktree) : Except Err Unit :=
  match verifyWorktreeOwnership levels files w with
  | .error e => .error e
  | .ok true => .ok ()
  | .ok false => .error (.worktreeOwnership
      ("Worktree ownership marker missing or mismatched for task=" ++ w.taskId ++ " job=" ++ w.jobId ++
        " path=" ++ w.path ++ " — refusing to trust local content."))

/-! ## writes -/

inductive Effect where
  /-- the path, as it is afterwards -/
  | file (path : String) (after : Option Checkout)
  | insert (row : TaskWorktree)
  | update (i : WorktreeId) (row : TaskWorktree)
  /-- the flush is refused; the transaction is over -/
  | refused

def Effect.apply (s : Sys) : Effect → Sys
  | .file path after => { s with files := Function.update s.files path after }
  | .insert row => { s with session := some (s.view ++ [row]) }
  | .update i row => { s with session := some (s.view.set i row) }
  | .refused => { s with session := none }

/-- what `shutil.rmtree(ignore_errors=True)` comes to remove -/
inductive Rmtree where
  | all
  /-- the marker goes, the directory stays -/
  | part
  | nothing
  deriving DecidableEq

def Rmtree.effects (r : Rmtree) (path : String) (before : Option Checkout) : List Effect :=
  match before, r with
  | none, _ => []
  | some _, .all => [.file path (some {}), .file path none]
  | some _, .part => [.file path (some {})]
  | some _, .nothing => []

/-- what is left of the directory -/
def Rmtree.leaves (r : Rmtree) (before : Option Checkout) : Option Checkout :=
  match r with
  | .all => none
  | .part => before.map fun _ => {}
  | .nothing => before

/-- the write of the marker: the file is truncated, then written -/
def writeMarker (path : String) (bytes : ByteArray) : List Effect :=
  [.file path (some ⟨some ByteArray.empty⟩), .file path (some ⟨some bytes⟩)]

/-! ## the functions -/

def worktreeRoot : String := "/tmp/mainai-worktrees"

def worktreePath (jobId : Uuid) : String := worktreeRoot ++ "/" ++ jobId

def baseBranch : String := "claude/det-kommer-mer-879lcm"

def protectedBranches : List String := ["main", "master", "claude/det-kommer-mer-879lcm"]

/-- `task_branch_name` -/
def taskBranchName (taskId : Uuid) : String := "claude/mainai-task-" ++ taskId

/-- how the `try` block of `create_task_worktree_sync` ends -/
inductive Setup where
  | done
  /-- `torn`: in the write of the marker; `undo` is what the clean-up removes -/
  | fails (e : Err) (torn : Bool) (undo : Rmtree)

/-- what `create_task_worktree_sync` is given, and how git and the disk behave -/
structure CreateArgs where
  taskId : Uuid
  ownerId : OwnerId
  jobId : Uuid
  leaseGeneration : Generation
  executorId : String
  repo : String
  baseSha : String
  markerToken : String
  createdAt : Time
  /-- `datetime.utcnow().isoformat()` -/
  stamp : String
  /-- `github_write_enabled`, and the client is configured -/
  enabled : Bool := true
  clear : Rmtree := .all
  setup : Setup := .done

def CreateArgs.row (a : CreateArgs) : TaskWorktree where
  taskId := a.taskId
  ownerId := a.ownerId
  jobId := a.jobId
  leaseGeneration := a.leaseGeneration
  executorId := a.executorId
  repo := a.repo
  baseSha := a.baseSha
  branch := taskBranchName a.taskId
  path := worktreePath a.jobId
  markerToken := a.markerToken
  createdAt := a.createdAt

variable (s : Sys)

/-- the writes to the disk before the marker: the directory that is there is removed, a new one made -/
def CreateArgs.prepare (a : CreateArgs) : List Effect :=
  let path := worktreePath a.jobId
  a.clear.effects path (s.files path) ++
    [.file path (some ((a.clear.leaves (s.files path)).getD {}))]

/-- `create_task_worktree_sync` -/
def createTaskWorktreeSync (a : CreateArgs) : Except Err WorktreeId × List Effect :=
  match s.view.findIdx? fun w => w.jobId = a.jobId with
  | some i => (.ok i, [])
  | none =>
    let path := worktreePath a.jobId
    let branch := taskBranchName a.taskId
    if ¬ a.enabled then
      (.error (.worktree ("GITHUB_WRITE_ENABLED är av eller GITHUB_TOKEN/GITHUB_REPO saknas — kan inte " ++
        "skapa en verklig, push-bar worktree. MainAI stannar i förslagsläge (se " ++
        "app/mainai_execution/execution_job.py).")), [])
    else if branch ∈ protectedBranches ∨ branch = baseBranch then
      (.error (.worktree ("Refusing to use protected/mainline branch '" ++ branch ++
        "' as a task worktree's working branch.")), [])
    else
      match a.setup with
      | .fails e torn undo =>
        (.error e, a.prepare s ++
          (if torn then [.file path (some ⟨some ByteArray.empty⟩)] else []) ++
          undo.effects path (some {}))
      | .done =>
        (.ok s.view.length, a.prepare s ++
          writeMarker path (markerBytes a.taskId a.jobId a.markerToken a.leaseGeneration a.stamp) ++
          [.insert a.row])

/-- what `rebind_worktree_to_job` is given; `written` is how the write of the marker ends -/
structure RebindArgs where
  newJobId : Uuid
  newLeaseGeneration : Generation
  markerToken : String
  stamp : String
  written : Except Err Unit := .ok ()

def RebindArgs.row (a : RebindArgs) (w : TaskWorktree) : TaskWorktree :=
  { w with
    jobId := a.newJobId
    leaseGeneration := a.newLeaseGeneration
    markerToken := a.markerToken }

/-- the job has another worktree -/
def Sys.jobTaken (s : Sys) (i : WorktreeId) (jobId : Uuid) : Bool :=
  (s.view.eraseIdx i).any (·.jobId = jobId)

/-- `rebind_worktree_to_job` -/
def rebindWorktreeToJob (i : WorktreeId) (a : RebindArgs) : Except Err Unit × List Effect :=
  match s.view[i]? with
  | none => (.error .noResultFound, [])
  | some w =>
    match requireOwnership levels s.files w with
    | .error e => (.error e, [])
    | .ok () =>
      match a.written with
      | .error e => (.error e, [.file w.path (some ⟨some ByteArray.empty⟩)])
      | .ok () =>
        let written := writeMarker w.path
          (markerBytes w.taskId a.newJobId a.markerToken a.newLeaseGeneration a.stamp)
        if s.jobTaken i a.newJobId then
          (.error (.integrityError "mainai_task_worktrees_job_id_key"), written ++ [.refused])
        else (.ok (), written ++ [.update i (a.row w)])

/-- `commit_worktree_changes`; `git` is how git ends, with the new commit, if there is one -/
def commitWorktreeChanges (i : WorktreeId) (git : Except Err (Option String)) :
    Except Err (Option String) × List Effect :=
  match s.view[i]? with
  | none => (.error .noResultFound, [])
  | some w =>
    match requireOwnership levels s.files w with
    | .error e => (.error e, [])
    | .ok () =>
      match git with
      | .error e => (.error e, [])
      | .ok none => (.ok none, [])
      | .ok (some sha) => (.ok (some sha), [.update i { w with currentCommit := some sha }])

/-- `release_worktree` -/
def releaseWorktree (i : WorktreeId) (status : WorktreeStatus) (now : Time) (removes : Rmtree) :
    Except Err Unit × List Effect :=
  match s.view[i]? with
  | none => (.error .noResultFound, [])
  | some w =>
    if status = .active then
      (.error (.worktree "release_worktree() cannot set status back to 'active'."), [])
    else
      (.ok (), .update i { w with status, releasedAt := some now } ::
        removes.effects w.path (s.files w.path))

/-! ## runs -/

inductive Call where
  | create (a : CreateArgs)
  | rebind (i : WorktreeId) (a : RebindArgs)
  | commitChanges (i : WorktreeId) (git : Except Err (Option String))
  | release (i : WorktreeId) (status : WorktreeStatus) (now : Time) (removes : Rmtree)

/-- the writes of a call -/
def Call.effects : Call → List Effect
  | .create a => (createTaskWorktreeSync s a).2
  | .rebind i a => (rebindWorktreeToJob levels s i a).2
  | .commitChanges i git => (commitWorktreeChanges levels s i git).2
  | .release i status now removes => (releaseWorktree s i status now removes).2

inductive Op where
  /-- `cut`: the process dies after so many of the writes -/
  | call (c : Call) (cut : Option ℕ)
  | commit
  /-- the transaction is rolled back, or the process dies outside of a call -/
  | rollback
  /-- the container is replaced, with its disk -/
  | replaced

def Sys.rollback (s : Sys) : Sys := { s with session := none }

/-- the state after some writes -/
def Sys.after (s : Sys) (effects : List Effect) : Sys := effects.foldl Effect.apply s

def step (s : Sys) : Op → Sys
  | .call c none => s.after (c.effects levels s)
  | .call c (some k) => (s.after ((c.effects levels s).take k)).rollback
  | .commit => { s with rows := s.view, session := none }
  | .rollback => s.rollback
  | .replaced => { s with session := none, files := fun _ => none }

end

end LifeAI.Worktree
