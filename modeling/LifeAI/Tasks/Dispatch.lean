import LifeAI.Jobs.Lease
import LifeAI.Lib.Tx
import LifeAI.Tasks.Insertion

/-!
# Dispatch: a ready task becomes a job

* `requireTaskApproval`  the approval gate;
* `createJob`            idempotent per owner and key, and it commits what its session has
                         flushed so far;
* `dispatchReadyTask`    marks the task running, creates its job, writes `mainai_job_id`;
* `retryTask`, `resetTaskForTakeover`  the two ways back to `ready`.
-/

namespace LifeAI

/-- what the operations read besides the tables -/
structure Env where
  now : Time
  /-- `require_capability` accepts the job type -/
  capable : JobType → Bool := fun _ => true
  /-- the owner has an indexed, undeleted document with this id -/
  indexedDocument : OwnerId → Nat → Bool := fun _ _ => false

/-! ## approval -/

/-- `APPROVAL_POLICIES`, the default of a task type under a policy -/
def policyDefault (policyName taskType : String) : Option Bool :=
  if policyName = "standard_repo_work" then
    if taskType ∈ knownTaskTypes then some false else none
  else if policyName = "autonomous_development_work" then
    if taskType = "repo_edit" ∨ taskType = "open_pr" then some true
    else if taskType ∈ knownTaskTypes then some false
    else none
  else none

/-- `requires_approval`: the flag of the task wins; an unknown policy or type requires it -/
def requiresApproval (policyName taskType : String) (taskApprovalRequired : Bool) : Bool :=
  taskApprovalRequired ∨ (policyDefault policyName taskType).getD true

/-- an `approval_granted` event of the task -/
def Db.approvalGranted (db : Db) (i : TaskId) : Bool :=
  db.events.any fun e => e.task = i ∧ e.kind = .approvalGranted

/-- `require_task_approval` -/
def requireTaskApproval (db : Db) (i : TaskId) (t : Task) (policy : String) : Except Err Unit :=
  if requiresApproval policy t.taskType t.approvalRequired ∧ ¬ db.approvalGranted i then
    .error (.approvalRequired i)
  else .ok ()

/-- `grant_task_approval` -/
def grantTaskApproval (db : Db) (i : TaskId) : Except Err Db := do
  let _ ← db.lockTask i
  return db.addEvents [{ task := i, kind := .approvalGranted }]

/-! ## job creation -/

/-- the arguments of `create_job`; `claimed` says that the caller brought a `job_id` -/
structure JobRequest where
  ownerId : OwnerId
  jobType : JobType
  inputRefs : List InputRef
  idempotencyKey : Option String := none
  claimed : Bool := false
  deriving DecidableEq

def JobRequest.row (c : JobRequest) : Job where
  ownerId := c.ownerId
  jobType := c.jobType
  inputRefs := c.inputRefs
  idempotencyKey := c.idempotencyKey

/-- equal `_canonical_request_fingerprint`s: the references are compared without their order -/
def JobRequest.matchesRow (c : JobRequest) (r : Job) : Bool :=
  r.jobType = c.jobType ∧ r.inputRefs.isPerm c.inputRefs

/-- the row that already has the owner and the key -/
def Db.keyedJob (db : Db) (c : JobRequest) : Option (JobId × Job) :=
  findRow (fun r => decide (r.ownerId = c.ownerId ∧ r.idempotencyKey = c.idempotencyKey)) db.jobs

/-- the lookup that `create_job` makes first, for a non-empty key -/
def Db.replayedJob (db : Db) (c : JobRequest) : Option (JobId × Job) :=
  if c.idempotencyKey = none ∨ c.idempotencyKey = some "" then none else db.keyedJob c

/-- `_validate_input_refs`, the contract of `corpus_review` -/
def validateInputRefs (env : Env) (c : JobRequest) : Except Err Unit :=
  if c.inputRefs = [] then .error .invalidInputRefs
  else if c.inputRefs.all fun r => r.type = .document ∧ env.indexedDocument c.ownerId r.id then
    .ok ()
  else .error .invalidInputRefs

/-- `_validate_task_execution_input_refs` -/
def validateTaskExecutionInputRefs (db : Db) (c : JobRequest) : Except Err Unit :=
  match c.inputRefs with
  | [⟨.mainaiTask, i⟩] =>
    match db.tasks[i]? with
    | none => .error .invalidInputRefs
    | some t =>
      if t.ownerId ≠ c.ownerId then .error .invalidInputRefs
      else if t.status ≠ (if c.claimed then .running else .ready) then .error .invalidInputRefs
      else match db.goals[t.goalId]? with
        | none => .error .invalidInputRefs
        | some g =>
          if g.ownerId ≠ c.ownerId then .error .invalidInputRefs
          else match requireTaskApproval db i t g.approvalPolicy with
            | .error _ => .error .invalidInputRefs
            | .ok _ => .ok ()
  | _ => .error .invalidInputRefs

/-- the checks of `create_job` before its INSERT -/
def JobRequest.validate (env : Env) (db : Db) (c : JobRequest) : Except Err Unit :=
  if ¬ env.capable c.jobType then .error .capabilityUnavailable
  else match c.jobType with
    | .corpusReview => validateInputRefs env c
    | .messageSequenceBackfill | .messageSourceBackfill =>
      if c.inputRefs = [] then .ok () else .error .invalidInputRefs
    | .taskExecution => validateTaskExecutionInputRefs db c
    | .other _ => .ok ()

/-- The INSERT inside its savepoint.  A second row of one owner and key (an empty key is stored
but never looked up) violates the unique key; the row that is there is then the answer, and
nothing is committed: `none` stands for that. -/
def insertJob (db : Db) (c : JobRequest) : Except Err ((JobId × Bool) × Db) :=
  match if c.idempotencyKey = none then none else db.keyedJob c with
  | some (j, r) =>
    if ¬ c.matchesRow r ∨ c.claimed then .error .idempotencyConflict
    else .ok ((j, false), db)
  | none => .ok ((db.jobs.length, true), { db with jobs := db.jobs ++ [c.row] })

/-- `create_job` -/
def createJob (env : Env) (c : JobRequest) : Tx Db Err JobId := do
  let replay ← Tx.flush fun db => .ok (db.replayedJob c, db)
  match replay with
  | some (j, r) => if c.matchesRow r then return j else Tx.raise .idempotencyConflict
  | none =>
    let (j, created) ← Tx.flush fun db => do
      c.validate env db
      insertJob db c
    if created then
      Tx.commit
      return j
    else return j

/-! ## dispatch -/

/-- `f"mainai_task_execution:{task.id}:{task.attempts}"` -/
def dispatchKey (i : TaskId) (attempts : Int) : String :=
  "mainai_task_execution:" ++ toString i ++ ":" ++ toString attempts

def dispatchRequest (i : TaskId) (t : Task) : JobRequest where
  ownerId := t.ownerId
  jobType := .taskExecution
  inputRefs := [⟨.mainaiTask, i⟩]
  idempotencyKey := some (dispatchKey i t.attempts)
  claimed := true

def Task.dispatched (now : Time) (t : Task) : Task :=
  { t with
    status := .running
    startedAt := some (t.startedAt.getD now)
    attempts := t.attempts + 1 }

/-- the part of `dispatch_ready_task` before `create_job`; returns the row that it locked -/
def beginDispatch (now : Time) (i : TaskId) (db : Db) : Except Err (Task × Db) := do
  let t ← db.lockTask i
  if t.status ≠ .ready then .error .valueError
  else
    let goal ← db.goal t.goalId
    requireTaskApproval db i t goal.approvalPolicy
    let db' ← db.setTask i (t.dispatched now)
    return (t, db'.addEvents
      [{ task := i, kind := .dispatched, mainaiJobId := some db.jobs.length }])

/-- the write of `mainai_job_id`, after `create_job` has returned -/
def assignJob (i : TaskId) (j : JobId) (db : Db) : Except Err (Unit × Db) := do
  let t ← db.lockTask i
  let db ← db.setTask i { t with mainaiJobId := some j }
  return ((), db)

/-- `dispatch_ready_task` -/
def dispatchReadyTask (env : Env) (i : TaskId) : Tx Db Err JobId := do
  let t ← Tx.flush (beginDispatch env.now i)
  let j ← createJob env (dispatchRequest i t)
  Tx.flush (assignJob i j)
  return j

/-- `task_for_job`: the one task that the job's references name -/
def Job.mainaiTask (r : Job) : Option TaskId :=
  match r.inputRefs.filter (·.type = .mainaiTask) with
  | [ref] => some ref.id
  | _ => none

/-! ## back to ready -/

/-- `retry_task` -/
def retryTask (db : Db) (i : TaskId) : Except Err Db := do
  let t ← db.lockTask i
  if ¬ t.status.retryable then .error (.taskNotRetryable i)
  else
    let db ← db.setTask i { t with status := .ready, nextRetryAt := none }
    return db.addEvents [{ task := i, kind := .retryScheduled }]

/-- `reset_task_for_takeover` -/
def resetTaskForTakeover (db : Db) (i : TaskId) : Except Err Db := do
  let t ← db.lockTask i
  if t.status ≠ .running then .error (.taskNotRetryable i)
  else
    let db ← db.setTask i { t with status := .ready }
    return db.addEvents
      [{ task := i, kind := .retryScheduled, reason := some "recovery_takeover" }]

end LifeAI
