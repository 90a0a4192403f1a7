import LifeAI.Lib.Keyed
import LifeAI.Supervisor.Candidates
import LifeAI.Tasks.System

/-!
# The evidence of a selection

A pass of the loop of `run_supervisor`, from the choice of a task to `record_evidence`, with the
`prepare_context` of `production_entry.py`.  The key of the evidence names the task, and the key of
its execution record the task and the job; what is recorded is the candidate list of the moment.

* `SupervisorDb`   the execution loop, with the execution and evidence rows;
* `SelectionPass`  a pass, in a transaction of its own;
* `SelectionStep`  anything that the execution loop does, or a pass.
-/

namespace LifeAI

/-- a row of `intelligence_executions`, as `prepare_context` records it -/
structure SelectionExecution where
  ownerId : OwnerId
  idempotencyKey : String
  taskId : TaskId
  jobId : JobId
  deriving DecidableEq

structure SelectionPayload where
  candidateTaskIds : List TaskId
  selectedTaskId : TaskId
  selectionReason : String
  expectedContribution : String
  deriving DecidableEq

/-- a row of `intelligence_evidence`, as `run_supervisor` records it -/
structure SelectionEvidence where
  ownerId : OwnerId
  executionId : Nat
  idempotencyKey : String
  evidenceKind : String := "supervisor_selection"
  payload : SelectionPayload
  sourceType : String := "mainai_goal"
  sourceRef : GoalId
  reviewKind : String := "deterministic_tool"
  deterministic : Bool := true
  deriving DecidableEq

structure SupervisorDb where
  sys : Sys := {}
  executions : List SelectionExecution := []
  evidence : List SelectionEvidence := []

inductive PassErr where
  | supervisor (e : SupervisorError)
  | task (e : Err)
  /-- what else `prepare_context` and `bind_execution_context` raise -/
  | refused (reason : String)
  /-- `IdempotencyConflict`, with the fields that differ -/
  | idempotencyConflict (fields : List String)
  deriving DecidableEq

abbrev PassTx (α : Type) := Tx SupervisorDb PassErr α

/-- what a pass meets -/
structure SelectionPass where
  env : SupervisorEnv
  dispatch : Env
  scope : SupervisorScope
  bindings : List WorkBinding
  worker : String
  leaseSeconds : Nat
  /-- the refusal of a check of authority, of the goal lease or of the context -/
  refusal : Option String := none
  /-- the caller commits a pass that returns -/
  commits : Bool := true

/-- the task that a pass has chosen -/
structure Choice where
  taskId : TaskId
  payload : SelectionPayload
  deriving DecidableEq

/-- the task, with the job that will run it -/
structure Selection extends Choice where
  ownerId : OwnerId
  goalId : GoalId
  jobId : JobId
  deriving DecidableEq

namespace SelectionPass

/-- the choice of a pass, if the run does not end before it -/
def choose (p : SelectionPass) (db : Db) : Except SupervisorError (Option Choice) := do
  match ← validateScope p.env db p.scope with
  | some _ => return none
  | none =>
    let as := (← discoverCandidates p.env db p.scope p.bindings).map (·.deferredBy p.env.deferred)
    match selectCandidate as with
    | (some a, _, reason) => return some {
        taskId := a.taskId
        payload := {
          candidateTaskIds := as.map (·.taskId)
          selectedTaskId := a.taskId
          selectionReason := reason
          expectedContribution := a.expectedContribution } }
    | (none, _, _) => return none

/-- a function on the tables of the execution loop -/
def onTables {α : Type} (m : Tx Db Err α) : PassTx α :=
  Tx.mapErr .task (Tx.zoom (fun db => db.sys.db) (fun db d => { db with sys := { db.sys with db := d } }) m)

/-- a ready task is dispatched, a running one has its job -/
def jobOf (p : SelectionPass) (i : TaskId) : PassTx JobId := do
  let t ← onTables (Tx.flush fun db => (db.lockTask i).map (·, db))
  if t.status = .ready then onTables (dispatchReadyTask p.dispatch i)
  else onTables (Tx.flush fun db =>
    match t.mainaiJobId with
    | some j =>
      if db.jobs[j]?.any (·.ownerId = p.scope.ownerId) then .ok (j, db) else .error .noResultFound
    | none => .error .noResultFound)

/-- the claim of the job: a queued one is claimed, a running one has to be the worker's own -/
def claimJob (p : SelectionPass) (j : JobId) (db : SupervisorDb) :
    Except PassErr (Unit × SupervisorDb) :=
  match claimSpecificMainaiJob p.env.now db.sys.db.jobs j p.worker p.leaseSeconds with
  | .error e => .error (.task e)
  | .ok (some _, jobs) =>
    .ok ((), { db with sys := { db.sys with db := { db.sys.db with jobs } } })
  | .ok (none, _) =>
    if db.sys.db.jobs[j]?.any fun r => r.status = .running ∧ r.lockedBy = some p.worker ∧
        r.leaseExpiresAt.any (p.env.now < ·) then .ok ((), db)
    else .error (.supervisor ⟨"could not claim mainai_jobs lease for job " ++ toString j ++
      ": not queued, and not a still-valid resume of this same worker's own earlier claim"⟩)

end SelectionPass

/-! ## records -/

/-- `f"authorized-supervisor-execution:{task.id}:{job.id}"` -/
def executionKey (i : TaskId) (j : JobId) : String :=
  "authorized-supervisor-execution:" ++ (Nat.repr i ++ ":" ++ Nat.repr j)

/-- `f"supervisor-select:{task.id}"` -/
def selectKey (i : TaskId) : String := "supervisor-select:" ++ Nat.repr i

namespace Selection

def execution (x : Selection) : SelectionExecution where
  ownerId := x.ownerId
  idempotencyKey := executionKey x.taskId x.jobId
  taskId := x.taskId
  jobId := x.jobId

def evidence (x : Selection) (executionId : Nat) : SelectionEvidence where
  ownerId := x.ownerId
  executionId := executionId
  idempotencyKey := selectKey x.taskId
  payload := x.payload
  sourceRef := x.goalId

end Selection

def SelectionExecution.key (x : SelectionExecution) : OwnerId × String :=
  (x.ownerId, x.idempotencyKey)

def SelectionEvidence.key (x : SelectionEvidence) : OwnerId × Nat × String :=
  (x.ownerId, x.executionId, x.idempotencyKey)

/-- the fields of a list that differ -/
def differing (fields : List (String × Bool)) : List String :=
  (fields.filter (¬ ·.2)).map Prod.fst

/-- `_same_or_conflict` of an execution -/
def SelectionExecution.conflict (existing values : SelectionExecution) : Option PassErr :=
  match differing [("job_id", existing.jobId = values.jobId),
      ("task_id", existing.taskId = values.taskId)] with
  | [] => none
  | fields => some (.idempotencyConflict fields)

/-- `_same_or_conflict` of a selection -/
def SelectionEvidence.conflict (existing values : SelectionEvidence) : Option PassErr :=
  match differing [("deterministic", existing.deterministic = values.deterministic),
      ("evidence_kind", existing.evidenceKind = values.evidenceKind),
      ("payload", existing.payload = values.payload),
      ("review_kind", existing.reviewKind = values.reviewKind),
      ("source_ref", existing.sourceRef = values.sourceRef),
      ("source_type", existing.sourceType = values.sourceType)] with
  | [] => none
  | fields => some (.idempotencyConflict fields)

/-- `record_execution` of `prepare_context` -/
def recordSelectionExecution (x : Selection) (db : SupervisorDb) :
    Except PassErr (Nat × SupervisorDb) :=
  (Keyed.record SelectionExecution.key SelectionExecution.conflict (fun _ => none)
    db.executions x.execution).map fun r => (r.1, { db with executions := r.2 })

/-- `record_evidence` of `run_supervisor` -/
def recordSelectionEvidence (x : Selection) (executionId : Nat) (db : SupervisorDb) :
    Except PassErr (Nat × SupervisorDb) :=
  (Keyed.record SelectionEvidence.key SelectionEvidence.conflict (fun _ => none)
    db.evidence (x.evidence executionId)).map fun r => (r.1, { db with evidence := r.2 })

/-! ## a pass -/

namespace SelectionPass

/-- a pass up to its records; a pass that chooses no task ends the run, and may close the goal -/
def prepare (p : SelectionPass) : PassTx (Option Selection) := do
  let choice ← Tx.flush fun db =>
    match p.choose db.sys.db with
    | .error e => .error (.supervisor e)
    | .ok (some c) => .ok (some c, db)
    | .ok none =>
      match supervisorPass p.env db.sys.db p.scope p.bindings with
      | .error e => .error (.supervisor e)
      | .ok (_, d) => .ok (none, { db with sys := { db.sys with db := d } })
  match choice with
  | none => return none
  | some c =>
    let j ← p.jobOf c.taskId
    match p.refusal with
    | some reason => Tx.raise (.refused reason)
    | none =>
      Tx.flush (p.claimJob j)
      return some { c with ownerId := p.scope.ownerId, goalId := p.scope.goalId, jobId := j }

/-- the records of a selection -/
def note (x : Selection) : PassTx Unit := do
  let e ← Tx.flush (recordSelectionExecution x)
  let _ ← Tx.flush (recordSelectionEvidence x e)

def run (p : SelectionPass) : PassTx (Option Selection) := do
  let x ← p.prepare
  match x with
  | none => return none
  | some x =>
    note x
    return some x

end SelectionPass

/-! ## the system -/

inductive SelectionStep where
  /-- tasks are inserted, completed, parked, ... -/
  | op (o : Op)
  | pass (p : SelectionPass)

def SelectionStep.step (db : SupervisorDb) : SelectionStep → SupervisorDb
  | .op o => { db with sys := o.step db.sys }
  | .pass p =>
    let r := p.run (Tx.opened db)
    if p.commits then Tx.settle r else r.2.durable

end LifeAI
