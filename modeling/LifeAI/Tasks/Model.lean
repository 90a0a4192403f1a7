import LifeAI.Jobs.Model
import LifeAI.Spend.Model

/-!
# Goals, plans, tasks and their tables

The rows of the execution loop and the tables they stand in (`Db`).

* `Task.checks`   the CHECK constraints of migration 0032 on `mainai_tasks`;
* `Db.setTask`    the flush of one task row that the session has just locked and re-read;
* `Db.flushTask`  the flush of a task object that was loaded earlier (`loaded`);
* `Db.addEvents`  inserts into the append-only event history.
-/

namespace LifeAI

abbrev RecoveryId := Nat

inductive TaskStatus where
  | pending | ready | running | waitingExternal | waitingCi | blocked | retryableFailed
  | failed | completed | cancelled
  deriving DecidableEq

namespace TaskStatus

def value : TaskStatus → String
  | pending => "pending"
  | ready => "ready"
  | running => "running"
  | waitingExternal => "waiting_external"
  | waitingCi => "waiting_ci"
  | blocked => "blocked"
  | retryableFailed => "retryable_failed"
  | failed => "failed"
  | completed => "completed"
  | cancelled => "cancelled"

/-- `TERMINAL_MAINAI_TASK_STATUSES` -/
def terminal (s : TaskStatus) : Bool := s = completed ∨ s = failed ∨ s = cancelled
/-- `RETRYABLE_MAINAI_TASK_STATUSES` -/
def retryable (s : TaskStatus) : Bool := s = retryableFailed
/-- `_DEPENDENCY_FAILURE_STATUSES`, `_NEVER_COMPLETES_STATUSES` -/
def neverCompletes (s : TaskStatus) : Bool := s = failed ∨ s = cancelled
/-- `_CANCELLABLE_MAINAI_TASK_STATUSES` -/
def cancellable (s : TaskStatus) : Bool :=
  s = pending ∨ s = ready ∨ s = blocked ∨ s = retryableFailed ∨ s = waitingExternal
/-- `_SAFE_TO_ADD_PREREQUISITE_STATUSES` -/
def safeToAddPrerequisite (s : TaskStatus) : Bool := s = pending ∨ s = blocked

end TaskStatus

inductive GoalStatus where
  | pending | planning | running | waiting | blocked | failed | completed | cancelled
  deriving DecidableEq

/-- `TERMINAL_MAINAI_GOAL_STATUSES` -/
def GoalStatus.terminal (s : GoalStatus) : Bool := s = .failed ∨ s = .completed ∨ s = .cancelled

inductive PlanStatus where
  | draft | active | superseded
  deriving DecidableEq

inductive RiskLevel where
  | low | medium | high
  deriving DecidableEq

/-- a row of `mainai_goals` -/
structure Goal where
  ownerId : OwnerId
  originalInstruction : String := ""
  approvalPolicy : String := "standard_repo_work"
  status : GoalStatus := .pending
  currentPlanVersion : Option Nat := none
  startedAt : Option Time := none
  completedAt : Option Time := none
  deriving DecidableEq

/-- a row of `mainai_plans` -/
structure Plan where
  goalId : GoalId
  ownerId : OwnerId
  version : Nat
  status : PlanStatus
  deriving DecidableEq

/-- a row of `mainai_tasks`; its id is its position in the table -/
structure Task where
  goalId : GoalId
  planId : PlanId
  ownerId : OwnerId
  description : String
  taskType : String
  status : TaskStatus := .pending
  priority : Int := 0
  riskLevel : RiskLevel := .low
  approvalRequired : Bool := false
  attempts : Int := 0
  maxAttempts : Int
  mainaiJobId : Option JobId := none
  blockerReason : Option String := none
  nextRetryAt : Option Time := none
  startedAt : Option Time := none
  completedAt : Option Time := none
  deriving DecidableEq

/-- a row of `mainai_task_dependencies` -/
structure Dep where
  task : TaskId
  dependsOn : TaskId
  deriving DecidableEq

inductive TaskEventKind where
  | created | ready | dispatched | progressUpdated | verificationPassed | verificationFailed
  | blocked | replanned | retryScheduled | approvalGranted | completed | failed | cancelled
  | waitStarted | waitSatisfied | waitFailed | waitTimedOut | cancelRequested | cancelling
  deriving DecidableEq

/-- what `insert_plan_tasks` keeps of a request for its idempotency -/
structure InsertionRecord (Payload : Type) where
  idempotencyKey : String
  semanticHash : Payload
  taskId : TaskId
  taskIndex : Nat
  deriving DecidableEq

/-- A new task of an insertion may depend on a sibling of the same request or on an existing
task of the plan. -/
inductive DepRef where
  | sibling (index : Int)
  | existing (task : TaskId)
  deriving DecidableEq

/-- an entry of `verification_plan`; `kind` is absent in a malformed entry, and `rest` are the
other keys, in order, with their values as JSON -/
structure VerificationStep where
  kind : Option String
  target : Option String := none
  rest : List (String × String) := []
  deriving DecidableEq

structure InsertedTaskSpec where
  description : String
  taskType : String
  dependsOn : List DepRef := []
  riskLevel : RiskLevel := .low
  approvalRequired : Bool := false
  verificationPlan : List VerificationStep := []
  priority : Int := 0
  maxAttempts : Int := 3
  deriving DecidableEq

structure ExistingTaskDependencyEdge where
  existingTaskId : TaskId
  dependsOnNewTaskIndex : Int
  deriving DecidableEq

/-- the content that `_semantic_hash` hashes -/
structure InsertionContent where
  authorityKind : String
  sourceType : String
  sourceRef : String
  tasks : List InsertedTaskSpec
  existingTaskDependencies : List ExistingTaskDependencyEdge
  deriving DecidableEq

/-- a row of `mainai_task_events`, with the parts of `detail` that are read back -/
structure TaskEvent where
  task : TaskId
  kind : TaskEventKind
  reason : Option String := none
  mainaiJobId : Option JobId := none
  planVersion : Option Nat := none
  insertion : Option (InsertionRecord InsertionContent) := none
  deriving DecidableEq

inductive WaitStatus where
  | pending | satisfied | failed | timedOut | cancelled
  deriving DecidableEq

/-- a row of `mainai_task_waits` -/
structure Wait where
  taskId : TaskId
  jobId : JobId
  status : WaitStatus := .pending
  deriving DecidableEq

inductive RecoveryStatus where
  | detected | inspecting | inspected | classified | salvaging | salvaged | takingOver
  | takenOver | blocked | completed
  deriving DecidableEq

inductive RecoveryClassification where
  | nothingDone | checkpointedWork | localUncommittedWork | localCommittedNotPushed
  | pushedNoPr | prExists | verifiedWork | conflicted | unsafeState
  deriving DecidableEq

/-- a row of `mainai_recovery_records` -/
structure Recovery where
  taskId : TaskId
  jobId : JobId
  status : RecoveryStatus
  classification : Option RecoveryClassification
  newJobId : Option JobId := none
  approved : Bool := false
  deriving DecidableEq

structure Db where
  goals : List Goal := []
  plans : List Plan := []
  tasks : List Task := []
  deps : List Dep := []
  events : List TaskEvent := []
  jobs : List Job := []
  waits : List Wait := []
  recoveries : List Recovery := []
  spend : SpendDb := {}
  deriving DecidableEq

/-- migration 0032: attempts within the budget, `completed_at` set exactly in a terminal status -/
def Task.checks (t : Task) : Bool :=
  0 ≤ t.attempts ∧ 0 ≤ t.maxAttempts ∧ t.attempts ≤ t.maxAttempts ∧
    (t.completedAt.isSome ↔ t.status.terminal)

/-- migration 0032: `completed_at` set exactly in a terminal status -/
def Goal.checks (g : Goal) : Bool := g.completedAt.isSome ↔ g.status.terminal

namespace Db

/-- the goal row, as `scalar_one()` returns it -/
def goal (db : Db) (g : GoalId) : Except Err Goal :=
  match db.goals[g]? with
  | none => .error .noResultFound
  | some r => .ok r

/-- `_lock_task`: the row as it is now -/
def lockTask (db : Db) (i : TaskId) : Except Err Task :=
  match db.tasks[i]? with
  | none => .error .noResultFound
  | some t => .ok t

/-- the flush of a row that was locked and re-read in this transaction -/
def setTask (db : Db) (i : TaskId) (t : Task) : Except Err Db :=
  if t.checks then .ok { db with tasks := db.tasks.set i t }
  else .error (.integrityError "ck_mainai_tasks")

/-- the INSERT of a batch of new tasks -/
def insertTasks (db : Db) (ts : List Task) : Except Err Db :=
  if ts.all Task.checks then .ok { db with tasks := db.tasks ++ ts }
  else .error (.integrityError "ck_mainai_tasks")

/-- the INSERT of dependency rows: no self-edge, and the pair is the primary key -/
def insertDeps (db : Db) (ds : List Dep) : Except Err Db :=
  if ¬ ds.all (fun d => d.task ≠ d.dependsOn) then
    .error (.integrityError "ck_mainai_task_dependencies_no_self_edge")
  else if ¬ (db.deps ++ ds).Nodup then
    .error (.integrityError "mainai_task_dependencies_pkey")
  else .ok { db with deps := db.deps ++ ds }

/-- the flush of a goal row that was locked and re-read -/
def setGoal (db : Db) (g : GoalId) (r : Goal) : Except Err Db :=
  if r.checks then .ok { db with goals := db.goals.set g r }
  else .error (.integrityError "ck_mainai_goals")

def addEvents (db : Db) (es : List TaskEvent) : Db := { db with events := db.events ++ es }

@[simp] theorem addEvents_tasks (db : Db) (es : List TaskEvent) :
    (db.addEvents es).tasks = db.tasks := rfl
@[simp] theorem addEvents_deps (db : Db) (es : List TaskEvent) :
    (db.addEvents es).deps = db.deps := rfl
@[simp] theorem addEvents_jobs (db : Db) (es : List TaskEvent) :
    (db.addEvents es).jobs = db.jobs := rfl
@[simp] theorem addEvents_goals (db : Db) (es : List TaskEvent) :
    (db.addEvents es).goals = db.goals := rfl
@[simp] theorem addEvents_plans (db : Db) (es : List TaskEvent) :
    (db.addEvents es).plans = db.plans := rfl
@[simp] theorem addEvents_events (db : Db) (es : List TaskEvent) :
    (db.addEvents es).events = db.events ++ es := rfl

end Db

/-- What a flush writes when the object `loaded` was read earlier, has been changed to `new`,
and the row is now `now`: the changed columns only. -/
def Task.flushed (loaded new now : Task) : Task :=
  { now with
    status := dirty loaded.status new.status now.status
    attempts := dirty loaded.attempts new.attempts now.attempts
    mainaiJobId := dirty loaded.mainaiJobId new.mainaiJobId now.mainaiJobId
    blockerReason := dirty loaded.blockerReason new.blockerReason now.blockerReason
    nextRetryAt := dirty loaded.nextRetryAt new.nextRetryAt now.nextRetryAt
    startedAt := dirty loaded.startedAt new.startedAt now.startedAt
    completedAt := dirty loaded.completedAt new.completedAt now.completedAt }

/-- the flush of an object that was loaded earlier -/
def Db.flushTask (db : Db) (i : TaskId) (loaded new : Task) : Except Err Db := do
  let t ← db.lockTask i
  db.setTask i (Task.flushed loaded new t)

theorem Db.lockTask_ok {db : Db} {i : TaskId} {t : Task} :
    db.lockTask i = .ok t ↔ db.tasks[i]? = some t := by
  unfold lockTask
  cases db.tasks[i]? <;> simp

theorem Db.setTask_ok {db db' : Db} {i : TaskId} {t : Task} :
    db.setTask i t = .ok db' ↔ t.checks ∧ db' = { db with tasks := db.tasks.set i t } := by
  unfold setTask
  by_cases h : t.checks
  · rw [if_pos h]
    simp [h, eq_comm]
  · rw [if_neg h]
    simp [h]

theorem Db.insertTasks_ok {db db' : Db} {ts : List Task} :
    db.insertTasks ts = .ok db' ↔ ts.all Task.checks ∧
      db' = { db with tasks := db.tasks ++ ts } := by
  unfold insertTasks
  by_cases h : ts.all Task.checks
  · rw [if_pos h]
    simp only [h, true_and, Except.ok.injEq]
    exact eq_comm
  · rw [if_neg h]
    simp [h]

theorem Db.insertDeps_ok {db db' : Db} {ds : List Dep} (h : db.insertDeps ds = .ok db') :
    (∀ d ∈ ds, d.task ≠ d.dependsOn) ∧ db' = { db with deps := db.deps ++ ds } := by
  unfold insertDeps at h
  rw [guard_eq_ok, guard_eq_ok] at h
  obtain ⟨h1, -, h2⟩ := h
  exact ⟨by simpa using h1, by simpa using h2.symm⟩

theorem Db.setGoal_ok {db db' : Db} {g : GoalId} {r : Goal} :
    db.setGoal g r = .ok db' ↔ r.checks ∧ db' = { db with goals := db.goals.set g r } := by
  unfold setGoal
  by_cases h : r.checks
  · rw [if_pos h]
    simp [h, eq_comm]
  · rw [if_neg h]
    simp [h]

theorem Db.flushTask_ok {db db' : Db} {i : TaskId} {loaded new : Task} :
    db.flushTask i loaded new = .ok db' ↔ ∃ t, db.tasks[i]? = some t ∧
      (Task.flushed loaded new t).checks ∧
      db' = { db with tasks := db.tasks.set i (Task.flushed loaded new t) } := by
  unfold flushTask
  rw [bind_eq_ok]
  simp only [lockTask_ok, setTask_ok]

theorem Task.checks_iff {t : Task} : t.checks ↔ 0 ≤ t.attempts ∧ 0 ≤ t.maxAttempts ∧
    t.attempts ≤ t.maxAttempts ∧ (t.completedAt.isSome ↔ t.status.terminal) := by
  simp [checks]

/-- a flushed column holds the new value or what the row held -/
theorem Task.flushed_status (loaded new now : Task) :
    (flushed loaded new now).status = new.status ∨
      (flushed loaded new now).status = now.status := by
  unfold flushed dirty
  dsimp only
  split
  · exact .inr rfl
  · exact .inl rfl

end LifeAI
