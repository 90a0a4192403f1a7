import LifeAI.Tasks.Dispatch

/-!
# Cancelling a task

`cancelTask` ends a task that nothing executes at once, resolves the CI wait of a waiting one,
and only asks the job of a running one.  After a cancellation the dependents are `blocked` by
`recomputeTaskReadiness` and `cascade` cancels them, pass after pass.  A pass reads the statuses
as they were flushed before it (the session does not autoflush), and `fuel` bounds the number of
passes.
-/

namespace LifeAI

/-! ## the cascade -/

/-- some dependency of the task is cancelled -/
def Db.hasCancelledDep (db : Db) (i : TaskId) : Bool :=
  (db.depIds i).any fun d => db.tasks[d]?.any fun t => t.status = .cancelled

/-- the row is one that a pass cancels -/
def Db.doomedRow (db : Db) (g : GoalId) (i : TaskId) (t : Task) : Bool :=
  t.goalId = g ∧ t.status = .blocked ∧ db.hasCancelledDep i

/-- the blocked tasks of the goal with a cancelled dependency -/
def Db.doomed (db : Db) (g : GoalId) : List TaskId :=
  (List.range db.tasks.length).filter fun i => db.tasks[i]?.any (db.doomedRow g i)

/-- `reason or "Dependency cancelled."` -/
def cascadeReason (reason : String) : String :=
  if reason = "" then "Dependency cancelled." else reason

def Task.cascaded (now : Time) (reason : String) (t : Task) : Task :=
  { t with
    status := .cancelled
    completedAt := some now
    nextRetryAt := none
    blockerReason := some (cascadeReason reason) }

/-- one task of a pass -/
def cascadeTask (now : Time) (reason : String) (db : Db) (i : TaskId) : Except Err Db := do
  let t ← db.lockTask i
  let db ← db.setTask i (t.cascaded now reason)
  return db.addEvents [{ task := i, kind := .cancelled, reason := some (cascadeReason reason) }]

/-- `_cascade_cancel_dependents_blocked_by_cancelled` -/
def cascade (now : Time) (reason : String) (g : GoalId) : Nat → Db → Except Err Db
  | 0, db => .ok db
  | fuel + 1, db =>
    if db.doomed g = [] then .ok db
    else do
      let db ← (db.doomed g).foldlM (cascadeTask now reason) db
      cascade now reason g fuel (recomputeTaskReadiness db g)

/-! ## `cancel_task` -/

def Task.cancelled (now : Time) (reason : String) (t : Task) : Task :=
  { t with
    status := .cancelled
    completedAt := some now
    nextRetryAt := none
    blockerReason := if reason = "" then t.blockerReason else some reason }

/-- the end of both immediate paths -/
def cancelNow (now : Time) (reason : String) (db : Db) (i : TaskId) (t : Task) :
    Except Err Db := do
  let db ← db.setTask i (t.cancelled now reason)
  let db := db.addEvents [{ task := i, kind := .cancelled, reason := some reason }]
  cascade now reason t.goalId (db.tasks.length + 1) (recomputeTaskReadiness db t.goalId)

/-- the wait of a task that is still pending -/
def Wait.pendingOf (i : TaskId) (w : Wait) : Bool := w.taskId = i ∧ w.status = .pending

/-- `cancel_ci_wait`, on the pending wait of the task -/
def Wait.cancelOf (i : TaskId) (w : Wait) : Wait :=
  if w.pendingOf i then { w with status := .cancelled } else w

/-- the wait of a task whose cancellation ends it, if there is one -/
def cancelCiWait (db : Db) (i : TaskId) : Except Err Db :=
  match db.waits.countP (Wait.pendingOf i) with
  | 0 => .ok db
  | 1 => .ok { db with waits := db.waits.map (Wait.cancelOf i) }
  | _ => .error .multipleResultsFound

/-- the cooperative path: the task stays `running` until its job stops -/
def requestTaskCancel (db : Db) (i : TaskId) (t : Task) (byFounder : Bool) :
    Except Err Db := do
  match t.mainaiJobId with
  | none => .error (.taskNotCancellable i)
  | some j =>
    if ¬ byFounder then .error (.taskNotCancellable i)
    else match db.jobs[j]? with
      | none => .error (.jobNotFound j)
      | some r =>
        let jobs ← requestCancel db.jobs j r
        return Db.addEvents { db with jobs } [{ task := i, kind := .cancelRequested }]

/-- `cancel_task`; `byFounder` says that `cancelled_by_id` is given -/
def cancelTask (now : Time) (db : Db) (i : TaskId) (byFounder : Bool) (reason : String) :
    Except Err Db := do
  let t ← db.lockTask i
  if t.status = .running then requestTaskCancel db i t byFounder
  else if t.status = .waitingCi then
    let db ← cancelCiWait db i
    cancelNow now reason db i t
  else if ¬ t.status.cancellable then .error (.taskNotCancellable i)
  else cancelNow now reason db i t

end LifeAI
