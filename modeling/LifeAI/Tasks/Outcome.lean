import LifeAI.Tasks.Cancel

/-!
# How a task attempt ends

* `recordFinalReport`    the roll-up of a goal from the statuses of its tasks;
* `finalizeTaskOutcome`  the completion gate, on the copy `loaded` of the task that the session
                         holds: a flush writes the columns in which the copy was changed;
* `finalizeCancelledTask` the end of a cooperative cancellation;
* `completeRun`, `failRun`, `cancelRun`, `failUnavailable`  the ends of `run_task_execution_job`
                         and of its wrapper, each with the guarded write of the job;
* `enterCiWait`, `resumeWaitingCiTask`  the two ends of a CI wait.
-/

namespace LifeAI

/-! ## the goal -/

/-- the statuses of all tasks that the goal ever had -/
def Db.taskStatuses (db : Db) (g : GoalId) : List TaskStatus :=
  (db.tasks.filter (·.goalId = g)).map (·.status)

/-- the status that `record_final_report` gives to an unfinished goal -/
def rolledUp (ss : List TaskStatus) (s : GoalStatus) : GoalStatus :=
  if ss ≠ [] ∧ ss.all TaskStatus.terminal then
    if ss.all (· = .completed) then .completed else .failed
  else
    let waiting : Bool := ss.any (fun s => s = .waitingCi ∨ s = .waitingExternal) ∧
      ¬ ss.any (fun s => s = .running ∨ s = .ready)
    if waiting ∧ s = .running then .waiting
    else if ¬ waiting ∧ s = .waiting then .running
    else s

/-- `record_final_report`, without the text of the report -/
def recordFinalReport (now : Time) (db : Db) (g : GoalId) : Except Err Db := do
  let goal ← db.goal g
  if (db.activePlans g).length > 1 then .error .multipleResultsFound
  else if goal.status.terminal then .ok db
  else
    let status := rolledUp (db.taskStatuses g) goal.status
    db.setGoal g
      { goal with
        status
        completedAt := if status.terminal then some now else goal.completedAt }

/-- the status that the roll-up gives to an unfinished goal -/
def Db.rolledStatus (db : Db) (g : GoalId) (goal : Goal) : GoalStatus :=
  rolledUp (db.taskStatuses g) goal.status

/-- the goal row that the roll-up writes -/
def Db.rolledGoal (now : Time) (db : Db) (g : GoalId) (goal : Goal) : Goal :=
  { goal with
    status := db.rolledStatus g goal
    completedAt := if (db.rolledStatus g goal).terminal then some now else goal.completedAt }

theorem recordFinalReport_ok {now : Time} {db db' : Db} {g : GoalId} :
    recordFinalReport now db g = .ok db' ↔ ∃ goal, db.goals[g]? = some goal ∧
      (db.activePlans g).length ≤ 1 ∧
      ((goal.status.terminal ∧ db' = db) ∨
        (¬ goal.status.terminal ∧ (db.rolledGoal now g goal).checks ∧
          db' = { db with goals := db.goals.set g (db.rolledGoal now g goal) })) := by
  unfold recordFinalReport Db.goal
  cases db.goals[g]? with
  | none => simp [bind, Except.bind]
  | some goal =>
    simp only [bind_eq_ok, Except.ok.injEq, exists_eq_left', guard_eq_ok, Option.some.injEq,
      not_lt]
    refine and_congr_right fun _ => ?_
    by_cases ht : goal.status.terminal
    · simp only [ht, if_true, Except.ok.injEq, true_and, not_true_eq_false, false_and, or_false]
      exact eq_comm
    · simp only [ht, if_false, false_and, false_or, not_false_eq_true, true_and, Db.setGoal_ok,
        Bool.false_eq_true]
      exact Iff.rfl

/-- the roll-up writes the goal row at most -/
theorem recordFinalReport_tables {now : Time} {db db' : Db} {g : GoalId}
    (h : recordFinalReport now db g = .ok db') : ∃ goals, db' = { db with goals } := by
  obtain ⟨goal, -, -, ⟨-, rfl⟩ | ⟨-, -, rfl⟩⟩ := recordFinalReport_ok.1 h
  · exact ⟨_, rfl⟩
  · exact ⟨_, rfl⟩

/-! ## the completion gate -/

/-- `_rollup_goal_after_task_boundary`, after the flush of a task that ended in status `s` -/
def rollupGoalAfterTaskBoundary (now : Time) (db : Db) (t : Task) (s : TaskStatus) :
    Except Err Db :=
  let db := recomputeTaskReadiness db t.goalId
  if s = .failed ∨ s = .retryableFailed then .ok db
  else if (db.goals[t.goalId]?.any fun g => g.ownerId = t.ownerId) then
    recordFinalReport now db t.goalId
  else .ok db

def Task.finishedCancelled (now : Time) (t : Task) : Task :=
  { t with status := .cancelled, completedAt := some now, nextRetryAt := none }

def Task.finishedCompleted (now : Time) (t : Task) : Task :=
  { t with status := .completed, completedAt := some now, nextRetryAt := none }

/-- a failed attempt; `retryIn` is the backoff -/
def Task.finishedFailed (now : Time) (retryIn : Nat) (t : Task) : Task :=
  if t.attempts < t.maxAttempts then
    { t with status := .retryableFailed, nextRetryAt := some (now + retryIn) }
  else { t with status := .failed, completedAt := some now, nextRetryAt := none }

/-- `_finalize_cancelled_task` -/
def finalizeCancelledTask (now : Time) (db : Db) (i : TaskId) (loaded : Task) (reason : String) :
    Except Err Db := do
  let db := db.addEvents [{ task := i, kind := .cancelling, reason := some reason },
    { task := i, kind := .cancelled, reason := some reason }]
  let db ← db.flushTask i loaded (loaded.finishedCancelled now)
  rollupGoalAfterTaskBoundary now db loaded .cancelled

/-- the founder asked the job that the copy names to stop -/
def Db.cancelRequested (db : Db) (t : Task) : Bool :=
  t.mainaiJobId.any fun j => db.jobs[j]?.any (·.cancelRequested)

/-- `_finalize_task_outcome` with `passed=True` -/
def finalizePassed (now : Time) (db : Db) (i : TaskId) (loaded : Task) : Except Err Db := do
  let db := db.addEvents [{ task := i, kind := .verificationPassed }]
  if loaded.status = .cancelled then .ok db
  else if db.cancelRequested loaded then
    finalizeCancelledTask now db i loaded "cancel_requested_beats_success_finalize"
  else
    let db := db.addEvents [{ task := i, kind := .completed }]
    let db ← db.flushTask i loaded (loaded.finishedCompleted now)
    rollupGoalAfterTaskBoundary now db loaded .completed

/-- `_finalize_task_outcome` with `passed=False` -/
def finalizeFailed (now : Time) (db : Db) (i : TaskId) (loaded : Task) (retryIn : Nat) :
    Except Err Db := do
  let db := db.addEvents [{ task := i, kind := .verificationFailed },
    { task := i, kind := .failed }]
  let new := loaded.finishedFailed now retryIn
  let db ← db.flushTask i loaded new
  rollupGoalAfterTaskBoundary now db loaded new.status

/-- `_finalize_task_outcome` -/
def finalizeTaskOutcome (now : Time) (db : Db) (i : TaskId) (loaded : Task) (passed : Bool)
    (retryIn : Nat) : Except Err Db :=
  if passed then finalizePassed now db i loaded else finalizeFailed now db i loaded retryIn

/-! ## the ends of a run -/

/-- the worker that runs a job, with its claim -/
structure Runner where
  job : JobId
  worker : String
  generation : Nat
  deriving DecidableEq

/-- the job and the task that a run is about -/
def Db.runTask (db : Db) (w : Runner) : Except Err TaskId :=
  match db.jobs[w.job]? with
  | none => .error (.jobNotFound w.job)
  | some r =>
    if r.jobType ≠ .taskExecution then .error .valueError
    else match r.mainaiTask with
      | none => .error .valueError
      | some i => .ok i

/-- the last write of a run, to its job -/
def Db.endJob (db : Db) (jobs : Except Err (List Job)) : Except Err Db := do
  let jobs ← jobs
  return { db with jobs }

/-- the verified end of a run: `loaded` is the copy that the session read when the run began -/
def completeRun (now : Time) (db : Db) (w : Runner) (loaded : Task) (passed : Bool)
    (retryIn : Nat) : Except Err Db := do
  let i ← db.runTask w
  let db ← finalizeTaskOutcome now db i loaded passed retryIn
  db.endJob (markCompleted now db.jobs w.job w.worker w.generation
    (some "Task attempt completed; see task status for the verified outcome."))

/-- the end of a run by an execution error: the session rolls back and reads the task again -/
def failRun (now : Time) (db : Db) (w : Runner) (retryIn : Nat) : Except Err Db := do
  let i ← db.runTask w
  let t ← db.lockTask i
  let db ← finalizeFailed now db i t retryIn
  db.endJob (markFailed now db.jobs w.job w.worker w.generation .unexpected)

/-- the cooperative end of a run: the session rolls back and reads the task again -/
def cancelRun (now : Time) (db : Db) (w : Runner) : Except Err Db := do
  let i ← db.runTask w
  let t ← db.lockTask i
  let db ← finalizeCancelledTask now db i t "cooperative_cancel"
  db.endJob (markCancelled now db.jobs w.job w.worker w.generation)

/-- the second transaction of a run whose capability has gone: the job is failed already -/
def failUnavailable (now : Time) (db : Db) (w : Runner) (retryIn : Nat) : Except Err Db := do
  let i ← db.runTask w
  let t ← db.lockTask i
  if t.status = .running then finalizeFailed now db i t retryIn else .ok db

/-! ## CI waits -/

/-- `start_ci_wait` on the copy of the session, under the lease; the job ends afterwards -/
def enterCiWait (now : Time) (db : Db) (w : Runner) (leaseSeconds : Nat) (loaded : Task) :
    Except Err Db := do
  let i ← db.runTask w
  let jobs ← renewMainaiJobLease now db.jobs w.job w.worker w.generation leaseSeconds
  if db.waits.any (·.jobId = w.job) then .error (.integrityError "uq_mainai_task_waits_job_id")
  else
    let db := Db.addEvents { db with jobs, waits := db.waits ++ [{ taskId := i, jobId := w.job }] }
      [{ task := i, kind := .waitStarted }]
    db.flushTask i loaded { loaded with status := .waitingCi }

/-- `resume_waiting_ci_task`; `polled` is what `poll_ci_wait` makes of a pending wait -/
def resumeWaitingCiTask (now : Time) (db : Db) (w : Nat) (polled : WaitStatus) (retryIn : Nat) :
    Except Err Db := do
  match db.waits[w]? with
  | none => .error .noResultFound
  | some wait =>
    let t ← db.lockTask wait.taskId
    if t.status ≠ .waitingCi then .ok db
    else
      let s := if wait.status = .pending then polled else wait.status
      let db := { db with waits := db.waits.set w { wait with status := s } }
      match s with
      | .pending => .ok db
      | .satisfied =>
        finalizePassed now (db.addEvents [{ task := wait.taskId, kind := .waitSatisfied }])
          wait.taskId t
      | .timedOut =>
        finalizeFailed now (db.addEvents [{ task := wait.taskId, kind := .waitTimedOut }])
          wait.taskId t retryIn
      | .failed | .cancelled =>
        finalizeFailed now (db.addEvents [{ task := wait.taskId, kind := .waitFailed }])
          wait.taskId t retryIn

end LifeAI
