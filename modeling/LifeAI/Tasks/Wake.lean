import LifeAI.Tasks.Outcome

/-!
# Parks and wakes

A running task is parked as `blocked` when its provider is down or its spend is not authorized,
and when a repair child has to finish first.  The wakes recognise their parks by the reason of
the latest `blocked` or `retry_scheduled` event (`latestBlockOrRetryReason`), the spend wake also
by the text of `blocker_reason`; none of them reads the dependency rows.
-/

namespace LifeAI

def providerSpendParkReason : String := "provider_spend_not_authorized_park"
def waitingProviderBackoffReason : String := "waiting_provider_defer_backoff"
def waitingProviderExhaustedReason : String := "waiting_provider_defer_exhausted"
def providerSpendParkBlocker : String :=
  "provider-assisted planning is not authorized for this scope"
def waitingProviderBlocker : String := "provider planning is unavailable"
def repairParkReason : String := "autonomous_gap_repair_park"
/-- `WAITING_PROVIDER_MAX_BACKOFFS` -/
def waitingProviderMaxBackoffs : Nat := 8

/-! ## recognising a park -/

/-- an event that the wakes look at -/
def TaskEvent.blockOrRetry (i : TaskId) (e : TaskEvent) : Bool :=
  e.task = i ∧ (e.kind = .blocked ∨ e.kind = .retryScheduled)

/-- `_latest_block_or_retry_reason` -/
def Db.latestBlockOrRetryReason (db : Db) (i : TaskId) : Option String :=
  ((db.events.filter (TaskEvent.blockOrRetry i)).getLast?).bind (·.reason)

/-- `is_provider_spend_park` -/
def Db.isProviderSpendPark (db : Db) (i : TaskId) (t : Task) : Bool :=
  t.status = .blocked ∧
    (db.latestBlockOrRetryReason i = some providerSpendParkReason ∨
      t.blockerReason = some providerSpendParkBlocker)

/-- `is_waiting_provider_backoff_park`, without the exhausted ones -/
def Db.isDueBackoffPark (now : Time) (db : Db) (i : TaskId) (t : Task) : Bool :=
  t.status = .blocked ∧ (∃ at_ ∈ t.nextRetryAt, at_ ≤ now) ∧
    db.latestBlockOrRetryReason i = some waitingProviderBackoffReason

/-- `count_waiting_provider_backoffs` -/
def Db.countWaitingProviderBackoffs (db : Db) (i : TaskId) : Nat :=
  db.events.countP fun e =>
    e.task = i ∧ e.kind = .blocked ∧ e.reason = some waitingProviderBackoffReason

/-- `compute_waiting_provider_retry_at`; `delay` is the backoff -/
def computeWaitingProviderRetryAt (now : Time) (delay priorBackoffs : Nat) : Option Time :=
  if priorBackoffs ≥ waitingProviderMaxBackoffs then none else some (now + delay)

/-! ## parks of a running task -/

/-- `_release_midflight_job_and_set_task_status` with status `blocked`; a lost lease leaves the
task alone -/
def releaseMidflight (now : Time) (db : Db) (w : Runner) (i : TaskId)
    (eventReason blockerReason : String) : Except Err Db :=
  match markFailedFlush now db.jobs w.job w.worker w.generation .capabilityUnavailable with
  | .error (.jobLeaseLost _ _ _) => .ok db
  | .error e => .error e
  | .ok jobs => do
    let t ← db.lockTask i
    if t.status ≠ .running then .ok { db with jobs }
    else
      let db ← Db.setTask { db with jobs } i
        { t with status := .blocked, nextRetryAt := none, blockerReason := some blockerReason }
      return db.addEvents [{ task := i, kind := .blocked, reason := some eventReason }]

/-- `_park_provider_spend_defer_midflight` -/
def parkProviderSpendDefer (now : Time) (db : Db) (w : Runner) : Except Err Db := do
  let i ← db.runTask w
  releaseMidflight now db w i providerSpendParkReason providerSpendParkBlocker

/-- `_release_provider_wait_midflight` -/
def releaseProviderWait (now : Time) (db : Db) (w : Runner) (delay : Nat) : Except Err Db := do
  let i ← db.runTask w
  let retryAt := computeWaitingProviderRetryAt now delay (db.countWaitingProviderBackoffs i)
  let reason :=
    if retryAt = none then waitingProviderExhaustedReason else waitingProviderBackoffReason
  let db ← releaseMidflight now db w i reason waitingProviderBlocker
  let t ← db.lockTask i
  if t.status = .blocked then db.setTask i { t with nextRetryAt := retryAt } else .ok db

/-! ## wakes -/

/-- one woken task -/
def wakeTask (reason : String) (db : Db) (i : TaskId) : Except Err Db := do
  let t ← db.lockTask i
  let db ← db.setTask i { t with status := .ready, blockerReason := none, nextRetryAt := none }
  return db.addEvents [{ task := i, kind := .retryScheduled, reason := some reason }]

/-- wakes the task if it is parked as `parked` says -/
def wakeIf (parked : Db → TaskId → Task → Bool) (reason : String) (db : Db) (i : TaskId) :
    Except Err Db := do
  let t ← db.lockTask i
  if parked db i t then wakeTask reason db i else .ok db

/-- the active, unexpired grant that the spend wake requires -/
def Grant.wakes (now : Time) (owner : OwnerId) (g : GoalId) (envelope : EnvelopeId)
    (r : Grant) : Bool :=
  r.activeFor owner g ∧ r.executionEnvelopeId = envelope ∧ ¬ r.pastExpiry now

/-- the blocked tasks of an owner's goal -/
def Db.blockedTasks (db : Db) (owner : OwnerId) (g : GoalId) : List TaskId :=
  (List.range db.tasks.length).filter fun i =>
    db.tasks[i]?.any fun t => t.ownerId = owner ∧ t.goalId = g ∧ t.status = .blocked

/-- `wake_tasks_blocked_for_provider_spend` -/
def wakeTasksBlockedForProviderSpend (now : Time) (db : Db) (owner : OwnerId) (g : GoalId)
    (envelope : EnvelopeId) : Except Err Db :=
  if ¬ db.spend.grants.any (Grant.wakes now owner g envelope) then .ok db
  else (db.blockedTasks owner g).foldlM
    (wakeIf Db.isProviderSpendPark "provider_spend_grant_wake") db

/-- the blocked tasks whose clock has run out, the longest overdue first -/
def Db.dueTasks (now : Time) (db : Db) : List TaskId :=
  let due := (List.range db.tasks.length).filterMap fun i =>
    (db.tasks[i]?).bind fun t =>
      if t.status = .blocked then (t.nextRetryAt.filter (· ≤ now)).map fun at_ => (at_, i)
      else none
  (due.insertionSort fun a b => a.1 ≤ b.1).map Prod.snd

/-- `wake_due_waiting_provider_backoff_tasks` -/
def wakeDueWaitingProviderBackoffTasks (now : Time) (db : Db) (limit : Nat) : Except Err Db :=
  ((db.dueTasks now).take limit).foldlM
    (wakeIf (Db.isDueBackoffPark now) "waiting_provider_backoff_wake") db

/-! ## repair children -/

/-- `park_source_task_for_repair` -/
def parkSourceTaskForRepair (db : Db) (i child : TaskId) (reason : String) : Except Err Db := do
  let t ← db.lockTask i
  if t.status.terminal then .ok db
  else
    let db ← db.setTask i
      { t with
        status := .blocked
        blockerReason :=
          some (reason ++ "; waiting on repair child " ++ toString child) }
    return db.addEvents [{ task := i, kind := .blocked, reason := some repairParkReason }]

/-- the statuses that `resume_source_after_repair` takes back to `ready` -/
def TaskStatus.resumable (s : TaskStatus) : Bool :=
  s = .blocked ∨ s = .retryableFailed ∨ s = .pending ∨ s = .running

/-- `resume_source_after_repair` on the source task of the finished child -/
def resumeSourceAfterRepair (db : Db) (i : TaskId) : Except Err Db := do
  let t ← db.lockTask i
  if ¬ t.status.resumable then .ok db
  else wakeTask "autonomous_gap_repair_complete" db i

end LifeAI
