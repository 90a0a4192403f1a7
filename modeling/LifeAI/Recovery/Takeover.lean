import LifeAI.Jobs.Fence
import LifeAI.Tasks.Dispatch

/-!
# Takeover of a dead job

`executeTakeover` resets the task of a dead job, dispatches it again (`dispatchReadyTask`, which
commits), salvages the dead attempt, and only then fences the dead job.  What the tables do not
decide is an input of the model (`TakeoverEnv`): whether the goal was ever governed by an
envelope, at which step an exception is raised, and what the old worker writes before the fence.
-/

namespace LifeAI

namespace RecoveryClassification

/-- `AUTO_SALVAGEABLE_CLASSIFICATIONS` -/
def autoSalvageable (c : RecoveryClassification) : Bool := c ≠ conflicted ∧ c ≠ unsafeState

/-- `RECOVERY_APPROVAL_POLICIES["standard_recovery"]` -/
def requiresApproval (c : RecoveryClassification) : Bool :=
  c = pushedNoPr ∨ c = prExists ∨ c = conflicted ∨ c = unsafeState

end RecoveryClassification

/-- where an exception may come from outside the modelled tables -/
inductive TakeoverStep where
  | start | dispatch | salvage | fence | finish
  deriving DecidableEq

/-- a guarded write that the old worker makes while the takeover is under way -/
structure OldWorkerWrite where
  write : GuardedWrite
  worker : String
  generation : Nat
  deriving DecidableEq

structure TakeoverEnv extends Env where
  /-- `goal_has_ever_been_envelope_governed` -/
  governed : Bool := false
  /-- the exception that a step raises, if any -/
  fault : TakeoverStep → Option Err := fun _ => none
  /-- what the old worker commits before the fence -/
  meanwhile : List OldWorkerWrite := []

/-- the exception of a step, if it raises one -/
def TakeoverEnv.pass (env : TakeoverEnv) (s : TakeoverStep) : Tx Db Err Unit :=
  match env.fault s with
  | none => return ()
  | some e => Tx.raise e

/-- the writes of the old worker, each in its own transaction -/
def oldWorkerWrites (now : Time) (j : JobId) (ws : List OldWorkerWrite) (jobs : List Job) :
    List Job :=
  ws.foldl (fun jobs w => transact jobs (w.write.exec now jobs j w.worker w.generation)) jobs

/-- other sessions commit a change of the jobs, and this session sees it -/
def othersCommit (f : List Job → List Job) : Tx Db Err Unit := fun s =>
  (.ok (), { durable := { s.durable with jobs := f s.durable.jobs },
             work := { s.work with jobs := f s.work.jobs } })

/-- the flush of a recovery record -/
def setRecovery (k : RecoveryId) (r : Recovery) : Tx Db Err Unit :=
  Tx.flush fun db => .ok ((), { db with recoveries := db.recoveries.set k r })

/-- a recovery record of the job is at `taking_over` -/
def Db.takingOver (db : Db) (j : JobId) : Bool :=
  db.recoveries.any fun r => r.jobId = j ∧ r.status = .takingOver

/-- what `execute_takeover` checks before any mutation -/
def Recovery.refusal (r : Recovery) : Option Err :=
  if r.status ≠ .classified then
    some (.takeover "recovery record is not classified -- cannot take over.")
  else match r.classification with
    | none => some (.takeover "recovery record is not auto-salvageable -- refusing takeover.")
    | some c =>
      if ¬ c.autoSalvageable then
        some (.takeover "recovery record is not auto-salvageable -- refusing takeover.")
      else if c.requiresApproval ∧ ¬ r.approved then some .recoveryApprovalRequired
      else none

/-- the recovery record, with the checks of `Recovery.refusal` and the lock of the goal row -/
def beginTakeover (k : RecoveryId) (db : Db) : Except Err (Recovery × Db) :=
  match db.recoveries[k]? with
  | none => .error .noResultFound
  | some r =>
    match r.refusal with
    | some e => .error e
    | none => do
      let t ← db.lockTask r.taskId
      let _ ← db.goal t.goalId
      return (r, db)

/-- `_decline_takeover_for_governed_goal` -/
def declineTakeoverForGovernedGoal (env : TakeoverEnv) (k : RecoveryId) (r : Recovery) :
    Tx Db Err (Option JobId) := do
  Tx.flush fun db => (resetTaskForTakeover db r.taskId).map fun db => ((), db)
  setRecovery k { r with status := .takingOver }
  othersCommit (oldWorkerWrites env.now r.jobId env.meanwhile)
  env.pass .fence
  Tx.flush fun db => do
    let jobs ← markJobFailedAfterGovernedRecoveryDecline env.now (db.takingOver r.jobId)
      db.jobs r.jobId
    return ((), { db with jobs })
  env.pass .finish
  setRecovery k { r with status := .completed }
  return none

/-- the steps after the dispatch of the task to the job `j` -/
def finishTakeover (env : TakeoverEnv) (k : RecoveryId) (r : Recovery) (j : JobId) :
    Tx Db Err (Option JobId) := do
  setRecovery k { r with status := .salvaging }
  env.pass .salvage
  setRecovery k { r with status := .salvaged }
  setRecovery k { r with status := .takingOver }
  othersCommit (oldWorkerWrites env.now r.jobId env.meanwhile)
  env.pass .fence
  Tx.flush fun db => do
    let jobs ← markJobSuperseded env.now (db.takingOver r.jobId) db.jobs r.jobId j
    return ((), { db with jobs })
  env.pass .finish
  setRecovery k { r with status := .takenOver, newJobId := some j }
  setRecovery k { r with status := .completed, newJobId := some j }
  return some j

/-- `execute_takeover` -/
def executeTakeover (env : TakeoverEnv) (k : RecoveryId) : Tx Db Err (Option JobId) := do
  let r ← Tx.flush (beginTakeover k)
  env.pass .start
  if env.governed then declineTakeoverForGovernedGoal env k r
  else
    Tx.flush fun db => (resetTaskForTakeover db r.taskId).map fun db => ((), db)
    env.pass .dispatch
    let j ← dispatchReadyTask env.toEnv r.taskId
    finishTakeover env k r j

end LifeAI
