import LifeAI.Recovery.Takeover
import LifeAI.Spend.Moves
import LifeAI.Tasks.Wake

/-!
# The execution loop as one system

`Sys` is the database together with the copy of its task that the session of each running job
holds: the worker reads the task when the run begins (`startRun`) and, on the success path, never
reads it again.  `Op` is everything that founders, workers and the supervisor do to goals, plans,
tasks, jobs, waits and grants, one committed transaction each; `Op.step` runs one.
-/

namespace LifeAI

structure Sys where
  db : Db := {}
  /-- the task as the session of a running job read it -/
  held : JobId → Option Task := fun _ => none

inductive Op where
  | createGoal (owner : OwnerId) (instruction approvalPolicy : String)
  | createPlan (now : Time) (g : GoalId) (specs : List PlannedTaskSpec)
  | insertPlanTasks (c : PlanInsertion)
  | recomputeTaskReadiness (g : GoalId)
  | grantTaskApproval (i : TaskId)
  | recordFinalReport (now : Time) (g : GoalId)
  -- dispatch and jobs
  | createJob (env : Env) (c : JobRequest)
  | dispatchReadyTask (env : Env) (i : TaskId)
  /-- the process dies when `create_job` has committed -/
  | dispatchCrash (env : Env) (i : TaskId)
  | retryTask (i : TaskId)
  | resetTaskForTakeover (i : TaskId)
  | recordClassification (r : Recovery)
  | executeTakeover (env : TakeoverEnv) (k : RecoveryId)
  | cancelTask (now : Time) (i : TaskId) (byFounder : Bool) (reason : String)
  | claimNext (now : Time) (worker : String) (leaseSeconds : Nat) (locked : List JobId)
  | claimSpecific (now : Time) (j : JobId) (worker : String) (leaseSeconds : Nat)
  | guarded (now : Time) (write : GuardedWrite) (w : Runner)
  | retryJob (j : JobId) (loaded : Job)
  | requestCancel (j : JobId) (loaded : Job)
  -- a run and its ends
  | startRun (now : Time) (w : Runner) (leaseSeconds : Nat)
  | completeRun (now : Time) (w : Runner) (passed : Bool) (retryIn : Nat)
  | failRun (now : Time) (w : Runner) (retryIn : Nat)
  | cancelRun (now : Time) (w : Runner)
  | failUnavailable (now : Time) (w : Runner) (retryIn : Nat)
  | enterCiWait (now : Time) (w : Runner) (leaseSeconds : Nat)
  | resumeWaitingCiTask (now : Time) (w : Nat) (polled : WaitStatus) (retryIn : Nat)
  -- parks, wakes and repairs
  | parkProviderSpendDefer (now : Time) (w : Runner)
  | releaseProviderWait (now : Time) (w : Runner) (delay : Nat)
  | wakeForProviderSpend (now : Time) (owner : OwnerId) (g : GoalId) (envelope : EnvelopeId)
  | wakeDueBackoff (now : Time) (limit : Nat)
  | parkSourceTaskForRepair (i child : TaskId) (reason : String)
  | resumeSourceAfterRepair (i : TaskId)
  | spend (o : SpendOp)

namespace Sys

/-- a transaction on the database -/
def commit (s : Sys) (r : Except Err Db) : Sys := { s with db := transact s.db r }

/-- a transaction of the session of a running job, with the copy of the task that it holds -/
def commitHeld (s : Sys) (j : JobId) (f : Task → Except Err Db) : Sys :=
  match s.held j with
  | none => s
  | some loaded => s.commit (f loaded)

/-- a transaction that only writes jobs -/
def commitJobs (s : Sys) (r : Except Err (List Job)) : Sys :=
  { s with db := { s.db with jobs := transact s.db.jobs r } }

/-- a session that may commit in the middle -/
def session {α : Type} (s : Sys) (m : Tx Db Err α) : Sys :=
  { s with db := Tx.settle (m (Tx.opened s.db)) }

/-- the first writes of `run_task_execution_job`, under the lease -/
def beginRun (now : Time) (db : Db) (w : Runner) (leaseSeconds : Nat) :
    Except Err (Task × List Job) := do
  let i ← db.runTask w
  let t ← db.lockTask i
  let jobs ← renewMainaiJobLease now db.jobs w.job w.worker w.generation leaseSeconds
  let jobs ← updateProgress jobs w.job w.worker w.generation (some 0) (some 1) (some t.taskType)
  return (t, jobs)

/-- the run begins: the session keeps the task that it has read -/
def startRun (s : Sys) (now : Time) (w : Runner) (leaseSeconds : Nat) : Sys :=
  match beginRun now s.db w leaseSeconds with
  | .error _ => s
  | .ok (t, jobs) =>
    { db := { s.db with jobs }
      held := fun j => if j = w.job then some t else s.held j }

end Sys

open Sys in
/-- one operation, committed or rolled back by its caller -/
def Op.step (s : Sys) : Op → Sys
  | .createGoal owner instruction policy =>
    { s with db := LifeAI.createGoal s.db owner instruction policy }
  | .createPlan now g specs => s.commit ((LifeAI.createPlan now s.db g specs).map Prod.snd)
  | .insertPlanTasks c => s.commit ((LifeAI.insertPlanTasks s.db c).map Prod.snd)
  | .recomputeTaskReadiness g => { s with db := LifeAI.recomputeTaskReadiness s.db g }
  | .grantTaskApproval i => s.commit (LifeAI.grantTaskApproval s.db i)
  | .recordFinalReport now g => s.commit (LifeAI.recordFinalReport now s.db g)
  | .createJob env c => s.session (LifeAI.createJob env { c with claimed := false })
  | .dispatchReadyTask env i => s.session (LifeAI.dispatchReadyTask env i)
  | .dispatchCrash env i =>
    { s with db := (LifeAI.dispatchReadyTask env i (Tx.opened s.db)).2.durable }
  | .retryTask i => s.commit (LifeAI.retryTask s.db i)
  | .resetTaskForTakeover i => s.commit (LifeAI.resetTaskForTakeover s.db i)
  | .recordClassification r => { s with db := { s.db with recoveries := s.db.recoveries ++ [r] } }
  | .executeTakeover env k => s.session (LifeAI.executeTakeover env k)
  | .cancelTask now i byFounder reason =>
    s.commit (LifeAI.cancelTask now s.db i byFounder reason)
  | .claimNext now worker secs locked =>
    s.commitJobs ((claimNextMainaiJob now s.db.jobs worker secs locked).map Prod.snd)
  | .claimSpecific now j worker secs =>
    s.commitJobs ((claimSpecificMainaiJob now s.db.jobs j worker secs).map Prod.snd)
  | .guarded now write w =>
    s.commitJobs (write.exec now s.db.jobs w.job w.worker w.generation)
  | .retryJob j loaded => s.commitJobs (LifeAI.retryJob s.db.jobs j loaded)
  | .requestCancel j loaded => s.commitJobs (LifeAI.requestCancel s.db.jobs j loaded)
  | .startRun now w secs => s.startRun now w secs
  | .completeRun now w passed retryIn =>
    s.commitHeld w.job fun loaded => LifeAI.completeRun now s.db w loaded passed retryIn
  | .failRun now w retryIn => s.commit (LifeAI.failRun now s.db w retryIn)
  | .cancelRun now w => s.commit (LifeAI.cancelRun now s.db w)
  | .failUnavailable now w retryIn => s.commit (LifeAI.failUnavailable now s.db w retryIn)
  | .enterCiWait now w secs =>
    s.commitHeld w.job fun loaded => LifeAI.enterCiWait now s.db w secs loaded
  | .resumeWaitingCiTask now w polled retryIn =>
    s.commit (LifeAI.resumeWaitingCiTask now s.db w polled retryIn)
  | .parkProviderSpendDefer now w => s.commit (LifeAI.parkProviderSpendDefer now s.db w)
  | .releaseProviderWait now w delay => s.commit (LifeAI.releaseProviderWait now s.db w delay)
  | .wakeForProviderSpend now owner g envelope =>
    s.commit (wakeTasksBlockedForProviderSpend now s.db owner g envelope)
  | .wakeDueBackoff now limit => s.commit (wakeDueWaitingProviderBackoffTasks now s.db limit)
  | .parkSourceTaskForRepair i child reason =>
    s.commit (LifeAI.parkSourceTaskForRepair s.db i child reason)
  | .resumeSourceAfterRepair i => s.commit (LifeAI.resumeSourceAfterRepair s.db i)
  | .spend o => { s with db := { s.db with spend := SpendOp.step s.db.spend o } }

/-- the system after a list of operations, from the empty database -/
def sysRun (os : List Op) : Sys := Run.run Op.step {} os

/-! ## the beginning of a run -/

/-- a task of a sample plan -/
def sampleSpec (dependsOn : List Int) (maxAttempts : Int) : PlannedTaskSpec where
  description := "edit the repository"
  taskType := "repo_edit"
  dependsOn := dependsOn
  maxAttempts := maxAttempts

/-- the worker of the first job -/
def firstRunner : Runner := ⟨0, "worker-1", 1⟩

/-- a plan, whose task 0 is dispatched, claimed and begun -/
def begunRun (specs : List PlannedTaskSpec) : List Op :=
  [.createGoal 0 "build it" "standard_repo_work", .createPlan 1 0 specs,
    .dispatchReadyTask { now := 2 } 0, .claimNext 3 "worker-1" 60 [],
    .startRun 4 firstRunner 60]

set_option maxRecDepth 8000 in
example : ((sysRun (begunRun [sampleSpec [] 3, sampleSpec [0] 3] ++
    [.completeRun 5 firstRunner true 30])).db.tasks.map fun t => (t.status, t.attempts)) =
      [(.completed, 1), (.ready, 0)] := by decide

end LifeAI
