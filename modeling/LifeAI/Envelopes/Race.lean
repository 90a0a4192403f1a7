import LifeAI.Envelopes.Model
import LifeAI.Lib.Locks
import LifeAI.Recovery.Takeover

/-!
# Authorizations, ticks and takeovers side by side

Transactions under READ COMMITTED, one statement at a time.  A statement reads what is committed;
a statement that locks a row waits for the transaction that holds it; what a transaction writes
becomes visible with its commit.

* `GovTx`    a transaction: the tick of the worker on one task, a takeover, an authorization;
* `GovStep`  the next statement of a transaction, its rollback, or what the rest of the system
             commits;
* `GovEvent`  what became durable, in the order of the commits.
-/

namespace LifeAI

inductive Row where
  | proposal (p : ProposalId)
  | goal (g : GoalId)
  | task (i : TaskId)
  deriving DecidableEq

/-- how far `_advance_mainai_execution_tasks` has come with one task -/
inductive TickStage where
  | selected
  /-- the goal was found ungoverned again, when `seen` events were durable -/
  | checked (seen : Nat)
  /-- `dispatch_ready_task` has locked the task row -/
  | locked (seen : Nat)
  /-- `create_job` has committed -/
  | dispatched (j : JobId)
  | ended
  deriving DecidableEq

inductive TakeoverStage where
  | classified | goalLocked | governed | ungoverned
  /-- `create_job` has committed, and released the goal row -/
  | dispatched (j : JobId)
  | ended
  deriving DecidableEq

inductive AuthorizeStage where
  | called
  | proposalLocked (p : ScopeProposal)
  | goalLocked (p : ScopeProposal)
  | priorRead (p : ScopeProposal) (prior : Option EnvelopeId)
  | ended
  deriving DecidableEq

inductive GovTx where
  | tick (i : TaskId) (g : GoalId) (stage : TickStage)
  | takeover (k : RecoveryId) (r : Recovery) (owner : OwnerId) (g : GoalId) (stage : TakeoverStage)
  | authorize (a : Authorization) (stage : AuthorizeStage)
  deriving DecidableEq

namespace GovTx

/-- the rows that the transaction has locked -/
def holds : GovTx → Row → Bool
  | .tick i _ (.locked _), r => r = .task i
  | .takeover _ _ _ g .goalLocked, r => r = .goal g
  | .takeover _ _ _ g .governed, r => r = .goal g
  | .takeover _ _ _ g .ungoverned, r => r = .goal g
  | .authorize a (.proposalLocked _), r => r = .proposal a.proposalId
  | .authorize a (.goalLocked p), r => r = .proposal a.proposalId ∨ r = .goal p.goalId
  | .authorize a (.priorRead p _), r => r = .proposal a.proposalId ∨ r = .goal p.goalId
  | _, _ => false

/-- the transaction after its commit or rollback -/
def ended : GovTx → GovTx
  | .tick i g _ => .tick i g .ended
  | .takeover k r owner g _ => .takeover k r owner g .ended
  | .authorize a _ => .authorize a .ended

end GovTx

inductive GovEvent where
  /-- an envelope of the goal was committed -/
  | governed (g : GoalId)
  /-- a dispatch of the task was committed -/
  | dispatched (i : TaskId) (g : GoalId)
  deriving DecidableEq

structure GovSys where
  db : Db
  envelopes : EnvelopeDb
  txs : List GovTx := []
  history : List GovEvent := []

inductive GovStep where
  /-- the batch query of a tick returns the task -/
  | tick (i : TaskId)
  | takeover (k : RecoveryId)
  | authorize (a : Authorization)
  /-- the next statement of the `n`-th transaction; its last one commits -/
  | advance (n : Nat) (env : TakeoverEnv)
  /-- an exception or the death of the process -/
  | rollback (n : Nat)
  /-- other transactions leave the execution tables like this -/
  | others (db : Db)

/-- goals are added at most, and keep their owners -/
def Db.keepsOwners (db db' : Db) : Bool :=
  (db.goals.map (·.ownerId)).isPrefixOf (db'.goals.map (·.ownerId))

/-- a dispatch, and what follows it in the same session -/
structure DispatchRun where
  dispatch : Tx Db Err JobId
  rest : JobId → Tx Db Err Unit

namespace DispatchRun

/-- a tick on one task: `dispatch_ready_task`, then `db.commit()` -/
def tick (env : Env) (i : TaskId) : DispatchRun where
  dispatch := dispatchReadyTask env i
  rest _ := return ()

/-- a takeover of an ungoverned goal, from the reset of the task on -/
def takeover (env : TakeoverEnv) (k : RecoveryId) (r : Recovery) : DispatchRun where
  dispatch := do
    Tx.flush fun db => (resetTaskForTakeover db r.taskId).map fun db => ((), db)
    env.pass .dispatch
    dispatchReadyTask env.toEnv r.taskId
  rest j := do
    let _ ← finishTakeover env k r j

/-- the dispatch has inserted a job, and `create_job` has committed -/
def created (p : DispatchRun) (db : Db) : Bool :=
  db.jobs.length < (p.dispatch (Tx.opened db)).2.durable.jobs.length

/-- the dispatch is answered with a job that was there, and the caller commits in the end -/
def answered (p : DispatchRun) (db : Db) : Bool :=
  ¬ p.created db ∧
    ((do let j ← p.dispatch; p.rest j : Tx Db Err Unit) (Tx.opened db)).1 = .ok ()

/-- the dispatch becomes durable -/
def durable (p : DispatchRun) (db : Db) : Bool := p.created db ∨ p.answered db

/-- the tables after the next commit or rollback of the session -/
def committed (p : DispatchRun) (db : Db) : Db :=
  if p.created db then (p.dispatch (Tx.opened db)).2.durable
  else Tx.settle ((do let j ← p.dispatch; p.rest j : Tx Db Err Unit) (Tx.opened db))

/-- with a new job `j` the transaction `x` goes on as `goesOn j`, otherwise it is over -/
def next (p : DispatchRun) (db : Db) (x : GovTx) (goesOn : JobId → GovTx) : GovTx :=
  match p.created db, (p.dispatch (Tx.opened db)).1 with
  | true, .ok j => goesOn j
  | _, _ => x.ended

end DispatchRun

namespace GovSys

def heldByOther (s : GovSys) (n : Nat) (r : Row) : Bool :=
  Locks.heldByOther GovTx.holds s.txs n r

def setTx (s : GovSys) (n : Nat) (x : GovTx) : GovSys := { s with txs := s.txs.set n x }

/-- a dispatch by the `n`-th transaction, which is `x` before it -/
def dispatch (s : GovSys) (n : Nat) (i : TaskId) (g : GoalId) (p : DispatchRun) (x : GovTx)
    (goesOn : JobId → GovTx) : GovSys :=
  { s with
    db := p.committed s.db
    history := if p.durable s.db then s.history ++ [.dispatched i g] else s.history
    txs := s.txs.set n (p.next s.db x goesOn) }

def advanceTick (s : GovSys) (n : Nat) (env : TakeoverEnv) (i : TaskId) (g : GoalId) :
    TickStage → GovSys
  | .selected =>
    if s.db.goals[g]? = none ∨ s.envelopes.governs g then s.setTx n (.tick i g .ended)
    else s.setTx n (.tick i g (.checked s.history.length))
  | .checked k =>
    if s.heldByOther n (.task i) then s else s.setTx n (.tick i g (.locked k))
  | .locked k =>
    s.dispatch n i g (.tick env.toEnv i) (.tick i g (.locked k)) fun j => .tick i g (.dispatched j)
  | .dispatched j =>
    if s.heldByOther n (.task i) then s
    else
      setTx { s with db := Tx.settle (Tx.flush (assignJob i j) (Tx.opened s.db)) } n
        (.tick i g .ended)
  | .ended => s

def advanceTakeover (s : GovSys) (n : Nat) (env : TakeoverEnv) (k : RecoveryId) (r : Recovery)
    (owner : OwnerId) (g : GoalId) : TakeoverStage → GovSys
  | .classified =>
    if s.heldByOther n (.goal g) then s else s.setTx n (.takeover k r owner g .goalLocked)
  | .goalLocked =>
    if s.envelopes.goalHasEverBeenEnvelopeGoverned owner g then
      s.setTx n (.takeover k r owner g .governed)
    else s.setTx n (.takeover k r owner g .ungoverned)
  | .governed =>
    if s.heldByOther n (.task r.taskId) then s
    else
      setTx { s with
        db := Tx.settle (declineTakeoverForGovernedGoal env k r (Tx.opened s.db)) } n
        (.takeover k r owner g .ended)
  | .ungoverned =>
    if s.heldByOther n (.task r.taskId) then s
    else s.dispatch n r.taskId g (.takeover env k r) (.takeover k r owner g .ungoverned)
      fun j => .takeover k r owner g (.dispatched j)
  | .dispatched j =>
    if s.heldByOther n (.task r.taskId) then s
    else
      setTx { s with
        db := Tx.settle ((do
          Tx.flush (assignJob r.taskId j)
          finishTakeover env k r j : Tx Db Err (Option JobId)) (Tx.opened s.db)) } n
        (.takeover k r owner g .ended)
  | .ended => s

def advanceAuthorize (s : GovSys) (n : Nat) (a : Authorization) : AuthorizeStage → GovSys
  | .called =>
    if s.heldByOther n (.proposal a.proposalId) then s
    else match a.proposal s.envelopes with
      | .error _ => s.setTx n (.authorize a .ended)
      | .ok p => s.setTx n (.authorize a (.proposalLocked p))
  | .proposalLocked p =>
    if s.heldByOther n (.goal p.goalId) then s
    else if (s.db.goals[p.goalId]?).any (·.ownerId = a.ownerId) then
      s.setTx n (.authorize a (.goalLocked p))
    else s.setTx n (.authorize a .ended)
  | .goalLocked p =>
    match s.envelopes.currentEnvelope a.ownerId p.goalId with
    | .error _ => s.setTx n (.authorize a .ended)
    | .ok prior => s.setTx n (.authorize a (.priorRead p prior))
  | .priorRead p prior =>
    match a.grant p prior s.envelopes with
    | .error _ => s.setTx n (.authorize a .ended)
    | .ok db =>
      setTx { s with
        envelopes := db
        history := s.history ++ [.governed p.goalId] } n (.authorize a .ended)
  | .ended => s

end GovSys

def GovStep.step (s : GovSys) : GovStep → GovSys
  | .tick i =>
    match s.db.tasks[i]? with
    | some t =>
      if t.status = .ready ∧ ¬ s.envelopes.governs t.goalId then
        { s with txs := s.txs ++ [.tick i t.goalId .selected] }
      else s
    | none => s
  | .takeover k =>
    match s.db.recoveries[k]? with
    | some r =>
      match s.db.tasks[r.taskId]? with
      | some t =>
        match s.db.goals[t.goalId]? with
        | some goal =>
          if r.refusal = none then
            { s with txs := s.txs ++ [.takeover k r goal.ownerId t.goalId .classified] }
          else s
        | none => s
      | none => s
    | none => s
  | .authorize a => { s with txs := s.txs ++ [.authorize a .called] }
  | .advance n env =>
    match s.txs[n]? with
    | some (.tick i g stage) => s.advanceTick n env i g stage
    | some (.takeover k r owner g stage) => s.advanceTakeover n env k r owner g stage
    | some (.authorize a stage) => s.advanceAuthorize n a stage
    | none => s
  | .rollback n =>
    match s.txs[n]? with
    | some x => s.setTx n x.ended
    | none => s
  | .others db => if s.db.keepsOwners db then { s with db } else s

/-- tables in which every envelope belongs to the owner of its goal -/
structure GovStart where
  db : Db
  envelopes : EnvelopeDb
  owned : ∀ e ∈ envelopes.envelopes, (db.goals[e.goalId]?).any (·.ownerId = e.ownerId)

/-- the goals that have envelopes at the start count as governed from then on -/
def GovStart.sys (c : GovStart) : GovSys where
  db := c.db
  envelopes := c.envelopes
  history := c.envelopes.envelopes.map (.governed ·.goalId)

/-- the state after a list of steps -/
def govRun (c : GovStart) (os : List GovStep) : GovSys := Run.run GovStep.step c.sys os

end LifeAI
