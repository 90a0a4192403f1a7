import LifeAI.Coordination.Dispatch

/-!
# Tracking the execution of an attempt

`execution_control.py` on one assignment and the tracking rows of its attempts.  What an adapter
answers is an input, and so is whether the caller commits after an exception that it has caught.

* `AgentDispatchExecution`  a tracking row; its id is its position;
* `cancelExecution`, `collectAndIngestExecutionResult`, `reconcileExecutionState`, ...
                     the functions, each on a row that was just loaded;
* `TrackingStep`     a call in a transaction of its own.
-/

namespace LifeAI

abbrev TrackingId := Nat

inductive ExecutionAdapterState where
  | starting | running | exited | lost | timeout | cancelled
  deriving DecidableEq

def ExecutionAdapterState.terminal : ExecutionAdapterState → Bool
  | starting | running => false
  | exited | lost | timeout | cancelled => true

inductive ExecutionResultIngestionStatus where
  | pending | ingested | failed
  deriving DecidableEq

/-- a row of `agent_dispatch_executions` -/
structure AgentDispatchExecution where
  attemptId : AttemptId
  adapterKey : String
  processRef : Option String := none
  adapterState : ExecutionAdapterState := .starting
  resultIngestionStatus : ExecutionResultIngestionStatus := .pending
  lastHeartbeatAt : Option Time := none
  lastOutputAt : Option Time := none
  endedAt : Option Time := none
  /-- not a column: the assignment was terminal when the attempt was tracked -/
  trackedTerminal : Bool
  deriving DecidableEq

structure TrackingDb extends CoordinationDb where
  tracking : List AgentDispatchExecution := []
  deriving DecidableEq

abbrev TrackingTx (α : Type) := Tx TrackingDb CoordinationErr α

/-- a function of `dispatch.py` -/
def onCoordination {α : Type} (m : CoordTx α) : TrackingTx α :=
  Tx.zoom TrackingDb.toCoordinationDb (fun db c => { db with toCoordinationDb := c }) m

/-! ## the setters -/

def setExecution (k : TrackingId) (f : AgentDispatchExecution → AgentDispatchExecution) :
    TrackingTx Unit :=
  Tx.flush fun db => .ok ((), { db with tracking := db.tracking.modify k f })

/-- `mark_execution_running`; a reference that was not observed is left as it is -/
def markExecutionRunning (k : TrackingId) (processRef : Option String) : TrackingTx Unit :=
  if processRef.all (storable (some 256)) then
    setExecution k fun x =>
      { x with adapterState := .running, processRef := processRef.or x.processRef }
  else Tx.raise .dataError

/-- the body of the four setters of an ended process -/
def markExecutionEnded (st : ExecutionAdapterState) (now : Time) (k : TrackingId) :
    TrackingTx Unit :=
  setExecution k fun x => { x with adapterState := st, endedAt := some now }

def markExecutionExited : Time → TrackingId → TrackingTx Unit := markExecutionEnded .exited
def markExecutionLost : Time → TrackingId → TrackingTx Unit := markExecutionEnded .lost
def markExecutionTimeout : Time → TrackingId → TrackingTx Unit := markExecutionEnded .timeout
def markExecutionCancelled : Time → TrackingId → TrackingTx Unit := markExecutionEnded .cancelled

def markResultIngested (k : TrackingId) : TrackingTx Unit :=
  setExecution k fun x => { x with resultIngestionStatus := .ingested }

def markResultIngestionFailed (k : TrackingId) : TrackingTx Unit :=
  setExecution k fun x => { x with resultIngestionStatus := .failed }

/-! ## events -/

/-- `DURABLE_EVENT_KINDS` -/
def durableEventKinds : List String :=
  ["status", "progress", "tool_action", "heartbeat", "partial_result", "final_result"]

/-- `record_execution_event` without a choice of the caller about `persist` -/
def recordExecutionEvent (now : Time) (k : TrackingId) (x : AgentDispatchExecution)
    (kind summary : String) : TrackingTx Unit :=
  Tx.flush fun db => .ok ((), { db with
    tracking := db.tracking.modify k fun x =>
      { x with
        lastHeartbeatAt :=
          if kind ∈ ["heartbeat", "status", "progress"] then some now else x.lastHeartbeatAt
        lastOutputAt := if kind ∈ ["stdout", "stderr"] then some now else x.lastOutputAt }
    events :=
      if kind ∈ durableEventKinds then db.events ++ [.executionObserved kind summary x.attemptId]
      else db.events })

/-! ## control -/

/-- an operation of an adapter that its capabilities may not declare -/
structure ControlEnv where
  now : Time
  /-- the flag of `control_capabilities()` -/
  supported : Bool := true
  /-- what the method raises -/
  raises : Option AdapterErr := none
  deriving DecidableEq

inductive ControlOutcome where
  | ok | unsupportedCapability
  deriving DecidableEq

/-- `cancel_execution` -/
def cancelExecution (env : ControlEnv) (k : TrackingId) (x : AgentDispatchExecution) :
    TrackingTx ControlOutcome :=
  if ¬ env.supported then return .unsupportedCapability
  else match env.raises with
    | some e => Tx.raise (.adapter e)
    | none => do
      markExecutionCancelled env.now k
      onCoordination (Tx.flush fun db =>
        if db.assignment.status = .waitingAgent ∨ db.assignment.status = .running then
          transitionStatus env.now .cancelled
            { reason := some "execution_cancelled", attemptId := some x.attemptId } db
        else .ok ((), db))
      return .ok

/-- `resume_execution` -/
def resumeExecution (env : ControlEnv) (k : TrackingId) (x : AgentDispatchExecution) :
    TrackingTx ControlOutcome :=
  if ¬ env.supported then return .unsupportedCapability
  else match env.raises with
    | some e => Tx.raise (.adapter e)
    | none => do
      recordExecutionEvent env.now k x "status" "resumed"
      return .ok

/-- `start_execution_tracking`; `uq_agent_dispatch_executions_attempt` refuses a second row of an
attempt -/
def startExecutionTracking (adapterKey : String) (attemptId : AttemptId) : TrackingTx TrackingId :=
  Tx.flush fun db =>
    if ¬ storable (some 64) adapterKey ∨ db.tracking.any (·.attemptId = attemptId) then
      .error .dataError
    else .ok (db.tracking.length, { db with
      tracking := db.tracking ++
        [{ attemptId, adapterKey, trackedTerminal := db.assignment.status.terminal }] })

/-! ## collection and recovery -/

/-- `collect_and_ingest_execution_result` -/
def collectAndIngestExecutionResult (now : Time) (k : TrackingId) (x : AgentDispatchExecution)
    (agent : CoordinationAgent) (adapterKey : Option String)
    (answer : Except AdapterErr AgentResult) : TrackingTx DispatchDecision := do
  let decision ←
    Tx.handle (onCoordination (collectDispatchResult now agent adapterKey x.attemptId answer))
      fun e =>
        -- after a refused flush the session flushes nothing more
        if e = .dataError then Tx.raise e
        else do
          markResultIngestionFailed k
          Tx.raise e
  match decision.outcome with
  | .adapterProcessLost =>
    markExecutionLost now k
    markResultIngestionFailed k
  | .adapterTimeout =>
    markExecutionTimeout now k
    markResultIngestionFailed k
  | _ =>
    markExecutionExited now k
    markResultIngested k
  return decision

inductive ReconcileOutcome where
  | processAlive | processExited | adapterDisconnected | sessionLost | resultUnavailable
  | resultPendingIngestion
  deriving DecidableEq

/-- `reconcile_execution_state`; `observation` is the `raw_status` that the adapter reports -/
def reconcileExecutionState (now : Time) (k : TrackingId) (x : AgentDispatchExecution)
    (observation : Except AdapterErr String) : TrackingTx ReconcileOutcome :=
  if x.adapterState = .exited then
    if x.resultIngestionStatus = .pending then return .resultPendingIngestion
    else return .processExited
  else if x.adapterState = .lost ∨ x.adapterState = .timeout ∨ x.adapterState = .cancelled then
    return .sessionLost
  else match observation with
    | .error (.providerNotConfigured _) => return .adapterDisconnected
    | .error (.processLost _) => do
      markExecutionLost now k
      return .sessionLost
    | .error e => Tx.raise (.adapter e)
    | .ok rawStatus =>
      if rawStatus = "running" then do
        recordExecutionEvent now k x "heartbeat" "reconciled: still running"
        return .processAlive
      else if rawStatus = "exited" then do
        markExecutionExited now k
        return .resultPendingIngestion
      else return .resultUnavailable

/-! ## the system -/

/-- a call on the assignment, or on one of its tracking rows -/
inductive TrackingOp where
  | dispatch (env : DispatchEnv)
  | transition (now : Time) (target : WorkAssignmentStatus) (detail : TransitionDetail)
  | startTracking (adapterKey : String) (attemptId : AttemptId)
  | markRunning (k : TrackingId) (processRef : Option String)
  | collect (now : Time) (k : TrackingId) (agent : CoordinationAgent) (adapterKey : Option String)
      (answer : Except AdapterErr AgentResult)
  | cancel (env : ControlEnv) (k : TrackingId)
  | reconcile (now : Time) (k : TrackingId) (observation : Except AdapterErr String)
  | resume (env : ControlEnv) (k : TrackingId)
  deriving DecidableEq

/-- a call on the row `k` -/
def TrackingDb.onRow {α : Type} (db : TrackingDb) (k : TrackingId)
    (f : AgentDispatchExecution → TrackingTx α) : TrackingTx Unit :=
  match db.tracking[k]? with
  | some x => do
    let _ ← f x
  | none => return ()

def TrackingOp.program (db : TrackingDb) : TrackingOp → TrackingTx Unit
  | .dispatch env => do
    let _ ← onCoordination (dispatchAssignment env)
  | .transition now target detail => do
    let _ ← onCoordination (Tx.flush (transitionStatus now target detail))
  | .startTracking adapterKey attemptId => do
    let _ ← startExecutionTracking adapterKey attemptId
  | .markRunning k processRef => db.onRow k fun _ => markExecutionRunning k processRef
  | .collect now k agent adapterKey answer =>
    db.onRow k fun x => collectAndIngestExecutionResult now k x agent adapterKey answer
  | .cancel env k => db.onRow k (cancelExecution env k)
  | .reconcile now k observation =>
    db.onRow k fun x => reconcileExecutionState now k x observation
  | .resume env k => db.onRow k (resumeExecution env k)

/-- a call in a transaction of its own -/
structure TrackingStep where
  op : TrackingOp
  /-- the caller catches an exception of the call, and commits all the same -/
  commits : Bool := false
  deriving DecidableEq

/-- what the transaction leaves behind -/
def TrackingTx.finish {α : Type} (commits : Bool)
    (r : Except CoordinationErr α × Session TrackingDb) : TrackingDb :=
  match r.1 with
  | .ok _ => r.2.work
  | .error e => if commits ∧ e ≠ .dataError then r.2.work else r.2.durable

def TrackingStep.step (db : TrackingDb) (o : TrackingStep) : TrackingDb :=
  TrackingTx.finish o.commits (o.op.program db (Tx.opened db))

end LifeAI
