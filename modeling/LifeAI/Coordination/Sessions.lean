import LifeAI.Coordination.Model
import LifeAI.Lib.Locks

/-!
# Concurrent transactions on work assignments

`create_work_assignment`, `transition_status` and `dispatch_assignment`, each in a transaction of
its own, under READ COMMITTED.  A SELECT sees what is committed and what its own session has
flushed; an UPDATE names the row by its id alone, and waits while another session holds the row.

* `WorkAssignment`  a committed row; ids are positions, all rows are of one owner;
* `WorkStmt`        what a transaction does next;
* `WorkSession`     a transaction: the status that it loaded, what it has flushed, what is left;
* `WorkStep`        a transaction opens, goes on by one statement, or is rolled back.
-/

namespace LifeAI

/-- `_canonical_work_key` -/
def canonicalWorkKey (goalId : GoalId) (taskId : Option TaskId) (role : WorkAssignmentRole)
    (repositoryIdentity : String) (allowedPaths : List String) : String :=
  match taskId with
  | some t => toString goalId ++ ":" ++ toString t ++ ":" ++ role.value
  | none => toString goalId ++ ":no-task:" ++ repositoryIdentity ++ ":" ++ role.value ++ ":" ++
      ",".intercalate (allowedPaths.mergeSort (· ≤ ·))

inductive WorkAssignmentReadWriteMode where
  | readOnly | readWrite
  deriving DecidableEq

/-- a row of `agent_work_assignments`, with the columns that decide over duplicates and slots -/
structure WorkAssignment where
  agentId : AgentId
  canonicalWorkKey : String
  parallelExplorationGroupId : Option Nat
  dependsOn : List AssignmentId
  status : WorkAssignmentStatus
  /-- not a column: `dispatch_assignment` moved the row to `waiting_agent` or `running`, and it has
  not left these statuses since -/
  dispatched : Bool := false
  deriving DecidableEq

/-- the statuses that a dispatch leads to -/
def WorkAssignmentStatus.occupies (st : WorkAssignmentStatus) : Bool :=
  st = .waitingAgent ∨ st = .running

/-- a committed change of the status -/
def WorkAssignment.put (byDispatch : Bool) (st : WorkAssignmentStatus) (r : WorkAssignment) :
    WorkAssignment :=
  { r with status := st, dispatched := st.occupies ∧ (byDispatch ∨ r.dispatched) }

/-! ## calls -/

/-- the arguments of `create_work_assignment` that reach the row -/
structure CreateWork where
  goalId : GoalId
  taskId : Option TaskId
  agentId : AgentId
  role : WorkAssignmentRole
  readWriteMode : WorkAssignmentReadWriteMode
  repositoryIdentity : String
  allowedPaths : List String
  parallelExplorationGroupId : Option Nat := none
  dependsOn : List AssignmentId := []
  deriving DecidableEq

def CreateWork.key (c : CreateWork) : String :=
  LifeAI.canonicalWorkKey c.goalId c.taskId c.role c.repositoryIdentity c.allowedPaths

/-- the row after `_refresh_dependency_state` -/
def CreateWork.row (c : CreateWork) (satisfied : Bool) : WorkAssignment where
  agentId := c.agentId
  canonicalWorkKey := c.key
  parallelExplorationGroupId := c.parallelExplorationGroupId
  dependsOn := c.dependsOn
  status := if satisfied then .ready else .waitingDependency

/-- what a dispatch meets outside the assignments -/
structure GateEnv where
  /-- the refusal of another check of the readiness gate, or of the authority envelope -/
  refusal : Option String := none
  /-- which duplicate `first()` picks -/
  first : Nat := 0
  /-- what `adapter.start_assignment` raises -/
  start : Option AdapterErr := none
  /-- the caller commits after an exception that it has caught -/
  commits : Bool := false
  deriving DecidableEq

inductive WorkOp where
  | create (c : CreateWork)
  | transition (id : AssignmentId) (target : WorkAssignmentStatus)
  | dispatch (id : AssignmentId) (env : GateEnv)
  deriving DecidableEq

/-- what a transaction does next -/
inductive WorkStmt where
  /-- the checks of `create_work_assignment` -/
  | checkDuplicate (c : CreateWork)
  | insert (c : CreateWork)
  /-- the assignment is loaded -/
  | load
  /-- `agent_availability` -/
  | availability
  | dependencies
  /-- `is_duplicate_canonical_work`; `first()` picks any of the rows -/
  | duplicate (first : Nat)
  /-- the other checks of the gate -/
  | gate (refusal : Option String)
  /-- `transition_status` -/
  | move (target : WorkAssignmentStatus)
  /-- the SELECT of `_release_dependents` -/
  | dependents
  /-- `_refresh_dependency_state` of a dependent -/
  | refresh (d : AssignmentId)
  /-- its dependencies, with the status that it was loaded with -/
  | settle (d : AssignmentId) (st : WorkAssignmentStatus)
  /-- its UPDATE -/
  | write (d : AssignmentId) (st : WorkAssignmentStatus)
  /-- `await adapter.start_assignment(...)` -/
  | start (raises : Option AdapterErr) (commits : Bool)
  | commit
  | abort
  deriving DecidableEq

def WorkOp.program : WorkOp → List WorkStmt
  | .create c => [.checkDuplicate c, .insert c, .commit]
  | .transition _ target => [.load, .move target, .commit]
  | .dispatch _ env => [.load, .availability, .dependencies, .duplicate env.first,
      .gate env.refusal, .move .waitingAgent, .start env.start env.commits, .commit]

/-! ## sessions -/

structure WorkSession where
  op : WorkOp
  todo : List WorkStmt
  /-- the status of the assignment as the session holds it -/
  held : Option WorkAssignmentStatus := none
  /-- the status of the assignment, flushed -/
  own : Option WorkAssignmentStatus := none
  /-- the statuses of dependents, flushed; the latest first -/
  released : List (AssignmentId × WorkAssignmentStatus) := []
  /-- the inserted row, with the answer of its dependencies -/
  fresh : Option Bool := none
  deriving DecidableEq

structure WorkDb where
  agents : List CoordinationAgent
  rows : List WorkAssignment := []
  sessions : List WorkSession := []
  deriving DecidableEq

/-- the assignment that the transaction is about -/
def WorkOp.target : WorkOp → Option AssignmentId
  | .create _ => none
  | .transition id _ => some id
  | .dispatch id _ => some id

namespace WorkSession

/-- what the session has flushed for a row -/
def flushed (s : WorkSession) (i : AssignmentId) : Option WorkAssignmentStatus :=
  if s.op.target = some i then s.own.or (s.released.lookup i) else s.released.lookup i

/-- the session holds the lock of the row -/
def holds (s : WorkSession) (i : AssignmentId) : Bool := (s.flushed i).isSome

/-- the status of a row, as a SELECT of the session sees it -/
def sees (s : WorkSession) (rows : List WorkAssignment) (i : AssignmentId) :
    Option WorkAssignmentStatus :=
  rows[i]?.map fun r => (s.flushed i).getD r.status

/-- `_dependencies_satisfied` -/
def satisfied (s : WorkSession) (rows : List WorkAssignment) (deps : List AssignmentId) : Bool :=
  deps.all fun d => (s.sees rows d).all (·.releasesDependents)

/-- the rows that `is_duplicate_canonical_work` selects -/
def duplicates (s : WorkSession) (rows : List WorkAssignment) (key : String)
    (group : Option Nat) : List AssignmentId :=
  if group.isSome then []
  else (List.range rows.length).filter fun i =>
    rows[i]?.any (·.canonicalWorkKey = key) ∧ (s.sees rows i).any (¬ ·.terminal)

/-- `count_active_assignments` -/
def activeAssignments (s : WorkSession) (rows : List WorkAssignment) (a : AgentId) : Nat :=
  ((List.range rows.length).filter fun i =>
    rows[i]?.any (·.agentId = a) ∧ (s.sees rows i).any (·.concurrencyConsuming)).length

/-- the transaction ends without a trace -/
def closed (s : WorkSession) : WorkSession := { op := s.op, todo := [] }

/-- the dependents that were released, written -/
def settled (s : WorkSession) (rows : List WorkAssignment) : List WorkAssignment :=
  rows.mapIdx fun i r => match s.released.lookup i with
    | some st => r.put false st
    | none => r

/-- the row of the assignment itself, written -/
def writeOwn (s : WorkSession) (byDispatch : Bool) (r : WorkAssignment) : WorkAssignment :=
  match s.own with
  | some st => r.put byDispatch st
  | none => r

/-- the rows after the commit -/
def publish (s : WorkSession) (rows : List WorkAssignment) : List WorkAssignment :=
  match s.op with
  | .create c => rows ++ (s.fresh.map c.row).toList
  | .transition id _ => (s.settled rows).modify id (s.writeOwn false)
  | .dispatch id _ => (s.settled rows).modify id (s.writeOwn true)

end WorkSession

/-! ## statements -/

/-- `_REVIEW_ONLY_ROLES` -/
def WorkAssignmentRole.reviewOnly : WorkAssignmentRole → Bool
  | reviewer | researcher => true
  | _ => false

namespace WorkSession

/-- the session after the statement, if `ok` holds; a refusal or an exception ends it -/
def require (s : WorkSession) (ok : Bool) (rest : List WorkStmt) : WorkSession :=
  if ok then { s with todo := rest } else s.closed

/-- a check of the readiness gate, on the committed row of the assignment -/
def requireOf (s : WorkSession) (db : WorkDb) (rest : List WorkStmt)
    (ok : AssignmentId → WorkAssignment → Bool) : WorkSession :=
  s.require (s.op.target.any fun id => db.rows[id]?.any (ok id)) rest

/-- `transition_status` up to the flush; the caller's session holds the status -/
def move (s : WorkSession) (db : WorkDb) (n : Nat) (target : WorkAssignmentStatus)
    (rest : List WorkStmt) : WorkSession :=
  match s.held with
  | none => s.closed
  | some current =>
    if target = current then { s with todo := rest }
    else if target ∉ current.allowedTransitions then s.closed
    else if s.op.target.any (Locks.heldByOther holds db.sessions n) then s
    else { s with held := some target, own := some target, todo := .dependents :: rest }

/-- `_refresh_dependency_state` after the SELECT of the dependencies -/
def settle (s : WorkSession) (db : WorkDb) (d : AssignmentId) (st : WorkAssignmentStatus)
    (rest : List WorkStmt) : WorkSession :=
  if db.rows[d]?.all fun r => s.satisfied db.rows r.dependsOn then
    { s with todo := .write d .ready :: rest }
  else if st = .waitingDependency then { s with todo := rest }
  else { s with todo := .write d .waitingDependency :: rest }

/-- the `n`-th session after a statement that commits nothing; who waits for a lock stays -/
def next (s : WorkSession) (db : WorkDb) (n : Nat) (rest : List WorkStmt) : WorkStmt → WorkSession
  | .checkDuplicate c =>
    s.require (c.agentId < db.agents.length ∧ (c.role.reviewOnly → c.readWriteMode = .readOnly) ∧
      s.duplicates db.rows c.key c.parallelExplorationGroupId = []) rest
  | .insert c =>
    if c.dependsOn.all (· < db.rows.length) then
      { s with fresh := some (s.satisfied db.rows c.dependsOn), todo := rest }
    else s.closed
  | .load =>
    { s with held := s.op.target.bind fun id => db.rows[id]?.map (·.status), todo := rest }
  | .availability => s.requireOf db rest fun _ r =>
      db.agents[r.agentId]?.any fun a => a.status = .active ∧
        s.activeAssignments db.rows r.agentId < a.concurrencyLimit
  | .dependencies => s.requireOf db rest fun _ r => s.satisfied db.rows r.dependsOn
  | .duplicate first => s.requireOf db rest fun id r =>
      let found := s.duplicates db.rows r.canonicalWorkKey r.parallelExplorationGroupId
      found[first % found.length]?.all (· = id)
  | .gate refusal => s.require refusal.isNone rest
  | .move target => s.move db n target rest
  | .dependents =>
    let found := (List.range db.rows.length).filter fun d =>
      db.rows[d]?.any fun r => s.op.target.any (· ∈ r.dependsOn)
    { s with todo := found.map .refresh ++ rest }
  | .refresh d =>
    match s.sees db.rows d with
    | some st =>
      if st = .planned ∨ st = .waitingDependency then { s with todo := .settle d st :: rest }
      else { s with todo := rest }
    | none => { s with todo := rest }
  | .settle d st => s.settle db d st rest
  | .write d st =>
    if Locks.heldByOther holds db.sessions n d then s
    else { s with released := (d, st) :: s.released, todo := rest }
  | .start none _ => { s with todo := .move .running :: rest }
  | .start (some (.other _)) commits =>
    { s with todo := [.move .blocked, if commits then .commit else .abort] }
  | .start (some _) _ => { s with todo := .move .blocked :: rest }
  | .commit | .abort => s.closed

end WorkSession

/-! ## the system -/

inductive WorkStep where
  | call (op : WorkOp)
  | advance (n : Nat)
  /-- the transaction dies, or its caller rolls it back -/
  | rollback (n : Nat)
  deriving DecidableEq

def WorkStep.step (db : WorkDb) : WorkStep → WorkDb
  | .call op => { db with sessions := db.sessions ++ [{ op, todo := op.program }] }
  | .advance n =>
    match db.sessions[n]? with
    | some s =>
      match s.todo with
      | [] => db
      | .commit :: _ =>
        { db with rows := s.publish db.rows, sessions := db.sessions.set n s.closed }
      | stmt :: rest => { db with sessions := db.sessions.set n (s.next db n rest stmt) }
    | none => db
  | .rollback n =>
    { db with sessions := db.sessions.modify n WorkSession.closed }

end LifeAI
