import LifeAI.Coordination.Dispatch
import LifeAI.Coordination.Sessions
import LifeAI.Tasks.Dispatch

/-!
# The readiness gate, and the dispatch behind it

The tables that `dispatch.py` and the readiness checks of `service.py` read.

* `Gate.Tables`         assignments, agents, dependencies, scope leases, and the execution loop;
* `evaluateAssignmentReadiness`, `evaluateDispatchReadiness`   the checks, in their order; a refusal
                   carries what its text names;
* `dispatchAssignment`  one call, with what `start_assignment` does.

A row of `assignments` has its id in a column.  The composite foreign keys give the rows of an
assignment the owner of the assignment; the partial unique index gives it one active lease at most.
-/

namespace LifeAI.Gate

/-- `str.strip` -/
def strip (s : List Char) : List Char :=
  ((s.dropWhile isspace).reverse.dropWhile isspace).reverse

/-- the text without the suffix, if it ends with it -/
def withoutSuffix? (suffix s : List Char) : Option (List Char) :=
  if suffix.isSuffixOf s then some (s.take (s.length - suffix.length)) else none

/-- `_segments`: the first of the globs that is a suffix is taken off -/
def segments (path : String) : List String :=
  let normalized := strip path.toList
  let normalized := (["/**", "/*", "**", "*"].findSome? fun glob =>
    withoutSuffix? glob.toList normalized).getD normalized
  let normalized := (normalized.reverse.dropWhile (· = '/')).reverse
  ((normalized.splitOn '/').filter (· ≠ [])).map String.ofList

/-- `paths_conflict` -/
def pathsConflict (a b : String) : Bool :=
  let n := min (segments a).length (segments b).length
  (segments a).take n = (segments b).take n

/-- `paths_conflict_any` -/
def pathsConflictAny (as bs : List String) : Bool := as.any fun a => bs.any fun b => pathsConflict a b

inductive AgentScopeLeaseStatus where
  | active | released | superseded
  deriving DecidableEq

/-- a row of `agent_scope_leases` -/
structure AgentScopeLease where
  ownerId : OwnerId
  assignmentId : AssignmentId
  repositoryIdentity : String
  branch : String
  worktreePath : String
  allowedPaths : List String
  mode : WorkAssignmentReadWriteMode
  status : AgentScopeLeaseStatus := .active
  expiresAt : Option Time := none
  deriving DecidableEq

/-- `is_lease_stale` -/
def AgentScopeLease.stale (now : Time) (l : AgentScopeLease) : Bool :=
  l.status = .active ∧ l.expiresAt.any (· < now)

/-- a row of `agent_work_assignments`, with the columns that the gate reads -/
structure Assignment extends AgentWorkAssignment where
  goalId : GoalId
  agentId : AgentId
  readWriteMode : WorkAssignmentReadWriteMode
  repositoryIdentity : String
  branch : Option String := none
  worktreePath : Option String := none
  baseSha : Option String := none
  approvalRequired : Bool := false
  canonicalWorkKey : String
  /-- `provenance.get("authorized_instruction_sha256")` -/
  authorizedInstructionSha256 : Option String := none
  deriving DecidableEq

/-- a row of `agent_work_assignment_dependencies` -/
structure AssignmentDependency where
  assignmentId : AssignmentId
  dependsOnAssignmentId : AssignmentId
  deriving DecidableEq

inductive RowEvent where
  | statusChanged (current target : WorkAssignmentStatus) (detail : TransitionDetail)
  | dependencySatisfied
  deriving DecidableEq

structure Tables where
  assignments : List Assignment
  agents : List CoordinationAgent := []
  dependencies : List AssignmentDependency := []
  leases : List AgentScopeLease := []
  /-- goals, tasks and the approvals among the task events -/
  loop : Db := {}
  events : List (AssignmentId × RowEvent) := []

/-! ## readiness -/

/-- a decision of a check, with what its reason names -/
inductive Outcome where
  | assignable
  | agentUnavailable (status : CoordinationAgentStatus) (active concurrencyLimit : Nat)
  | authorityChanged
  | staleBase (recorded current : String)
  | waitingDependency
  | duplicateWork (id : AssignmentId)
  | worktreeConflict (lease : AgentScopeLease)
  | pathConflict (lease : AgentScopeLease)
  | leaseRequired
  | capabilityMismatch (missing : List String)
  | scopeNotExplicit (escaping : List String)
  | adapterDisabled | adapterUnavailable
  | approvalRequired
  | realProviderNotConfigured (message : String)
  | adapterProcessLost (message : String)
  | adapterTimeout (message : String)
  deriving DecidableEq

namespace Tables

variable (t : Tables)

/-- `count_active_assignments` -/
def countActiveAssignments (agent : AgentId) : Nat :=
  t.assignments.countP fun a => a.agentId = agent ∧ a.status.concurrencyConsuming

/-- `_dependencies_satisfied` -/
def dependenciesSatisfied (a : Assignment) : Bool :=
  let ids := (t.dependencies.filter (·.assignmentId = a.id)).map (·.dependsOnAssignmentId)
  t.assignments.all fun d => d.id ∉ ids ∨ d.status.releasesDependents

/-- `is_duplicate_canonical_work` -/
def isDuplicateCanonicalWork (a : Assignment) : Option Assignment :=
  if a.parallelExplorationGroupId.isSome then none
  else t.assignments.find? fun d => d.ownerId = a.ownerId ∧
    d.canonicalWorkKey = a.canonicalWorkKey ∧ ¬ d.status.terminal

/-- `_active_leases_for_repo` -/
def activeLeasesForRepo (now : Time) (owner : OwnerId) (repository : String) :
    List AgentScopeLease :=
  t.leases.filter fun l => l.ownerId = owner ∧ l.repositoryIdentity = repository ∧
    l.status = .active ∧ ¬ l.stale now

/-- `_shares_parallel_exploration_group` -/
def sharesParallelExplorationGroup (group : Option Nat) (other : AssignmentId) : Bool :=
  group.isSome ∧ (t.assignments.find? (·.id = other)).any (·.parallelExplorationGroupId = group)

/-- `scan_write_scope_conflict` for a row -/
def scanWriteScopeConflict (now : Time) (a : Assignment) : Option Outcome :=
  let others := (t.activeLeasesForRepo now a.ownerId a.repositoryIdentity).filter
    (·.assignmentId ≠ a.id)
  let holder := if a.branch.any (· ≠ "") ∨ a.worktreePath.any (· ≠ "") then
      others.find? fun l => a.branch = some l.branch ∨ a.worktreePath = some l.worktreePath
    else none
  match holder with
  | some l => some (.worktreeConflict l)
  | none => (others.find? fun l => l.mode = .readWrite ∧
      ¬ t.sharesParallelExplorationGroup a.parallelExplorationGroupId l.assignmentId ∧
      pathsConflictAny a.allowedPaths l.allowedPaths).map .pathConflict

/-- the row has an active lease of its own -/
def holdsLease (a : Assignment) : Bool :=
  t.leases.any fun l => l.assignmentId = a.id ∧ l.status = .active

/-- the part of `evaluate_assignment_readiness` for a `read_write` row -/
def writeReadiness (now : Time) (a : Assignment) : Outcome :=
  match t.scanWriteScopeConflict now a with
  | some o => o
  | none =>
    if ¬ t.holdsLease a ∧ (a.status = .ready ∨ a.status = .running) then .leaseRequired
    else .assignable

/-- the check of the base: `none` when it passes -/
def staleBase (current recorded : Option String) : Option Outcome :=
  match current, recorded with
  | some current, some recorded =>
    if current ≠ recorded then some (.staleBase recorded current) else none
  | _, _ => none

/-- `evaluate_assignment_readiness`; `none` when the agent does not exist -/
def evaluateAssignmentReadiness (digest : String → String) (now : Time) (a : Assignment)
    (currentBaseSha : Option String) : Option Outcome :=
  (t.agents[a.agentId]?).map fun agent =>
    let active := t.countActiveAssignments a.agentId
    if agent.status ≠ .active ∨ agent.concurrencyLimit ≤ active then
      .agentUnavailable agent.status active agent.concurrencyLimit
    else if (t.loop.goals[a.goalId]?).any fun goal => a.authorizedInstructionSha256.any
        (· ≠ digest goal.originalInstruction) then .authorityChanged
    else match staleBase currentBaseSha a.baseSha with
      | some o => o
      | none =>
        if ¬ t.dependenciesSatisfied a then .waitingDependency
        else match (t.isDuplicateCanonicalWork a).filter (·.id ≠ a.id) with
          | some d => .duplicateWork d.id
          | none => if a.readWriteMode = .readWrite then t.writeReadiness now a else .assignable

end Tables

/-! ## dispatch -/

/-- what `await adapter.start_assignment` does -/
inductive Start where
  | returned
  | raised (e : AdapterErr)
  /-- a `BaseException` that is no `Exception`: `CancelledError`, `KeyboardInterrupt`, `SystemExit` -/
  | interrupted
  deriving DecidableEq

/-- a call of `dispatch_assignment`; the assignment is named by its position in the table -/
structure Call where
  assignment : Nat
  agent : CoordinationAgent
  now : Time
  attemptId : AttemptId
  /-- `authority_envelope.get("allowed_paths") or ()` -/
  envelopePaths : List String := []
  requiredCapabilities : List String := []
  requireAdapterEnabled : Bool := false
  /-- what `adapter_availability` finds in the environment and on the PATH -/
  adapterEnabled : Bool := false
  executableFound : Bool := false
  start : Start := .returned
  deriving DecidableEq

/-- what a set of names has that a list lacks, sorted -/
def missing (names held : List String) : List String :=
  ((names.filter (· ∉ held)).dedup).mergeSort (· ≤ ·)

namespace Tables

variable (t : Tables)

/-- the founder's approval, by the task if there is one -/
def approved (a : Assignment) : Bool :=
  match a.taskId with
  | none => ¬ a.approvalRequired
  | some i =>
    match t.loop.tasks[i]?, t.loop.goals[a.goalId]? with
    | some task, some goal => (requireTaskApproval t.loop i task goal.approvalPolicy).isOk
    | _, _ => false

/-- `evaluate_dispatch_readiness` -/
def evaluateDispatchReadiness (digest : String → String) (c : Call) (a : Assignment) :
    Option Outcome :=
  (t.evaluateAssignmentReadiness digest c.now a none).map fun base =>
    if base ≠ .assignable then base
    else if missing c.requiredCapabilities c.agent.capabilities ≠ [] then
      .capabilityMismatch (missing c.requiredCapabilities c.agent.capabilities)
    else if a.readWriteMode = .readWrite ∧
        ¬ (a.branch.any (· ≠ "") ∧ a.worktreePath.any (· ≠ "")) then .scopeNotExplicit []
    else if c.requireAdapterEnabled ∧ ¬ c.adapterEnabled then .adapterDisabled
    else if c.requireAdapterEnabled ∧ ¬ c.executableFound then .adapterUnavailable
    else if ¬ t.approved a then .approvalRequired
    else .assignable

/-- `_refresh_dependency_state` -/
def refreshDependencyState (t : Tables) (i : Nat) : Tables :=
  match t.assignments[i]? with
  | none => t
  | some a =>
    if a.status ≠ .planned ∧ a.status ≠ .waitingDependency then t
    else if t.dependenciesSatisfied a then
      { t with
        assignments := t.assignments.modify i fun a => { a with status := .ready }
        events := t.events ++ [(a.id, .dependencySatisfied)] }
    else { t with
      assignments := t.assignments.modify i fun a => { a with status := .waitingDependency } }

/-- the positions of the rows that depend on the one with the id -/
def dependents (id : AssignmentId) : List Nat :=
  (t.dependencies.filter (·.dependsOnAssignmentId = id)).filterMap fun d =>
    t.assignments.findIdx? (·.id = d.assignmentId)

/-- `_release_dependents` -/
def releaseDependents (id : AssignmentId) : Tables :=
  (t.dependents id).foldl refreshDependencyState t

/-- `transition_status`: the row afterwards, and the tables -/
def transitionStatus (now : Time) (i : Nat) (a : Assignment) (target : WorkAssignmentStatus)
    (detail : TransitionDetail) : Except CoordinationErr (Assignment × Tables) := do
  let row ← a.transition now target
  let moved : Assignment := { a with toAgentWorkAssignment := row }
  if target = a.status then return (a, t)
  else if detail.storable then
    return (moved, releaseDependents
      { t with
        assignments := t.assignments.set i moved
        events := t.events ++ [(a.id, .statusChanged a.status target detail)] } a.id)
  else .error .dataError

end Tables

inductive Answer where
  | decided (outcome : Outcome) (attemptId : Option AttemptId)
  | raised (e : CoordinationErr)
  | interrupted
  deriving DecidableEq

/-- how a call ends -/
structure Dispatched where
  answer : Answer
  /-- `start_assignment` was called -/
  started : Bool
  tables : Tables

/-- the `detail` of the transition to `blocked` -/
def blockDetail (attemptId : AttemptId) : AdapterErr → TransitionDetail
  | .providerNotConfigured message =>
    { reason := some "REAL_PROVIDER_NOT_CONFIGURED", detail := some message, attemptId := attemptId }
  | .processLost message =>
    { reason := some "ADAPTER_PROCESS_LOST", detail := some message, attemptId := attemptId }
  | .timeout message =>
    { reason := some "ADAPTER_TIMEOUT", detail := some message, attemptId := attemptId }
  | .other message =>
    { reason := some "adapter_start_assignment_failed", detail := some message
      attemptId := attemptId }

/-- what the caller gets after the block: the last kind of exception is raised again -/
def blockAnswer (attemptId : AttemptId) : AdapterErr → Answer
  | .providerNotConfigured message => .decided (.realProviderNotConfigured message) attemptId
  | .processLost message => .decided (.adapterProcessLost message) attemptId
  | .timeout message => .decided (.adapterTimeout message) attemptId
  | .other message => .raised (.adapter (.other message))

/-- the part of `dispatch_assignment` behind the gate, for the row `a`.  When the database refuses a
flush, the transaction can only be rolled back. -/
def startAssignment (c : Call) (a : Assignment) (t : Tables) : Dispatched :=
  match t.transitionStatus c.now c.assignment a .waitingAgent
      { reason := some "dispatching", attemptId := some c.attemptId } with
  | .error e => ⟨.raised e, false, t⟩
  | .ok (a₁, t₁) =>
    match c.start with
    | .interrupted => ⟨.interrupted, true, t₁⟩
    | .raised e =>
      match t₁.transitionStatus c.now c.assignment a₁ .blocked
          (blockDetail c.attemptId e) with
      | .error err => ⟨.raised err, true, t⟩
      | .ok (_, t₂) => ⟨blockAnswer c.attemptId e, true, t₂⟩
    | .returned =>
      match t₁.transitionStatus c.now c.assignment a₁ .running { attemptId := some c.attemptId } with
      | .error err => ⟨.raised err, true, t⟩
      | .ok (_, t₂) => ⟨.decided .assignable (some c.attemptId), true, t₂⟩

/-- `dispatch_assignment` -/
def dispatchAssignment (digest : String → String) (c : Call) (a : Assignment) (t : Tables) :
    Dispatched :=
  match t.evaluateDispatchReadiness digest c a with
  | none => ⟨.raised (.coordination
      ("CoordinationAgent " ++ toString a.agentId ++ " does not exist")), false, t⟩
  | some o =>
    if o ≠ .assignable then ⟨.decided o none, false, t⟩
    else if missing c.envelopePaths a.allowedPaths ≠ [] then
      ⟨.decided (.scopeNotExplicit (missing c.envelopePaths a.allowedPaths)) none, false, t⟩
    else startAssignment c a t

/-- a call on the row that it names -/
def Call.dispatched (digest : String → String) (t : Tables) (c : Call) : Option Dispatched :=
  (t.assignments[c.assignment]?).map fun a => dispatchAssignment digest c a t

/-- one call after the other -/
def Call.step (digest : String → String) (t : Tables) (c : Call) : Tables :=
  ((c.dispatched digest t).map Dispatched.tables).getD t

end LifeAI.Gate
