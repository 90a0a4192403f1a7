import LifeAI.Base
import LifeAI.Lib.Tx

/-!
# Work assignments of coordinated agents

* `WorkAssignmentStatus`  the status machine, with `allowedTransitions`;
* `AgentWorkAssignment`   a row of `agent_work_assignments`; `transition` is what
                   `transition_status` does to the row itself;
* `CoordinationAgent`     a row of the agent registry;
* `CoordinationErr`       the exceptions of `agent_coordination` and of its adapters.
-/

namespace LifeAI

abbrev AgentId := Nat
abbrev AssignmentId := Nat
/-- what `uuid4()` draws for an attempt -/
abbrev AttemptId := Nat

inductive WorkAssignmentStatus where
  | planned | ready | running | waitingDependency | waitingAgent | waitingReview | blocked
  | readyForReview | reviewing | changesRequested | verified
  | completed | failed | cancelled | superseded
  deriving DecidableEq

namespace WorkAssignmentStatus

/-- `TERMINAL_WORK_ASSIGNMENT_STATUSES` -/
def terminal : WorkAssignmentStatus → Bool
  | completed | failed | cancelled | superseded => true
  | _ => false

/-- `CONCURRENCY_CONSUMING_STATUSES` -/
def concurrencyConsuming : WorkAssignmentStatus → Bool
  | running | waitingAgent | waitingReview | blocked | readyForReview | reviewing
  | changesRequested | verified => true
  | _ => false

/-- `DEPENDENCY_RELEASE_STATUSES` -/
def releasesDependents : WorkAssignmentStatus → Bool
  | readyForReview | verified | completed => true
  | _ => false

/-- `ALLOWED_TRANSITIONS` -/
def allowedTransitions : WorkAssignmentStatus → List WorkAssignmentStatus
  | planned => [ready, waitingDependency, cancelled]
  | waitingDependency => [ready, blocked, cancelled]
  | ready => [running, waitingAgent, blocked, cancelled]
  | waitingAgent => [running, blocked, cancelled]
  | running => [waitingReview, readyForReview, blocked, failed, completed, cancelled]
  | waitingReview => [reviewing, cancelled]
  | readyForReview => [reviewing, cancelled]
  | reviewing => [changesRequested, verified, completed, cancelled]
  | changesRequested => [running, ready, cancelled]
  | verified => [completed, cancelled]
  | blocked => [ready, running, waitingDependency, failed, cancelled]
  | failed => [ready, superseded]
  | completed => [superseded]
  | cancelled => []
  | superseded => []

end WorkAssignmentStatus

/-- what an adapter may raise -/
inductive AdapterErr where
  | providerNotConfigured (message : String)
  | processLost (message : String)
  | timeout (message : String)
  /-- any other exception -/
  | other (message : String)
  deriving DecidableEq

inductive CoordinationErr where
  | coordination (message : String)
  | invalidTransition (current target : WorkAssignmentStatus)
  /-- `_same_or_conflict`, with the fields that differ -/
  | idempotencyConflict (fields : List String)
  | adapter (e : AdapterErr)
  /-- the database refused the flush; the session can only be rolled back -/
  | dataError
  deriving DecidableEq

/-- a text that the database stores: no NUL, and within the length of the column -/
def storable (maxLength : Option Nat) (s : String) : Bool :=
  '\x00' ∉ s.toList ∧ maxLength.all (s.length ≤ ·)

inductive WorkAssignmentRole where
  | builder | reviewer | tester | challenger | researcher | synthesizer
  deriving DecidableEq

def WorkAssignmentRole.value : WorkAssignmentRole → String
  | builder => "builder"
  | reviewer => "reviewer"
  | tester => "tester"
  | challenger => "challenger"
  | researcher => "researcher"
  | synthesizer => "synthesizer"

/-- `_ROLE_TO_INTELLIGENCE_ROLE` -/
def WorkAssignmentRole.intelligenceRole : WorkAssignmentRole → String
  | builder => "builder"
  | reviewer => "reviewer"
  | challenger => "challenger"
  | tester => "verifier"
  | researcher => "planner"
  | synthesizer => "planner"

inductive AgentAdapterKind where
  | cli | api | internal
  deriving DecidableEq

def AgentAdapterKind.value : AgentAdapterKind → String
  | cli => "cli"
  | api => "api"
  | internal => "internal"

inductive CoordinationAgentStatus where
  | active | unavailable | disabled
  deriving DecidableEq

/-- a row of `coordination_agents` -/
structure CoordinationAgent where
  agentKey : String
  adapterKind : AgentAdapterKind := .cli
  capabilities : List String := []
  modelHint : Option String := none
  concurrencyLimit : Nat := 1
  status : CoordinationAgentStatus := .active
  deriving DecidableEq

/-- an entry of `output_refs` -/
inductive OutputRef where
  | changedPaths (paths : List String)
  | ciRefs (refs : List String)
  deriving DecidableEq

/-- a row of `agent_work_assignments`, with the columns that a dispatch, its result or its tracking
reads or writes -/
structure AgentWorkAssignment where
  id : AssignmentId
  ownerId : OwnerId
  taskId : Option TaskId
  role : WorkAssignmentRole
  parallelExplorationGroupId : Option Nat := none
  allowedPaths : List String := []
  status : WorkAssignmentStatus
  headSha : Option String := none
  upstreamPrRef : Option String := none
  outputRefs : List OutputRef := []
  intelligenceExecutionId : Option Nat := none
  startedAt : Option Time := none
  completedAt : Option Time := none
  deriving DecidableEq

namespace AgentWorkAssignment

/-- the row after `transition_status` -/
def moved (a : AgentWorkAssignment) (now : Time) (target : WorkAssignmentStatus) :
    AgentWorkAssignment :=
  { a with
    status := target
    startedAt := if target = .running ∧ a.startedAt = none then some now else a.startedAt
    completedAt := if target.terminal then some now else a.completedAt }

/-- `transition_status` on the row itself -/
def transition (a : AgentWorkAssignment) (now : Time) (target : WorkAssignmentStatus) :
    Except CoordinationErr AgentWorkAssignment :=
  if target = a.status then .ok a
  else if target ∈ a.status.allowedTransitions then .ok (a.moved now target)
  else .error (.invalidTransition a.status target)

variable {a a' : AgentWorkAssignment} {now : Time} {target : WorkAssignmentStatus}

theorem transition_ok : a.transition now target = .ok a' ↔
    target = a.status ∧ a' = a ∨
      target ≠ a.status ∧ target ∈ a.status.allowedTransitions ∧ a' = a.moved now target := by
  unfold transition
  split
  · next h =>
    rw [Except.ok.injEq]
    constructor
    · rintro rfl
      exact .inl ⟨h, rfl⟩
    · rintro (⟨-, rfl⟩ | ⟨hne, -⟩)
      · rfl
      · exact absurd h hne
  · next hne =>
    split
    · next hmem =>
      rw [Except.ok.injEq]
      constructor
      · rintro rfl
        exact .inr ⟨hne, hmem, rfl⟩
      · rintro (⟨h, -⟩ | ⟨-, -, rfl⟩)
        · exact absurd h hne
        · rfl
    · next hno =>
      constructor
      · intro h
        cases h
      · rintro (⟨h, -⟩ | ⟨-, hmem, -⟩)
        · exact absurd h hne
        · exact absurd hmem hno

/-- whatever the transition, the row has the target status afterwards -/
theorem transition_status (h : a.transition now target = .ok a') : a'.status = target := by
  rcases transition_ok.1 h with ⟨rfl, rfl⟩ | ⟨-, -, rfl⟩
  · rfl
  · rfl

end AgentWorkAssignment

end LifeAI
