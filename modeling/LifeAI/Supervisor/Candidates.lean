import LifeAI.Operator.Capability
import LifeAI.Tasks.Outcome

/-!
# One pass of the supervisor, up to its choice

`supervisorPass` is the head of the loop of `run_supervisor`: it validates the scope, assesses the
tasks of the goal (`discoverCandidates`) and chooses one (`selectCandidate`).  When there is none
and no task is left to do, it closes the goal itself.  The bindings are those after
`_augment_bindings_with_gap_children`, and `intentActionable` is the verdict of
`evaluate_feasibility`.
-/

namespace LifeAI

structure SupervisorScope where
  ownerId : OwnerId
  goalId : GoalId
  authorityKind : String
  authorityRef : String
  /-- the instruction whose hash the scope carries -/
  authorizedInstruction : String
  repositoryIdentity : String
  allowedPaths : List String
  allowedCapabilities : List String
  maximumRisk : String := "low"
  completionCriteria : List String := []
  lifeIntentId : Option Nat := none
  selfWork : Bool := false
  deriving DecidableEq

structure WorkBinding where
  taskId : TaskId
  requiredCapabilities : List String := []
  expectedContribution : String := "advance the authorized goal"
  ambiguityRefs : List String := []
  contradictionRefs : List String := []
  repositoryIdentity : String := ""
  allowedPaths : List String := []
  deriving DecidableEq

structure CandidateAssessment where
  taskId : TaskId
  purpose : String
  status : TaskStatus
  actionable : Bool
  reason : String
  priority : Int
  expectedContribution : String := ""
  deferredCode : Option String := none
  deriving DecidableEq

/-- the one exception class of this code -/
structure SupervisorError where
  message : String
  deriving DecidableEq

structure SupervisorEnv where
  now : Time
  maxCandidates : Nat := 20
  /-- `evaluate_feasibility`: an `IntentError`, or whether the intent is actionable -/
  intentActionable : OwnerId → Nat → Except String Bool := fun _ _ => .ok true
  /-- the tasks that this run has put off -/
  deferred : TaskId → Option String := fun _ => none

/-! ## the scope -/

/-- `RISK_ORDER` -/
def riskOrder (risk : String) : Option Nat :=
  if risk = "low" then some 0
  else if risk = "medium" then some 1
  else if risk = "high" then some 2
  else none

def RiskLevel.order : RiskLevel → Nat
  | .low => 0
  | .medium => 1
  | .high => 2

/-- `_goal` -/
def Db.ownedGoal (db : Db) (scope : SupervisorScope) : Except SupervisorError Goal :=
  match db.goals[scope.goalId]? with
  | none => .error ⟨"parent goal is missing or belongs to another owner"⟩
  | some goal =>
    if goal.ownerId = scope.ownerId then .ok goal
    else .error ⟨"parent goal is missing or belongs to another owner"⟩

/-- `validate_scope`: the classification and the reason at which the run ends, if there is one -/
def validateScope (env : SupervisorEnv) (db : Db) (scope : SupervisorScope) :
    Except SupervisorError (Option (String × String)) := do
  let goal ← db.ownedGoal scope
  if scope.authorityKind ∉
      ["founder_requirement", "founder_decision", "founder_correction", "authorized_goal"] ∨
      blank scope.authorityRef then
    return some ("NEEDS_AUTHORIZATION", "explicit founder authority is required")
  else if goal.originalInstruction ≠ scope.authorizedInstruction then
    return some ("AUTHORITY_CHANGED", "founder instruction changed or was superseded")
  else if riskOrder scope.maximumRisk = none then .error ⟨"risk envelope is invalid"⟩
  else if blank scope.repositoryIdentity ∨ scope.allowedPaths = [] then
    .error ⟨"bounded repository/path scope is required"⟩
  else if scope.allowedCapabilities = [] ∨ ¬ scope.allowedCapabilities.all knownCapability then
    .error ⟨"capability envelope contains missing or unsafe capability"⟩
  else if goal.status = .cancelled then return some ("CANCELLED", "goal is terminal")
  else if goal.status = .completed then return some ("COMPLETE", "goal is terminal")
  else match scope.lifeIntentId with
    | none => return none
    | some intent =>
      match env.intentActionable scope.ownerId intent with
      | .error message => .error ⟨message⟩
      | .ok true => return none
      | .ok false => return some ("BLOCKED", "linked Life Intent is not actionable")

/-! ## candidates -/

/-- `task.blocker_reason or f"task is {task.status.value}"` -/
def Task.blockedText (t : Task) : String :=
  match t.blockerReason with
  | some r => if r = "" then "task is " ++ t.status.value else r
  | none => "task is " ++ t.status.value

/-- the reason for which a task is not a candidate -/
def Task.refusal (t : Task) (scope : SupervisorScope) (binding : Option WorkBinding) :
    Option String :=
  if t.status.terminal ∨ t.status = .waitingExternal ∨ t.status = .waitingCi then
    some ("task is " ++ t.status.value)
  else if t.status = .blocked ∨ t.status = .pending then some t.blockedText
  else match binding with
    | none => some "execution binding is unavailable"
    | some b =>
      if b.repositoryIdentity ≠ scope.repositoryIdentity ∨
          ¬ b.allowedPaths.all (· ∈ scope.allowedPaths) then
        some "out_of_scope repository or path binding"
      else if (riskOrder scope.maximumRisk).any (· < t.riskLevel.order) then
        some "task exceeds authorized risk envelope"
      else if ¬ b.requiredCapabilities.all (· ∈ scope.allowedCapabilities) then
        some "required capability is outside authorized envelope"
      else if b.ambiguityRefs ≠ [] then some "material ambiguity remains"
      else if b.contradictionRefs ≠ [] then some "founder authority contradiction remains"
      else none

/-- one row of `discover_candidates` -/
def Task.assess (t : Task) (i : TaskId) (scope : SupervisorScope) (bindings : List WorkBinding) :
    CandidateAssessment :=
  -- the last binding of a task is the one that the dictionary keeps
  let binding := bindings.reverse.find? (·.taskId = i)
  let refusal := t.refusal scope binding
  { taskId := i
    purpose := t.description
    status := t.status
    actionable := refusal.isNone ∧ (t.status = .ready ∨ t.status = .running)
    reason := refusal.getD "canonical task is ready"
    priority := t.priority
    expectedContribution := (binding.map (·.expectedContribution)).getD "" }

/-- the tasks that the scope is about, the highest priority first -/
def Db.scopedTasks (db : Db) (scope : SupervisorScope) : List (TaskId × Task) :=
  ((db.tasks.zipIdx.map fun p => (p.2, p.1)).filter fun p =>
    p.2.ownerId = scope.ownerId ∧ p.2.goalId = scope.goalId).insertionSort
      fun p q => q.2.priority ≤ p.2.priority

/-- `discover_candidates` -/
def discoverCandidates (env : SupervisorEnv) (db : Db) (scope : SupervisorScope)
    (bindings : List WorkBinding) : Except SupervisorError (List CandidateAssessment) :=
  if ¬ (1 ≤ env.maxCandidates ∧ env.maxCandidates ≤ 100) then
    .error ⟨"candidate bound is invalid"⟩
  else if (db.scopedTasks scope).length > env.maxCandidates then
    .error ⟨"candidate discovery bound reached"⟩
  else .ok ((db.scopedTasks scope).map fun p => p.2.assess p.1 scope bindings)

/-- `DEFERRED_REASON_MESSAGES` -/
def deferredMessage (code : String) : String :=
  if code = "CAPABILITY_MISSING" then
    "capability missing; bounded capability child required or authorization pending"
  else if code = "VERIFICATION_REQUIRED" then
    "verification failed or remains incomplete; bounded repair required"
  else if code = "PROVIDER_SPEND_NOT_AUTHORIZED" then
    "provider-assisted planning is not authorized for this scope"
  else if code = "WAITING_PROVIDER" then "provider planning is unavailable"
  else if code = "GAP_GENERATION_ERROR" then
    "gap generation failed closed; unrelated work may continue"
  else code

/-- `_apply_deferred`, on one assessment -/
def CandidateAssessment.deferredBy (a : CandidateAssessment) (deferred : TaskId → Option String) :
    CandidateAssessment :=
  match deferred a.taskId with
  | none => a
  | some code =>
    { a with actionable := false, deferredCode := some code, reason := deferredMessage code }

/-- `needle in hay`, on strings -/
def contains (needle hay : String) : Bool := needle.toList <:+: hay.toList

/-- `select_candidate` -/
def selectCandidate (as : List CandidateAssessment) :
    Option CandidateAssessment × String × String :=
  match as.filter (·.actionable) with
  | [] =>
    let codes := as.filterMap (·.deferredCode)
    if as.any fun a => contains "out_of_scope" a.reason then
      (none, "OUT_OF_SCOPE", "candidate repository/path scope is unauthorized")
    else if "CAPABILITY_MISSING" ∈ codes then
      (none, "CAPABILITY_MISSING", "a bounded candidate has a durable capability gap")
    else if "VERIFICATION_REQUIRED" ∈ codes then
      (none, "VERIFICATION_REQUIRED", "a bounded candidate requires verification repair")
    else if "PROVIDER_SPEND_NOT_AUTHORIZED" ∈ codes then
      (none, "PROVIDER_SPEND_NOT_AUTHORIZED",
        "provider-assisted planning is not authorized for this scope")
    else if "WAITING_PROVIDER" ∈ codes then
      (none, "WAITING_PROVIDER", "provider-dependent work is waiting")
    else if "GAP_GENERATION_ERROR" ∈ codes then
      (none, "BLOCKED", "gap generation failed closed with no other actionable work")
    else (none, "BLOCKED", "no bounded candidate is currently actionable")
  | a :: rest =>
    let highest := rest.foldl (fun p b => max p b.priority) a.priority
    match (a :: rest).filter (·.priority = highest) with
    | [tied] => (some tied, "SELECTED", "highest-priority actionable canonical task")
    | _ => (none, "NEEDS_SELECTION", "materially tied tasks have equal canonical priority")

/-! ## the pass -/

/-- what a pass of the loop comes to -/
inductive SupervisorOutcome where
  /-- `run_supervisor` returns -/
  | result (classification reason : String)
  /-- the pass goes on with this task -/
  | selected (task : TaskId)
  deriving DecidableEq

/-- the assessments that are neither completed nor cancelled -/
def incomplete (as : List CandidateAssessment) : List CandidateAssessment :=
  as.filter fun a => ¬ (a.status = .completed ∨ a.status = .cancelled)

/-- the goal row that the COMPLETE branch writes -/
def Goal.closedCompleted (now : Time) (goal : Goal) : Goal :=
  { goal with status := .completed, completedAt := some now }

/-- the pass of the loop of `run_supervisor`, up to the choice of a task -/
def supervisorPass (env : SupervisorEnv) (db : Db) (scope : SupervisorScope)
    (bindings : List WorkBinding) : Except SupervisorError (SupervisorOutcome × Db) := do
  match ← validateScope env db scope with
  | some (classification, reason) => return (.result classification reason, db)
  | none =>
    let as := (← discoverCandidates env db scope bindings).map (·.deferredBy env.deferred)
    match selectCandidate as with
    | (some a, _, _) => return (.selected a.taskId, db)
    | (none, classification, reason) =>
      if incomplete as = [] then
        if scope.completionCriteria = [] then
          return (.result "NEEDS_CLARIFICATION" "parent completion criteria are not explicit", db)
        else
          let goal ← db.ownedGoal scope
          return (.result "COMPLETE" "all explicit completion criteria have verified child work",
            { db with goals := db.goals.set scope.goalId (goal.closedCompleted env.now) })
      else return (.result classification reason, db)

end LifeAI
