import LifeAI.Driver.Plan
import LifeAI.Operator.Paths

/-!
# The safe planner

* `PlanCandidate`      a candidate plan, as it comes out of `parse_candidate`;
* `orderedSteps`       `_ordered_steps`;
* `validateStep`       `_validate_step`;
* `validateCandidate`  `validate_candidate`, and the plan that it accepts;
* `planFounderRequest`  `plan_founder_request` for a given candidate.

What the planner asks about the request, the goal, the approval and the earlier plans is in the
fields of `PlanningScope`.
-/

namespace LifeAI.Planner

open Driver (DriverStep DevelopmentPlan driverDirectives forbiddenCapabilities hasKey)

structure CandidateStep where
  stepId : String
  purpose : String
  expectedResult : String
  capability : String
  arguments : List (String × Json) := []
  dependsOn : List Json := []
  requiredRisk : String := Tier.readOnly.name
  expectedEvidence : String := "operator_trace"
  verificationRequired : Bool := false
  onFailure : String := "stop"
  independentOfProvider : Bool := true

structure PlanAlternative where
  name : String
  benefit : String
  risk : String
  requiredCapabilities : List Json := []
  verificationImplications : List Json := []

structure PlanCandidate where
  interpretation : String
  requestedOutcome : String
  rationale : String
  steps : List CandidateStep
  assumptions : List Json := []
  unknowns : List Json := []
  facts : List Json := []
  exclusions : List Json := []
  alternatives : List PlanAlternative := []
  strategyRefs : List Json := []
  lessonRefs : List Json := []
  provider : Json := .null
  model : Json := .null
  modelVersion : Json := .null
  providerRole : Json := .null
  predecessorPlanId : Json := .null
  replanReason : Json := .null

structure PlanningScope where
  files : Files
  operator : OperatorScope
  strategyExecutionId : String
  maxPlanSteps : ℤ := 20
  maxAlternatives : ℤ := 3
  originalInstruction : String := ""
  /-- the checks of the request against its goal, task, job, authority and workspace: a
  classification ends the planning -/
  request : Except Err (Option String) := .ok none
  elapsed : Bool := false
  /-- the approval policy of the goal, and the approval of the task -/
  approval : Except Err Unit := .ok ()
  /-- the questions of `validate_plan` -/
  authority : Except Err Unit := .ok ()
  /-- the Active Context -/
  context : Except Err Unit := .ok ()
  /-- `_candidate_hash` -/
  candidateHash : PlanCandidate → String
  /-- an earlier candidate of this hash's source was accepted, and this is no revision of it -/
  conflicts : String → Bool := fun _ => false
  /-- what `\w` matches -/
  wordChar : Char → Bool

def refuse {α : Type} (message : String) : Except Err α := .error (.candidateValidation message)

/-! ## the words of a candidate -/

/-- the alternatives of `FORBIDDEN_WORDS` -/
def forbiddenWords : List (List Char) :=
  ["shell".toList, "terminal".toList, "merge".toList, "deploy".toList, "forcepush".toList,
    "force-push".toList, "force push".toList, "production".toList, "prod database".toList,
    "production database".toList]

/-- a forbidden word at the head of the text, up to a word boundary -/
def forbiddenHere (wordChar : Char → Bool) (s : List Char) : Bool :=
  forbiddenWords.any fun w =>
    ciPrefix w s ∧ ((s.drop w.length).head?.all fun c => ¬ wordChar c)

/-- the same at any word boundary of the text; `inside` says that a word character comes before -/
def forbiddenFrom (wordChar : Char → Bool) (inside : Bool) : List Char → Bool
  | [] => false
  | c :: s => (¬ inside ∧ forbiddenHere wordChar (c :: s)) ∨ forbiddenFrom wordChar (wordChar c) s

namespace PlanningScope

variable (e : PlanningScope)

/-- `FORBIDDEN_WORDS.search` -/
def forbids (text : String) : Bool := forbiddenFrom e.wordChar false text.toList

end PlanningScope

/-! ## the order of the steps -/

/-- `dep not in by_id`, for a dependency that may be any value -/
def unknownDependency (ids : List String) : Json → Except Err Bool
  | .str s => .ok (s ∉ ids)
  | .arr _ => .error .typeError
  | .obj _ => .error .typeError
  | _ => .ok true

def checkDependencies (ids : List String) : List Json → Except Err Unit
  | [] => .ok ()
  | d :: ds =>
    match unknownDependency ids d with
    | .error x => .error x
    | .ok true => refuse "step dependency references an unknown step"
    | .ok false => checkDependencies ids ds

def checkAllDependencies (ids : List String) : List CandidateStep → Except Err Unit
  | [] => .ok ()
  | step :: rest =>
    match checkDependencies ids step.dependsOn with
    | .error x => .error x
    | .ok () => checkAllDependencies ids rest

/-- the step is not done, and what it depends on is -/
def ready (done : List String) (step : CandidateStep) : Bool :=
  step.stepId ∉ done ∧ step.dependsOn.all fun
    | .str s => s ∈ done
    | _ => false

/-- the rounds of the loop; each of them takes a step -/
def rounds (steps : List CandidateStep) : ℕ → List CandidateStep → Except Err (List CandidateStep)
  | 0, result => .ok result
  | n + 1, result =>
    if steps.length ≤ result.length then .ok result
    else
      match steps.filter (ready (result.map (·.stepId))) with
      | [] => refuse "plan dependency graph contains a cycle"
      | step :: rest => rounds steps n (result ++ step :: rest)

/-- `_ordered_steps` -/
def orderedSteps (c : PlanCandidate) : Except Err (List CandidateStep) :=
  let ids := c.steps.map (·.stepId)
  if ¬ ids.Nodup ∨ ids.any blank then refuse "step identities must be non-empty and unique"
  else
    match checkAllDependencies ids c.steps with
    | .error x => .error x
    | .ok () => rounds c.steps c.steps.length []

/-! ## the arguments of a step -/

/-- `PATH_KEYS` -/
def pathKeys : List String := ["path", "scope", "target"]

/-- `value.split("::", 1)[0]` -/
def beforeColons : List Char → List Char
  | ':' :: ':' :: _ => []
  | c :: s => c :: beforeColons s
  | [] => []

variable (e : PlanningScope)

/-- `_validate_path_value` -/
def validatePathValue (value : String) : Except Err Unit :=
  match operatorPath e.files e.operator value false with
  | .error (.operatorPath message) => refuse message
  | .error x => .error x
  | .ok _ => .ok ()

/-- the entries of `paths`: a value that is no string is no path -/
def validatePaths : List Json → Except Err Unit
  | [] => .ok ()
  | .str s :: rest =>
    match validatePathValue e s with
    | .error x => .error x
    | .ok () => validatePaths rest
  | _ :: _ => .error .typeError

def validateArgument (key : String) (value : Json) : Except Err Unit :=
  if key = "paths" then
    match value with
    | .arr paths => validatePaths e paths
    | _ => refuse "paths must be a list"
  else if key ∈ pathKeys then
    match value with
    | .str s =>
      validatePathValue e (if key = "target" then String.ofList (beforeColons s.toList) else s)
    | _ => .ok ()
  else .ok ()

def validateArguments : List (String × Json) → Except Err Unit
  | [] => .ok ()
  | (key, value) :: rest =>
    match validateArgument e key value with
    | .error x => .error x
    | .ok () => validateArguments rest

instance (j : Json) : Decidable (redactValue j = j) :=
  decidable_of_iff _ (Json.mapStrings_eq_self_iff j).symm

/-- `_validate_step` -/
def validateStep (step : CandidateStep) : Except Err Unit :=
  if step.capability ∈ driverDirectives then
    if step.capability ≠ "verification_evaluate" then
      refuse "provider/review directives require an explicit planning wait, not execution"
    else if step.arguments ≠ [] then refuse "verification directive accepts no arguments"
    else .ok ()
  else if step.capability ∈ forbiddenCapabilities then
    refuse s!"forbidden capability: {step.capability}"
  else
    match developmentCapabilities.lookup step.capability with
    | none =>
      .error (.operatorCapabilityMissing step.capability step.purpose step.independentOfProvider)
    | some actual =>
      if step.capability = "push_branch" then
        refuse "remote-write planning is outside this foundation"
      else if hasKey step.arguments ["command", "shell", "argv", "executable"] then
        refuse "raw command-shaped plan arguments are forbidden"
      else if step.onFailure ∉ ["stop", "retry"] then refuse "unknown failure behavior"
      else if understates step.requiredRisk actual then
        refuse "candidate understates capability risk"
      else
        match validateArguments e step.arguments with
        | .error x => .error x
        | .ok () =>
          if redactValue (.obj step.arguments) ≠ .obj step.arguments then
            refuse "secret-like material is forbidden in plan arguments"
          else .ok ()

def validateSteps : List CandidateStep → Except Err Unit
  | [] => .ok ()
  | step :: rest =>
    match validateStep e step with
    | .error x => .error x
    | .ok () => validateSteps rest

/-! ## the candidate -/

/-- `bool(value)` -/
def truthy : Json → Bool
  | .null => false
  | .bool b => b
  | .int n => n ≠ 0
  | .real r => r.text ∉ ["0.0".toList, "-0.0".toList]
  | .str s => s ≠ ""
  | .arr js => js.length ≠ 0
  | .obj fields => fields.length ≠ 0

def CandidateStep.driverStep (step : CandidateStep) : DriverStep where
  capability := step.capability
  purpose := step.purpose
  expectedResult := step.expectedResult
  arguments := step.arguments
  requiredRisk := step.requiredRisk
  verificationRequired := step.verificationRequired
  onFailure := step.onFailure
  independentOfProvider := step.independentOfProvider

/-- the plan of the ordered steps -/
def acceptedPlan (c : PlanCandidate) (ordered : List CandidateStep) : DevelopmentPlan where
  planId := "safe-" ++ String.ofList ((e.candidateHash c).toList.take 24)
  steps := ordered.map CandidateStep.driverStep
  strategyExecutionId := e.strategyExecutionId

inductive Planned where
  | accepted (plan : DevelopmentPlan) (ordered : List CandidateStep)
  | closed (classification : String)

/-- what `validate_candidate` asks before it looks at the steps -/
def checkCandidate (c : PlanCandidate) : Except Err Unit :=
  if ¬ (1 ≤ c.steps.length ∧ (c.steps.length : ℤ) ≤ min e.maxPlanSteps 50) then
    refuse "plan exceeds bounded step count"
  else if e.maxAlternatives < c.alternatives.length then
    refuse "plan exceeds bounded alternative count"
  else if truthy c.predecessorPlanId ≠ truthy c.replanReason then
    refuse "plan revision requires predecessor and reason together"
  else if e.forbids c.rationale ∨ e.forbids c.interpretation then
    refuse "candidate interpretation contains forbidden action"
  else .ok ()

/-- what it asks after it has validated the steps -/
def acceptOrdered (c : PlanCandidate) (ordered : List CandidateStep) : Except Err Planned := do
  if e.elapsed then refuse "planning elapsed-time bound exceeded"
  e.approval
  (acceptedPlan e c ordered).check e.strategyExecutionId e.authority
  e.context
  if e.conflicts (e.candidateHash c) then
    refuse "equivalent planning identity conflicts with prior candidate"
  return .accepted (acceptedPlan e c ordered) ordered

/-- `validate_candidate` -/
def validateCandidate (c : PlanCandidate) : Except Err Planned :=
  match e.request with
  | .error x => .error x
  | .ok (some classification) => .ok (.closed classification)
  | .ok none => do
    checkCandidate e c
    let ordered ← orderedSteps c
    validateSteps e ordered
    acceptOrdered e c ordered

/-- `plan_founder_request` -/
def planFounderRequest (c : PlanCandidate) : Except Err Planned :=
  match e.request with
  | .error x => .error x
  | .ok (some classification) => .ok (.closed classification)
  | .ok none =>
    if e.forbids e.originalInstruction then .ok (.closed "UNSAFE_REQUEST")
    else
      match validateCandidate e c with
      | .error (.operatorCapabilityMissing ..) => .ok (.closed "CAPABILITY_MISSING")
      | r => r

end LifeAI.Planner
