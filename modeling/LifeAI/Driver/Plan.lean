import LifeAI.Base
import LifeAI.Lib.Json
import LifeAI.Operator.Capability

/-!
# The plans of the development driver

* `DevelopmentPlan`    a plan and its steps;
* `driverDirectives`   the steps that the driver carries out itself;
* `DevelopmentPlan.check`  what `validate_plan` asks of the plan;
* `signature`, `fits`  the parameters of the operator function behind a capability, and the
                       arguments that can be bound to them.
-/

namespace LifeAI.Driver

structure DriverStep where
  capability : String
  purpose : String
  expectedResult : String
  arguments : List (String × Json) := []
  requiredRisk : String := Tier.readOnly.name
  verificationRequired : Bool := false
  onFailure : String := "stop"
  independentOfProvider : Bool := true

structure DevelopmentPlan where
  planId : String
  steps : List DriverStep
  strategyExecutionId : String
  maxFailures : ℤ := 2

/-- `DRIVER_DIRECTIVES` -/
def driverDirectives : List String := ["verification_evaluate", "external_review", "provider_step"]

/-- `FORBIDDEN_CAPABILITIES` -/
def forbiddenCapabilities : List String :=
  ["shell", "raw_shell", "merge", "deploy", "production_mutation", "force_push"]

def hasKey (fields : List (String × Json)) (keys : List String) : Bool :=
  fields.any fun f => f.1 ∈ keys

namespace DriverStep

/-- the checks that `validate_plan` makes on a step -/
def check (position : ℕ) (step : DriverStep) : Except Err Unit :=
  if blank step.purpose ∨ blank step.expectedResult then
    .error (.driverPlan s!"step {position} lacks purpose/expected result")
  else if step.capability ∈ forbiddenCapabilities then
    .error (.driverPlan s!"forbidden capability: {step.capability}")
  else if hasKey step.arguments ["command", "shell", "argv"] then
    .error (.driverPlan "raw command-shaped arguments are forbidden")
  else if step.capability ∈ driverDirectives then .ok ()
  else
    match developmentCapabilities.lookup step.capability with
    | none => .ok ()
    | some actual =>
      if understates step.requiredRisk actual then
        .error (.driverPlan s!"step {position} understates capability risk ({actual.name})")
      else .ok ()

end DriverStep

namespace DevelopmentPlan

def checkSteps : ℕ → List DriverStep → Except Err Unit
  | _, [] => .ok ()
  | position, step :: rest =>
    match step.check position with
    | .error e => .error e
    | .ok () => checkSteps (position + 1) rest

/-- `validate_plan`; `authority` is how its questions about the task, the goal, the approval and
the strategy end -/
def check (plan : DevelopmentPlan) (strategyExecutionId : String) (authority : Except Err Unit) :
    Except Err Unit :=
  if blank plan.planId ∨ 128 < plan.planId.length then
    .error (.driverPlan "plan identity is missing or too long")
  else if ¬ (1 ≤ plan.steps.length ∧ plan.steps.length ≤ 50) ∨
      ¬ (0 ≤ plan.maxFailures ∧ plan.maxFailures ≤ 10) then
    .error (.driverPlan "plan/action bounds are invalid")
  else if plan.strategyExecutionId ≠ strategyExecutionId then
    .error (.driverPlan "plan strategy attribution differs from operator context")
  else
    match authority with
    | .error e => .error e
    | .ok () => checkSteps 0 plan.steps

end DevelopmentPlan

/-! ## the functions behind the capabilities -/

/-- the parameters of a function that take an argument of the step -/
structure Signature where
  required : List String
  optional : List String := []

/-- the function that `_invoke_operator` calls, if it is one that takes the step's arguments -/
def signature (capability : String) : Option Signature :=
  if "repo_".toList <+: capability.toList then some ⟨[], ["other_ref"]⟩
  else if capability = "list_files" then some ⟨[], ["scope", "limit"]⟩
  else if capability = "search_text" then some ⟨["query"], ["scope", "limit"]⟩
  else if capability = "read_file" then some ⟨["path"], ["max_bytes"]⟩
  else if capability ∈ ["create_file", "patch_file", "delete_file"] then
    some ⟨["path", "content", "expected_sha256"], []⟩
  else if "run_".toList <+: capability.toList then
    some ⟨["profile_name", "arguments"], ["environment"]⟩
  else if capability = "stage_scoped_changes" then some ⟨["paths"], []⟩
  else if capability = "commit_scoped_changes" then some ⟨["message"], []⟩
  else none

/-- `f(..., **arguments)` binds: each parameter without a default is given, and nothing else -/
def Signature.fits (sig : Signature) (arguments : List (String × Json)) : Bool :=
  (sig.required.all fun key => hasKey arguments [key]) ∧
    arguments.all fun f => f.1 ∈ sig.required ++ sig.optional

/-- the steps that `write_file` carries out -/
def writeCapabilities : List String := ["create_file", "patch_file", "delete_file"]

end LifeAI.Driver
