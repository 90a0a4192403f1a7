import LifeAI.Egress.Policy
import LifeAI.Operator.Capability

/-!
# What a planning call sends

* `FounderPlanningRequest`, `OperatorContext`, `ProviderPlanningLimits`  the arguments;
* `safeProviderPrompt`    the bounded prompt of the safe planner;
* `buildProviderRequest`  the whole payload, redacted, within the byte bound.
-/

namespace LifeAI

/-- the fields of a request that planning with a provider reads -/
structure FounderPlanningRequest where
  ownerId : OwnerId
  goalId : GoalId
  taskId : TaskId
  jobId : JobId
  originalInstruction : String
  authorityKind : String
  sourceRef : String := "mainai_goal.original_instruction"
  requestedOutcome : String := ""
  constraints : List String := []
  prohibitions : List String := []
  maxContextMembers : Int := 30
  maxPlanSteps : Int := 20
  maxAlternatives : Int := 3
  maxProviderAttempts : Int := 1

/-- the hexadecimal digest of a path -/
structure HexDigest where
  text : String
  ok : text.toList.all fun c => c.isDigit ∨ c ∈ "abcdef".toList

/-- the fields of an `OperatorContext` that planning with a provider reads -/
structure OperatorContext where
  repositoryIdentity : HexDigest
  expectedBaseSha : String
  expectedBranch : String
  allowedPaths : List String := []

structure ProviderPlanningLimits where
  maxCandidates : Int := 3
  maxPayloadBytes : Int := 32000

/-- a member of the task's context set, as `assemble_planning_context` reads it -/
structure ContextMember where
  objectType : String
  objectRef : String
  relevanceBasis : String
  inclusionReason : String
  activationPath : Json

/-- the reference that stands for a member in the prompt -/
def ContextMember.reference (m : ContextMember) : Json :=
  .obj [("object_type", .str m.objectType), ("object_ref", .str m.objectRef),
    ("basis", .str m.relevanceBasis), ("reason", .str m.inclusionReason),
    ("path", m.activationPath)]

/-- `assemble_planning_context`, given the members of the context set -/
def assemblePlanningContext (r : FounderPlanningRequest) (members : List ContextMember) :
    Except Err (List Json) :=
  if ¬ (1 ≤ r.maxContextMembers ∧ r.maxContextMembers ≤ 100) then
    .error (.candidateValidation "context-member bound is invalid")
  else .ok (members.map ContextMember.reference)

/-! ## the prompt -/

def instructionPlaceholder : String := "[FOUNDER INSTRUCTION CONTAINS REDACTED SENSITIVE MATERIAL]"

def texts (ss : List String) : Json := .arr (ss.map Json.str)

/-- `sorted(DEVELOPMENT_CAPABILITIES)` -/
def sortedCapabilities : List String :=
  (developmentCapabilities.map Prod.fst).insertionSort fun a b => a.toList ≤ b.toList

/-- `safe_provider_prompt` -/
def safeProviderPrompt (r : FounderPlanningRequest) (refs : List Json) : List (String × Json) :=
  let instruction := if redact r.originalInstruction ≠ r.originalInstruction
    then instructionPlaceholder else r.originalInstruction
  [("instruction", .str instruction),
    ("source_ref", .str (redact r.sourceRef)),
    ("context_references", redactValue (.arr (refs.take r.maxContextMembers.toNat))),
    ("capabilities", texts sortedCapabilities),
    ("forbidden", texts ["raw_shell", "merge", "deploy", "force_push", "production_mutation"]),
    ("required_output", .str "strict PlanCandidate JSON"),
    ("limits", .obj [("max_steps", .int r.maxPlanSteps),
      ("max_alternatives", .int r.maxAlternatives)])]

/-! ## the payload -/

def repositoryScope (o : OperatorContext) : Json :=
  .obj [("identity", .str o.repositoryIdentity.text), ("allowed_paths", texts o.allowedPaths),
    ("expected_branch", .str o.expectedBranch), ("expected_base_sha", .str o.expectedBaseSha)]

def candidateEnvelopeSchema : Json :=
  .obj [("candidate", .str "Safe Planner PlanCandidate object or null"),
    ("clarification_required", .str "boolean"),
    ("clarification_question", .str "string or null"),
    ("capability_gaps", .str "array of capability names"),
    ("useful_components",
      .str "array of \x7bcomponent_id, kind, content, disposition, reason\x7d"),
    ("confidence", .str "number 0..1 or null; never authority")]

def providerReason : String :=
  "No registered deterministic recipe safely decomposes this request."

/-- the payload before its last redaction -/
def providerPayload (r : FounderPlanningRequest) (o : OperatorContext)
    (limits : ProviderPlanningLimits) (refs : List Json) : Json :=
  .obj (safeProviderPrompt r refs ++
    [("authority_kind", .str r.authorityKind),
      ("requested_outcome", .str (redact r.requestedOutcome)),
      ("constraints", redactValue (texts r.constraints)),
      ("prohibitions", redactValue (texts r.prohibitions)),
      ("repository_scope", repositoryScope o),
      ("candidate_envelope_schema", candidateEnvelopeSchema),
      ("provider_reason", .str providerReason),
      ("max_candidates", .int limits.maxCandidates)])

/-- a part of the path names credentials -/
def sensitivePath (path : String) : Bool :=
  (path.toList.splitOn '/').any fun part =>
    let lowered := part.map Char.toLower
    lowered ∈ sensitiveParts.map String.toList ∨ ".env".toList <+: lowered

/-- `build_provider_request` -/
def buildProviderRequest (r : FounderPlanningRequest) (o : OperatorContext)
    (limits : ProviderPlanningLimits) (members : List ContextMember) : Except Err Json :=
  if ¬ (1 ≤ r.maxProviderAttempts ∧ r.maxProviderAttempts ≤ 3) then
    .error (.providerPlanning "provider-attempt bound is invalid")
  else if ¬ (1 ≤ limits.maxCandidates ∧ limits.maxCandidates ≤ 5) then
    .error (.providerPlanning "candidate-count bound is invalid")
  else if o.allowedPaths.any sensitivePath then
    .error (.providerPlanning "sensitive credential paths cannot enter provider planning scope")
  else do
    let refs ← assemblePlanningContext r members
    let redacted := redactValue (providerPayload r o limits refs)
    if (redacted.dumps.length : Int) > limits.maxPayloadBytes then
      .error (.providerPlanning "provider planning payload exceeds byte bound")
    else return redacted

variable {r : FounderPlanningRequest} {o : OperatorContext} {limits : ProviderPlanningLimits}
  {members : List ContextMember} {payload : Json}

/-- what is sent is the redacted payload over the references of all members -/
theorem build_ok (h : buildProviderRequest r o limits members = .ok payload) :
    payload = redactValue (providerPayload r o limits (members.map ContextMember.reference)) := by
  unfold buildProviderRequest at h
  rw [guard_eq_ok, guard_eq_ok, guard_eq_ok] at h
  obtain ⟨-, -, -, h⟩ := h
  obtain ⟨refs, h1, h2⟩ := bind_eq_ok.1 h
  unfold assemblePlanningContext at h1
  rw [guard_eq_ok] at h1
  obtain ⟨-, h1⟩ := h1
  cases h1
  dsimp only at h2
  rw [guard_eq_ok] at h2
  cases h2.2
  rfl

/-- a request within the bounds is built -/
theorem build_of_bounds (attempts : 1 ≤ r.maxProviderAttempts ∧ r.maxProviderAttempts ≤ 3)
    (candidates : 1 ≤ limits.maxCandidates ∧ limits.maxCandidates ≤ 5)
    (paths : o.allowedPaths.any sensitivePath = false)
    (context : 1 ≤ r.maxContextMembers ∧ r.maxContextMembers ≤ 100)
    (hp : payload = redactValue (providerPayload r o limits
      (members.map ContextMember.reference)))
    (bytes : (payload.dumps.length : Int) ≤ limits.maxPayloadBytes) :
    buildProviderRequest r o limits members = .ok payload := by
  have hrefs : assemblePlanningContext r members = .ok (members.map ContextMember.reference) :=
    if_neg (not_not.2 context)
  unfold buildProviderRequest
  rw [if_neg (not_not.2 attempts), if_neg (not_not.2 candidates), if_neg (by simp [paths]), hrefs,
    bind_eq_ok]
  exact ⟨_, rfl, by rw [← hp]; exact if_neg (not_lt.2 bytes)⟩

end LifeAI
