import LifeAI.Supervisor.Candidates
import LifeAI.Tasks.Wake
import Mathlib.Data.Char

/-!
# Gaps, and the child tasks that are generated for them

`autonomous_gap/service.py` and the `create_problem` that it records gaps with.

* `recordGap`                `record_gap`: the row of a gap, or the replay of the row under its key;
* `assessGapAuthority`       `assess_gap_authority`;
* `generateChildTaskForGap`  `generate_child_task_for_gap`;
* `liveGenerationDepth`      `_live_generation_depth`, from the `created` event of a task;
* `handleLiveGapSignal`      `handle_live_gap_signal`.

`Doc` are JSON objects, up to equality.  `digest` is the hash of an identity.  The composite foreign
keys of migrations 0032 and 0042 give the rows of a task the owner of its goal.
-/

namespace LifeAI.Gap

/-- `AUTHORIZED_EVIDENCE_KINDS` -/
def authorizedEvidenceKinds : List String :=
  ["verification_failure", "capability_missing", "missing_prerequisite", "unresolved_dependency",
    "repository_inspection", "provider_identified_step_validated"]

/-- `_SELF_WORK_GAP_TYPES` -/
def selfWorkGapTypes : List String := ["capability_missing", "self_improvement"]

/-- `GAP_CHILD_INSERTION_PREFIX` -/
def gapChildInsertionPrefix : String := "autonomous_gap_child:"

structure DiscoveredGap (Doc : Type) where
  gapType : String
  evidenceKind : String
  parentGoalId : GoalId
  reason : String
  requiredOutcome : String
  taskType : String := "repo_edit"
  sourceTaskId : Option TaskId := none
  sourceJobId : Option JobId := none
  repositoryIdentity : String := ""
  allowedPaths : List String := []
  requiredCapabilities : List String := []
  riskLevel : RiskLevel := .low
  verificationPlan : List VerificationStep := []
  unknowns : List String := []
  candidateOptions : List String := []
  unrelatedWorkCanContinue : Bool := true
  dependsOnExistingTaskIds : List TaskId := []
  existingTaskDependencyTarget : Option TaskId := none
  generationDepth : ℤ := 0
  sourceType : String := "autonomous_gap_discovery"
  sourceRef : String := ""
  executionEnvelope : Doc
  failureEvidence : Doc

/-- the payload of `_gap_identity_key` -/
structure GapIdentity where
  gapType : String
  parentGoalId : GoalId
  sourceTaskId : Option TaskId
  sourceJobId : Option JobId
  reason : String
  requiredOutcome : String
  existingTaskDependencyTarget : Option TaskId
  deriving DecidableEq

/-- the column `provenance` of a gap's row -/
structure Provenance (Doc : Type) where
  gapType : String
  evidenceKind : String
  requiredOutcome : String
  repositoryIdentity : String
  allowedPaths : List String
  requiredCapabilities : List String
  riskLevel : RiskLevel
  unknowns : List String
  candidateOptions : List String
  unrelatedWorkCanContinue : Bool
  generationDepth : ℤ
  sourceType : String
  sourceRef : String
  executionEnvelope : Doc
  failureEvidence : Doc
  parentGoalId : GoalId
  sourceTaskId : Option TaskId
  sourceJobId : Option JobId
  deriving DecidableEq

/-- a row of `life_problems`, with the columns that `record_gap` fills; the provenance of a row
that another caller of `create_problem` wrote is none of a gap -/
structure LifeProblem (Doc : Type) where
  ownerId : OwnerId
  idempotencyKey : String
  title : String
  description : String
  status : String := "open"
  classificationBasis : String := "deterministic"
  authority : String := "deterministic_source"
  provenance : Option (Provenance Doc)
  mainaiTaskId : Option TaskId
  mainaiJobId : Option JobId
  deriving DecidableEq

abbrev ProblemId := ℕ

/-- a row of `life_problem_events` -/
inductive ProblemEvent where
  | problemCreated (problem : ProblemId)
  | gapAttempt (problem : ProblemId) (requestedBy : String)
  deriving DecidableEq

structure GapDb (Doc : Type) where
  db : Db := {}
  problems : List (LifeProblem Doc) := []
  problemEvents : List ProblemEvent := []

variable {Doc : Type} [DecidableEq Doc] (digest : GapIdentity → String)

/-! ## the record of a gap -/

namespace DiscoveredGap

def identity (gap : DiscoveredGap Doc) : GapIdentity where
  gapType := gap.gapType
  parentGoalId := gap.parentGoalId
  sourceTaskId := gap.sourceTaskId
  sourceJobId := gap.sourceJobId
  reason := gap.reason
  requiredOutcome := gap.requiredOutcome
  existingTaskDependencyTarget := gap.existingTaskDependencyTarget

/-- `_gap_identity_key` -/
def identityKey (gap : DiscoveredGap Doc) : String := digest gap.identity

def provenance (gap : DiscoveredGap Doc) : Provenance Doc where
  gapType := gap.gapType
  evidenceKind := gap.evidenceKind
  requiredOutcome := gap.requiredOutcome
  repositoryIdentity := gap.repositoryIdentity
  allowedPaths := gap.allowedPaths
  requiredCapabilities := gap.requiredCapabilities
  riskLevel := gap.riskLevel
  unknowns := gap.unknowns
  candidateOptions := gap.candidateOptions
  unrelatedWorkCanContinue := gap.unrelatedWorkCanContinue
  generationDepth := gap.generationDepth
  sourceType := gap.sourceType
  sourceRef := gap.sourceRef
  executionEnvelope := gap.executionEnvelope
  failureEvidence := gap.failureEvidence
  parentGoalId := gap.parentGoalId
  sourceTaskId := gap.sourceTaskId
  sourceJobId := gap.sourceJobId

/-- the row that `record_gap` asks for -/
def row (owner : OwnerId) (gap : DiscoveredGap Doc) : LifeProblem Doc where
  ownerId := owner
  idempotencyKey := "autonomous_gap:" ++ gap.identityKey digest
  title := "Autonomous gap (" ++ gap.gapType ++ "): " ++
    String.ofList (gap.requiredOutcome.toList.take 180)
  description := gap.reason
  provenance := some gap.provenance
  mainaiTaskId := gap.sourceTaskId
  mainaiJobId := gap.sourceJobId

end DiscoveredGap

namespace LifeProblem

/-- the columns in which a row differs from what is asked for, as `_same` lists them -/
def differing (row values : LifeProblem Doc) : List String :=
  (if row.authority ≠ values.authority then ["authority"] else []) ++
  (if row.classificationBasis ≠ values.classificationBasis then ["classification_basis"] else []) ++
  (if row.description ≠ values.description then ["description"] else []) ++
  (if row.mainaiJobId ≠ values.mainaiJobId then ["mainai_job_id"] else []) ++
  (if row.mainaiTaskId ≠ values.mainaiTaskId then ["mainai_task_id"] else []) ++
  (if row.provenance ≠ values.provenance then ["provenance"] else []) ++
  (if row.status ≠ values.status then ["status"] else []) ++
  (if row.title ≠ values.title then ["title"] else [])

/-- `_same` -/
def conflict (row values : LifeProblem Doc) : Option Err :=
  match row.differing values with
  | [] => none
  | fields => some (.problemLearning
      ("idempotency key reused with different fields: " ++ ", ".intercalate fields))

/-- the references of a new row, and the checks of its columns -/
def refusal (db : Db) (values : LifeProblem Doc) : Option Err :=
  if values.mainaiTaskId.any fun i => ¬ db.tasks[i]?.any (·.ownerId = values.ownerId) then
    some (.problemLearning "mainai_task reference is missing or belongs to another owner")
  else if values.mainaiJobId.any fun j => ¬ db.jobs[j]?.any (·.ownerId = values.ownerId) then
    some (.problemLearning "mainai_job reference is missing or belongs to another owner")
  else if 256 < values.title.length then some .dataError
  else if values.description.toList.all (· = ' ') then
    some (.integrityError "ck_life_problem_text")
  else none

/-- the row of its owner under its key -/
def keyedAs (owner : OwnerId) (key : String) (row : LifeProblem Doc) : Bool :=
  row.ownerId = owner ∧ row.idempotencyKey = key

end LifeProblem

/-- the row of the owner under the key -/
def findProblem (problems : List (LifeProblem Doc)) (owner : OwnerId) (key : String) :
    Option ProblemId :=
  problems.findIdx? (·.keyedAs owner key)

/-- `create_problem` -/
def createProblem (values : LifeProblem Doc) (s : GapDb Doc) :
    Except Err (ProblemId × GapDb Doc) :=
  match findProblem s.problems values.ownerId values.idempotencyKey with
  | some p =>
    match (s.problems[p]?).bind (·.conflict values) with
    | some e => .error e
    | none => .ok (p, s)
  | none =>
    match values.refusal s.db with
    | some e => .error e
    | none => .ok (s.problems.length,
        { s with
          problems := s.problems ++ [values]
          problemEvents := s.problemEvents ++ [.problemCreated s.problems.length] })

/-- `record_gap` -/
def recordGap (owner : OwnerId) (gap : DiscoveredGap Doc) (requestedBy : String) (s : GapDb Doc) :
    Except Err (ProblemId × GapDb Doc) :=
  if gap.evidenceKind ∉ authorizedEvidenceKinds then
    .error (.gapEvidence ("evidence_kind '" ++ gap.evidenceKind ++
      "' is not sufficient evidence to record an executable gap -- an idea, suggestion, " ++
      "hypothesis, or unvalidated provider output can never itself become a recorded gap."))
  else
    match createProblem (gap.row digest owner) s with
    | .error e => .error e
    | .ok (p, s) =>
      .ok (p, { s with problemEvents := s.problemEvents ++ [.gapAttempt p requestedBy] })

/-! ## the authority of a gap -/

/-- `assess_gap_authority`: the classification, if the gap is not authorized, and the reason -/
def assessGapAuthority (scope : SupervisorScope) (goal : Goal) (gap : DiscoveredGap Doc) :
    Option String × String :=
  if scope.authorityKind ∈ nonAuthoritativeKinds ∨ scope.authorityKind ∉ authorizedKinds then
    (some "NEEDS_AUTHORIZATION", "authority_kind '" ++ scope.authorityKind ++
      "' is not sufficient execution authority for autonomous gap remediation.")
  else if goal.originalInstruction ≠ scope.authorizedInstruction then
    (some "NEEDS_AUTHORIZATION", "goal.original_instruction no longer matches the authorized " ++
      "instruction hash -- a founder correction superseded this authority; refusing a stale " ++
      "gap-derived task generation.")
  else if goal.status.terminal then
    (some "OUT_OF_SCOPE", "the goal is terminal -- no further work can be authorized under it.")
  else if gap.repositoryIdentity ≠ scope.repositoryIdentity then
    (some "OUT_OF_SCOPE", "gap's repository_identity '" ++ gap.repositoryIdentity ++
      "' is outside the authorized scope '" ++ scope.repositoryIdentity ++ "'.")
  else if ¬ gap.allowedPaths.all (· ∈ scope.allowedPaths) then
    (some "OUT_OF_SCOPE",
      "gap's path scope is not a subset of the authorized scope's allowed_paths.")
  else if gap.gapType ∈ selfWorkGapTypes ∧ ¬ scope.selfWork then
    (some "NEEDS_AUTHORIZATION", "gap_type '" ++ gap.gapType ++ "' concerns MainAI's own " ++
      "capabilities/development independence, which requires an explicitly self-work-authorized " ++
      "scope (SupervisorScope.self_work=True); this scope does not grant it.")
  else if ¬ gap.requiredCapabilities.all (· ∈ scope.allowedCapabilities) then
    (some "CAPABILITY_MISSING",
      "remediating this gap requires a capability outside the authorized capability envelope.")
  else if (riskOrder scope.maximumRisk).all (· < gap.riskLevel.order) then
    (some "NEEDS_AUTHORIZATION", "gap's risk level exceeds the authorized risk envelope '" ++
      scope.maximumRisk ++ "'.")
  else if gap.riskLevel = .high then
    (some "EXTERNAL_REVIEW_REQUIRED", "high-risk remediation always requires external/human " ++
      "review, regardless of the authorized envelope.")
  else if gap.unknowns ≠ [] then
    (some "NEEDS_CLARIFICATION", "unresolved unknowns block automatic authorization: " ++
      "; ".intercalate gap.unknowns)
  else if 1 < gap.candidateOptions.length then
    (some "NEEDS_SELECTION", "multiple viable remediation options require founder selection: " ++
      "; ".intercalate gap.candidateOptions)
  else if blank gap.requiredOutcome then
    (some "NEEDS_CLARIFICATION",
      "no explicit completion criteria supplied for this gap's remediation.")
  else
    (none, "gap is authorized: parent goal is currently founder-authorized, " ++
      "repository/path/capability/risk envelopes hold, and no founder correction supersedes " ++
      "the direction.")

/-! ## the child task of a gap -/

/-- `propose_child_task_spec` -/
def proposeChildTaskSpec (gap : DiscoveredGap Doc) : InsertedTaskSpec where
  description := gap.requiredOutcome
  taskType := gap.taskType
  dependsOn := gap.dependsOnExistingTaskIds.map .existing
  riskLevel := gap.riskLevel
  verificationPlan := gap.verificationPlan

/-- the edge of the task that waits for the child -/
def gainedEdges (gap : DiscoveredGap Doc) : List ExistingTaskDependencyEdge :=
  (gap.existingTaskDependencyTarget.map fun i => ⟨i, 0⟩).toList

/-- the claim on a job that an `OperatorContext` carries -/
structure JobClaim where
  ownerId : OwnerId
  jobId : JobId
  workerId : String
  leaseGeneration : ℕ
  deriving DecidableEq

/-- `require_live_gap_lease` -/
def requireLiveGapLease (now : Time) (jobs : List Job) (context : JobClaim) : Except Err Unit :=
  match jobs[context.jobId]? with
  | none => .error (.gapLeaseLost
      "stale or absent MainAI job lease before gap recording/insertion")
  | some job =>
    if job.ownerId ≠ context.ownerId ∨ job.status ≠ .running ∨
        job.lockedBy ≠ some context.workerId ∨ job.leaseGeneration ≠ context.leaseGeneration then
      .error (.gapLeaseLost "stale or absent MainAI job lease before gap recording/insertion")
    else if job.leaseExpiresAt.any (· ≤ now) then
      .error (.gapLeaseLost "expired MainAI job lease before gap recording/insertion")
    else .ok ()

/-- the arguments of a call beside its gap -/
structure GapCall where
  scope : SupervisorScope
  goal : GoalId
  plan : PlanId
  requestedBy : String
  operatorContext : Option JobClaim := none
  /-- the clock at the first check of the lease, and at the one before the insertion -/
  now : Time := 0
  later : Time := 0
  deriving DecidableEq

/-- the lease of the context, if there is one -/
def GapCall.requireLease (call : GapCall) (now : Time) (db : Db) : Except Err Unit :=
  match call.operatorContext with
  | none => .ok ()
  | some context => requireLiveGapLease now db.jobs context

structure GapOutcome where
  classification : String
  problem : Option ProblemId
  insertedTasks : Option (List TaskId)
  reason : String
  deriving DecidableEq

/-- the request for the child of the gap that is recorded as `p` -/
def childInsertion (call : GapCall) (gap : DiscoveredGap Doc) (p : ProblemId) : PlanInsertion where
  goal := call.goal
  plan := call.plan
  authorityKind := call.scope.authorityKind
  authorizedInstruction := call.scope.authorizedInstruction
  idempotencyKey := gapChildInsertionPrefix ++ ("autonomous_gap:" ++ gap.identityKey digest)
  tasks := [proposeChildTaskSpec gap]
  existingTaskDependencies := gainedEdges gap
  sourceType := gap.sourceType
  sourceRef := if gap.sourceRef ≠ "" then gap.sourceRef else
    "autonomous_gap:" ++ gap.gapType ++ ":" ++ toString p
  reason := gap.reason

/-- the part of `generate_child_task_for_gap` that follows the record of the gap as `p` -/
def afterRecord (maxGenerationDepth : ℤ) (call : GapCall) (gap : DiscoveredGap Doc) (goal : Goal)
    (p : ProblemId) (s : GapDb Doc) : Except Err GapOutcome × GapDb Doc :=
  if maxGenerationDepth ≤ gap.generationDepth then
    (.ok ⟨"DEPTH_BOUND_REACHED", some p, none, "generation depth " ++
      toString gap.generationDepth ++ " reached the configured bound " ++
      toString maxGenerationDepth ++ " -- no further recursive gap-generation is permitted for " ++
      "this lineage."⟩, s)
  else
    match assessGapAuthority call.scope goal gap with
    | (some classification, reason) => (.ok ⟨classification, some p, none, reason⟩, s)
    | (none, _) =>
      match call.requireLease call.later s.db with
      | .error e => (.error e, s)
      | .ok () =>
        match insertPlanTasks s.db (childInsertion digest call gap p) with
        | .error e => (.error e, s)
        | .ok (ids, db) =>
          (.ok ⟨"ACCEPTED", some p, some ids,
            "child task inserted via the partial-plan-insertion primitive."⟩, { s with db })

/-- `generate_child_task_for_gap`, and what its session holds afterwards -/
def generateChildTaskForGap (maxGenerationDepth : ℤ) (call : GapCall) (gap : DiscoveredGap Doc)
    (s : GapDb Doc) : Except Err GapOutcome × GapDb Doc :=
  match s.db.goal call.goal, call.requireLease call.now s.db with
  | .error e, _ => (.error e, s)
  | .ok _, .error e => (.error e, s)
  | .ok goal, .ok () =>
    match recordGap digest goal.ownerId gap call.requestedBy s with
    | .error e => (.error e, s)
    | .ok (p, s) => afterRecord digest maxGenerationDepth call gap goal p s

/-! ## the depth of a lineage -/

/-- the `insertion_idempotency_key` of the first `created` event of the task -/
def creationKey (db : Db) (i : TaskId) : Option String :=
  ((db.events.find? fun e => e.task = i ∧ e.kind = .created).bind (·.insertion)).map
    (·.idempotencyKey)

/-- the key of the problem that the task was generated for -/
def gapKey (db : Db) (i : TaskId) : Option String :=
  (creationKey db i).bind fun key =>
    if gapChildInsertionPrefix.toList <+: key.toList then
      some (String.ofList (key.toList.drop gapChildInsertionPrefix.length))
    else none

/-- `_live_generation_depth` -/
def liveGenerationDepth (s : GapDb Doc) (owner : OwnerId) (i : TaskId) : Except Err ℤ :=
  match gapKey s.db i with
  | none => .ok 0
  | some key =>
    match s.problems.filter (·.keyedAs owner key) with
    | [parent] =>
      match parent.provenance with
      | none => .error (.gapLineage ("parent LifeProblem for task " ++ toString i ++
          " is missing provenance generation_depth"))
      | some provenance => .ok (provenance.generationDepth + 1)
    | parents => .error (.gapLineage ("gap child lineage for task " ++ toString i ++
        " is unproven or ambiguous (owner-scoped parent problems matching '" ++ key ++ "': " ++
        toString parents.length ++ ")"))

/-! ## live signals -/

/-- `LIVE_GAP_SIGNAL_CLASSIFICATIONS` -/
def liveGapSignalClassifications : List String :=
  ["VERIFICATION_REQUIRED", "CAPABILITY_MISSING", "FAILED_NONRETRYABLE"]

/-- the bounds of `GapGenerationBounds` on a run, and its counters -/
structure RunCounters where
  maxGapsPerRun : ℤ := 10
  maxChildrenPerRun : ℤ := 10
  maxUnresolvedGaps : ℤ := 20
  gapsRecorded : ℤ := 0
  childrenInserted : ℤ := 0
  unresolvedGaps : ℤ := 0
  deriving DecidableEq

/-- a call of `handle_live_gap_signal`; the documents that are made of the driver's detail and of
the task are inputs -/
structure LiveSignal (Doc : Type) where
  call : GapCall
  task : TaskId
  classification : String
  capability : Option String := none
  bindingPaths : Option (List String) := none
  sourceJobId : Option JobId := none
  counters : RunCounters := {}
  /-- `_repairable_failure_evidence` makes something of the detail -/
  repairable : Bool := true
  /-- `task.verification_plan` -/
  verificationPlan : List VerificationStep := []
  failureEvidence : Doc
  /-- `_build_execution_envelope`, by the generation depth -/
  executionEnvelope : ℤ → Doc

/-- `str.strip` -/
def strip (s : String) : String :=
  String.ofList ((s.toList.dropWhile isspace).reverse.dropWhile isspace).reverse

/-- `s.lower() == "unknown"`: the Kelvin sign is the one other character with such a small letter -/
def isUnknown (s : String) : Bool :=
  s.toList.map (fun c => if c = '\u212a' then 'k' else c.toLower) = "unknown".toList

/-- `_intersect_paths` of two path envelopes -/
def intersectPaths (a b : List String) : List String :=
  ((if b = [] then a else a.filter (· ∈ b)).dedup).insertionSort fun x y => x.toList ≤ y.toList

/-- `_narrow_allowed_paths` -/
def narrowAllowedPaths (scope : SupervisorScope) (bindingPaths : Option (List String)) :
    List String :=
  match bindingPaths with
  | some (path :: paths) => intersectPaths scope.allowedPaths (path :: paths)
  | _ => scope.allowedPaths

namespace LiveSignal

variable (sig : LiveSignal Doc) (s : GapDb Doc)

/-- `gap_from_verification_required` -/
def gapFromVerificationRequired (goal : Goal) (task : Task) : Except Err (DiscoveredGap Doc) := do
  let depth ← liveGenerationDepth s goal.ownerId sig.task
  let allowedPaths := narrowAllowedPaths sig.call.scope sig.bindingPaths
  if allowedPaths = [] then
    .error (.gapEvidence
      "failing WorkBinding path scope intersects authorized scope to empty set")
  else
    .ok {
      gapType := "verification_failure"
      evidenceKind := "verification_failure"
      parentGoalId := sig.call.goal
      reason := "Task " ++ toString sig.task ++ " ('" ++ task.description ++
        "') did not reach verified completion; bounded repair required."
      requiredOutcome := "Repair the verification failure blocking: " ++ task.description
      sourceTaskId := some sig.task
      sourceJobId := sig.sourceJobId
      repositoryIdentity := sig.call.scope.repositoryIdentity
      allowedPaths
      requiredCapabilities := ["create_file", "patch_file", "run_focused_test",
        "stage_scoped_changes", "commit_scoped_changes"]
      riskLevel := task.riskLevel
      verificationPlan := sig.verificationPlan
      sourceType := "mainai_supervisor_verification_required"
      sourceRef := "mainai_task:" ++ toString sig.task ++ ":verification_required"
      generationDepth := depth
      executionEnvelope := sig.executionEnvelope depth
      failureEvidence := sig.failureEvidence }

/-- `gap_from_capability_missing` -/
def gapFromCapabilityMissing (goal : Goal) (task : Task) : Except Err (DiscoveredGap Doc) :=
  let capability := strip (sig.capability.getD "")
  if capability = "" ∨ isUnknown capability then
    .error (.gapCapability ("CAPABILITY_MISSING requires a concrete requested capability name; " ++
      "refusing to collapse to 'unknown'"))
  else do
    let depth ← liveGenerationDepth s goal.ownerId sig.task
    let allowedPaths := narrowAllowedPaths sig.call.scope sig.bindingPaths
    if allowedPaths = [] then
      .error (.gapEvidence
        "failing WorkBinding path scope intersects authorized scope to empty set")
    else
      .ok {
        gapType := "capability_missing"
        evidenceKind := "capability_missing"
        parentGoalId := sig.call.goal
        reason := "Execution of task " ++ toString sig.task ++ " ('" ++ task.description ++
          "') reported a missing capability: " ++ capability ++ "."
        requiredOutcome := "Add deterministic support for the missing capability: " ++ capability
        sourceTaskId := some sig.task
        sourceJobId := sig.sourceJobId
        repositoryIdentity := sig.call.scope.repositoryIdentity
        allowedPaths
        riskLevel := .medium
        sourceType := "mainai_supervisor_capability_missing"
        sourceRef := "mainai_task:" ++ toString sig.task ++ ":capability_missing:" ++ capability
        generationDepth := depth
        executionEnvelope := sig.executionEnvelope depth
        failureEvidence := sig.failureEvidence }

/-- the gap of the signal -/
def gap (goal : Goal) (task : Task) : Except Err (DiscoveredGap Doc) :=
  if sig.classification = "CAPABILITY_MISSING" then sig.gapFromCapabilityMissing s goal task
  else sig.gapFromVerificationRequired s goal task

/-- what the run's bounds answer, before anything is read -/
def bounded : Option GapOutcome :=
  if sig.counters.maxGapsPerRun ≤ sig.counters.gapsRecorded then
    some ⟨"GAPS_BOUND_REACHED", none, none, "live gap breadth bound reached (" ++
      toString sig.counters.maxGapsPerRun ++ ")"⟩
  else if sig.counters.maxChildrenPerRun ≤ sig.counters.childrenInserted then
    some ⟨"CHILDREN_BOUND_REACHED", none, none, "live children bound reached (" ++
      toString sig.counters.maxChildrenPerRun ++ ")"⟩
  else if sig.counters.maxUnresolvedGaps ≤ sig.counters.unresolvedGaps then
    some ⟨"UNRESOLVED_BOUND_REACHED", none, none, "live unresolved-gap bound reached (" ++
      toString sig.counters.maxUnresolvedGaps ++ ")"⟩
  else none

/-- the end of the handling: the source task of a repair is parked -/
def park (gap : DiscoveredGap Doc) (outcome : GapOutcome) (s : GapDb Doc) :
    Except Err (Option GapOutcome) × GapDb Doc :=
  match outcome.insertedTasks with
  | some (child :: _) =>
    if gap.gapType = "verification_failure" then
      match parkSourceTaskForRepair s.db sig.task child "verification/repair gap recorded" with
      | .error e => (.error e, s)
      | .ok db => (.ok (some outcome), { s with db })
    else (.ok (some outcome), s)
  | _ => (.ok (some outcome), s)

end LiveSignal

/-- what the errors of the construction of a gap are answered with -/
def unbuilt : Err → Except Err (Option GapOutcome)
  | .gapLineage m => .ok (some ⟨"DEPTH_BOUND_REACHED", none, none, m⟩)
  | .gapCapability m => .ok (some ⟨"CAPABILITY_MISSING", none, none, m⟩)
  | .gapEvidence m => .ok (some ⟨"OUT_OF_SCOPE", none, none, m⟩)
  | e => .error e

/-- `handle_live_gap_signal`, and what its session holds afterwards -/
def handleLiveGapSignal (maxGenerationDepth : ℤ) (sig : LiveSignal Doc) (s : GapDb Doc) :
    Except Err (Option GapOutcome) × GapDb Doc :=
  if sig.classification ∉ liveGapSignalClassifications then (.ok none, s)
  else
    match sig.bounded with
    | some outcome => (.ok (some outcome), s)
    | none =>
      let lease := sig.call.requireLease sig.call.now s.db
      match s.db.goal sig.call.goal, s.db.lockTask sig.task, lease with
      | .error e, _, _ => (.error e, s)
      | .ok _, .error e, _ => (.error e, s)
      | .ok _, .ok _, .error e => (.error e, s)
      | .ok goal, .ok task, .ok () =>
        if sig.classification = "FAILED_NONRETRYABLE" ∧ ¬ sig.repairable then (.ok none, s)
        else
          match sig.gap s goal task with
          | .error e => (unbuilt e, s)
          | .ok gap =>
            match generateChildTaskForGap digest maxGenerationDepth sig.call gap s with
            | (.error e, s) => (.error e, s)
            | (.ok outcome, s) => sig.park gap outcome s

end LifeAI.Gap
