import LifeAI.Synthesis.Model

/-!
# Strategy evaluation

`strategy_evaluation/service.py`: strategies are compared, the comparisons are assessed, and a
candidate is promoted on what the assessments say.

* `Comparison`, `ComparabilityAssessment`, `QualityAssessment`, `EfficiencyDelta`, `Experiment`,
  `Candidate`, `Link`, `Event`   the rows;
* `latest`  what `ORDER BY created_at DESC, id DESC` puts first;
* `promotionSummary`, `candidateGuard`   the promotion check of the service, and the trigger of
  migration 0044;
* `Call.exec`   what a call answers, and the tables as its session leaves them;
* `Op`, `step`   a call, and what its caller does when it raises.

A call that writes finds its key first: `_idempotent`.  What a statement of the database refuses
takes the writes before it along; what `_same` raises does not.

`Doc` are JSON values, up to equality.
-/

namespace LifeAI.Strategy

open Synthesis (same replay owned ownedIf blankText tooLong)

abbrev BindingId := ℕ
abbrev StrategyId := ℕ
abbrev ObservationId := ℕ
abbrev ObligationId := ℕ
abbrev EvidenceId := ℕ
abbrev ProblemId := ℕ
abbrev ComparisonId := ℕ
abbrev ExperimentId := ℕ
abbrev CandidateId := ℕ
abbrev EventId := ℕ

/-- the id of an assessment, as `ORDER BY id` orders it -/
abbrev AssessmentId := ℕ

/-! ## rows -/

inductive RiskLevel where
  | low | medium | high | critical | unknown
  deriving DecidableEq

inductive Basis where
  | manual | deterministic | inferred | unknown
  deriving DecidableEq

inductive ComparabilityStatus where
  | comparable | partiallyComparable | notComparable | unknown
  deriving DecidableEq

inductive QualityState where
  | qualityPass | qualityFail | verificationIncomplete | regressionDetected | invalidComparison
  | unknown
  deriving DecidableEq

inductive Subject where
  | baseline | challenger
  deriving DecidableEq

def Subject.name : Subject → String
  | .baseline => "baseline"
  | .challenger => "challenger"

inductive ExperimentState where
  | draft | ready | running | completed | failed | cancelled | invalidated
  deriving DecidableEq

def ExperimentState.name : ExperimentState → String
  | .draft => "draft"
  | .ready => "ready"
  | .running => "running"
  | .completed => "completed"
  | .failed => "failed"
  | .cancelled => "cancelled"
  | .invalidated => "invalidated"

inductive CandidateState where
  | candidate | insufficientEvidence | underReview | approved | rejected | superseded | invalidated
  deriving DecidableEq

def CandidateState.name : CandidateState → String
  | .candidate => "candidate"
  | .insufficientEvidence => "insufficient_evidence"
  | .underReview => "under_review"
  | .approved => "approved"
  | .rejected => "rejected"
  | .superseded => "superseded"
  | .invalidated => "invalidated"

inductive EventType where
  | created | stateChanged | comparisonLinked
  deriving DecidableEq

inductive VerificationStatus where
  | performedPassed | performedFailed | missing | waived | unknown
  deriving DecidableEq

/-- a row of `work_strategy_executions` -/
structure Binding where
  ownerId : OwnerId
  strategyId : StrategyId
  problemId : Option ProblemId
  deriving DecidableEq

/-- a row of `work_efficiency_observations`; the value is counted in ten-thousandths -/
structure EfficiencyObservation where
  ownerId : OwnerId
  strategyExecutionId : BindingId
  metricType : String
  unit : String
  numericValue : ℕ
  deriving DecidableEq

/-- a row of `work_verification_obligations` -/
structure Obligation where
  ownerId : OwnerId
  strategyExecutionId : BindingId
  required : Bool
  deriving DecidableEq

/-- a row of `work_verification_observations` -/
structure VerificationObservation where
  id : ℕ
  ownerId : OwnerId
  obligationId : ObligationId
  observedAt : Time
  status : VerificationStatus
  deriving DecidableEq

structure Comparison (Doc : Type) where
  ownerId : OwnerId
  baselineBindingId : BindingId
  challengerBindingId : BindingId
  problemId : Option ProblemId
  taskId : Option TaskId
  taskType : Option String
  domain : Option String
  riskLevel : RiskLevel
  comparisonBasis : Basis
  provenance : Doc
  idempotencyKey : String
  deriving DecidableEq

structure ComparabilityAssessment (Doc : Type) where
  id : AssessmentId
  ownerId : OwnerId
  comparisonId : ComparisonId
  status : ComparabilityStatus
  dimensions : Doc
  reasons : List Doc
  basis : Basis
  evidenceId : Option EvidenceId
  supersedesId : Option AssessmentId
  idempotencyKey : String
  createdAt : Time
  deriving DecidableEq

structure QualityAssessment where
  id : AssessmentId
  ownerId : OwnerId
  comparisonId : ComparisonId
  subject : Subject
  state : QualityState
  requiredCount : ℕ
  passedCount : ℕ
  failedCount : ℕ
  missingCount : ℕ
  unresolvedRegression : Bool
  scopeViolation : Bool
  reason : String
  evidenceId : Option EvidenceId
  idempotencyKey : String
  createdAt : Time
  deriving DecidableEq

structure EfficiencyDelta where
  ownerId : OwnerId
  comparisonId : ComparisonId
  baselineObservationId : ObservationId
  challengerObservationId : ObservationId
  metricType : String
  unit : String
  baselineValue : ℕ
  challengerValue : ℕ
  deltaValue : ℤ
  idempotencyKey : String
  deriving DecidableEq

structure Experiment (Doc : Type) where
  ownerId : OwnerId
  baselineStrategyId : StrategyId
  challengerStrategyId : StrategyId
  hypothesis : String
  intendedChange : String
  expectedBenefit : String
  qualityInvariants : List Doc
  scope : Doc
  applicability : Doc
  requiredSampleCount : Option ℤ
  state : ExperimentState := .draft
  failureReason : Option String := none
  provenance : Doc
  idempotencyKey : String
  deriving DecidableEq

structure Candidate (Doc : Type) where
  ownerId : OwnerId
  strategyId : StrategyId
  baselineStrategyId : StrategyId
  applicableContext : Doc
  knownTradeoffs : List Doc
  confidenceBasis : Basis
  minimumValidComparisons : Option ℤ
  state : CandidateState := .candidate
  provenance : Doc
  idempotencyKey : String
  deriving DecidableEq

/-- a row of `strategy_experiment_comparisons` or of `strategy_promotion_comparisons` -/
structure Link where
  ownerId : OwnerId
  parentId : ℕ
  comparisonId : ComparisonId
  idempotencyKey : String
  deriving DecidableEq

/-- the column `detail` of an event -/
inductive EventDetail where
  | empty
  | comparison (id : ComparisonId)
  | failure (reason : String)
  deriving DecidableEq

structure Event where
  ownerId : OwnerId
  experimentId : Option ExperimentId := none
  candidateId : Option CandidateId := none
  eventType : EventType
  fromState : Option String := none
  toState : Option String := none
  detail : EventDetail := .empty
  idempotencyKey : String
  deriving DecidableEq

/-- rows that other services write; of the strategies, the evidence, the problems and the tasks the
owners -/
structure Elsewhere where
  bindings : List Binding := []
  strategies : List OwnerId := []
  efficiencies : List EfficiencyObservation := []
  obligations : List Obligation := []
  observations : List VerificationObservation := []
  evidence : List OwnerId := []
  problems : List OwnerId := []
  tasks : List OwnerId := []
  deriving DecidableEq

structure Tables (Doc : Type) extends Elsewhere where
  comparisons : List (Comparison Doc) := []
  comparabilities : List (ComparabilityAssessment Doc) := []
  qualities : List QualityAssessment := []
  deltas : List EfficiencyDelta := []
  experiments : List (Experiment Doc) := []
  candidates : List (Candidate Doc) := []
  experimentLinks : List Link := []
  promotionLinks : List Link := []
  events : List Event := []
  deriving DecidableEq

/-- what the code asks of JSON values -/
structure Documents (Doc : Type) where
  /-- `{}` -/
  empty : Doc
  truthy : Doc → Bool
  /-- `jsonb_typeof(d)='object'` -/
  isObject : Doc → Bool

/-- `d or {}` -/
def Documents.orEmpty {Doc : Type} (lib : Documents Doc) (d : Option Doc) : Doc :=
  (d.filter lib.truthy).getD lib.empty

variable {Doc : Type} [DecidableEq Doc] (lib : Documents Doc)

/-! ## the queries -/

/-- `a` comes before `b` in `ORDER BY created_at DESC, id DESC`, or the two tie -/
def Newer (a b : ℕ × ℕ) : Prop := b.1 < a.1 ∨ b.1 = a.1 ∧ b.2 ≤ a.2

instance : DecidableRel Newer := fun a b => inferInstanceAs (Decidable (b.1 < a.1 ∨ b.1 = a.1 ∧ b.2 ≤ a.2))

/-- the first row of `ORDER BY created_at DESC, id DESC` -/
def latest {α : Type} (stamp : α → ℕ × ℕ) (rows : List α) : Option α :=
  (rows.insertionSort fun a b => Newer (stamp a) (stamp b)).head?

namespace Tables

variable (s : Tables Doc) (ownerId : OwnerId)

/-- the latest comparability assessment of a comparison -/
def latestComparability (comparisonId : ComparisonId) : Option (ComparabilityAssessment Doc) :=
  latest (fun a => (a.createdAt, a.id)) (s.comparabilities.filter fun a =>
    a.ownerId = ownerId ∧ a.comparisonId = comparisonId)

/-- the latest quality assessment of the challenger of a comparison -/
def latestQuality (comparisonId : ComparisonId) : Option QualityAssessment :=
  latest (fun a => (a.createdAt, a.id)) (s.qualities.filter fun a =>
    a.ownerId = ownerId ∧ a.comparisonId = comparisonId ∧ a.subject = .challenger)

/-- the comparisons that are linked to a candidate -/
def linked (candidateId : CandidateId) : List Link :=
  s.promotionLinks.filter fun l => l.ownerId = ownerId ∧ l.parentId = candidateId

/-- what was last observed of an obligation -/
def verified (obligationId : ObligationId) : VerificationStatus :=
  ((latest (fun o => (o.observedAt, o.id)) (s.observations.filter fun o =>
    o.ownerId = ownerId ∧ o.obligationId = obligationId)).map (·.status)).getD .missing

end Tables

structure VerificationState where
  required : ℕ
  passed : ℕ
  failed : ℕ
  missing : ℕ
  obligationsSatisfied : Bool
  deriving DecidableEq

/-- `verification_state` of `work_intelligence`, of an execution that the owner has -/
def verificationState (s : Tables Doc) (ownerId : OwnerId) (bindingId : BindingId) :
    VerificationState :=
  let obligations := s.obligations.zipIdx.filter fun o =>
    o.1.ownerId = ownerId ∧ o.1.strategyExecutionId = bindingId ∧ o.1.required
  let statuses := obligations.map fun o => s.verified ownerId o.2
  { required := obligations.length
    passed := statuses.count .performedPassed
    failed := statuses.count .performedFailed
    missing := statuses.count .missing
    obligationsSatisfied :=
      obligations ≠ [] ∧ statuses.count .performedPassed = obligations.length }

/-- `_idempotent`: the row under the key, which must agree with the values, or a new row -/
def idempotent {α : Type} (key : α → OwnerId × String) (columns : α → α → List (String × Bool))
    (refusal : α → Option Err) (rows : List α) (values : α) : Except Err (ℕ × List α) :=
  Keyed.record key (fun existing values => same .strategyEvaluation (columns existing values))
    refusal rows values

def Comparison.key (r : Comparison Doc) : OwnerId × String := (r.ownerId, r.idempotencyKey)

def ComparabilityAssessment.key (r : ComparabilityAssessment Doc) : OwnerId × String :=
  (r.ownerId, r.idempotencyKey)

def QualityAssessment.key (r : QualityAssessment) : OwnerId × String :=
  (r.ownerId, r.idempotencyKey)

def EfficiencyDelta.key (r : EfficiencyDelta) : OwnerId × String := (r.ownerId, r.idempotencyKey)

def Experiment.key (r : Experiment Doc) : OwnerId × String := (r.ownerId, r.idempotencyKey)

def Candidate.key (r : Candidate Doc) : OwnerId × String := (r.ownerId, r.idempotencyKey)

def Link.key (r : Link) : OwnerId × String := (r.ownerId, r.idempotencyKey)

def Event.key (r : Event) : OwnerId × String := (r.ownerId, r.idempotencyKey)

/-! ## comparisons -/

structure ComparisonArgs (Doc : Type) where
  baselineBindingId : BindingId
  challengerBindingId : BindingId
  idempotencyKey : String
  problemId : Option ProblemId := none
  taskId : Option TaskId := none
  taskType : Option String := none
  domain : Option String := none
  riskLevel : RiskLevel := .unknown
  comparisonBasis : Basis := .unknown
  provenance : Option Doc := none
  deriving DecidableEq

/-- the row that `create_comparison` asks for -/
def ComparisonArgs.row (a : ComparisonArgs Doc) (ownerId : OwnerId) : Comparison Doc where
  ownerId := ownerId
  baselineBindingId := a.baselineBindingId
  challengerBindingId := a.challengerBindingId
  problemId := a.problemId
  taskId := a.taskId
  taskType := a.taskType
  domain := a.domain
  riskLevel := a.riskLevel
  comparisonBasis := a.comparisonBasis
  provenance := lib.orEmpty a.provenance
  idempotencyKey := a.idempotencyKey

/-- the execution is of another problem -/
def Binding.conflicts (b : Binding) (problemId : Option ProblemId) : Bool :=
  problemId ≠ none ∧ b.problemId ≠ none ∧ b.problemId ≠ problemId

/-- what `create_comparison` asks of the executions -/
def ComparisonArgs.checked (a : ComparisonArgs Doc) (s : Tables Doc) (ownerId : OwnerId) :
    Except Err Unit := do
  let baseline ←
    owned s.bindings (·.ownerId) .strategyEvaluation ownerId a.baselineBindingId "baseline binding"
  let challenger ←
    owned s.bindings (·.ownerId) .strategyEvaluation ownerId a.challengerBindingId
      "challenger binding"
  if a.baselineBindingId = a.challengerBindingId then
    .error (.strategyEvaluation "baseline and challenger must be distinct")
  else if baseline.conflicts a.problemId || challenger.conflicts a.problemId then
    .error (.strategyEvaluation "comparison problem conflicts with an execution binding")
  else .ok ()

def Comparison.columns (existing values : Comparison Doc) : List (String × Bool) :=
  [("baseline_binding_id", existing.baselineBindingId = values.baselineBindingId),
    ("challenger_binding_id", existing.challengerBindingId = values.challengerBindingId),
    ("comparison_basis", existing.comparisonBasis = values.comparisonBasis),
    ("domain", existing.domain = values.domain),
    ("problem_id", existing.problemId = values.problemId),
    ("provenance", existing.provenance = values.provenance),
    ("risk_level", existing.riskLevel = values.riskLevel),
    ("task_id", existing.taskId = values.taskId),
    ("task_type", existing.taskType = values.taskType)]

/-- a foreign key to a row of the owner -/
def refers (owners : List OwnerId) (ownerId : OwnerId) (id : Option ℕ) : Bool :=
  id.all fun i => owners[i]? = some ownerId

/-- what the database refuses of a new comparison -/
def Comparison.refusal (s : Tables Doc) (values : Comparison Doc) : Option Err :=
  if tooLong values.idempotencyKey || values.taskType.any tooLong || values.domain.any tooLong then
    some .dataError
  else if ¬ lib.isObject values.provenance then
    some (.integrityError "ck_strategy_comparison_provenance")
  else if ¬ refers s.problems values.ownerId values.problemId then
    some (.integrityError "fk_strategy_comparison_problem")
  else if ¬ refers s.tasks values.ownerId values.taskId then
    some (.integrityError "fk_strategy_comparison_task")
  else none

inductive Answer where
  | comparison (id : ComparisonId)
  | comparability (index : ℕ)
  | quality (index : ℕ)
  | delta (id : ℕ)
  | experiment (id : ExperimentId)
  | experimentEvent (id : ExperimentId) (event : EventId)
  | candidate (id : CandidateId)
  | candidateEvent (id : CandidateId) (event : EventId)
  | experimentLink (id : ℕ)
  | promotionLink (id : ℕ)
  deriving DecidableEq

/-- `create_comparison` -/
def createComparison (s : Tables Doc) (ownerId : OwnerId) (a : ComparisonArgs Doc) :
    Except Err Answer × Tables Doc :=
  match a.checked s ownerId with
  | .error e => (.error e, s)
  | .ok () =>
    match idempotent Comparison.key Comparison.columns (Comparison.refusal lib s) s.comparisons
        (a.row lib ownerId) with
    | .error e => (.error e, s)
    | .ok (id, comparisons) => (.ok (.comparison id), { s with comparisons })

/-! ## assessments -/

/-- the id and the time that a new row is given -/
structure Stamp where
  id : ℕ
  now : Time
  deriving DecidableEq

structure ComparabilityArgs (Doc : Type) where
  comparisonId : ComparisonId
  status : ComparabilityStatus
  dimensions : Option Doc
  reasons : Option (List Doc)
  idempotencyKey : String
  basis : Basis := .unknown
  evidenceId : Option EvidenceId := none
  supersedesId : Option AssessmentId := none
  deriving DecidableEq

/-- the row that `assess_comparability` asks for -/
def ComparabilityArgs.row (a : ComparabilityArgs Doc) (ownerId : OwnerId) (stamp : Stamp) :
    ComparabilityAssessment Doc where
  id := stamp.id
  ownerId := ownerId
  comparisonId := a.comparisonId
  status := a.status
  dimensions := lib.orEmpty a.dimensions
  reasons := a.reasons.getD []
  basis := a.basis
  evidenceId := a.evidenceId
  supersedesId := a.supersedesId
  idempotencyKey := a.idempotencyKey
  createdAt := stamp.now

/-- the rows that `assess_comparability` refers to -/
def ComparabilityArgs.checked (a : ComparabilityArgs Doc) (s : Tables Doc) (ownerId : OwnerId) :
    Except Err Unit := do
  let _ ← owned s.comparisons (·.ownerId) .strategyEvaluation ownerId a.comparisonId "comparison"
  let _ ← ownedIf s.evidence id .strategyEvaluation ownerId a.evidenceId "evidence"
  match a.supersedesId with
  | none => .ok ()
  | some i =>
    match s.comparabilities.find? fun r => r.id = i ∧ r.ownerId = ownerId with
    | none =>
      .error (.strategyEvaluation "prior assessment is missing or belongs to another owner")
    | some prior =>
      if prior.comparisonId ≠ a.comparisonId then
        .error (.strategyEvaluation "superseded assessment belongs to another comparison")
      else .ok ()

def ComparabilityAssessment.columns (existing values : ComparabilityAssessment Doc) :
    List (String × Bool) :=
  [("basis", existing.basis = values.basis),
    ("comparison_id", existing.comparisonId = values.comparisonId),
    ("dimensions", existing.dimensions = values.dimensions),
    ("evidence_id", existing.evidenceId = values.evidenceId),
    ("reasons", existing.reasons = values.reasons), ("status", existing.status = values.status),
    ("supersedes_id", existing.supersedesId = values.supersedesId)]

/-- what the database refuses of a new comparability assessment -/
def ComparabilityAssessment.refusal (s : Tables Doc) (values : ComparabilityAssessment Doc) :
    Option Err :=
  if tooLong values.idempotencyKey then some .dataError
  else if ¬ lib.isObject values.dimensions then
    some (.integrityError "ck_strategy_comparability_json")
  else if s.comparabilities.any (·.id = values.id) then
    some (.integrityError "strategy_comparability_assessments_pkey")
  else none

/-- `assess_comparability` -/
def assessComparability (s : Tables Doc) (ownerId : OwnerId) (stamp : Stamp)
    (a : ComparabilityArgs Doc) : Except Err Answer × Tables Doc :=
  match a.checked s ownerId with
  | .error e => (.error e, s)
  | .ok () =>
    match idempotent ComparabilityAssessment.key ComparabilityAssessment.columns
        (ComparabilityAssessment.refusal lib s) s.comparabilities (a.row lib ownerId stamp) with
    | .error e => (.error e, s)
    | .ok (i, comparabilities) => (.ok (.comparability i), { s with comparabilities })

structure QualityArgs where
  comparisonId : ComparisonId
  subject : String
  idempotencyKey : String
  reason : String
  unresolvedRegression : Bool := false
  scopeViolation : Bool := false
  evidenceId : Option EvidenceId := none
  deriving DecidableEq

/-- the side of the comparison that is assessed -/
def Comparison.side (c : Comparison Doc) : Subject → BindingId
  | .baseline => c.baselineBindingId
  | .challenger => c.challengerBindingId

/-- the state that an assessment records -/
def QualityArgs.state (a : QualityArgs) (v : VerificationState) : QualityState :=
  if a.scopeViolation then .invalidComparison
  else if a.unresolvedRegression then .regressionDetected
  else if v.failed ≠ 0 then .qualityFail
  else if ¬ v.obligationsSatisfied then .verificationIncomplete
  else .qualityPass

/-- the row that `assess_quality` asks for -/
def QualityArgs.row (a : QualityArgs) (ownerId : OwnerId) (stamp : Stamp) (subject : Subject)
    (v : VerificationState) : QualityAssessment where
  id := stamp.id
  ownerId := ownerId
  comparisonId := a.comparisonId
  subject := subject
  state := a.state v
  requiredCount := v.required
  passedCount := v.passed
  failedCount := v.failed
  missingCount := v.missing
  unresolvedRegression := a.unresolvedRegression
  scopeViolation := a.scopeViolation
  reason := a.reason
  evidenceId := a.evidenceId
  idempotencyKey := a.idempotencyKey
  createdAt := stamp.now

/-- the side that `assess_quality` is about, and what was verified of its execution -/
def QualityArgs.checked (a : QualityArgs) (s : Tables Doc) (ownerId : OwnerId) :
    Except Err (Subject × VerificationState) := do
  let comparison ←
    owned s.comparisons (·.ownerId) .strategyEvaluation ownerId a.comparisonId "comparison"
  match [Subject.baseline, .challenger].find? (·.name = a.subject) with
  | none => .error (.strategyEvaluation "subject must be baseline or challenger")
  | some subject =>
    let _ ← owned s.bindings (·.ownerId) .workIntelligence ownerId (comparison.side subject)
      "strategy execution"
    let _ ← ownedIf s.evidence id .strategyEvaluation ownerId a.evidenceId "evidence"
    .ok (subject, verificationState s ownerId (comparison.side subject))

def QualityAssessment.columns (existing values : QualityAssessment) : List (String × Bool) :=
  [("comparison_id", existing.comparisonId = values.comparisonId),
    ("evidence_id", existing.evidenceId = values.evidenceId),
    ("failed_count", existing.failedCount = values.failedCount),
    ("missing_count", existing.missingCount = values.missingCount),
    ("passed_count", existing.passedCount = values.passedCount),
    ("reason", existing.reason = values.reason),
    ("required_count", existing.requiredCount = values.requiredCount),
    ("scope_violation", existing.scopeViolation = values.scopeViolation),
    ("state", existing.state = values.state), ("subject", existing.subject = values.subject),
    ("unresolved_regression", existing.unresolvedRegression = values.unresolvedRegression)]

/-- what the database refuses of a new quality assessment -/
def QualityAssessment.refusal (s : Tables Doc) (values : QualityAssessment) : Option Err :=
  if tooLong values.idempotencyKey then some .dataError
  else if blankText values.reason then some (.integrityError "ck_strategy_quality_reason")
  else if s.qualities.any (·.id = values.id) then
    some (.integrityError "strategy_quality_assessments_pkey")
  else none

/-- `assess_quality` -/
def assessQuality (s : Tables Doc) (ownerId : OwnerId) (stamp : Stamp) (a : QualityArgs) :
    Except Err Answer × Tables Doc :=
  match a.checked s ownerId with
  | .error e => (.error e, s)
  | .ok (subject, verification) =>
    match idempotent QualityAssessment.key QualityAssessment.columns (QualityAssessment.refusal s)
        s.qualities (a.row ownerId stamp subject verification) with
    | .error e => (.error e, s)
    | .ok (i, qualities) => (.ok (.quality i), { s with qualities })

/-! ## efficiency -/

structure DeltaArgs where
  comparisonId : ComparisonId
  baselineObservationId : ObservationId
  challengerObservationId : ObservationId
  idempotencyKey : String
  deriving DecidableEq

/-- the row that `record_efficiency_delta` asks for -/
def DeltaArgs.checked (a : DeltaArgs) (s : Tables Doc) (ownerId : OwnerId) :
    Except Err EfficiencyDelta := do
  let comparison ←
    owned s.comparisons (·.ownerId) .strategyEvaluation ownerId a.comparisonId "comparison"
  let baseline ← owned s.efficiencies (·.ownerId) .strategyEvaluation ownerId
    a.baselineObservationId "baseline observation"
  let challenger ← owned s.efficiencies (·.ownerId) .strategyEvaluation ownerId
    a.challengerObservationId "challenger observation"
  if baseline.strategyExecutionId ≠ comparison.baselineBindingId ∨
      challenger.strategyExecutionId ≠ comparison.challengerBindingId then
    .error (.strategyEvaluation "efficiency observations do not match comparison sides")
  else if baseline.metricType ≠ challenger.metricType ∨ baseline.unit ≠ challenger.unit then
    .error (.strategyEvaluation "efficiency observations must use the same metric and unit")
  else
    .ok { ownerId := ownerId
          comparisonId := a.comparisonId
          baselineObservationId := a.baselineObservationId
          challengerObservationId := a.challengerObservationId
          metricType := baseline.metricType
          unit := baseline.unit
          baselineValue := baseline.numericValue
          challengerValue := challenger.numericValue
          deltaValue := challenger.numericValue - baseline.numericValue
          idempotencyKey := a.idempotencyKey }

def EfficiencyDelta.columns (existing values : EfficiencyDelta) : List (String × Bool) :=
  [("baseline_observation_id", existing.baselineObservationId = values.baselineObservationId),
    ("baseline_value", existing.baselineValue = values.baselineValue),
    ("challenger_observation_id",
      existing.challengerObservationId = values.challengerObservationId),
    ("challenger_value", existing.challengerValue = values.challengerValue),
    ("comparison_id", existing.comparisonId = values.comparisonId),
    ("delta_value", existing.deltaValue = values.deltaValue),
    ("metric_type", existing.metricType = values.metricType), ("unit", existing.unit = values.unit)]

/-- what the database refuses of a new delta -/
def EfficiencyDelta.refusal (values : EfficiencyDelta) : Option Err :=
  if tooLong values.idempotencyKey then some .dataError
  else if values.baselineObservationId = values.challengerObservationId then
    some (.integrityError "ck_strategy_efficiency_observations")
  else none

/-- `record_efficiency_delta` -/
def recordEfficiencyDelta (s : Tables Doc) (ownerId : OwnerId) (a : DeltaArgs) :
    Except Err Answer × Tables Doc :=
  match a.checked s ownerId with
  | .error e => (.error e, s)
  | .ok values =>
    match idempotent EfficiencyDelta.key EfficiencyDelta.columns EfficiencyDelta.refusal s.deltas
        values with
    | .error e => (.error e, s)
    | .ok (id, deltas) => (.ok (.delta id), { s with deltas })

/-! ## events -/

def Event.columns (existing values : Event) : List (String × Bool) :=
  [("candidate_id", existing.candidateId = values.candidateId),
    ("detail", existing.detail = values.detail),
    ("event_type", existing.eventType = values.eventType),
    ("experiment_id", existing.experimentId = values.experimentId),
    ("from_state", existing.fromState = values.fromState),
    ("to_state", existing.toState = values.toState)]

/-- `_record_event`, in tables that are `before` once the transaction is rolled back -/
def Tables.event (before s : Tables Doc) (row : Event) (answer : EventId → Answer) :
    Except Err Answer × Tables Doc :=
  match Keyed.lookup Event.key s.events row.key with
  | some (id, existing) => (replay .strategyEvaluation (existing.columns row) (answer id), s)
  | none =>
    if tooLong row.idempotencyKey then (.error .dataError, before)
    else (.ok (answer s.events.length), { s with events := s.events ++ [row] })

/-! ## experiments -/

structure ExperimentArgs (Doc : Type) where
  baselineStrategyId : StrategyId
  challengerStrategyId : StrategyId
  hypothesis : String
  intendedChange : String
  expectedBenefit : String
  idempotencyKey : String
  qualityInvariants : Option (List Doc) := none
  scope : Option Doc := none
  applicability : Option Doc := none
  requiredSampleCount : Option ℤ := none
  provenance : Option Doc := none
  deriving DecidableEq

/-- the row that `create_experiment` asks for -/
def ExperimentArgs.row (a : ExperimentArgs Doc) (ownerId : OwnerId) : Experiment Doc where
  ownerId := ownerId
  baselineStrategyId := a.baselineStrategyId
  challengerStrategyId := a.challengerStrategyId
  hypothesis := a.hypothesis
  intendedChange := a.intendedChange
  expectedBenefit := a.expectedBenefit
  qualityInvariants := a.qualityInvariants.getD []
  scope := lib.orEmpty a.scope
  applicability := lib.orEmpty a.applicability
  requiredSampleCount := a.requiredSampleCount
  provenance := lib.orEmpty a.provenance
  idempotencyKey := a.idempotencyKey

/-- the strategies that `create_experiment` refers to -/
def ExperimentArgs.checked (a : ExperimentArgs Doc) (s : Tables Doc) (ownerId : OwnerId) :
    Except Err Unit := do
  let _ ← owned s.strategies id .strategyEvaluation ownerId a.baselineStrategyId "baseline strategy"
  let _ ←
    owned s.strategies id .strategyEvaluation ownerId a.challengerStrategyId "challenger strategy"

def Experiment.columns (existing values : Experiment Doc) : List (String × Bool) :=
  [("applicability", existing.applicability = values.applicability),
    ("baseline_strategy_id", existing.baselineStrategyId = values.baselineStrategyId),
    ("challenger_strategy_id", existing.challengerStrategyId = values.challengerStrategyId),
    ("expected_benefit", existing.expectedBenefit = values.expectedBenefit),
    ("failure_reason", existing.failureReason = values.failureReason),
    ("hypothesis", existing.hypothesis = values.hypothesis),
    ("intended_change", existing.intendedChange = values.intendedChange),
    ("provenance", existing.provenance = values.provenance),
    ("quality_invariants", existing.qualityInvariants = values.qualityInvariants),
    ("required_sample_count", existing.requiredSampleCount = values.requiredSampleCount),
    ("scope", existing.scope = values.scope), ("state", existing.state = values.state)]

/-- `required_sample_count IS NULL OR required_sample_count>0` fails, and of the other count -/
def notPositive (count : Option ℤ) : Bool := count.any fun n => n ≤ 0

/-- what the database refuses of a new experiment -/
def Experiment.refusal (values : Experiment Doc) : Option Err :=
  if tooLong values.idempotencyKey then some .dataError
  else if values.baselineStrategyId = values.challengerStrategyId then
    some (.integrityError "ck_strategy_experiment_distinct")
  else if notPositive values.requiredSampleCount then
    some (.integrityError "ck_strategy_experiment_sample")
  else if ¬ lib.isObject values.scope || ¬ lib.isObject values.applicability ||
      ¬ lib.isObject values.provenance then
    some (.integrityError "ck_strategy_experiment_json")
  else none

/-- the event of a new experiment -/
def ExperimentArgs.created (a : ExperimentArgs Doc) (ownerId : OwnerId) (id : ExperimentId) :
    Event where
  ownerId := ownerId
  experimentId := some id
  eventType := .created
  idempotencyKey := a.idempotencyKey ++ ":created"
  toState := some "draft"

/-- `create_experiment` -/
def createExperiment (s : Tables Doc) (ownerId : OwnerId) (a : ExperimentArgs Doc) :
    Except Err Answer × Tables Doc :=
  match a.checked s ownerId with
  | .error e => (.error e, s)
  | .ok () =>
    match idempotent Experiment.key Experiment.columns (Experiment.refusal lib) s.experiments
        (a.row lib ownerId) with
    | .error e => (.error e, s)
    | .ok (id, experiments) =>
      s.event { s with experiments } (a.created ownerId id) fun _ => .experiment id

/-- `EXPERIMENT_TRANSITIONS` -/
def experimentTransitions : ExperimentState → List ExperimentState
  | .draft => [.ready, .cancelled, .invalidated]
  | .ready => [.running, .cancelled, .invalidated]
  | .running => [.completed, .failed, .cancelled, .invalidated]
  | .completed => [.invalidated]
  | .failed => [.invalidated]
  | .cancelled => []
  | .invalidated => []

/-- the event of an experiment's new state; a failure reason that is not empty goes along -/
def experimentChanged (ownerId : OwnerId) (id : ExperimentId) (old next : ExperimentState)
    (failureReason : Option String) (idempotencyKey : String) : Event where
  ownerId := ownerId
  experimentId := some id
  eventType := .stateChanged
  fromState := some old.name
  toState := some next.name
  detail := ((failureReason.filter (· ≠ "")).map EventDetail.failure).getD .empty
  idempotencyKey := idempotencyKey

/-- `transition_experiment`; `strategy_evaluation_state_only` has the same transitions -/
def transitionExperiment (s : Tables Doc) (ownerId : OwnerId) (id : ExperimentId)
    (toState idempotencyKey : String) (failureReason : Option String) :
    Except Err Answer × Tables Doc :=
  match owned s.experiments (·.ownerId) .strategyEvaluation ownerId id "experiment" with
  | .error e => (.error e, s)
  | .ok row =>
    match (experimentTransitions row.state).find? (·.name = toState) with
    | none =>
      (.error (.strategyEvaluation
        ("invalid experiment transition " ++ row.state.name ++ " -> " ++ toState)), s)
    | some next =>
      s.event
        { s with experiments := s.experiments.set id { row with state := next, failureReason } }
        (experimentChanged ownerId id row.state next failureReason idempotencyKey)
        (.experimentEvent id)

/-! ## candidates -/

structure CandidateArgs (Doc : Type) where
  strategyId : StrategyId
  baselineStrategyId : StrategyId
  idempotencyKey : String
  applicableContext : Option Doc := none
  knownTradeoffs : Option (List Doc) := none
  confidenceBasis : Basis := .unknown
  minimumValidComparisons : Option ℤ := none
  provenance : Option Doc := none
  deriving DecidableEq

/-- the row that `create_promotion_candidate` asks for -/
def CandidateArgs.row (a : CandidateArgs Doc) (ownerId : OwnerId) : Candidate Doc where
  ownerId := ownerId
  strategyId := a.strategyId
  baselineStrategyId := a.baselineStrategyId
  applicableContext := lib.orEmpty a.applicableContext
  knownTradeoffs := a.knownTradeoffs.getD []
  confidenceBasis := a.confidenceBasis
  minimumValidComparisons := a.minimumValidComparisons
  provenance := lib.orEmpty a.provenance
  idempotencyKey := a.idempotencyKey

/-- the strategies that `create_promotion_candidate` refers to -/
def CandidateArgs.checked (a : CandidateArgs Doc) (s : Tables Doc) (ownerId : OwnerId) :
    Except Err Unit := do
  let _ ← owned s.strategies id .strategyEvaluation ownerId a.strategyId "strategy"
  let _ ← owned s.strategies id .strategyEvaluation ownerId a.baselineStrategyId "baseline strategy"

def Candidate.columns (existing values : Candidate Doc) : List (String × Bool) :=
  [("applicable_context", existing.applicableContext = values.applicableContext),
    ("baseline_strategy_id", existing.baselineStrategyId = values.baselineStrategyId),
    ("confidence_basis", existing.confidenceBasis = values.confidenceBasis),
    ("known_tradeoffs", existing.knownTradeoffs = values.knownTradeoffs),
    ("minimum_valid_comparisons",
      existing.minimumValidComparisons = values.minimumValidComparisons),
    ("provenance", existing.provenance = values.provenance),
    ("state", existing.state = values.state), ("strategy_id", existing.strategyId = values.strategyId)]

/-- what the database refuses of a new candidate -/
def Candidate.refusal (values : Candidate Doc) : Option Err :=
  if tooLong values.idempotencyKey then some .dataError
  else if values.strategyId = values.baselineStrategyId then
    some (.integrityError "ck_strategy_candidate_distinct")
  else if notPositive values.minimumValidComparisons then
    some (.integrityError "ck_strategy_candidate_sample")
  else if ¬ lib.isObject values.applicableContext || ¬ lib.isObject values.provenance then
    some (.integrityError "ck_strategy_candidate_json")
  else none

/-- the event of a new candidate -/
def CandidateArgs.created (a : CandidateArgs Doc) (ownerId : OwnerId) (id : CandidateId) :
    Event where
  ownerId := ownerId
  candidateId := some id
  eventType := .created
  idempotencyKey := a.idempotencyKey ++ ":created"
  toState := some "candidate"

/-- `create_promotion_candidate` -/
def createPromotionCandidate (s : Tables Doc) (ownerId : OwnerId) (a : CandidateArgs Doc) :
    Except Err Answer × Tables Doc :=
  match a.checked s ownerId with
  | .error e => (.error e, s)
  | .ok () =>
    match idempotent Candidate.key Candidate.columns (Candidate.refusal lib) s.candidates
        (a.row lib ownerId) with
    | .error e => (.error e, s)
    | .ok (id, candidates) =>
      s.event { s with candidates } (a.created ownerId id) fun _ => .candidate id

/-! ## links -/

def Link.columns (existing values : Link) : List (String × Bool) :=
  [("comparison_id", existing.comparisonId = values.comparisonId),
    ("parent_id", existing.parentId = values.parentId)]

/-- what the database refuses of a new link, by the constraint on the pairs of its table -/
def Link.refusal (pairs : String) (rows : List Link) (values : Link) : Option Err :=
  if tooLong values.idempotencyKey then some .dataError
  else if rows.any fun l => l.ownerId = values.ownerId ∧ l.parentId = values.parentId ∧
      l.comparisonId = values.comparisonId then
    some (.integrityError pairs)
  else none

/-- the strategies of the executions that a comparison is of -/
def Comparison.strategies (c : Comparison Doc) (s : Tables Doc) (ownerId : OwnerId) :
    Except Err (StrategyId × StrategyId) := do
  let baseline ←
    owned s.bindings (·.ownerId) .strategyEvaluation ownerId c.baselineBindingId "baseline binding"
  let challenger ←
    owned s.bindings (·.ownerId) .strategyEvaluation ownerId c.challengerBindingId
      "challenger binding"
  .ok (baseline.strategyId, challenger.strategyId)

/-- what a comparison may be linked to -/
inductive Parent where
  | experiment (id : ExperimentId)
  | candidate (id : CandidateId)
  deriving DecidableEq

/-- the checks of `link_comparison` -/
def linkChecked (s : Tables Doc) (ownerId : OwnerId) (comparisonId : ComparisonId)
    (experimentId : Option ExperimentId) (candidateId : Option CandidateId) : Except Err Parent := do
  let comparison ←
    owned s.comparisons (·.ownerId) .strategyEvaluation ownerId comparisonId "comparison"
  match experimentId, candidateId with
  | some id, none =>
    let parent ← owned s.experiments (·.ownerId) .strategyEvaluation ownerId id "experiment"
    let strategies ← comparison.strategies s ownerId
    if strategies ≠ (parent.baselineStrategyId, parent.challengerStrategyId) then
      .error (.strategyEvaluation "comparison strategies do not match experiment")
    else .ok (.experiment id)
  | none, some id =>
    let parent ← owned s.candidates (·.ownerId) .strategyEvaluation ownerId id "candidate"
    let strategies ← comparison.strategies s ownerId
    if strategies ≠ (parent.baselineStrategyId, parent.strategyId) then
      .error (.strategyEvaluation "comparison strategies do not match candidate")
    else .ok (.candidate id)
  | _, _ => .error (.strategyEvaluation "exactly one experiment or candidate is required")

/-- the event of a new link -/
def linkEvent (ownerId : OwnerId) (parent : Parent) (comparisonId : ComparisonId)
    (idempotencyKey : String) : Event where
  ownerId := ownerId
  experimentId := match parent with
    | .experiment id => some id
    | .candidate _ => none
  candidateId := match parent with
    | .experiment _ => none
    | .candidate id => some id
  eventType := .comparisonLinked
  idempotencyKey := idempotencyKey ++ ":event"
  detail := .comparison comparisonId

/-- `link_comparison` -/
def linkComparison (s : Tables Doc) (ownerId : OwnerId) (comparisonId : ComparisonId)
    (idempotencyKey : String) (experimentId : Option ExperimentId)
    (candidateId : Option CandidateId) : Except Err Answer × Tables Doc :=
  match linkChecked s ownerId comparisonId experimentId candidateId with
  | .error e => (.error e, s)
  | .ok (.experiment id) =>
    match idempotent Link.key Link.columns
        (Link.refusal "uq_strategy_experiment_comparisons_pair" s.experimentLinks)
        s.experimentLinks ⟨ownerId, id, comparisonId, idempotencyKey⟩ with
    | .error e => (.error e, s)
    | .ok (link, experimentLinks) =>
      s.event { s with experimentLinks }
        (linkEvent ownerId (.experiment id) comparisonId idempotencyKey)
        fun _ => .experimentLink link
  | .ok (.candidate id) =>
    match idempotent Link.key Link.columns
        (Link.refusal "uq_strategy_promotion_comparisons_pair" s.promotionLinks)
        s.promotionLinks ⟨ownerId, id, comparisonId, idempotencyKey⟩ with
    | .error e => (.error e, s)
    | .ok (link, promotionLinks) =>
      s.event { s with promotionLinks }
        (linkEvent ownerId (.candidate id) comparisonId idempotencyKey)
        fun _ => .promotionLink link

/-! ## promotion -/

/-- `comparability.status in {"comparable", "partially_comparable"}` -/
def ComparabilityAssessment.valid (a : ComparabilityAssessment Doc) : Bool :=
  a.status = .comparable ∨ a.status = .partiallyComparable

/-- the counts of the loop in `promotion_summary` -/
structure Counts where
  valid : ℕ := 0
  invalid : ℕ := 0
  passed : ℕ := 0
  failed : ℕ := 0
  conflicts : ℕ := 0
  deriving DecidableEq

/-- one pass of the loop, for a link with these latest assessments -/
def Counts.add (n : Counts) (comparability : Option (ComparabilityAssessment Doc))
    (quality : Option QualityAssessment) : Counts :=
  if ¬ comparability.any (·.valid) then { n with invalid := n.invalid + 1 }
  else
    let n := { n with valid := n.valid + 1 }
    let n := if quality.any (·.state = .qualityPass) then { n with passed := n.passed + 1 }
      else { n with failed := n.failed + 1 }
    if quality.any fun q => q.unresolvedRegression || q.scopeViolation then
      { n with conflicts := n.conflicts + 1 }
    else n

structure PromotionEvidenceSummary where
  comparisonCount : ℕ
  validComparisonCount : ℕ
  invalidComparisonCount : ℕ
  qualityPassCount : ℕ
  qualityFailCount : ℕ
  unresolvedConflicts : ℕ
  promotable : Bool
  deriving DecidableEq

/-- `candidate.minimum_valid_comparisons or 2` -/
def Candidate.minimum (c : Candidate Doc) : ℤ := (c.minimumValidComparisons.filter (· ≠ 0)).getD 2

/-- `promotion_summary`, of a candidate that the owner has -/
def summaryOf (s : Tables Doc) (ownerId : OwnerId) (id : CandidateId) (c : Candidate Doc) :
    PromotionEvidenceSummary :=
  let links := s.linked ownerId id
  let n := links.foldl (fun (n : Counts) link => n.add (s.latestComparability ownerId link.comparisonId)
    (s.latestQuality ownerId link.comparisonId)) {}
  { comparisonCount := links.length
    validComparisonCount := n.valid
    invalidComparisonCount := n.invalid
    qualityPassCount := n.passed
    qualityFailCount := n.failed
    unresolvedConflicts := n.conflicts
    promotable := c.minimum ≤ n.valid ∧ n.passed = n.valid ∧ n.failed = 0 ∧ n.conflicts = 0 }

/-- `promotion_summary` -/
def promotionSummary (s : Tables Doc) (ownerId : OwnerId) (id : CandidateId) :
    Except Err PromotionEvidenceSummary :=
  (owned s.candidates (·.ownerId) .strategyEvaluation ownerId id "candidate").map
    (summaryOf s ownerId id)

/-- the rows that the trigger counts: `JOIN LATERAL` the latest comparability assessment,
`LEFT JOIN LATERAL` the latest quality assessment -/
def promotionRows (s : Tables Doc) (new : Candidate Doc) (id : CandidateId) :
    List (Option QualityAssessment) :=
  (s.linked new.ownerId id).flatMap fun l =>
    match s.latestComparability new.ownerId l.comparisonId with
    | some c => if c.valid then [s.latestQuality new.ownerId l.comparisonId] else []
    | none => []

/-- `q.state='quality_pass' AND NOT q.unresolved_regression AND NOT q.scope_violation`; of no row
this is NULL, which FILTER drops -/
def passing (q : Option QualityAssessment) : Bool :=
  q.any fun q => q.state = .qualityPass ∧ ¬ q.unresolvedRegression ∧ ¬ q.scopeViolation

/-- `CANDIDATE_TRANSITIONS` -/
def candidateTransitions : CandidateState → List CandidateState
  | .candidate => [.insufficientEvidence, .underReview, .rejected, .invalidated]
  | .insufficientEvidence => [.underReview, .rejected, .invalidated]
  | .underReview => [.approved, .rejected, .insufficientEvidence, .invalidated]
  | .approved => [.superseded, .invalidated]
  | .rejected => []
  | .superseded => []
  | .invalidated => []

/-- `strategy_evaluation_state_only`, of an update of `strategy_promotion_candidates` -/
def candidateGuard (s : Tables Doc) (id : CandidateId) (old new : Candidate Doc) : Option Err :=
  let rows := promotionRows s new id
  if new.ownerId ≠ old.ownerId ∨ new.idempotencyKey ≠ old.idempotencyKey then
    some (.sqlException "strategy evaluation identity is immutable")
  else if new.strategyId ≠ old.strategyId ∨ new.baselineStrategyId ≠ old.baselineStrategyId ∨
      new.applicableContext ≠ old.applicableContext ∨ new.knownTradeoffs ≠ old.knownTradeoffs ∨
      new.confidenceBasis ≠ old.confidenceBasis ∨
      new.minimumValidComparisons ≠ old.minimumValidComparisons ∨
      new.provenance ≠ old.provenance then
    some (.sqlException "strategy promotion definition is immutable")
  else if new.state ∉ candidateTransitions old.state then
    some (.sqlException "invalid strategy promotion transition")
  else if new.state = .approved ∧ ((rows.length : ℤ) < new.minimumValidComparisons.getD 2 ∨
      rows.countP passing ≠ rows.length) then
    some (.sqlException "quality-safe promotion evidence threshold is not satisfied")
  else none

/-- the event of a candidate's new state -/
def candidateChanged (ownerId : OwnerId) (id : CandidateId) (old next : CandidateState)
    (idempotencyKey : String) : Event where
  ownerId := ownerId
  candidateId := some id
  eventType := .stateChanged
  fromState := some old.name
  toState := some next.name
  idempotencyKey := idempotencyKey

/-- an update that the trigger sees when the session writes it: with the event, or with the
caller's commit once `_same` has raised -/
def guarded {α : Type} (before : Tables Doc) (refused : Option Err)
    (written : Except Err α × Tables Doc) : Except Err α × Tables Doc :=
  match refused, written with
  | none, _ => written
  | some e, (.ok _, _) => (.error e, before)
  | some _, (.error e, _) => (.error e, before)

/-- `transition_candidate` -/
def transitionCandidate (s : Tables Doc) (ownerId : OwnerId) (id : CandidateId)
    (toState idempotencyKey : String) : Except Err Answer × Tables Doc :=
  match owned s.candidates (·.ownerId) .strategyEvaluation ownerId id "candidate" with
  | .error e => (.error e, s)
  | .ok row =>
    match (candidateTransitions row.state).find? (·.name = toState) with
    | none =>
      (.error (.strategyEvaluation
        ("invalid candidate transition " ++ row.state.name ++ " -> " ++ toState)), s)
    | some next =>
      if next = .approved ∧ ¬ (summaryOf s ownerId id row).promotable then
        (.error (.strategyEvaluation "quality-safe evidence threshold is not satisfied"), s)
      else
        let new := { row with state := next }
        guarded s (candidateGuard s id row new)
          (s.event { s with candidates := s.candidates.set id new }
            (candidateChanged ownerId id row.state next idempotencyKey) (.candidateEvent id))

/-! ## calls -/

inductive Call (Doc : Type) where
  | createComparison (a : ComparisonArgs Doc)
  | assessComparability (a : ComparabilityArgs Doc)
  | assessQuality (a : QualityArgs)
  | recordEfficiencyDelta (a : DeltaArgs)
  | createExperiment (a : ExperimentArgs Doc)
  | transitionExperiment (id : ExperimentId) (toState idempotencyKey : String)
      (failureReason : Option String)
  | createPromotionCandidate (a : CandidateArgs Doc)
  | linkComparison (comparisonId : ComparisonId) (idempotencyKey : String)
      (experimentId : Option ExperimentId) (candidateId : Option CandidateId)
  | transitionCandidate (id : CandidateId) (toState idempotencyKey : String)
  deriving DecidableEq

/-- what a call answers, and the tables that it leaves to its transaction -/
def Call.exec (s : Tables Doc) (ownerId : OwnerId) (stamp : Stamp) :
    Call Doc → Except Err Answer × Tables Doc
  | .createComparison a => Strategy.createComparison lib s ownerId a
  | .assessComparability a => Strategy.assessComparability lib s ownerId stamp a
  | .assessQuality a => Strategy.assessQuality s ownerId stamp a
  | .recordEfficiencyDelta a => Strategy.recordEfficiencyDelta s ownerId a
  | .createExperiment a => Strategy.createExperiment lib s ownerId a
  | .transitionExperiment id toState key reason =>
    Strategy.transitionExperiment s ownerId id toState key reason
  | .createPromotionCandidate a => Strategy.createPromotionCandidate lib s ownerId a
  | .linkComparison comparisonId key experimentId candidateId =>
    Strategy.linkComparison s ownerId comparisonId key experimentId candidateId
  | .transitionCandidate id toState key => Strategy.transitionCandidate s ownerId id toState key

/-- the rows that another service adds -/
def Elsewhere.append (s new : Elsewhere) : Elsewhere where
  bindings := s.bindings ++ new.bindings
  strategies := s.strategies ++ new.strategies
  efficiencies := s.efficiencies ++ new.efficiencies
  obligations := s.obligations ++ new.obligations
  observations := s.observations ++ new.observations
  evidence := s.evidence ++ new.evidence
  problems := s.problems ++ new.problems
  tasks := s.tasks ++ new.tasks

/-- a call, with the stamp of the row that it may write, and whether its caller rolls back when it
raises; or what other services write -/
inductive Op (Doc : Type) where
  | call (ownerId : OwnerId) (c : Call Doc) (stamp : Stamp) (rollsBack : Bool)
  | elsewhere (new : Elsewhere)
  deriving DecidableEq

def step (s : Tables Doc) : Op Doc → Tables Doc
  | .call ownerId c stamp rollsBack =>
    match c.exec lib s ownerId stamp with
    | (.ok _, after) => after
    | (.error _, after) => if rollsBack then s else after
  | .elsewhere new => { s with toElsewhere := s.toElsewhere.append new }

end LifeAI.Strategy
