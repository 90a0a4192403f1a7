import LifeAI.Coordination.Model
import LifeAI.Lib.Keyed

/-!
# Dispatches and their results

One assignment, with the evidence rows of its owner.  What the readiness gate decides, and what the
adapter answers, are inputs; the rows of dependent assignments are not read here.

* `CoordinationDb`  the assignment, the evidence tables, the events;
* `recordExecution`, `recordEvidence`   the inserts of `intelligence_governance`, which replay a row
                   under a key and refuse other fields under it;
* `dispatchAssignment`, `applyDispatchResult`, `collectDispatchResult`   `dispatch.py`.
-/

namespace LifeAI

/-- the `context` of an execution record -/
structure ExecutionContext where
  workCoordinationRole : String
  assignmentId : AssignmentId
  deriving DecidableEq

/-- a row of `intelligence_executions`, with the columns that the coordination sets -/
structure IntelligenceExecution where
  ownerId : OwnerId
  idempotencyKey : String
  taskId : TaskId
  agentIdentity : String
  model : Option String
  executionEnvironment : String
  capabilities : List String
  role : String
  participationMode : String
  context : ExecutionContext
  classificationBasis : String := "deterministic"
  deriving DecidableEq

/-- the payload of an outcome; a field that was not observed is left out of the dictionary -/
structure OutcomePayload where
  testsPassed : Option Bool := none
  testsRun : Option Int := none
  testsFailed : Option Int := none
  durationSeconds : Option Rat := none
  costTokens : Option Int := none
  costUsd : Option Rat := none
  ciConclusion : Option String := none
  mergeResult : Option String := none
  failureReason : Option String := none
  adapterKey : Option String := none
  dispatchAttemptId : Option AttemptId := none
  deriving DecidableEq

/-- a row of `intelligence_evidence` -/
structure IntelligenceEvidence where
  ownerId : OwnerId
  executionId : Nat
  idempotencyKey : String
  evidenceKind : String
  payload : OutcomePayload
  sourceType : String
  sourceRef : AssignmentId
  reviewKind : String := "unknown"
  deterministic : Bool := false
  deriving DecidableEq

/-- the `detail` of a status change, beside the two statuses -/
structure TransitionDetail where
  reason : Option String := none
  detail : Option String := none
  attemptId : Option AttemptId := none
  deriving DecidableEq

inductive AssignmentEvent where
  | statusChanged (current target : WorkAssignmentStatus) (detail : TransitionDetail)
  | executionRecorded (executionId : Nat)
  | evidenceRecorded (evidenceId : Nat) (evidenceKind : String)
  | executionObserved (kind summary : String) (attemptId : AttemptId)
  deriving DecidableEq

structure CoordinationDb where
  assignment : AgentWorkAssignment
  executions : List IntelligenceExecution := []
  evidence : List IntelligenceEvidence := []
  events : List AssignmentEvent := []
  deriving DecidableEq

abbrev CoordTx (α : Type) := Tx CoordinationDb CoordinationErr α

/-! ## evidence -/

/-- a field of `_same_or_conflict` -/
def mismatch (name : String) (same : Bool) : List String := if same then [] else [name]

/-- the fields in which a row under the key differs from what is recorded now, sorted -/
def IntelligenceExecution.mismatches (existing values : IntelligenceExecution) : List String :=
  mismatch "agent_identity" (existing.agentIdentity = values.agentIdentity) ++
  mismatch "capabilities" (existing.capabilities = values.capabilities) ++
  mismatch "classification_basis" (existing.classificationBasis = values.classificationBasis) ++
  mismatch "context" (existing.context = values.context) ++
  mismatch "execution_environment" (existing.executionEnvironment = values.executionEnvironment) ++
  mismatch "model" (existing.model = values.model) ++
  mismatch "participation_mode" (existing.participationMode = values.participationMode) ++
  mismatch "role" (existing.role = values.role) ++
  mismatch "task_id" (existing.taskId = values.taskId)

def IntelligenceEvidence.mismatches (existing values : IntelligenceEvidence) : List String :=
  mismatch "deterministic" (existing.deterministic = values.deterministic) ++
  mismatch "evidence_kind" (existing.evidenceKind = values.evidenceKind) ++
  mismatch "payload" (existing.payload = values.payload) ++
  mismatch "review_kind" (existing.reviewKind = values.reviewKind) ++
  mismatch "source_ref" (existing.sourceRef = values.sourceRef) ++
  mismatch "source_type" (existing.sourceType = values.sourceType)

def OutcomePayload.storable (p : OutcomePayload) : Bool :=
  p.ciConclusion.all (LifeAI.storable none) ∧ p.mergeResult.all (LifeAI.storable none) ∧
    p.failureReason.all (LifeAI.storable none) ∧ p.adapterKey.all (LifeAI.storable none)

/-- the unique key of a row -/
def IntelligenceExecution.key (x : IntelligenceExecution) : OwnerId × String :=
  (x.ownerId, x.idempotencyKey)

def IntelligenceEvidence.key (x : IntelligenceEvidence) : OwnerId × Nat × String :=
  (x.ownerId, x.executionId, x.idempotencyKey)

/-- `_same_or_conflict` -/
def sameOrConflict (mismatches : List String) : Option CoordinationErr :=
  if mismatches = [] then none else some (.idempotencyConflict mismatches)

/-- `record_execution` -/
def recordExecution (values : IntelligenceExecution) (db : CoordinationDb) :
    Except CoordinationErr (Nat × CoordinationDb) :=
  (Keyed.record IntelligenceExecution.key
    (fun existing v => sameOrConflict (existing.mismatches v)) (fun _ => none)
    db.executions values).map fun p => (p.1, { db with executions := p.2 })

/-- `record_evidence` -/
def recordEvidence (values : IntelligenceEvidence) (db : CoordinationDb) :
    Except CoordinationErr (Nat × CoordinationDb) :=
  (Keyed.record IntelligenceEvidence.key
    (fun existing v => sameOrConflict (existing.mismatches v))
    (fun v => if v.payload.storable then none else some .dataError)
    db.evidence values).map fun p => (p.1, { db with evidence := p.2 })

/-- the execution record of an assignment with the task `t` -/
def AgentWorkAssignment.executionRecord (a : AgentWorkAssignment) (agent : CoordinationAgent)
    (t : TaskId) : IntelligenceExecution where
  ownerId := a.ownerId
  idempotencyKey := "agent-coordination:" ++ toString a.id
  taskId := t
  agentIdentity := agent.agentKey
  model := agent.modelHint
  executionEnvironment := agent.adapterKind.value
  capabilities := agent.capabilities
  role := a.role.intelligenceRole
  participationMode := if a.parallelExplorationGroupId.isSome then "parallel" else "primary"
  context := { workCoordinationRole := a.role.value, assignmentId := a.id }

/-- `record_assignment_execution` -/
def recordAssignmentExecution (agent : CoordinationAgent) (db : CoordinationDb) :
    Except CoordinationErr (Unit × CoordinationDb) :=
  match db.assignment.taskId with
  | none => .error (.coordination ("record_assignment_execution requires assignment.task_id " ++
      "(IntelligenceExecution.task_id is NOT NULL)"))
  | some t => do
    let (id, db) ← recordExecution (db.assignment.executionRecord agent t) db
    return ((), { db with
      assignment := { db.assignment with intelligenceExecutionId := some id }
      events := db.events ++ [.executionRecorded id] })

/-- the evidence of an outcome, under the default key of `record_assignment_outcome` -/
def AgentWorkAssignment.outcome (a : AgentWorkAssignment) (executionId : Nat)
    (evidenceKind : String) (payload : OutcomePayload) (deterministic : Bool) :
    IntelligenceEvidence where
  ownerId := a.ownerId
  executionId := executionId
  idempotencyKey := "agent-coordination-outcome:" ++ toString a.id ++ ":" ++ evidenceKind
  evidenceKind := evidenceKind
  payload := payload
  sourceType := "agent_coordination"
  sourceRef := a.id
  deterministic := deterministic

/-- `record_assignment_outcome` without a key of the caller -/
def recordAssignmentOutcome (evidenceKind : String) (payload : OutcomePayload)
    (deterministic : Bool) (db : CoordinationDb) :
    Except CoordinationErr (Unit × CoordinationDb) :=
  match db.assignment.intelligenceExecutionId with
  | none => .error (.coordination ("record_assignment_outcome requires " ++
      "record_assignment_execution() to have run first"))
  | some e => do
    let (id, db) ← recordEvidence (db.assignment.outcome e evidenceKind payload deterministic) db
    return ((), { db with events := db.events ++ [.evidenceRecorded id evidenceKind] })

/-! ## statuses -/

def TransitionDetail.storable (d : TransitionDetail) : Bool :=
  d.reason.all (LifeAI.storable none) ∧ d.detail.all (LifeAI.storable none)

/-- `transition_status` -/
def transitionStatus (now : Time) (target : WorkAssignmentStatus) (detail : TransitionDetail)
    (db : CoordinationDb) : Except CoordinationErr (Unit × CoordinationDb) := do
  let a ← db.assignment.transition now target
  if target = db.assignment.status then return ((), db)
  else if detail.storable then
    return ((), { db with
      assignment := a
      events := db.events ++ [.statusChanged db.assignment.status target detail] })
  else .error .dataError

/-! ## dispatch -/

inductive DispatchOutcome where
  | assignable
  /-- the outcome of the readiness gate, or `SCOPE_NOT_EXPLICIT` for the authority envelope -/
  | refused (outcome : String)
  | realProviderNotConfigured | adapterProcessLost | adapterTimeout
  deriving DecidableEq

structure DispatchDecision where
  outcome : DispatchOutcome
  attemptId : Option AttemptId := none
  deriving DecidableEq

/-- what a call of `dispatch_assignment` meets -/
structure DispatchEnv where
  now : Time
  /-- the refusal of `evaluate_dispatch_readiness`, or of the authority envelope -/
  refusal : Option String := none
  attemptId : AttemptId
  /-- what `adapter.start_assignment` raises -/
  start : Option AdapterErr := none
  deriving DecidableEq

/-- `dispatch_assignment` -/
def dispatchAssignment (env : DispatchEnv) : CoordTx DispatchDecision :=
  match env.refusal with
  | some outcome => return { outcome := .refused outcome }
  | none => do
    let blocked := fun (reason : String) (message : String) =>
      Tx.flush (transitionStatus env.now .blocked
        { reason := some reason, detail := some message, attemptId := some env.attemptId })
    Tx.flush (transitionStatus env.now .waitingAgent
      { reason := some "dispatching", attemptId := some env.attemptId })
    match env.start with
    | some (.providerNotConfigured message) =>
      blocked "REAL_PROVIDER_NOT_CONFIGURED" message
      return { outcome := .realProviderNotConfigured, attemptId := some env.attemptId }
    | some (.processLost message) =>
      blocked "ADAPTER_PROCESS_LOST" message
      return { outcome := .adapterProcessLost, attemptId := some env.attemptId }
    | some (.timeout message) =>
      blocked "ADAPTER_TIMEOUT" message
      return { outcome := .adapterTimeout, attemptId := some env.attemptId }
    | some (.other message) =>
      blocked "adapter_start_assignment_failed" message
      Tx.raise (.adapter (.other message))
    | none =>
      Tx.flush (transitionStatus env.now .running { attemptId := some env.attemptId })
      return { outcome := .assignable, attemptId := some env.attemptId }

/-! ## results -/

structure DispatchResult where
  succeeded : Bool
  adapterKey : Option String := none
  dispatchAttemptId : Option AttemptId := none
  headSha : Option String := none
  changedPaths : List String := []
  testsPassed : Option Bool := none
  testsRun : Option Int := none
  testsFailed : Option Int := none
  ciConclusion : Option String := none
  ciRefs : List String := []
  prRef : Option String := none
  failureReason : Option String := none
  blockReason : Option String := none
  durationSeconds : Option Rat := none
  costTokens : Option Int := none
  costUsd : Option Rat := none
  deriving DecidableEq

namespace DispatchResult

variable (r : DispatchResult)

/-- what is appended to `output_refs` -/
def outputRefs : List OutputRef :=
  (if r.changedPaths ≠ [] then [.changedPaths r.changedPaths] else []) ++
    if r.ciRefs ≠ [] then [.ciRefs r.ciRefs] else []

def payload : OutcomePayload where
  testsPassed := r.testsPassed
  testsRun := r.testsRun
  testsFailed := r.testsFailed
  durationSeconds := r.durationSeconds
  costTokens := r.costTokens
  costUsd := r.costUsd
  ciConclusion := r.ciConclusion
  -- a `pr_ref` counts when it is not the empty text
  mergeResult := if r.succeeded ∧ r.prRef.any (· ≠ "") then some "merged" else none
  failureReason := r.failureReason
  adapterKey := r.adapterKey
  dispatchAttemptId := r.dispatchAttemptId

/-- the status that the result leads to -/
def target : WorkAssignmentStatus :=
  if r.succeeded then .completed else if r.blockReason.isSome then .blocked else .failed

def detail : TransitionDetail :=
  if r.succeeded then {}
  else match r.blockReason with
    | some reason => { reason := some reason }
    | none =>
      match r.failureReason with
      | some reason => { reason := some (if reason = "" then "unspecified failure" else reason) }
      | none => { reason := some "unspecified failure" }

/-- the pointers fit their columns -/
def pointersStorable : Bool :=
  r.headSha.all (storable (some 64)) ∧ r.prRef.all (storable (some 256)) ∧
    r.changedPaths.all (storable none) ∧ r.ciRefs.all (storable none)

end DispatchResult

/-- the pointer fields of the assignment -/
def storePointers (r : DispatchResult) (db : CoordinationDb) :
    Except CoordinationErr (Unit × CoordinationDb) :=
  if r.pointersStorable then
    .ok ((), { db with assignment := { db.assignment with
      headSha := r.headSha.or db.assignment.headSha
      upstreamPrRef := r.prRef.or db.assignment.upstreamPrRef
      outputRefs := db.assignment.outputRefs ++ r.outputRefs } })
  else .error .dataError

/-- an execution record unless the assignment has one -/
def ensureExecution (agent : CoordinationAgent) (db : CoordinationDb) :
    Except CoordinationErr (Unit × CoordinationDb) :=
  if db.assignment.intelligenceExecutionId = none then recordAssignmentExecution agent db
  else .ok ((), db)

/-- `apply_dispatch_result` -/
def applyDispatchResult (now : Time) (agent : CoordinationAgent) (r : DispatchResult) :
    CoordTx Unit := do
  Tx.flush (storePointers r)
  Tx.flush (ensureExecution agent)
  Tx.flush (recordAssignmentOutcome "dispatch_result" r.payload true)
  Tx.flush (transitionStatus now r.target r.detail)

/-- what `adapter.collect_result` answers -/
structure AgentResult where
  succeeded : Bool
  summary : String
  deriving DecidableEq

/-- the result that `collect_dispatch_result` makes of the answer -/
def AgentResult.dispatchResult (x : AgentResult) (adapterKey : Option String)
    (attemptId : AttemptId) : DispatchResult where
  succeeded := x.succeeded
  adapterKey := adapterKey
  dispatchAttemptId := some attemptId
  failureReason := if x.succeeded then none else some x.summary

/-- `collect_dispatch_result` -/
def collectDispatchResult (now : Time) (agent : CoordinationAgent) (adapterKey : Option String)
    (attemptId : AttemptId) (answer : Except AdapterErr AgentResult) : CoordTx DispatchDecision :=
  match answer with
  | .error (.processLost message) => do
    Tx.flush (transitionStatus now .blocked
      { reason := some "ADAPTER_PROCESS_LOST", detail := some message })
    return { outcome := .adapterProcessLost, attemptId := some attemptId }
  | .error (.timeout message) => do
    Tx.flush (transitionStatus now .blocked
      { reason := some "ADAPTER_TIMEOUT", detail := some message })
    return { outcome := .adapterTimeout, attemptId := some attemptId }
  | .error e => Tx.raise (.adapter e)
  | .ok x => do
    applyDispatchResult now agent (x.dispatchResult adapterKey attemptId)
    return { outcome := .assignable, attemptId := some attemptId }

/-! ## what the statements do -/

variable {db w : CoordinationDb} {now : Time} {agent : CoordinationAgent} {r : DispatchResult}
  {target : WorkAssignmentStatus} {detail : TransitionDetail}

theorem transitionStatus_ok : transitionStatus now target detail db = .ok ((), w) ↔
    target = db.assignment.status ∧ w = db ∨
      target ≠ db.assignment.status ∧ target ∈ db.assignment.status.allowedTransitions ∧
        detail.storable ∧ w = { db with
          assignment := db.assignment.moved now target
          events := db.events ++ [.statusChanged db.assignment.status target detail] } := by
  unfold transitionStatus
  rw [bind_eq_ok]
  constructor
  · rintro ⟨a, ha, h⟩
    rcases AgentWorkAssignment.transition_ok.1 ha with ⟨ht, rfl⟩ | ⟨hne, hmem, rfl⟩
    · rw [if_pos ht] at h
      cases h
      exact .inl ⟨ht, rfl⟩
    · rw [if_neg hne] at h
      split at h
      · next hd =>
        cases h
        exact .inr ⟨hne, hmem, hd, rfl⟩
      · cases h
  · rintro (⟨ht, rfl⟩ | ⟨hne, hmem, hd, rfl⟩)
    · exact ⟨_, AgentWorkAssignment.transition_ok.2 (.inl ⟨ht, rfl⟩), if_pos ht⟩
    · refine ⟨_, AgentWorkAssignment.transition_ok.2 (.inr ⟨hne, hmem, rfl⟩), ?_⟩
      rw [if_neg hne, if_pos hd]
      rfl

theorem transitionStatus_status (h : transitionStatus now target detail db = .ok ((), w)) :
    w.assignment.status = target := by
  rcases transitionStatus_ok.1 h with ⟨ht, rfl⟩ | ⟨-, -, -, rfl⟩
  · exact ht.symm
  · rfl

theorem storePointers_ok : storePointers r db = .ok ((), w) ↔ r.pointersStorable ∧
    w = { db with assignment := { db.assignment with
      headSha := r.headSha.or db.assignment.headSha
      upstreamPrRef := r.prRef.or db.assignment.upstreamPrRef
      outputRefs := db.assignment.outputRefs ++ r.outputRefs } } := by
  unfold storePointers
  split
  · next h =>
    rw [Except.ok.injEq, Prod.mk.injEq]
    exact ⟨fun e => ⟨h, e.2.symm⟩, fun e => ⟨rfl, e.2.symm⟩⟩
  · next h =>
    constructor
    · intro e
      cases e
    · rintro ⟨h', -⟩
      exact absurd h' h

theorem recordExecution_assignment {values : IntelligenceExecution} {j : Nat}
    (h : recordExecution values db = .ok (j, w)) : w.assignment = db.assignment := by
  unfold recordExecution at h
  cases hk : Keyed.record IntelligenceExecution.key
      (fun existing v => sameOrConflict (existing.mismatches v)) (fun _ => none)
      db.executions values with
  | error e => rw [hk] at h; cases h
  | ok q => rw [hk] at h; cases h; rfl

theorem recordEvidence_assignment {values : IntelligenceEvidence} {j : Nat}
    (h : recordEvidence values db = .ok (j, w)) : w.assignment = db.assignment := by
  unfold recordEvidence at h
  cases hk : Keyed.record IntelligenceEvidence.key
      (fun existing v => sameOrConflict (existing.mismatches v))
      (fun v => if v.payload.storable then none else some CoordinationErr.dataError)
      db.evidence values with
  | error e => rw [hk] at h; cases h
  | ok q => rw [hk] at h; cases h; rfl

/-- afterwards the assignment has an execution record, and is otherwise as it was -/
theorem ensureExecution_some (h : ensureExecution agent db = .ok ((), w)) :
    ∃ e, w.assignment = { db.assignment with intelligenceExecutionId := some e } := by
  unfold ensureExecution at h
  cases he : db.assignment.intelligenceExecutionId with
  | some e =>
    rw [he, if_neg (by simp)] at h
    cases h
    exact ⟨e, by rw [← he]⟩
  | none =>
    rw [he, if_pos rfl, recordAssignmentExecution] at h
    cases ht : db.assignment.taskId with
    | none => rw [ht] at h; cases h
    | some t =>
      rw [ht] at h
      obtain ⟨⟨id, db₁⟩, hrec, hret⟩ := bind_eq_ok.1 h
      cases hret
      exact ⟨id, by rw [← recordExecution_assignment hrec]⟩

theorem recordAssignmentOutcome_assignment {kind : String} {q : OutcomePayload} {d : Bool}
    (h : recordAssignmentOutcome kind q d db = .ok ((), w)) : w.assignment = db.assignment := by
  unfold recordAssignmentOutcome at h
  cases he : db.assignment.intelligenceExecutionId with
  | none => rw [he] at h; cases h
  | some e =>
    rw [he] at h
    obtain ⟨⟨id, db₁⟩, hrec, hret⟩ := bind_eq_ok.1 h
    cases hret
    have hdb := recordEvidence_assignment hrec
    exact hdb

theorem applyDispatchResult_ok {s s' : Session CoordinationDb} :
    applyDispatchResult now agent r s = (.ok (), s') ↔
      ∃ w₁ w₂ w₃ w₄, storePointers r s.work = .ok ((), w₁) ∧ ensureExecution agent w₁ = .ok ((), w₂) ∧
        recordAssignmentOutcome "dispatch_result" r.payload true w₂ = .ok ((), w₃) ∧
        transitionStatus now r.target r.detail w₃ = .ok ((), w₄) ∧ s' = { s with work := w₄ } := by
  unfold applyDispatchResult
  constructor
  · intro h
    obtain ⟨_, w₁, h₁, h⟩ := Tx.flush_bind_ok.1 h
    obtain ⟨_, w₂, h₂, h⟩ := Tx.flush_bind_ok.1 h
    obtain ⟨_, w₃, h₃, h⟩ := Tx.flush_bind_ok.1 h
    obtain ⟨w₄, h₄, rfl⟩ := Tx.flush_eq_ok.1 h
    exact ⟨w₁, w₂, w₃, w₄, h₁, h₂, h₃, h₄, rfl⟩
  · rintro ⟨w₁, w₂, w₃, w₄, h₁, h₂, h₃, h₄, rfl⟩
    refine Tx.flush_bind_ok.2 ⟨(), w₁, h₁, ?_⟩
    refine Tx.flush_bind_ok.2 ⟨(), w₂, h₂, ?_⟩
    refine Tx.flush_bind_ok.2 ⟨(), w₃, h₃, ?_⟩
    exact Tx.flush_eq_ok.2 ⟨w₄, h₄, rfl⟩

end LifeAI
