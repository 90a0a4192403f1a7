import LifeAI.Coordination.Dispatch

/-!
# The results of retried assignments

`record_assignment_outcome` records the outcomes of all attempts of an assignment under one key, so
that the payload of a later attempt has to agree with the first one.

* `Attempt`          a dispatch, its result, and the return to `ready`;
* `Attempt.Applied`  the result moves the assignment and is on record;
* `AllApplied`       the attempts of an assignment, one after the other;
* `Agrees`           what the evidence of the assignment asks of the next result.
-/

namespace LifeAI

/-- an attempt on an assignment: the gate lets the dispatch pass, and the adapter starts -/
structure Attempt where
  attemptId : AttemptId
  dispatchedAt : Time
  agent : CoordinationAgent
  result : DispatchResult
  appliedAt : Time
  reopenedAt : Time
  deriving DecidableEq

namespace Attempt

variable (x : Attempt)

def dispatch (db : CoordinationDb) : CoordinationDb :=
  Tx.settle (dispatchAssignment { now := x.dispatchedAt, attemptId := x.attemptId } (Tx.opened db))

def answer (db : CoordinationDb) : Except CoordinationErr Unit × Session CoordinationDb :=
  applyDispatchResult x.appliedAt x.agent x.result (Tx.opened (x.dispatch db))

/-- `transition_status` back to `ready` -/
def reopen (db : CoordinationDb) : CoordinationDb :=
  Tx.settle (Tx.flush (transitionStatus x.reopenedAt .ready {}) (Tx.opened db))

/-- the attempt, each of its three calls in a transaction of its own -/
def step (db : CoordinationDb) (x : Attempt) : CoordinationDb := x.reopen (Tx.settle (x.answer db))

/-- the result is applied: the assignment has moved, and the outcome is on record -/
structure Applied (db : CoordinationDb) : Prop where
  returned : (x.answer db).1 = .ok ()
  moved : (Tx.settle (x.answer db)).assignment.status = x.result.target
  recorded : ∃ e ∈ (Tx.settle (x.answer db)).evidence,
    (Tx.settle (x.answer db)).assignment.intelligenceExecutionId = some e.executionId ∧
      e.evidenceKind = "dispatch_result" ∧ e.payload = x.result.payload

end Attempt

/-- every attempt of the list is applied -/
def AllApplied (db : CoordinationDb) (xs : List Attempt) : Prop :=
  ∀ p ∈ Run.trace Attempt.step db xs, p.2.Applied p.1

/-- the texts of the result fit their columns -/
def DispatchResult.storable (r : DispatchResult) : Bool :=
  r.pointersStorable ∧ r.payload.storable ∧ r.detail.storable

/-! ## what the recordings ask -/

theorem mismatch_eq_nil {name : String} {same : Bool} : mismatch name same = [] ↔ same := by
  cases same <;> simp [mismatch]

theorem sameOrConflict_eq_none {l : List String} : sameOrConflict l = none ↔ l = [] := by
  unfold sameOrConflict
  split <;> simp_all

theorem IntelligenceEvidence.mismatches_eq_nil {x y : IntelligenceEvidence} :
    x.mismatches y = [] ↔ x.deterministic = y.deterministic ∧ x.evidenceKind = y.evidenceKind ∧
      x.payload = y.payload ∧ x.reviewKind = y.reviewKind ∧ x.sourceRef = y.sourceRef ∧
      x.sourceType = y.sourceType := by
  simp only [mismatches, List.append_eq_nil_iff, mismatch_eq_nil, decide_eq_true_eq, and_assoc]

/-- what is on record under the key of the outcomes, for the execution record `e`: nothing, or an
outcome with the payload -/
def AgentWorkAssignment.Noted (a : AgentWorkAssignment) (rows : List IntelligenceEvidence)
    (e : Nat) : Option OutcomePayload → Prop
  | none => ∀ p, Keyed.find IntelligenceEvidence.key rows
      (a.outcome e "dispatch_result" p true) = none
  | some p => ∃ j x, Keyed.find IntelligenceEvidence.key rows
      (a.outcome e "dispatch_result" p true) = some (j, x) ∧
        x.mismatches (a.outcome e "dispatch_result" p true) = []

/-- the outcome that later attempts have to repeat, if there is one -/
def CoordinationDb.Outcome (db : CoordinationDb) (p : Option OutcomePayload) : Prop :=
  match db.assignment.intelligenceExecutionId with
  | some e => db.assignment.Noted db.evidence e p
  | none => p = none ∧ (∀ x ∈ db.executions, ∀ agent t,
      x.key ≠ (db.assignment.executionRecord agent t).key) ∧
        ∀ e, db.assignment.Noted db.evidence e none

/-- the columns of the assignment that the records name -/
structure AgentWorkAssignment.Same (a b : AgentWorkAssignment) : Prop where
  id : b.id = a.id
  ownerId : b.ownerId = a.ownerId
  taskId : b.taskId = a.taskId
  role : b.role = a.role
  group : b.parallelExplorationGroupId = a.parallelExplorationGroupId

namespace AgentWorkAssignment.Same

variable {a b c : AgentWorkAssignment}

theorem refl (a : AgentWorkAssignment) : a.Same a := ⟨rfl, rfl, rfl, rfl, rfl⟩

theorem trans (h : a.Same b) (h' : b.Same c) : a.Same c where
  id := h'.id.trans h.id
  ownerId := h'.ownerId.trans h.ownerId
  taskId := h'.taskId.trans h.taskId
  role := h'.role.trans h.role
  group := h'.group.trans h.group

theorem outcome (h : a.Same b) : b.outcome = a.outcome := by
  funext e kind p d
  unfold AgentWorkAssignment.outcome
  rw [h.id, h.ownerId]

theorem executionRecord (h : a.Same b) : b.executionRecord = a.executionRecord := by
  funext agent t
  unfold AgentWorkAssignment.executionRecord
  rw [h.id, h.ownerId, h.role, h.group]

theorem noted (h : a.Same b) {rows : List IntelligenceEvidence} {e : Nat}
    {p : Option OutcomePayload} : b.Noted rows e p ↔ a.Noted rows e p := by
  cases p with
  | none => simp only [Noted, h.outcome]
  | some p => simp only [Noted, h.outcome]

end AgentWorkAssignment.Same

/-- what the records depend on stays -/
structure CoordinationDb.SameRecords (db db' : CoordinationDb) : Prop where
  assignment : db.assignment.Same db'.assignment
  execution : db'.assignment.intelligenceExecutionId = db.assignment.intelligenceExecutionId
  executions : db'.executions = db.executions
  evidence : db'.evidence = db.evidence

namespace CoordinationDb.SameRecords

variable {db db' db'' : CoordinationDb}

theorem refl (db : CoordinationDb) : db.SameRecords db := ⟨.refl _, rfl, rfl, rfl⟩

theorem trans (h : db.SameRecords db') (h' : db'.SameRecords db'') : db.SameRecords db'' where
  assignment := h.assignment.trans h'.assignment
  execution := h'.execution.trans h.execution
  executions := h'.executions.trans h.executions
  evidence := h'.evidence.trans h.evidence

theorem outcome (h : db.SameRecords db') {p : Option OutcomePayload} :
    db'.Outcome p ↔ db.Outcome p := by
  unfold Outcome
  rw [h.execution]
  cases db.assignment.intelligenceExecutionId with
  | some e => dsimp only; rw [h.evidence, h.assignment.noted]
  | none => dsimp only; simp only [h.executions, h.evidence, h.assignment.noted,
      h.assignment.executionRecord]

end CoordinationDb.SameRecords

/-! ## the statements of an attempt -/

variable {db w : CoordinationDb} {now : Time} {agent : CoordinationAgent} {r : DispatchResult}
  {target : WorkAssignmentStatus} {detail : TransitionDetail} {p : Option OutcomePayload}

theorem transitionStatus_sameRecords (h : transitionStatus now target detail db = .ok ((), w)) :
    db.SameRecords w := by
  rcases transitionStatus_ok.1 h with ⟨-, rfl⟩ | ⟨-, -, -, rfl⟩
  · exact .refl _
  · exact ⟨⟨rfl, rfl, rfl, rfl, rfl⟩, rfl, rfl, rfl⟩

/-- an assignment with a task gets an execution record -/
theorem ensureExecution_ok (h : db.Outcome p) :
    (∃ w, ensureExecution agent db = .ok ((), w)) ↔
      db.assignment.taskId.isSome ∨ db.assignment.intelligenceExecutionId.isSome := by
  unfold ensureExecution
  cases he : db.assignment.intelligenceExecutionId with
  | some e => simp
  | none =>
    unfold CoordinationDb.Outcome at h
    rw [he] at h
    obtain ⟨-, hexec, -⟩ := h
    rw [if_pos rfl, recordAssignmentExecution]
    cases ht : db.assignment.taskId with
    | none => simp
    | some t =>
      have hnew : Keyed.find IntelligenceExecution.key db.executions
          (db.assignment.executionRecord agent t) = none :=
        Keyed.find_eq_none.2 fun x hx => hexec x hx agent t
      simp only [recordExecution, Keyed.record_new hnew, Except.map, Option.isSome_some, true_or,
        iff_true]
      exact ⟨_, rfl⟩

/-- and its outcomes stay as they are -/
theorem ensureExecution_spec (h : db.Outcome p) (hw : ensureExecution agent db = .ok ((), w)) :
    db.assignment.Same w.assignment ∧ w.assignment.status = db.assignment.status ∧
      ∃ e, w.assignment.intelligenceExecutionId = some e ∧ w.assignment.Noted w.evidence e p := by
  unfold ensureExecution at hw
  unfold CoordinationDb.Outcome at h
  cases he : db.assignment.intelligenceExecutionId with
  | some e =>
    rw [he] at h hw
    rw [if_neg (by simp)] at hw
    cases hw
    exact ⟨.refl _, rfl, e, he, h⟩
  | none =>
    rw [he] at h hw
    obtain ⟨rfl, -, hnote⟩ := h
    rw [if_pos rfl, recordAssignmentExecution] at hw
    cases ht : db.assignment.taskId with
    | none => rw [ht] at hw; cases hw
    | some t =>
      rw [ht] at hw
      obtain ⟨⟨id, db₁⟩, hrec, hret⟩ := bind_eq_ok.1 hw
      cases hret
      unfold recordExecution at hrec
      cases hk : Keyed.record IntelligenceExecution.key
          (fun existing v => sameOrConflict (existing.mismatches v)) (fun _ => none)
          db.executions (db.assignment.executionRecord agent t) with
      | error e => rw [hk] at hrec; cases hrec
      | ok q =>
        rw [hk] at hrec
        cases hrec
        have hsame : db.assignment.Same { db.assignment with
            intelligenceExecutionId := some q.1 } := ⟨rfl, rfl, rfl, rfl, rfl⟩
        exact ⟨hsame, rfl, q.1, rfl, hsame.noted.2 (hnote q.1)⟩

/-- the outcome is recorded when nothing else is on record, or the same -/
theorem recordAssignmentOutcome_ok {e : Nat} {q : OutcomePayload}
    (he : db.assignment.intelligenceExecutionId = some e) (h : db.assignment.Noted db.evidence e p) :
    (∃ w, recordAssignmentOutcome "dispatch_result" q true db = .ok ((), w)) ↔
      (p = none → q.storable) ∧ ∀ q', p = some q' → q' = q := by
  unfold recordAssignmentOutcome
  rw [he]
  dsimp only
  cases p with
  | none =>
    simp only [recordEvidence, Keyed.record_new (h q), forall_const, reduceCtorEq, false_imp_iff,
      implies_true, and_true]
    have hpay : (db.assignment.outcome e "dispatch_result" q true).payload = q := rfl
    rw [hpay]
    cases hq : q.storable with
    | true => exact iff_of_true ⟨_, rfl⟩ rfl
    | false =>
      refine iff_of_false ?_ Bool.false_ne_true
      rintro ⟨w, hw⟩
      cases hw
  | some q' =>
    obtain ⟨j, x, hf, hx⟩ := h
    have hf : Keyed.find IntelligenceEvidence.key db.evidence
        (db.assignment.outcome e "dispatch_result" q true) = some (j, x) := hf
    have hmis : x.mismatches (db.assignment.outcome e "dispatch_result" q true) = [] ↔ q' = q := by
      rw [IntelligenceEvidence.mismatches_eq_nil] at hx ⊢
      obtain ⟨h1, h2, h3, h4, h5, h6⟩ := hx
      have h3 : x.payload = q' := h3
      constructor
      · rintro ⟨-, -, hp, -⟩
        exact h3.symm.trans hp
      · rintro rfl
        exact ⟨h1, h2, h3, h4, h5, h6⟩
    simp only [recordEvidence, Keyed.record_found hf, reduceCtorEq, false_imp_iff, true_and,
      Option.some.injEq, forall_eq']
    rw [← hmis]
    cases hc : sameOrConflict (x.mismatches (db.assignment.outcome e "dispatch_result" q true)) with
    | none => exact iff_of_true ⟨_, rfl⟩ (sameOrConflict_eq_none.1 hc)
    | some err =>
      refine iff_of_false ?_ fun hnil => ?_
      · rintro ⟨w, hw⟩
        cases hw
      · rw [sameOrConflict_eq_none.2 hnil] at hc
        cases hc

theorem recordAssignmentOutcome_spec {e : Nat} {q : OutcomePayload}
    (he : db.assignment.intelligenceExecutionId = some e)
    (hw : recordAssignmentOutcome "dispatch_result" q true db = .ok ((), w)) :
    w.assignment = db.assignment ∧ w.assignment.Noted w.evidence e (some q) := by
  unfold recordAssignmentOutcome at hw
  rw [he] at hw
  obtain ⟨⟨id, db₁⟩, hrec, hret⟩ := bind_eq_ok.1 hw
  cases hret
  unfold recordEvidence at hrec
  have hself : sameOrConflict ((db.assignment.outcome e "dispatch_result" q true).mismatches
      (db.assignment.outcome e "dispatch_result" q true)) = none := by
    rw [sameOrConflict_eq_none, IntelligenceEvidence.mismatches_eq_nil]
    simp
  cases hk : Keyed.record IntelligenceEvidence.key
      (fun existing v => sameOrConflict (existing.mismatches v))
      (fun v => if v.payload.storable then none else some CoordinationErr.dataError)
      db.evidence (db.assignment.outcome e "dispatch_result" q true) with
  | error err => rw [hk] at hrec; cases hrec
  | ok o =>
    rw [hk] at hrec
    cases hrec
    refine ⟨rfl, ?_⟩
    rcases Keyed.record_ok.1 (Keyed.record_again hself hk) with ⟨x, hf, hc, -⟩ | ⟨hf, -⟩
    · exact ⟨o.1, x, hf, sameOrConflict_eq_none.1 hc⟩
    · rcases Keyed.record_ok.1 hk with ⟨x, hf', -, heq⟩ | ⟨hf', -, -, heq⟩
      · rw [heq, hf'] at hf
        cases hf
      · rw [heq, Keyed.find_append_self hf'] at hf
        cases hf

/-! ## a result -/

/-- a result of a running assignment is applied exactly when its records agree with what is there -/
theorem applyDispatchResult_returns (hrun : db.assignment.status = .running) (h : db.Outcome p) :
    (∃ s', applyDispatchResult now agent r (Tx.opened db) = (.ok (), s')) ↔
      (db.assignment.taskId.isSome ∨ db.assignment.intelligenceExecutionId.isSome) ∧
        r.pointersStorable ∧ r.detail.storable ∧ (p = none → r.payload.storable) ∧
          ∀ q, p = some q → q = r.payload := by
  have htarget : r.target ≠ .running ∧ r.target ∈ WorkAssignmentStatus.running.allowedTransitions := by
    unfold DispatchResult.target
    split
    · decide
    · split <;> decide
  -- the pointers change nothing that the records name
  have hpointers : ∀ w₁, storePointers r db = .ok ((), w₁) → db.SameRecords w₁ ∧
      w₁.assignment.status = .running := by
    intro w₁ hw₁
    obtain ⟨-, rfl⟩ := storePointers_ok.1 hw₁
    exact ⟨⟨⟨rfl, rfl, rfl, rfl, rfl⟩, rfl, rfl, rfl⟩, hrun⟩
  constructor
  · rintro ⟨s', hs'⟩
    obtain ⟨w₁, w₂, w₃, w₄, h₁, h₂, h₃, h₄, -⟩ := applyDispatchResult_ok.1 hs'
    obtain ⟨hsame, hst₁⟩ := hpointers w₁ h₁
    have hout₁ := hsame.outcome.2 h
    obtain ⟨-, hst₂, e, he, hnote⟩ := ensureExecution_spec hout₁ h₂
    have hexec := (ensureExecution_ok hout₁).1 ⟨w₂, h₂⟩
    rw [hsame.assignment.taskId, hsame.execution] at hexec
    obtain ⟨hq, hp⟩ := (recordAssignmentOutcome_ok he hnote).1 ⟨w₃, h₃⟩
    obtain ⟨ha₃, -⟩ := recordAssignmentOutcome_spec he h₃
    refine ⟨hexec, (storePointers_ok.1 h₁).1, ?_, hq, hp⟩
    rcases transitionStatus_ok.1 h₄ with ⟨ht, -⟩ | ⟨-, -, hd, -⟩
    · rw [ha₃, hst₂, hst₁] at ht
      exact absurd ht htarget.1
    · exact hd
  · rintro ⟨hexec, hptr, hd, hq, hp⟩
    obtain ⟨w₁, h₁⟩ : ∃ w₁, storePointers r db = .ok ((), w₁) :=
      ⟨_, storePointers_ok.2 ⟨hptr, rfl⟩⟩
    obtain ⟨hsame, hst₁⟩ := hpointers w₁ h₁
    have hout₁ := hsame.outcome.2 h
    rw [← hsame.assignment.taskId, ← hsame.execution] at hexec
    obtain ⟨w₂, h₂⟩ : ∃ w₂, ensureExecution agent w₁ = .ok ((), w₂) :=
      (ensureExecution_ok hout₁).2 hexec
    obtain ⟨-, hst₂, e, he, hnote⟩ := ensureExecution_spec hout₁ h₂
    obtain ⟨w₃, h₃⟩ := (recordAssignmentOutcome_ok he hnote).2 ⟨hq, hp⟩
    obtain ⟨ha₃, -⟩ := recordAssignmentOutcome_spec he h₃
    have hst₃ : w₃.assignment.status = .running := by rw [ha₃, hst₂, hst₁]
    obtain ⟨w₄, h₄⟩ : ∃ w₄, transitionStatus now r.target r.detail w₃ = .ok ((), w₄) := by
      refine ⟨_, transitionStatus_ok.2 (.inr ⟨?_, ?_, hd, rfl⟩)⟩
      · rw [hst₃]
        exact htarget.1
      · rw [hst₃]
        exact htarget.2
    exact ⟨_, applyDispatchResult_ok.2 ⟨w₁, w₂, w₃, w₄, h₁, h₂, h₃, h₄, rfl⟩⟩

/-- what an applied result leaves behind -/
theorem applyDispatchResult_spec {s s' : Session CoordinationDb} (h : s.work.Outcome p)
    (hs : applyDispatchResult now agent r s = (.ok (), s')) :
    s'.work.assignment.status = r.target ∧ s.work.assignment.Same s'.work.assignment ∧
      ∃ e, s'.work.assignment.intelligenceExecutionId = some e ∧
        s'.work.assignment.Noted s'.work.evidence e (some r.payload) := by
  obtain ⟨w₁, w₂, w₃, w₄, h₁, h₂, h₃, h₄, rfl⟩ := applyDispatchResult_ok.1 hs
  obtain ⟨-, rfl⟩ := storePointers_ok.1 h₁
  have hptr : s.work.SameRecords { s.work with assignment := { s.work.assignment with
      headSha := r.headSha.or s.work.assignment.headSha
      upstreamPrRef := r.prRef.or s.work.assignment.upstreamPrRef
      outputRefs := s.work.assignment.outputRefs ++ r.outputRefs } } :=
    ⟨⟨rfl, rfl, rfl, rfl, rfl⟩, rfl, rfl, rfl⟩
  obtain ⟨hsame₂, -, e, he, -⟩ := ensureExecution_spec (hptr.outcome.2 h) h₂
  obtain ⟨ha₃, hnote⟩ := recordAssignmentOutcome_spec he h₃
  have hrec₄ := transitionStatus_sameRecords h₄
  have hsame : s.work.assignment.Same w₃.assignment := by
    rw [ha₃]
    exact hptr.assignment.trans hsame₂
  refine ⟨transitionStatus_status h₄, hsame.trans hrec₄.assignment, e, ?_, ?_⟩
  · rw [hrec₄.execution, ha₃, he]
  · rw [hrec₄.assignment.noted, hrec₄.evidence]
    exact hnote

theorem AgentWorkAssignment.Noted.row {a : AgentWorkAssignment} {rows : List IntelligenceEvidence}
    {e : Nat} {q : OutcomePayload} (h : a.Noted rows e (some q)) :
    ∃ x ∈ rows, x.executionId = e ∧ x.evidenceKind = "dispatch_result" ∧ x.payload = q := by
  obtain ⟨j, x, hf, hx⟩ := h
  obtain ⟨hj, hkey⟩ := Keyed.find_some hf
  rw [IntelligenceEvidence.mismatches_eq_nil] at hx
  exact ⟨x, List.mem_of_getElem? hj, congrArg (·.2.1) hkey, hx.2.1, hx.2.2.1⟩

/-! ## the attempts of an assignment -/

namespace Attempt

variable {x : Attempt}

theorem dispatch_spec (h : db.assignment.status = .ready) :
    (x.dispatch db).assignment.status = .running ∧ db.SameRecords (x.dispatch db) := by
  obtain ⟨w₁, h₁⟩ : ∃ w₁, transitionStatus x.dispatchedAt .waitingAgent
      { reason := some "dispatching", attemptId := some x.attemptId } db = .ok ((), w₁) := by
    refine ⟨_, transitionStatus_ok.2 (.inr ⟨?_, ?_, rfl, rfl⟩)⟩
    · rw [h]
      decide
    · rw [h]
      decide
  have hst₁ := transitionStatus_status h₁
  obtain ⟨w₂, h₂⟩ : ∃ w₂, transitionStatus x.dispatchedAt .running
      { attemptId := some x.attemptId } w₁ = .ok ((), w₂) := by
    refine ⟨_, transitionStatus_ok.2 (.inr ⟨?_, ?_, rfl, rfl⟩)⟩
    · rw [hst₁]
      decide
    · rw [hst₁]
      decide
  have hdispatch : x.dispatch db = w₂ := by
    unfold dispatch dispatchAssignment
    dsimp only
    rw [Tx.bind_ok (Tx.flush_ok h₁), Tx.bind_ok (Tx.flush_ok h₂)]
    rfl
  rw [hdispatch]
  exact ⟨transitionStatus_status h₂,
    (transitionStatus_sameRecords h₁).trans (transitionStatus_sameRecords h₂)⟩

/-- a result after which the assignment may be tried again -/
theorem target_of_failed (h : x.result.succeeded = false) :
    x.result.target = .blocked ∨ x.result.target = .failed := by
  unfold DispatchResult.target
  rw [h]
  simp only [Bool.false_eq_true, if_false]
  split
  · exact .inl rfl
  · exact .inr rfl

theorem reopen_spec (h : db.assignment.status = .blocked ∨ db.assignment.status = .failed) :
    (x.reopen db).assignment.status = .ready ∧ db.SameRecords (x.reopen db) := by
  obtain ⟨w, hw⟩ : ∃ w, transitionStatus x.reopenedAt .ready {} db = .ok ((), w) := by
    refine ⟨_, transitionStatus_ok.2 (.inr ⟨?_, ?_, by decide, rfl⟩)⟩
    · cases h with
      | inl h => rw [h]; decide
      | inr h => rw [h]; decide
    · cases h with
      | inl h => rw [h]; decide
      | inr h => rw [h]; decide
  have hreopen : x.reopen db = w := by
    unfold reopen
    rw [Tx.flush_ok hw]
    rfl
  rw [hreopen]
  exact ⟨transitionStatus_status hw, transitionStatus_sameRecords hw⟩

theorem answer_spec (hready : db.assignment.status = .ready) (h : db.Outcome p)
    {s' : Session CoordinationDb} (hs : x.answer db = (.ok (), s')) :
    s'.work.assignment.status = x.result.target ∧ db.assignment.Same s'.work.assignment ∧
      ∃ e, s'.work.assignment.intelligenceExecutionId = some e ∧
        s'.work.assignment.Noted s'.work.evidence e (some x.result.payload) := by
  obtain ⟨-, hrec⟩ := dispatch_spec (x := x) hready
  obtain ⟨hst, hsame, hnote⟩ :=
    applyDispatchResult_spec (s := Tx.opened (x.dispatch db)) (hrec.outcome.2 h) hs
  exact ⟨hst, hrec.assignment.trans hsame, hnote⟩

/-- an attempt is applied exactly when its outcome agrees with what is on record -/
theorem applied_iff (hready : db.assignment.status = .ready) (h : db.Outcome p) :
    x.Applied db ↔
      (db.assignment.taskId.isSome ∨ db.assignment.intelligenceExecutionId.isSome) ∧
        x.result.pointersStorable ∧ x.result.detail.storable ∧
          (p = none → x.result.payload.storable) ∧ ∀ q, p = some q → q = x.result.payload := by
  obtain ⟨hrun, hrec⟩ := dispatch_spec (x := x) hready
  have hreturns : (∃ s', x.answer db = (.ok (), s')) ↔ _ :=
    applyDispatchResult_returns hrun (hrec.outcome.2 h)
  rw [← hrec.assignment.taskId, ← hrec.execution, ← hreturns]
  constructor
  · intro hx
    exact ⟨(x.answer db).2, Prod.ext hx.returned rfl⟩
  · rintro ⟨s', hs'⟩
    obtain ⟨hst, -, e, he, hnote⟩ := answer_spec hready h hs'
    have hsettle : Tx.settle (x.answer db) = s'.work := by rw [hs']; rfl
    obtain ⟨y, hy, hye, hkind, hpay⟩ := hnote.row
    refine ⟨by rw [hs'], by rw [hsettle, hst], y, by rw [hsettle]; exact hy, ?_, hkind, hpay⟩
    rw [hsettle, he, hye]

/-- an applied attempt that failed leaves the assignment ready, with its outcome on record -/
theorem step_spec (hready : db.assignment.status = .ready) (h : db.Outcome p)
    (hx : x.Applied db) (hfailed : x.result.succeeded = false) :
    (step db x).assignment.status = .ready ∧ db.assignment.Same (step db x).assignment ∧
      (step db x).assignment.intelligenceExecutionId.isSome ∧
      (step db x).Outcome (some x.result.payload) := by
  obtain ⟨s', hs'⟩ : ∃ s', x.answer db = (.ok (), s') := ⟨_, Prod.ext hx.returned rfl⟩
  obtain ⟨hst, hsame, e, he, hnote⟩ := answer_spec hready h hs'
  have hsettle : Tx.settle (x.answer db) = s'.work := by rw [hs']; rfl
  have hend : s'.work.assignment.status = .blocked ∨ s'.work.assignment.status = .failed := by
    rw [hst]
    exact target_of_failed hfailed
  obtain ⟨hst', hrec'⟩ := reopen_spec (x := x) hend
  unfold step
  rw [hsettle]
  refine ⟨hst', hsame.trans hrec'.assignment, ?_, ?_⟩
  · rw [hrec'.execution, he]
    rfl
  · rw [hrec'.outcome]
    unfold CoordinationDb.Outcome
    rw [he]
    exact hnote

end Attempt

/-- an attempt that ends failed or blocked -/
abbrev FailedAttempt := { x : Attempt // x.result.succeeded = false }

theorem allApplied_cons {x : Attempt} {xs : List Attempt} :
    AllApplied db (x :: xs) ↔ x.Applied db ∧ AllApplied (Attempt.step db x) xs := by
  unfold AllApplied
  rw [Run.trace, List.forall_mem_cons]

theorem allApplied_iff (failed : List FailedAttempt) (last : Attempt)
    (hready : db.assignment.status = .ready) (h : db.Outcome p) :
    AllApplied db (failed.map Subtype.val ++ [last]) ↔
      (db.assignment.taskId.isSome ∨ db.assignment.intelligenceExecutionId.isSome) ∧
        ∃ q, (p = none → q.storable) ∧ (∀ q', p = some q' → q' = q) ∧
          ∀ x ∈ failed.map Subtype.val ++ [last],
            x.result.payload = q ∧ x.result.pointersStorable ∧ x.result.detail.storable := by
  induction failed generalizing db p with
  | nil =>
    rw [List.map_nil, List.nil_append]
    have hnil : AllApplied db [last] ↔ last.Applied db := by
      rw [allApplied_cons]
      exact and_iff_left fun _ hp => absurd hp List.not_mem_nil
    rw [hnil, Attempt.applied_iff hready h]
    refine and_congr_right fun _ => ?_
    constructor
    · rintro ⟨hptr, hd, hq, hp⟩
      refine ⟨last.result.payload, hq, hp, fun x hx => ?_⟩
      rw [List.mem_singleton] at hx
      subst hx
      exact ⟨rfl, hptr, hd⟩
    · rintro ⟨q, hq, hp, hall⟩
      obtain ⟨rfl, hptr, hd⟩ := hall last (List.mem_singleton_self _)
      exact ⟨hptr, hd, hq, hp⟩
  | cons x failed ih =>
    obtain ⟨x, hfailed⟩ := x
    rw [List.map_cons, List.cons_append, allApplied_cons]
    constructor
    · rintro ⟨hx, hrest⟩
      obtain ⟨hready', -, -, hout⟩ := Attempt.step_spec hready h hx hfailed
      obtain ⟨htask, hptr, hd, hq, hp⟩ := (Attempt.applied_iff hready h).1 hx
      obtain ⟨-, q, -, hsame, hall⟩ := (ih hready' hout).1 hrest
      have hpay := hsame _ rfl
      refine ⟨htask, x.result.payload, hq, hp, List.forall_mem_cons.2 ⟨⟨rfl, hptr, hd⟩, ?_⟩⟩
      rw [hpay]
      exact hall
    · rintro ⟨htask, q, hq, hp, hall⟩
      obtain ⟨⟨rfl, hptr, hd⟩, hall⟩ := List.forall_mem_cons.1 hall
      have hx := (Attempt.applied_iff hready h).2 ⟨htask, hptr, hd, hq, hp⟩
      obtain ⟨hready', -, hexec, hout⟩ := Attempt.step_spec hready h hx hfailed
      refine ⟨hx, (ih hready' hout).2 ⟨.inr hexec, _, ?_, ?_, hall⟩⟩
      · intro hnone
        cases hnone
      · intro q' hq'
        exact (Option.some.inj hq').symm

/-- a ready assignment that was never dispatched: nothing is on record under its keys -/
structure ReadyAssignment where
  db : CoordinationDb
  ready : db.assignment.status = .ready
  unrecorded : db.Outcome none

/-! ## the same result twice -/

theorem transitionStatus_pointers (h : transitionStatus now target detail db = .ok ((), w)) :
    w.assignment.headSha = db.assignment.headSha ∧
      w.assignment.upstreamPrRef = db.assignment.upstreamPrRef := by
  rcases transitionStatus_ok.1 h with ⟨-, rfl⟩ | ⟨-, -, -, rfl⟩
  · exact ⟨rfl, rfl⟩
  · exact ⟨rfl, rfl⟩

theorem or_or_self {α : Type} (a b : Option α) : a.or (a.or b) = a.or b := by
  cases a with
  | none => rfl
  | some a => rfl

/-- an outcome that is on record is replayed -/
theorem recordAssignmentOutcome_replay {e : Nat} {q : OutcomePayload}
    (he : db.assignment.intelligenceExecutionId = some e)
    (h : db.assignment.Noted db.evidence e (some q)) :
    ∃ w, recordAssignmentOutcome "dispatch_result" q true db = .ok ((), w) ∧
      w.assignment = db.assignment ∧ w.evidence = db.evidence := by
  obtain ⟨j, x, hf, hx⟩ := h
  unfold recordAssignmentOutcome
  rw [he]
  simp only [recordEvidence, Keyed.record_found hf, sameOrConflict_eq_none.2 hx]
  exact ⟨_, rfl, rfl, rfl⟩

/-- a result that was applied is applied again, and appends its output references again -/
theorem apply_again {now' : Time} {s s' : Session CoordinationDb}
    (h : applyDispatchResult now agent r s = (.ok (), s')) :
    ∃ s'', applyDispatchResult now' agent r s' = (.ok (), s'') ∧
      s''.work.evidence = s'.work.evidence ∧
      s''.work.assignment = { s'.work.assignment with
        outputRefs := s'.work.assignment.outputRefs ++ r.outputRefs } := by
  obtain ⟨w₁, w₂, w₃, w₄, h₁, h₂, h₃, h₄, rfl⟩ := applyDispatchResult_ok.1 h
  obtain ⟨e, ha₂⟩ := ensureExecution_some h₂
  obtain ⟨ha₃, hnote⟩ := recordAssignmentOutcome_spec (by rw [ha₂]) h₃
  have hrec₄ := transitionStatus_sameRecords h₄
  obtain ⟨hptr, hw₁⟩ := storePointers_ok.1 h₁
  have he₄ : w₄.assignment.intelligenceExecutionId = some e := by rw [hrec₄.execution, ha₃, ha₂]
  -- the pointers of the second time are those of the first
  have hsha : r.headSha.or w₄.assignment.headSha = w₄.assignment.headSha := by
    rw [(transitionStatus_pointers h₄).1, ha₃, ha₂, hw₁]
    exact or_or_self _ _
  have hpr : r.prRef.or w₄.assignment.upstreamPrRef = w₄.assignment.upstreamPrRef := by
    rw [(transitionStatus_pointers h₄).2, ha₃, ha₂, hw₁]
    exact or_or_self _ _
  obtain ⟨u₁, hu₁⟩ : ∃ u, storePointers r w₄ = .ok ((), u) := ⟨_, storePointers_ok.2 ⟨hptr, rfl⟩⟩
  obtain ⟨-, hu⟩ := storePointers_ok.1 hu₁
  rw [hsha, hpr] at hu
  have hu₂ : ensureExecution agent u₁ = .ok ((), u₁) := by
    unfold ensureExecution
    rw [if_neg]
    rw [hu, he₄]
    simp
  have hsame : w₃.assignment.Same u₁.assignment := by
    rw [hu]
    exact ⟨hrec₄.assignment.id, hrec₄.assignment.ownerId, hrec₄.assignment.taskId,
      hrec₄.assignment.role, hrec₄.assignment.group⟩
  have hnote₁ : u₁.assignment.Noted u₁.evidence e (some r.payload) := by
    rw [hsame.noted, hu]
    show w₃.assignment.Noted w₄.evidence e (some r.payload)
    rw [hrec₄.evidence]
    exact hnote
  obtain ⟨u₃, hu₃, hua, hue⟩ := recordAssignmentOutcome_replay (by rw [hu]; exact he₄) hnote₁
  have hst : r.target = u₃.assignment.status := by
    rw [hua, hu]
    exact (transitionStatus_status h₄).symm
  have hu₄ : transitionStatus now' r.target r.detail u₃ = .ok ((), u₃) :=
    transitionStatus_ok.2 (.inl ⟨hst, rfl⟩)
  refine ⟨_, applyDispatchResult_ok.2 ⟨u₁, u₁, u₃, u₃, hu₁, hu₂, hu₃, hu₄, rfl⟩, ?_, ?_⟩
  · show u₃.evidence = w₄.evidence
    rw [hue, hu]
  · show u₃.assignment = _
    rw [hua, hu]

theorem DispatchResult.outputRefs_eq_nil : r.outputRefs = [] ↔ r.changedPaths = [] ∧ r.ciRefs = [] := by
  unfold outputRefs
  by_cases h₁ : r.changedPaths = [] <;> by_cases h₂ : r.ciRefs = [] <;> simp [h₁, h₂]

/-- **retried assignments**: all attempts of an assignment are applied exactly when it has a task or
an execution record, and their results fit the columns and have one payload; and a result that is
applied twice leaves the assignment and its evidence as after the first time exactly when it has no
changed paths and no CI references. -/
theorem retried_assignments_finish (c : ReadyAssignment) (failed : List FailedAttempt)
    (last : Attempt) (now now' : Time) (agent : CoordinationAgent) (r : DispatchResult)
    (s s' : Session CoordinationDb) :
    (AllApplied c.db (failed.map Subtype.val ++ [last]) ↔
      (c.db.assignment.taskId.isSome ∨ c.db.assignment.intelligenceExecutionId.isSome) ∧
        ∀ x ∈ failed.map Subtype.val ++ [last],
          x.result.storable ∧ x.result.payload = last.result.payload) ∧
    (applyDispatchResult now agent r s = (.ok (), s') →
      ((∃ s'', applyDispatchResult now' agent r s' = (.ok (), s'') ∧
        s''.work.assignment = s'.work.assignment ∧ s''.work.evidence = s'.work.evidence) ↔
        r.changedPaths = [] ∧ r.ciRefs = [])) := by
  constructor
  · rw [allApplied_iff failed last c.ready c.unrecorded]
    refine and_congr_right fun _ => ?_
    simp only [DispatchResult.storable, decide_eq_true_eq]
    constructor
    · rintro ⟨q, hq, -, hall⟩ x hx
      obtain ⟨hpay, hptr, hd⟩ := hall x hx
      obtain ⟨hlast, -, -⟩ := hall last (by simp)
      exact ⟨⟨hptr, by rw [hpay]; exact hq trivial, hd⟩, hpay.trans hlast.symm⟩
    · intro hall
      refine ⟨last.result.payload, fun _ => (hall last (by simp)).1.2.1, fun q' hq' => ?_, ?_⟩
      · cases hq'
      · intro x hx
        obtain ⟨⟨hptr, -, hd⟩, hpay⟩ := hall x hx
        exact ⟨hpay, hptr, hd⟩
  · intro h
    obtain ⟨s'', hs'', hev, hassign⟩ :
        ∃ s'', applyDispatchResult now' agent r s' = (.ok (), s'') ∧ _ := apply_again h
    rw [← DispatchResult.outputRefs_eq_nil]
    constructor
    · rintro ⟨s₃, hs₃, ha, -⟩
      rw [hs''] at hs₃
      cases hs₃
      rw [hassign] at ha
      have hrefs := congrArg AgentWorkAssignment.outputRefs ha
      exact List.append_right_eq_self.1 hrefs
    · intro hnil
      refine ⟨s'', hs'', ?_, hev⟩
      rw [hassign, hnil, List.append_nil]

/-! ## the second attempt of an assignment -/

def codexAgent : CoordinationAgent where
  agentKey := "codex"
  capabilities := ["repo_edit"]

/-- a ready assignment of a task -/
def sampleAssignment : ReadyAssignment where
  db.assignment := {
    id := 1
    ownerId := 0
    taskId := some 0
    role := .builder
    status := .ready }
  ready := rfl
  unrecorded := ⟨rfl, by simp, fun _ _ => rfl⟩

/-- an attempt whose adapter answers that it failed, as `collect_dispatch_result` hands it on -/
def failingAttempt (id : AttemptId) : Attempt where
  attemptId := id
  dispatchedAt := 1
  agent := codexAgent
  result := {
    succeeded := false
    adapterKey := some "codex"
    dispatchAttemptId := some id
    failureReason := some "tests failed" }
  appliedAt := 2
  reopenedAt := 3

/-- the same failure in two attempts: the second one cannot be recorded -/
theorem second_attempt_conflicts :
    ((failingAttempt 8).answer (Attempt.step sampleAssignment.db (failingAttempt 7))).1 =
        .error (.idempotencyConflict ["payload"]) ∧
      ¬ AllApplied sampleAssignment.db [failingAttempt 7, failingAttempt 8] := by
  have hconflict : ((failingAttempt 8).answer
      (Attempt.step sampleAssignment.db (failingAttempt 7))).1 =
        .error (.idempotencyConflict ["payload"]) := by decide
  refine ⟨hconflict, fun h => ?_⟩
  have hsecond := (allApplied_cons.1 (allApplied_cons.1 h).2).1.returned
  rw [hconflict] at hsecond
  cases hsecond

end LifeAI
