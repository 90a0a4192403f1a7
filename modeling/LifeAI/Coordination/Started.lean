import LifeAI.Coordination.Gate

/-!
# Which dispatches start an agent, and how they end

* `Dispatched.Sound`  what a call should do;
* `Call.fits`         the condition: a call that goes past the gate finds the row not yet
                      dispatched, and the adapter ends in a way that the database records;
* `dispatches_sound`  every run of calls from any tables.
-/

namespace LifeAI.Gate

variable {digest : String → String} {c : Call} {a a' b : Assignment} {t t' : Tables} {now : Time}
  {i : Nat} {target : WorkAssignmentStatus} {detail : TransitionDetail}

/-! ## the statement -/

/-- what a call on the row `a` should do -/
structure Dispatched.Sound (c : Call) (a : Assignment) (t : Tables) (d : Dispatched) : Prop where
  /-- an agent is started for a `ready` row, which holds a lease when it writes -/
  ready : d.started = true →
    a.status = .ready ∧ (a.readWriteMode = .readWrite → t.holdsLease a = true)
  /-- then the row is `running` or `blocked` -/
  ends : d.started = true → (d.tables.assignments[c.assignment]?).map (·.status) =
    some (if c.start = .returned then .running else .blocked)
  /-- otherwise nothing changes -/
  rejected : d.started = false → d.tables = t

/-- the dispatch goes past the gate and the authority envelope -/
def Call.admitted (digest : String → String) (c : Call) (a : Assignment) (t : Tables) : Bool :=
  t.evaluateDispatchReadiness digest c a = some .assignable ∧ missing c.envelopePaths a.allowedPaths = []

/-- the row is set to a status of its own when the adapter ends like this -/
def Start.recorded (attemptId : AttemptId) : Start → Bool
  | .returned => true
  | .raised e => (blockDetail attemptId e).storable
  | .interrupted => false

/-- a call that goes past the gate finds a row that is not `waiting_agent`, and when the row is
`ready` the adapter's end is recorded -/
def Call.fits (digest : String → String) (c : Call) (a : Assignment) (t : Tables) : Bool :=
  c.admitted digest a t → a.status ≠ .waitingAgent ∧
    (a.status = .ready → c.start.recorded c.attemptId)

/-! ## what the gate has seen -/

/-- a `read_write` row that the gate takes in `ready` holds a lease -/
theorem evaluateAssignmentReadiness_lease {base : Option String}
    (h : t.evaluateAssignmentReadiness digest now a base = some .assignable)
    (hready : a.status = .ready) (hmode : a.readWriteMode = .readWrite) :
    t.holdsLease a = true := by
  unfold Tables.evaluateAssignmentReadiness at h
  obtain ⟨agent, -, h⟩ := Option.map_eq_some_iff.1 h
  dsimp only at h
  split at h
  · cases h
  split at h
  · cases h
  split at h
  · next o ho =>
    unfold Tables.staleBase at ho
    split at ho
    · split at ho
      · cases ho
        cases h
      · cases ho
    · cases ho
  split at h
  · cases h
  split at h
  · cases h
  unfold Tables.writeReadiness at h
  split at h
  · next o ho =>
    -- a conflict is a refusal
    unfold Tables.scanWriteScopeConflict at ho
    dsimp only at ho
    split at ho
    · cases ho
      cases h
    · obtain ⟨l, -, rfl⟩ := Option.map_eq_some_iff.1 ho
      cases h
  · split at h
    · cases h
    · next hno =>
      by_contra hlease
      exact hno ⟨hlease, .inl hready⟩

theorem evaluateDispatchReadiness_base
    (h : t.evaluateDispatchReadiness digest c a = some .assignable) :
    t.evaluateAssignmentReadiness digest c.now a none = some .assignable := by
  unfold Tables.evaluateDispatchReadiness at h
  obtain ⟨base, hbase, h⟩ := Option.map_eq_some_iff.1 h
  split at h
  · exact hbase.trans (congrArg some h)
  · next hno =>
    rw [hbase, not_not.1 hno]

/-! ## what a transition does to the row -/

theorem refreshDependencyState_row {j : Nat} (h : t.assignments[i]? = some a)
    (hst : a.status ≠ .planned ∧ a.status ≠ .waitingDependency) :
    (Tables.refreshDependencyState t j).assignments[i]? = some a := by
  unfold Tables.refreshDependencyState
  cases hj : t.assignments[j]? with
  | none => exact h
  | some b =>
    dsimp only
    by_cases hji : j = i
    · subst hji
      obtain rfl := Option.some.inj (h.symm.trans hj)
      rw [if_pos hst]
      exact h
    · split
      · exact h
      split
      · exact (List.getElem?_modify_ne _ _ hji).trans h
      · exact (List.getElem?_modify_ne _ _ hji).trans h

theorem releaseDependents_row {id : AssignmentId} (h : t.assignments[i]? = some a)
    (hst : a.status ≠ .planned ∧ a.status ≠ .waitingDependency) :
    (t.releaseDependents id).assignments[i]? = some a := by
  unfold Tables.releaseDependents
  generalize t.dependents id = js
  induction js generalizing t with
  | nil => exact h
  | cons j js ih => exact ih (refreshDependencyState_row h hst)

/-- a transition that returns has set the status -/
theorem transitionStatus_row (ha : t.assignments[i]? = some a)
    (hst : target ≠ .planned ∧ target ≠ .waitingDependency)
    (h : t.transitionStatus now i a target detail = .ok (a', t')) :
    t'.assignments[i]? = some a' ∧ a'.status = target := by
  unfold Tables.transitionStatus at h
  obtain ⟨row, hrow, h⟩ := bind_eq_ok.1 h
  have hstatus := AgentWorkAssignment.transition_status hrow
  split at h
  · next ht =>
    cases h
    exact ⟨ha, ht.symm⟩
  · split at h
    · cases h
      refine ⟨releaseDependents_row ?_ ?_, hstatus⟩
      · exact List.getElem?_set_self (List.getElem?_eq_some_iff.1 ha).1
      · show row.status ≠ .planned ∧ row.status ≠ .waitingDependency
        rw [hstatus]
        exact hst
    · cases h

/-- a move that the machine allows fails on its text only -/
theorem transitionStatus_ok_iff (t : Tables) (now : Time) (i : Nat) (detail : TransitionDetail)
    (hne : target ≠ a.status) (hmem : target ∈ a.status.allowedTransitions) :
    (∃ p, t.transitionStatus now i a target detail = .ok p) ↔ detail.storable = true := by
  have hmove : a.transition now target = .ok (a.moved now target) :=
    AgentWorkAssignment.transition_ok.2 (.inr ⟨hne, hmem, rfl⟩)
  unfold Tables.transitionStatus
  rw [hmove]
  constructor
  · intro ⟨p, h⟩
    have h' := (if_neg hne).symm.trans h
    by_contra hno
    have hbad := (if_neg hno).symm.trans h'
    cases hbad
  · intro hdetail
    exact ⟨_, (if_neg hne).trans (if_pos hdetail)⟩

/-! ## behind the gate -/

/-- from a status that a dispatch does not leave, nothing is started -/
theorem startAssignment_refused (hready : a.status ≠ .ready) (hwaiting : a.status ≠ .waitingAgent) :
    (startAssignment c a t).started = false ∧ (startAssignment c a t).tables = t := by
  have herr : a.transition c.now .waitingAgent = .error (.invalidTransition a.status .waitingAgent) := by
    have hmem : WorkAssignmentStatus.waitingAgent ∉ a.status.allowedTransitions := by
      cases hs : a.status <;> first | exact absurd hs hready | decide
    unfold AgentWorkAssignment.transition
    rw [if_neg (Ne.symm hwaiting), if_neg hmem]
  unfold startAssignment Tables.transitionStatus
  rw [herr]
  exact ⟨rfl, rfl⟩

/-- a row that is `waiting_agent` is taken as it is, and the agent is started -/
theorem startAssignment_again (hwaiting : a.status = .waitingAgent) :
    (startAssignment c a t).started = true := by
  have hself : a.transition c.now .waitingAgent = .ok a.toAgentWorkAssignment := if_pos hwaiting.symm
  have hok : t.transitionStatus c.now c.assignment a .waitingAgent
      { reason := some "dispatching", attemptId := some c.attemptId } = .ok (a, t) := by
    unfold Tables.transitionStatus
    rw [hself]
    exact if_pos hwaiting.symm
  unfold startAssignment
  rw [hok]
  dsimp only
  cases c.start with
  | interrupted => rfl
  | raised e => dsimp only; split <;> rfl
  | returned => dsimp only; split <;> rfl

/-- a `ready` row is started, and set to `running` or `blocked` exactly when its end is recorded -/
theorem startAssignment_ready (ha : t.assignments[c.assignment]? = some a) (hready : a.status = .ready) :
    (startAssignment c a t).started = true ∧
      ((((startAssignment c a t).tables.assignments[c.assignment]?).map fun r => r.status) =
        some (if c.start = .returned then .running else .blocked) ↔
          c.start.recorded c.attemptId = true) := by
  obtain ⟨⟨a₁, t₁⟩, h₁⟩ := (transitionStatus_ok_iff t c.now c.assignment
    { reason := some "dispatching", attemptId := some c.attemptId }
    (show WorkAssignmentStatus.waitingAgent ≠ a.status by rw [hready]; decide)
    (by rw [hready]; decide)).2 rfl
  obtain ⟨hrow₁, hst₁⟩ := transitionStatus_row ha (by decide) h₁
  unfold startAssignment
  rw [h₁]
  dsimp only
  cases hstart : c.start with
  | interrupted =>
    refine ⟨rfl, ?_⟩
    dsimp only
    rw [hrow₁, Option.map_some, hst₁]
    exact iff_of_false (by simp) (by simp [Start.recorded])
  | raised e =>
    have hok := transitionStatus_ok_iff t₁ c.now c.assignment (blockDetail c.attemptId e)
      (show WorkAssignmentStatus.blocked ≠ a₁.status by rw [hst₁]; decide) (by rw [hst₁]; decide)
    dsimp only
    cases h₂ : t₁.transitionStatus c.now c.assignment a₁ .blocked (blockDetail c.attemptId e) with
    | error err =>
      refine ⟨rfl, ?_⟩
      dsimp only
      rw [ha, Option.map_some, hready]
      refine iff_of_false (by simp) fun hrec => ?_
      obtain ⟨p, hp⟩ := hok.2 hrec
      rw [h₂] at hp
      cases hp
    | ok p =>
      obtain ⟨a₂, t₂⟩ := p
      obtain ⟨hrow₂, hst₂⟩ := transitionStatus_row hrow₁ (by decide) h₂
      refine ⟨rfl, ?_⟩
      dsimp only
      rw [hrow₂, Option.map_some, hst₂]
      exact iff_of_true (by simp) (hok.1 ⟨_, h₂⟩)
  | returned =>
    dsimp only
    obtain ⟨⟨a₂, t₂⟩, h₂⟩ := (transitionStatus_ok_iff t₁ c.now c.assignment
      { attemptId := some c.attemptId }
      (show WorkAssignmentStatus.running ≠ a₁.status by rw [hst₁]; decide)
      (by rw [hst₁]; decide)).2 rfl
    obtain ⟨hrow₂, hst₂⟩ := transitionStatus_row hrow₁ (by decide) h₂
    rw [h₂]
    refine ⟨rfl, ?_⟩
    dsimp only
    rw [hrow₂, Option.map_some, hst₂]
    exact iff_of_true (by simp) rfl

/-! ## a call -/

/-- a call that the gate stops -/
theorem dispatchAssignment_rejected (h : c.admitted digest a t = false) :
    (dispatchAssignment digest c a t).started = false ∧
      (dispatchAssignment digest c a t).tables = t := by
  unfold dispatchAssignment
  split
  · exact ⟨rfl, rfl⟩
  · next o ho =>
    split
    · exact ⟨rfl, rfl⟩
    · next hassign =>
      split
      · exact ⟨rfl, rfl⟩
      · next hmissing =>
        have hyes : c.admitted digest a t = true :=
          decide_eq_true ⟨ho.trans (congrArg some (not_not.1 hassign)), not_not.1 hmissing⟩
        rw [h] at hyes
        cases hyes

theorem dispatchAssignment_admitted (h : c.admitted digest a t = true) :
    dispatchAssignment digest c a t = startAssignment c a t := by
  obtain ⟨hgate, hmissing⟩ := of_decide_eq_true h
  unfold dispatchAssignment
  rw [hgate]
  dsimp only
  rw [if_neg (not_not.2 rfl), if_neg (not_not.2 hmissing)]

theorem Dispatched.Sound.of_unstarted {d : Dispatched} (hno : d.started = false) (ht : d.tables = t) :
    d.Sound c a t := by
  refine ⟨fun h => ?_, fun h => ?_, fun _ => ht⟩
  · rw [hno] at h
    cases h
  · rw [hno] at h
    cases h

/-- a call on a row is sound exactly when it fits -/
theorem dispatchAssignment_sound_iff (ha : t.assignments[c.assignment]? = some a) :
    (dispatchAssignment digest c a t).Sound c a t ↔ c.fits digest a t = true := by
  unfold Call.fits
  rw [decide_eq_true_iff]
  cases hadm : c.admitted digest a t with
  | false =>
    obtain ⟨hno, ht⟩ := dispatchAssignment_rejected hadm
    exact iff_of_true (.of_unstarted hno ht) fun h => nomatch h
  | true =>
    rw [dispatchAssignment_admitted hadm]
    obtain ⟨hgate, -⟩ := of_decide_eq_true hadm
    by_cases hready : a.status = .ready
    · obtain ⟨hstarted, hends⟩ := startAssignment_ready ha hready
      constructor
      · intro h _
        refine ⟨?_, fun _ => hends.1 (h.ends hstarted)⟩
        rw [hready]
        decide
      · intro h
        obtain ⟨-, hrec⟩ := h rfl
        refine ⟨fun _ => ⟨hready, fun hmode => ?_⟩, fun _ => hends.2 (hrec hready), fun hno => ?_⟩
        · exact evaluateAssignmentReadiness_lease (evaluateDispatchReadiness_base hgate) hready hmode
        · rw [hstarted] at hno
          cases hno
    · by_cases hwaiting : a.status = .waitingAgent
      · refine iff_of_false (fun h => ?_) fun h => (h rfl).1 hwaiting
        exact hready (h.ready (startAssignment_again hwaiting)).1
      · obtain ⟨hno, ht⟩ := startAssignment_refused hready hwaiting
        exact iff_of_true (.of_unstarted hno ht) fun _ => ⟨hwaiting, fun h => absurd h hready⟩

/-! ## every run -/

/-- what each call of a run should do -/
def DispatchesSound (digest : String → String) (t : Tables) (cs : List Call) : Prop :=
  ∀ p ∈ Run.trace (Call.step digest) t cs, ∀ a, p.1.assignments[p.2.assignment]? = some a →
    (dispatchAssignment digest p.2 a p.1).Sound p.2 a p.1

/-- **From any tables, each call of any run starts an agent from `ready` only, under a lease when it
writes, and leaves the row `running`, `blocked` or as it was, exactly when each call that goes past
the gate finds the row not `waiting_agent` and the adapter's end is recorded.** -/
theorem dispatches_sound (digest : String → String) (t : Tables) (cs : List Call) :
    DispatchesSound digest t cs ↔
      ∀ p ∈ Run.trace (Call.step digest) t cs, ∀ a, p.1.assignments[p.2.assignment]? = some a →
        p.2.fits digest a p.1 = true := by
  constructor
  · intro h p hp a ha
    exact (dispatchAssignment_sound_iff ha).1 (h p hp a ha)
  · intro h p hp a ha
    exact (dispatchAssignment_sound_iff ha).2 (h p hp a ha)

/-- a writing assignment of the agent 0, which may work on two at a time; it holds no lease -/
def writingRow (st : WorkAssignmentStatus) : Tables where
  assignments := [{
    id := 0, ownerId := 1, taskId := none, role := .builder, status := st, goalId := 0, agentId := 0
    readWriteMode := .readWrite, repositoryIdentity := "repo", branch := some "work"
    worktreePath := some "/tmp/work", canonicalWorkKey := "key" }]
  agents := [{ agentKey := "codex", concurrencyLimit := 2 }]

/-- a reading assignment of the same agent -/
def readingRow : Tables where
  assignments := [{
    id := 0, ownerId := 1, taskId := none, role := .reviewer, status := .ready, goalId := 0, agentId := 0
    readWriteMode := .readOnly, repositoryIdentity := "repo", canonicalWorkKey := "key" }]
  agents := [{ agentKey := "codex", concurrencyLimit := 2 }]

def plainCall (start : Start) : Call where
  assignment := 0
  agent := { agentKey := "codex", concurrencyLimit := 2 }
  now := 10
  attemptId := 7
  start := start

/-- A row that is already `waiting_agent` is started again, without a lease; a call that is cancelled
while the adapter starts leaves the row in `waiting_agent`. -/
theorem waitingAgent_started :
    ¬ DispatchesSound id (writingRow .waitingAgent) [plainCall .returned] ∧
      ¬ DispatchesSound id readingRow [plainCall .interrupted] := by
  constructor
  · intro h
    have hfits := (dispatchAssignment_sound_iff rfl).1 (h _ List.mem_cons_self _ rfl)
    exact absurd hfits (by decide +kernel)
  · intro h
    have hfits := (dispatchAssignment_sound_iff rfl).1 (h _ List.mem_cons_self _ rfl)
    exact absurd hfits (by decide +kernel)

end LifeAI.Gate
