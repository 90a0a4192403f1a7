import LifeAI.Strategy.Recorded

/-!
# Calls that are repeated

* `steady`  what a repeated call compares is as it was;
* `Recorded.replays_iff`   **a repeated call returns its answer and changes nothing exactly when it is
                           steady**.
-/

set_option linter.unusedSectionVars false

namespace LifeAI.Strategy

open Keyed
open Synthesis (owned owned_ok ownedIf same same_eq_none replay replay_ok tooLong)

variable {Doc : Type} [DecidableEq Doc]

/-- the call returns what it returned before, and changes nothing -/
def Replays (lib : Documents Doc) (s : Tables Doc) (d : Done Doc) (stamp : Stamp) : Prop :=
  d.call.exec lib s d.ownerId stamp = (.ok d.answer, s)

/-- the call raises, and changes nothing -/
def Refused (lib : Documents Doc) (s : Tables Doc) (ownerId : OwnerId) (c : Call Doc)
    (stamp : Stamp) : Prop :=
  ∃ e, c.exec lib s ownerId stamp = (.error e, s)

/-- what the repetition of a call compares with its row is as it was -/
def steady (s : Tables Doc) (d : Done Doc) : Bool :=
  match d.call with
  | .assessQuality a =>
    match a.checked s d.ownerId, lookup QualityAssessment.key s.qualities (d.ownerId, a.idempotencyKey) with
    | .ok (_, v), some (_, row) => v.required = row.requiredCount ∧ v.passed = row.passedCount ∧
      v.failed = row.failedCount ∧ v.missing = row.missingCount
    | _, _ => false
  | .createExperiment a =>
    (lookup Experiment.key s.experiments (d.ownerId, a.idempotencyKey)).any (·.2.state = .draft)
  | .createPromotionCandidate a =>
    (lookup Candidate.key s.candidates (d.ownerId, a.idempotencyKey)).any (·.2.state = .candidate)
  | .transitionExperiment .. | .transitionCandidate .. => false
  | _ => true

variable {lib : Documents Doc} {s t mid : Tables Doc} {ownerId : OwnerId} {stamp : Stamp}

/-- a draft has no failure reason -/
def Drafted (s : Tables Doc) : Prop := ∀ row ∈ s.experiments, row.state = .draft → row.failureReason = none

theorem experimentTransitions_ne {old next : ExperimentState} (h : next ∈ experimentTransitions old) :
    next ≠ old ∧ next ≠ .draft := by
  revert h
  cases old <;> cases next <;> decide

theorem candidateTransitions_ne {old next : CandidateState} (h : next ∈ candidateTransitions old) :
    next ≠ old := by
  revert h
  cases old <;> cases next <;> decide

theorem Wrote.drafted (h : Drafted s) (hwrote : Wrote lib s t) : Drafted t := by
  cases hwrote with
  | experiment row hdraft hreason =>
    intro r hr hstate
    rcases List.mem_append.1 hr with hr | hr
    · exact h r hr hstate
    · rw [List.mem_singleton.1 hr]
      exact hreason
  | experimentState id row next reason hrow hnext =>
    intro r hr hstate
    rcases List.mem_or_eq_of_mem_set hr with hr | rfl
    · exact h r hr hstate
    · exact absurd hstate (experimentTransitions_ne hnext).2
  | nothing | comparison | comparability | quality | delta | candidate | candidateState
  | experimentLink | promotionLink => exact h

theorem Drafted.step (h : Drafted s) (op : Op Doc) : Drafted (step lib s op) := by
  rcases step_cases lib s op with ⟨mid, events, hwrote, -, heq⟩ | ⟨new, -, heq⟩
  · have hdrafted : Drafted mid := hwrote.drafted h
    rw [heq]
    exact hdrafted
  · rw [heq]
    exact h

/-- a quality assessment is recorded again where the verification counts what it counted -/
theorem QualityArgs.row_columns {a : QualityArgs} {stamp' : Stamp} {subject : Subject}
    {v w : VerificationState} (hv : v.Sound) (hw : w.Sound) :
    (∀ p ∈ (a.row ownerId stamp' subject w).columns (a.row ownerId stamp subject v), p.2 = true) ↔
      v.required = w.required ∧ v.passed = w.passed ∧ v.failed = w.failed ∧
        v.missing = w.missing := by
  unfold QualityAssessment.columns QualityArgs.row
  simp only [List.forall_mem_cons, decide_eq_true_eq, true_and]
  constructor
  · intro h
    obtain ⟨hfailed, hmissing, hpassed, hrequired, -⟩ := h
    exact ⟨hrequired.symm, hpassed.symm, hfailed.symm, hmissing.symm⟩
  · intro h
    obtain ⟨hrequired, hpassed, hfailed, hmissing⟩ := h
    have hstate : a.state w = a.state v := by
      unfold VerificationState.Sound at hv hw
      unfold QualityArgs.state
      rw [hv, hw, hrequired, hpassed, hfailed]
    exact ⟨hfailed.symm, hmissing.symm, hpassed.symm, hrequired.symm, hstate, by simp⟩

/-! ## a call whose key has another row -/

theorem createComparison_refused {a : ComparisonArgs Doc} {x : Comparison Doc} {i : ℕ}
    (hfound : lookup Comparison.key s.comparisons (ownerId, a.idempotencyKey) = some (i, x))
    (hne : x ≠ a.row lib ownerId) : Refused lib s ownerId (.createComparison a) stamp := by
  have hkey : x.key = (a.row lib ownerId).key := (lookup_eq_some.1 hfound).2.1
  show ∃ e, createComparison lib s ownerId a = (.error e, s)
  unfold createComparison
  split
  · exact ⟨_, rfl⟩
  · obtain ⟨e, he⟩ : ∃ e, idempotent Comparison.key Comparison.columns (Comparison.refusal lib s)
        s.comparisons (a.row lib ownerId) = .error e :=
      idempotent_refused hfound fun hall => hne ((Comparison.columns_iff hkey).1 hall)
    rw [he]
    exact ⟨e, rfl⟩

theorem assessComparability_refused {a : ComparabilityArgs Doc} {x : ComparabilityAssessment Doc}
    {i : ℕ} (hfound : lookup ComparabilityAssessment.key s.comparabilities
      (ownerId, a.idempotencyKey) = some (i, x))
    (hne : ∀ stamp, x ≠ a.row lib ownerId stamp) :
    Refused lib s ownerId (.assessComparability a) stamp := by
  have hkey : x.key = (a.row lib ownerId stamp).key := (lookup_eq_some.1 hfound).2.1
  show ∃ e, assessComparability lib s ownerId stamp a = (.error e, s)
  unfold assessComparability
  split
  · exact ⟨_, rfl⟩
  · obtain ⟨e, he⟩ : ∃ e, idempotent ComparabilityAssessment.key ComparabilityAssessment.columns
        (ComparabilityAssessment.refusal lib s) s.comparabilities (a.row lib ownerId stamp) =
          .error e :=
      idempotent_refused hfound fun hall => hne ⟨x.id, x.createdAt⟩
        ((ComparabilityAssessment.columns_iff hkey).1 hall)
    rw [he]
    exact ⟨e, rfl⟩

theorem assessQuality_refused {a : QualityArgs} {x : QualityAssessment} {i : ℕ}
    (hfound : lookup QualityAssessment.key s.qualities (ownerId, a.idempotencyKey) = some (i, x))
    (hne : ∀ stamp subject v, a.checked s ownerId = .ok (subject, v) →
      x ≠ a.row ownerId stamp subject v) :
    Refused lib s ownerId (.assessQuality a) stamp := by
  show ∃ e, assessQuality s ownerId stamp a = (.error e, s)
  unfold assessQuality
  split
  · exact ⟨_, rfl⟩
  · next subject v hchecked =>
    have hkey : x.key = (a.row ownerId stamp subject v).key := (lookup_eq_some.1 hfound).2.1
    obtain ⟨e, he⟩ : ∃ e, idempotent QualityAssessment.key QualityAssessment.columns
        (QualityAssessment.refusal s) s.qualities (a.row ownerId stamp subject v) = .error e :=
      idempotent_refused hfound fun hall => hne ⟨x.id, x.createdAt⟩ subject v hchecked
        ((QualityAssessment.columns_iff hkey).1 hall)
    rw [he]
    exact ⟨e, rfl⟩

theorem recordEfficiencyDelta_refused {a : DeltaArgs} {x : EfficiencyDelta} {i : ℕ}
    (hfound : lookup EfficiencyDelta.key s.deltas (ownerId, a.idempotencyKey) = some (i, x))
    (hne : a.checked s ownerId ≠ .ok x) :
    Refused lib s ownerId (.recordEfficiencyDelta a) stamp := by
  show ∃ e, recordEfficiencyDelta s ownerId a = (.error e, s)
  unfold recordEfficiencyDelta
  split
  · exact ⟨_, rfl⟩
  · next values hchecked =>
    obtain ⟨howner, hargs⟩ := DeltaArgs.checked_eq hchecked
    have hvalues : values.key = (ownerId, a.idempotencyKey) :=
      Prod.ext howner (congrArg DeltaArgs.idempotencyKey hargs)
    rw [← hvalues] at hfound
    have hkey : x.key = values.key := (lookup_eq_some.1 hfound).2.1
    obtain ⟨e, he⟩ : ∃ e, idempotent EfficiencyDelta.key EfficiencyDelta.columns
        EfficiencyDelta.refusal s.deltas values = .error e := by
      refine idempotent_refused hfound fun hall => hne ?_
      rw [hchecked, (EfficiencyDelta.columns_iff hkey).1 hall]
    rw [he]
    exact ⟨e, rfl⟩

theorem createExperiment_refused {a : ExperimentArgs Doc} {x : Experiment Doc} {i : ℕ}
    (hfound : lookup Experiment.key s.experiments (ownerId, a.idempotencyKey) = some (i, x))
    (hne : x ≠ a.row lib ownerId) : Refused lib s ownerId (.createExperiment a) stamp := by
  have hkey : x.key = (a.row lib ownerId).key := (lookup_eq_some.1 hfound).2.1
  show ∃ e, createExperiment lib s ownerId a = (.error e, s)
  unfold createExperiment
  split
  · exact ⟨_, rfl⟩
  · obtain ⟨e, he⟩ : ∃ e, idempotent Experiment.key Experiment.columns (Experiment.refusal lib)
        s.experiments (a.row lib ownerId) = .error e :=
      idempotent_refused hfound fun hall => hne ((Experiment.columns_iff hkey).1 hall)
    rw [he]
    exact ⟨e, rfl⟩

theorem createPromotionCandidate_refused {a : CandidateArgs Doc} {x : Candidate Doc} {i : ℕ}
    (hfound : lookup Candidate.key s.candidates (ownerId, a.idempotencyKey) = some (i, x))
    (hne : x ≠ a.row lib ownerId) :
    Refused lib s ownerId (.createPromotionCandidate a) stamp := by
  have hkey : x.key = (a.row lib ownerId).key := (lookup_eq_some.1 hfound).2.1
  show ∃ e, createPromotionCandidate lib s ownerId a = (.error e, s)
  unfold createPromotionCandidate
  split
  · exact ⟨_, rfl⟩
  · obtain ⟨e, he⟩ : ∃ e, idempotent Candidate.key Candidate.columns (Candidate.refusal lib)
        s.candidates (a.row lib ownerId) = .error e :=
      idempotent_refused hfound fun hall => hne ((Candidate.columns_iff hkey).1 hall)
    rw [he]
    exact ⟨e, rfl⟩

/-- a transition changes its experiment -/
theorem experiment_moved_ne {id : ExperimentId} {row : Experiment Doc} {next : ExperimentState}
    {reason : Option String} {events : List Event} (hget : s.experiments[id]? = some row)
    (hnext : next ∈ experimentTransitions row.state) :
    { s with
      experiments := s.experiments.set id { row with state := next, failureReason := reason }
      events := events } ≠ s := by
  intro heq
  have hset := congrArg (fun t : Tables Doc => t.experiments[id]?) heq
  dsimp only at hset
  rw [hget, List.getElem?_set_self (List.getElem?_eq_some_iff.1 hget).1] at hset
  have hstate : next = row.state := congrArg Experiment.state (Option.some.inj hset)
  exact (experimentTransitions_ne hnext).1 hstate

/-- a transition changes its candidate -/
theorem candidate_moved_ne {id : CandidateId} {row : Candidate Doc} {next : CandidateState}
    {events : List Event} (hget : s.candidates[id]? = some row)
    (hnext : next ∈ candidateTransitions row.state) :
    { s with candidates := s.candidates.set id { row with state := next }, events := events } ≠ s := by
  intro heq
  have hset := congrArg (fun t : Tables Doc => t.candidates[id]?) heq
  dsimp only at hset
  rw [hget, List.getElem?_set_self (List.getElem?_eq_some_iff.1 hget).1] at hset
  have hstate : next = row.state := congrArg Candidate.state (Option.some.inj hset)
  exact candidateTransitions_ne hnext hstate

theorem transitionExperiment_moves {id : ExperimentId} {toState key : String}
    {reason : Option String} {r : Answer}
    (h : transitionExperiment s ownerId id toState key reason = (.ok r, t)) : t ≠ s := by
  unfold transitionExperiment at h
  split at h
  · cases h
  next row hrow =>
  split at h
  · cases h
  next next hnext =>
  obtain ⟨e, events, -, htables, -⟩ := event_recorded (congrArg Prod.fst h)
  rw [h] at htables
  obtain rfl : t = _ := htables
  exact experiment_moved_ne (owned_ok.1 hrow).1 (List.mem_of_find?_eq_some hnext)

theorem transitionCandidate_moves {id : CandidateId} {toState key : String} {r : Answer}
    (h : transitionCandidate s ownerId id toState key = (.ok r, t)) : t ≠ s := by
  unfold transitionCandidate at h
  split at h
  · cases h
  next row hrow =>
  split at h
  · cases h
  next next hnext =>
  split at h
  · cases h
  have hwritten := guarded_ok h
  obtain ⟨e, events, -, htables, -⟩ := event_recorded (congrArg Prod.fst hwritten)
  rw [hwritten] at htables
  obtain rfl : t = _ := htables
  exact candidate_moved_ne (owned_ok.1 hrow).1 (List.mem_of_find?_eq_some hnext)

/-- **a repeated call** returns its answer and changes nothing exactly when it is steady -/
theorem Recorded.replays_iff {d : Done Doc} (h : Recorded lib s d) (hdrafted : Drafted s) :
    Replays lib s d stamp ↔ steady s d = true := by
  obtain ⟨ownerId, call, answer⟩ := d
  cases call with
  | createComparison a =>
    obtain ⟨hchecked, i, hanswer, hfound⟩ := h
    refine iff_of_true ?_ rfl
    show createComparison lib s ownerId a = (.ok answer, s)
    unfold createComparison
    rw [hchecked]
    dsimp only at hanswer ⊢
    rw [idempotent_found hfound ((Comparison.columns_iff rfl).2 rfl), hanswer]
  | assessComparability a =>
    obtain ⟨hchecked, i, stamp', hanswer, hfound⟩ := h
    refine iff_of_true ?_ rfl
    show assessComparability lib s ownerId stamp a = (.ok answer, s)
    unfold assessComparability
    rw [hchecked]
    dsimp only at hanswer ⊢
    have hcolumns : ∀ p ∈ (a.row lib ownerId stamp').columns (a.row lib ownerId stamp), p.2 = true :=
      (ComparabilityAssessment.columns_iff rfl).2 rfl
    rw [idempotent_found hfound hcolumns, hanswer]
  | assessQuality a =>
    obtain ⟨subject, v, hchecked, i, stamp', w, hanswer, hsound, hfound⟩ := h
    dsimp only at hchecked hanswer hfound
    have hcolumns : (∀ p ∈ (a.row ownerId stamp' subject w).columns (a.row ownerId stamp subject v),
        p.2 = true) ↔ v.required = w.required ∧ v.passed = w.passed ∧ v.failed = w.failed ∧
          v.missing = w.missing :=
      QualityArgs.row_columns (QualityArgs.checked_sound hchecked) hsound
    have hsteady : steady s ⟨ownerId, .assessQuality a, answer⟩ = true ↔ v.required = w.required ∧
        v.passed = w.passed ∧ v.failed = w.failed ∧ v.missing = w.missing := by
      unfold steady
      dsimp only
      rw [hchecked, hfound]
      exact decide_eq_true_iff
    rw [hsteady, ← hcolumns]
    show assessQuality s ownerId stamp a = (.ok answer, s) ↔ _
    unfold assessQuality
    rw [hchecked]
    dsimp only
    constructor
    · intro hexec
      by_contra hno
      obtain ⟨e, he⟩ : ∃ e, idempotent QualityAssessment.key QualityAssessment.columns
          (QualityAssessment.refusal s) s.qualities (a.row ownerId stamp subject v) = .error e :=
        idempotent_refused hfound hno
      rw [he] at hexec
      cases hexec
    · intro hall
      rw [idempotent_found hfound hall, hanswer]
  | recordEfficiencyDelta a =>
    obtain ⟨row, hchecked, i, hanswer, hfound⟩ := h
    refine iff_of_true ?_ rfl
    show recordEfficiencyDelta s ownerId a = (.ok answer, s)
    have hkey : row.key = (ownerId, a.idempotencyKey) := (lookup_eq_some.1 hfound).2.1
    unfold recordEfficiencyDelta
    rw [hchecked]
    dsimp only at hanswer ⊢
    rw [idempotent_found (hkey ▸ hfound) ((EfficiencyDelta.columns_iff rfl).2 rfl), hanswer]
  | createExperiment a =>
    obtain ⟨hchecked, i, row, e, hanswer, hfound, hrow, hevent⟩ := h
    dsimp only at hchecked hanswer hfound hrow hevent
    have hsteady : steady s ⟨ownerId, .createExperiment a, answer⟩ = true ↔ row.state = .draft := by
      unfold steady
      dsimp only
      rw [hfound]
      exact decide_eq_true_iff
    have hkey : row.key = (a.row lib ownerId).key := (lookup_eq_some.1 hfound).2.1
    rw [hsteady]
    constructor
    · intro hexec
      by_contra hmoved
      have hne : row ≠ a.row lib ownerId := by
        rintro rfl
        exact hmoved rfl
      obtain ⟨e, he⟩ : Refused lib s ownerId (.createExperiment a) stamp :=
        createExperiment_refused hfound hne
      have hexec : (Except.ok answer, s) = (Except.error e, s) := hexec.symm.trans he
      cases hexec
    · intro hdraft
      have hreason := hdrafted row (List.mem_of_getElem? (lookup_eq_some.1 hfound).1) hdraft
      have hsame : row = a.row lib ownerId := by
        rw [← hrow]
        unfold Experiment.definition
        rw [← hdraft, ← hreason]
      show createExperiment lib s ownerId a = (.ok answer, s)
      unfold createExperiment
      rw [hchecked]
      dsimp only
      rw [idempotent_found hfound ((Experiment.columns_iff hkey).2 hsame)]
      dsimp only
      rw [event_found hevent, hanswer]
  | createPromotionCandidate a =>
    obtain ⟨hchecked, i, row, e, hanswer, hfound, hrow, hevent⟩ := h
    dsimp only at hchecked hanswer hfound hrow hevent
    have hsteady : steady s ⟨ownerId, .createPromotionCandidate a, answer⟩ = true ↔
        row.state = .candidate := by
      unfold steady
      dsimp only
      rw [hfound]
      exact decide_eq_true_iff
    have hkey : row.key = (a.row lib ownerId).key := (lookup_eq_some.1 hfound).2.1
    rw [hsteady]
    constructor
    · intro hexec
      by_contra hmoved
      have hne : row ≠ a.row lib ownerId := by
        rintro rfl
        exact hmoved rfl
      obtain ⟨e, he⟩ : Refused lib s ownerId (.createPromotionCandidate a) stamp :=
        createPromotionCandidate_refused hfound hne
      have hexec : (Except.ok answer, s) = (Except.error e, s) := hexec.symm.trans he
      cases hexec
    · intro hfirst
      have hsame : row = a.row lib ownerId := by
        rw [← hrow]
        unfold Candidate.definition
        rw [← hfirst]
      show createPromotionCandidate lib s ownerId a = (.ok answer, s)
      unfold createPromotionCandidate
      rw [hchecked]
      dsimp only
      rw [idempotent_found hfound ((Candidate.columns_iff hkey).2 hsame)]
      dsimp only
      rw [event_found hevent, hanswer]
  | linkComparison comparisonId key experimentId candidateId =>
    obtain ⟨parent, hchecked, ⟨e, hevent⟩, hlink⟩ := h
    refine iff_of_true ?_ rfl
    show linkComparison s ownerId comparisonId key experimentId candidateId = (.ok answer, s)
    unfold linkComparison
    rw [hchecked]
    cases parent with
    | experiment id | candidate id =>
      obtain ⟨i, hanswer, hfound⟩ := hlink
      dsimp only at hanswer ⊢
      rw [idempotent_found hfound ((Link.columns_iff rfl).2 rfl)]
      dsimp only
      rw [event_found hevent, hanswer]
  | transitionExperiment id toState key reason =>
    refine iff_of_false (fun hexec => ?_) (by simp [steady])
    exact transitionExperiment_moves hexec rfl
  | transitionCandidate id toState key =>
    refine iff_of_false (fun hexec => ?_) (by simp [steady])
    exact transitionCandidate_moves hexec rfl

end LifeAI.Strategy
