import LifeAI.Strategy.Model
import LifeAI.Synthesis.Steps

/-!
# What a call does to the tables

* `idempotent_ok`  a key finds its row, or its row is new;
* `event_tables`   an event is recorded, or the tables are as they were;
* `Wrote`          the rows that a call writes before its event;
* `exec_wrote`, `step_cases`   a call, and a step, write nothing else.
-/

set_option linter.unusedSectionVars false

namespace LifeAI.Strategy

open Keyed
open Synthesis (owned owned_ok ownedIf same same_eq_none replay replay_ok tooLong)

variable {Doc : Type} [DecidableEq Doc] {lib : Documents Doc} {s t mid : Tables Doc}
  {ownerId : OwnerId} {stamp : Stamp} {call : Call Doc}

theorem idempotent_ok {α : Type} {key : α → OwnerId × String}
    {columns : α → α → List (String × Bool)} {refusal : α → Option Err} {rows rows' : List α}
    {values : α} {i : ℕ} : idempotent key columns refusal rows values = .ok (i, rows') ↔
      (∃ x, lookup key rows (key values) = some (i, x) ∧
        (∀ p ∈ columns x values, p.2 = true) ∧ rows' = rows) ∨
      (lookup key rows (key values) = none ∧ refusal values = none ∧ i = rows.length ∧
        rows' = rows ++ [values]) := by
  unfold idempotent
  rw [record_ok]
  simp only [same_eq_none]
  rfl

theorem event_tables (before mid : Tables Doc) (row : Event) (answer : EventId → Answer) :
    (before.event mid row answer).2 = before ∨ ∃ events, mid.events <+: events ∧
      (before.event mid row answer).2 = { mid with events := events } := by
  unfold Tables.event
  cases lookup Event.key mid.events row.key with
  | some found => exact .inr ⟨mid.events, List.prefix_refl _, rfl⟩
  | none =>
    dsimp only
    by_cases hlong : tooLong row.idempotencyKey = true
    · rw [if_pos hlong]
      exact .inl rfl
    · rw [if_neg hlong]
      exact .inr ⟨_, List.prefix_append _ _, rfl⟩

/-- what a call writes before its event -/
inductive Wrote (lib : Documents Doc) (s : Tables Doc) : Tables Doc → Prop
  | nothing : Wrote lib s s
  | comparison (row : Comparison Doc) : Wrote lib s { s with comparisons := s.comparisons ++ [row] }
  | comparability (row : ComparabilityAssessment Doc) (h : row.refusal lib s = none) :
    Wrote lib s { s with comparabilities := s.comparabilities ++ [row] }
  | quality (row : QualityAssessment) (h : row.refusal s = none) :
    Wrote lib s { s with qualities := s.qualities ++ [row] }
  | delta (row : EfficiencyDelta) : Wrote lib s { s with deltas := s.deltas ++ [row] }
  | experiment (row : Experiment Doc) (h : row.state = .draft) (hreason : row.failureReason = none) :
    Wrote lib s { s with experiments := s.experiments ++ [row] }
  | experimentState (id : ExperimentId) (row : Experiment Doc) (next : ExperimentState)
      (reason : Option String) (hrow : s.experiments[id]? = some row)
      (hnext : next ∈ experimentTransitions row.state) :
    Wrote lib s { s with
      experiments := s.experiments.set id { row with state := next, failureReason := reason } }
  | candidate (row : Candidate Doc) (h : row.refusal lib = none) (hstate : row.state = .candidate) :
    Wrote lib s { s with candidates := s.candidates ++ [row] }
  | candidateState (id : CandidateId) (row : Candidate Doc) (next : CandidateState)
      (hrow : s.candidates[id]? = some row)
      (hguard : candidateGuard s id row { row with state := next } = none) :
    Wrote lib s { s with candidates := s.candidates.set id { row with state := next } }
  | experimentLink (row : Link) : Wrote lib s { s with experimentLinks := s.experimentLinks ++ [row] }
  | promotionLink (row : Link)
      (h : row.refusal "uq_strategy_promotion_comparisons_pair" s.promotionLinks = none) :
    Wrote lib s { s with promotionLinks := s.promotionLinks ++ [row] }

/-- what a call leaves: what it wrote, and its event -/
def Leaves (lib : Documents Doc) (s t : Tables Doc) : Prop :=
  ∃ mid events, Wrote lib s mid ∧ mid.events <+: events ∧ t = { mid with events := events }

theorem Wrote.leaves (h : Wrote lib s t) : Leaves lib s t := ⟨t, t.events, h, List.prefix_refl _, rfl⟩

theorem Leaves.same : Leaves lib s s := Wrote.nothing.leaves

theorem Wrote.event (h : Wrote lib s mid) (row : Event) (answer : EventId → Answer) :
    Leaves lib s (s.event mid row answer).2 := by
  rcases event_tables s mid row answer with heq | ⟨events, hevents, heq⟩
  · rw [heq]
    exact .same
  · rw [heq]
    exact ⟨mid, events, h, hevents, rfl⟩

theorem guarded_tables {α : Type} (before : Tables Doc) (refused : Option Err)
    (written : Except Err α × Tables Doc) :
    (guarded before refused written).2 = before ∨
      refused = none ∧ guarded before refused written = written := by
  unfold guarded
  split
  · exact .inr ⟨rfl, rfl⟩
  · exact .inl rfl
  · exact .inl rfl

theorem guarded_ok {α : Type} {before : Tables Doc} {refused : Option Err}
    {written : Except Err α × Tables Doc} {r : α} (h : guarded before refused written = (.ok r, t)) :
    written = (.ok r, t) := by
  unfold guarded at h
  split at h
  · exact h
  · cases h
  · cases h

theorem createComparison_leaves (a : ComparisonArgs Doc) :
    Leaves lib s (createComparison lib s ownerId a).2 := by
  unfold createComparison
  split
  · exact .same
  split
  · exact .same
  · next id rows hrows =>
    rcases idempotent_ok.1 hrows with ⟨x, -, -, rfl⟩ | ⟨-, -, -, rfl⟩
    · exact .same
    · exact (Wrote.comparison _).leaves

theorem assessComparability_leaves (a : ComparabilityArgs Doc) :
    Leaves lib s (assessComparability lib s ownerId stamp a).2 := by
  unfold assessComparability
  split
  · exact .same
  split
  · exact .same
  · next id rows hrows =>
    rcases idempotent_ok.1 hrows with ⟨x, -, -, rfl⟩ | ⟨-, hrefusal, -, rfl⟩
    · exact .same
    · exact (Wrote.comparability _ hrefusal).leaves

theorem assessQuality_leaves (a : QualityArgs) :
    Leaves lib s (assessQuality s ownerId stamp a).2 := by
  unfold assessQuality
  split
  · exact .same
  split
  · exact .same
  · next id rows hrows =>
    rcases idempotent_ok.1 hrows with ⟨x, -, -, rfl⟩ | ⟨-, hrefusal, -, rfl⟩
    · exact .same
    · exact (Wrote.quality _ hrefusal).leaves

theorem recordEfficiencyDelta_leaves (a : DeltaArgs) :
    Leaves lib s (recordEfficiencyDelta s ownerId a).2 := by
  unfold recordEfficiencyDelta
  split
  · exact .same
  split
  · exact .same
  · next id rows hrows =>
    rcases idempotent_ok.1 hrows with ⟨x, -, -, rfl⟩ | ⟨-, -, -, rfl⟩
    · exact .same
    · exact (Wrote.delta _).leaves

theorem createExperiment_leaves (a : ExperimentArgs Doc) :
    Leaves lib s (createExperiment lib s ownerId a).2 := by
  unfold createExperiment
  split
  · exact .same
  split
  · exact .same
  · next id rows hrows =>
    rcases idempotent_ok.1 hrows with ⟨x, -, -, rfl⟩ | ⟨-, -, -, rfl⟩
    · exact Wrote.nothing.event _ _
    · exact (Wrote.experiment _ rfl rfl).event _ _

theorem transitionExperiment_leaves (id : ExperimentId) (toState key : String)
    (reason : Option String) :
    Leaves lib s (transitionExperiment s ownerId id toState key reason).2 := by
  unfold transitionExperiment
  split
  · exact .same
  next row hrow =>
  split
  · exact .same
  next next hnext =>
  have hmem := List.mem_of_find?_eq_some hnext
  exact (Wrote.experimentState id row next reason (owned_ok.1 hrow).1 hmem).event _ _

theorem createPromotionCandidate_leaves (a : CandidateArgs Doc) :
    Leaves lib s (createPromotionCandidate lib s ownerId a).2 := by
  unfold createPromotionCandidate
  split
  · exact .same
  split
  · exact .same
  · next id rows hrows =>
    rcases idempotent_ok.1 hrows with ⟨x, -, -, rfl⟩ | ⟨-, hrefusal, -, rfl⟩
    · exact Wrote.nothing.event _ _
    · exact (Wrote.candidate _ hrefusal rfl).event _ _

theorem linkComparison_leaves (comparisonId : ComparisonId) (key : String)
    (experimentId : Option ExperimentId) (candidateId : Option CandidateId) :
    Leaves lib s (linkComparison s ownerId comparisonId key experimentId candidateId).2 := by
  unfold linkComparison
  split
  · exact .same
  · split
    · exact .same
    · next link rows hrows =>
      rcases idempotent_ok.1 hrows with ⟨x, -, -, rfl⟩ | ⟨-, -, -, rfl⟩
      · exact Wrote.nothing.event _ _
      · exact (Wrote.experimentLink _).event _ _
  · split
    · exact .same
    · next link rows hrows =>
      rcases idempotent_ok.1 hrows with ⟨x, -, -, rfl⟩ | ⟨-, hrefusal, -, rfl⟩
      · exact Wrote.nothing.event _ _
      · exact (Wrote.promotionLink _ hrefusal).event _ _

theorem transitionCandidate_leaves (id : CandidateId) (toState key : String) :
    Leaves lib s (transitionCandidate s ownerId id toState key).2 := by
  unfold transitionCandidate
  split
  · exact .same
  next row hrow =>
  split
  · exact .same
  next next hnext =>
  split
  · exact .same
  dsimp only
  rcases guarded_tables s (candidateGuard s id row { row with state := next })
    (s.event { s with candidates := s.candidates.set id { row with state := next } }
      (candidateChanged ownerId id row.state next key) (.candidateEvent id)) with heq | ⟨hguard, heq⟩
  · rw [heq]
    exact .same
  · rw [heq]
    exact (Wrote.candidateState id row next (owned_ok.1 hrow).1 hguard).event _ _

/-- **what a call writes**, whatever it answers -/
theorem exec_leaves (lib : Documents Doc) (s : Tables Doc) (ownerId : OwnerId) (stamp : Stamp)
    (call : Call Doc) : Leaves lib s (call.exec lib s ownerId stamp).2 := by
  cases call with
  | createComparison a => exact createComparison_leaves a
  | assessComparability a => exact assessComparability_leaves a
  | assessQuality a => exact assessQuality_leaves a
  | recordEfficiencyDelta a => exact recordEfficiencyDelta_leaves a
  | createExperiment a => exact createExperiment_leaves a
  | transitionExperiment id toState key reason =>
    exact transitionExperiment_leaves id toState key reason
  | createPromotionCandidate a => exact createPromotionCandidate_leaves a
  | linkComparison comparisonId key experimentId candidateId =>
    exact linkComparison_leaves comparisonId key experimentId candidateId
  | transitionCandidate id toState key => exact transitionCandidate_leaves id toState key

/-- a step is a call that leaves its tables, or it is elsewhere -/
theorem step_cases (lib : Documents Doc) (s : Tables Doc) (op : Op Doc) :
    Leaves lib s (step lib s op) ∨
      ∃ new, op = .elsewhere new ∧ step lib s op = { s with toElsewhere := s.toElsewhere.append new } := by
  cases op with
  | elsewhere new => exact .inr ⟨new, rfl, rfl⟩
  | call ownerId c stamp rollsBack =>
    left
    have hleaves := exec_leaves lib s ownerId stamp c
    unfold step
    dsimp only
    split
    · next r after heq =>
      rw [heq] at hleaves
      exact hleaves
    · next e after heq =>
      rw [heq] at hleaves
      split
      · exact .same
      · exact hleaves

end LifeAI.Strategy
