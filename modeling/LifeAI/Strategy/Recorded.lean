import LifeAI.Strategy.Steps

/-!
# What a call that returns leaves for its repetition

* `Grows`     what no call takes back;
* `Recorded`  what the repetition of a call that returned finds;
* `exec_recorded`, `Recorded.mono`   it is there when the call returns, and stays.
-/

set_option linter.unusedSectionVars false

namespace LifeAI.Strategy

open Keyed
open Synthesis (owned owned_ok ownedIf same same_eq_none replay replay_ok tooLong)

variable {Doc : Type} [DecidableEq Doc]

/-- an earlier call that returned -/
structure Done (Doc : Type) where
  ownerId : OwnerId
  call : Call Doc
  answer : Answer
  deriving DecidableEq

variable {lib : Documents Doc} {s t mid : Tables Doc} {ownerId : OwnerId} {stamp : Stamp}

/-! ## what stays -/

/-- an experiment as it was created -/
def Experiment.definition (e : Experiment Doc) : Experiment Doc :=
  { e with state := .draft, failureReason := none }

/-- a candidate as it was created -/
def Candidate.definition (c : Candidate Doc) : Candidate Doc := { c with state := .candidate }

/-- what no step takes back -/
structure Grows (s t : Tables Doc) : Prop where
  bindings : s.bindings <+: t.bindings
  strategies : s.strategies <+: t.strategies
  efficiencies : s.efficiencies <+: t.efficiencies
  evidence : s.evidence <+: t.evidence
  comparisons : s.comparisons <+: t.comparisons
  comparabilities : s.comparabilities <+: t.comparabilities
  qualities : s.qualities <+: t.qualities
  deltas : s.deltas <+: t.deltas
  experiments : Keyed.Keeps Experiment.definition s.experiments t.experiments
  candidates : Keyed.Keeps Candidate.definition s.candidates t.candidates
  experimentLinks : s.experimentLinks <+: t.experimentLinks
  promotionLinks : s.promotionLinks <+: t.promotionLinks
  events : s.events <+: t.events

namespace Grows

theorem refl (s : Tables Doc) : Grows s s :=
  ⟨List.prefix_refl _, List.prefix_refl _, List.prefix_refl _, List.prefix_refl _, List.prefix_refl _,
    List.prefix_refl _, List.prefix_refl _, List.prefix_refl _, .refl _ _, .refl _ _,
    List.prefix_refl _, List.prefix_refl _, List.prefix_refl _⟩

theorem trans {u : Tables Doc} (h : Grows s t) (h' : Grows t u) : Grows s u :=
  ⟨h.1.trans h'.1, h.2.trans h'.2, h.3.trans h'.3, h.4.trans h'.4, h.5.trans h'.5, h.6.trans h'.6,
    h.7.trans h'.7, h.8.trans h'.8, h.9.trans h'.9, h.10.trans h'.10, h.11.trans h'.11,
    h.12.trans h'.12, h.13.trans h'.13⟩

end Grows

theorem Wrote.grows (h : Wrote lib s t) : Grows s t := by
  have hs := Grows.refl s
  cases h with
  | nothing => exact hs
  | comparison row => exact { hs with comparisons := List.prefix_append _ _ }
  | comparability row hrefusal => exact { hs with comparabilities := List.prefix_append _ _ }
  | quality row hrefusal => exact { hs with qualities := List.prefix_append _ _ }
  | delta row => exact { hs with deltas := List.prefix_append _ _ }
  | experiment row hdraft hreason => exact { hs with experiments := .append _ _ _ }
  | experimentState id row next reason hrow hnext => exact { hs with experiments := .set hrow rfl }
  | candidate row hrefusal hstate => exact { hs with candidates := .append _ _ _ }
  | candidateState id row next hrow hguard => exact { hs with candidates := .set hrow rfl }
  | experimentLink row => exact { hs with experimentLinks := List.prefix_append _ _ }
  | promotionLink row hrefusal => exact { hs with promotionLinks := List.prefix_append _ _ }

theorem Leaves.grows (h : Leaves lib s t) : Grows s t := by
  obtain ⟨mid, events, hwrote, hevents, rfl⟩ := h
  have hgrows := hwrote.grows
  exact { hgrows with events := hgrows.events.trans hevents }

theorem Leaves.grows_of_eq {w : Except Err Answer × Tables Doc} {r : Except Err Answer}
    (hleaves : Leaves lib s w.2) (h : w = (r, t)) : Grows s t := by
  rw [h] at hleaves
  exact hleaves.grows

theorem step_grows (lib : Documents Doc) (s : Tables Doc) (op : Op Doc) :
    Grows s (step lib s op) := by
  rcases step_cases lib s op with hleaves | ⟨new, -, heq⟩
  · exact hleaves.grows
  · rw [heq]
    exact { Grows.refl s with
      bindings := List.prefix_append _ _
      strategies := List.prefix_append _ _
      efficiencies := List.prefix_append _ _
      evidence := List.prefix_append _ _ }

/-- between two moments of a run no row goes, and only the state of an experiment or of a candidate
changes -/
theorem tables_grow (lib : Documents Doc) (s : Tables Doc) (before after : List (Op Doc)) :
    Grows (Run.run (step lib) s before) (Run.run (step lib) s (before ++ after)) := by
  rw [Run.run_append]
  exact Run.inv_all (I := Grows _) (fun t op h => h.trans (step_grows lib t op)) (.refl _) after

theorem owned_grows {α : Type} {rows rows' : List α} {owner : α → OwnerId} {raises : String → Err}
    {id : ℕ} {label : String} {row : α} (h : rows <+: rows')
    (hrow : owned rows owner raises ownerId id label = .ok row) :
    owned rows' owner raises ownerId id label = .ok row := by
  obtain ⟨hget, howner⟩ := owned_ok.1 hrow
  obtain ⟨new, rfl⟩ := h
  exact owned_ok.2 ⟨(List.getElem?_append_left (List.getElem?_eq_some_iff.1 hget).1).trans hget, howner⟩

theorem ownedIf_grows {α : Type} {rows rows' : List α} {owner : α → OwnerId}
    {raises : String → Err} {id : Option ℕ} {label : String} {row : Option α} (h : rows <+: rows')
    (hrow : ownedIf rows owner raises ownerId id label = .ok row) :
    ownedIf rows' owner raises ownerId id label = .ok row := by
  cases id with
  | none => exact hrow
  | some i =>
    unfold ownedIf at hrow ⊢
    dsimp only at hrow ⊢
    cases hx : owned rows owner raises ownerId i label with
    | error e => rw [hx] at hrow; cases hrow
    | ok x =>
      rw [hx] at hrow
      rw [owned_grows h hx]
      exact hrow

theorem find?_grows {α : Type} {rows rows' : List α} {p : α → Bool} {x : α} (h : rows <+: rows')
    (hx : rows.find? p = some x) : rows'.find? p = some x := by
  obtain ⟨new, rfl⟩ := h
  rw [List.find?_append, hx]
  rfl

theorem ComparisonArgs.checked_grows {a : ComparisonArgs Doc} (h : Grows s t)
    (hchecked : a.checked s ownerId = .ok ()) : a.checked t ownerId = .ok () := by
  unfold ComparisonArgs.checked at hchecked ⊢
  obtain ⟨baseline, hbaseline, hchecked⟩ := bind_eq_ok.1 hchecked
  obtain ⟨challenger, hchallenger, hchecked⟩ := bind_eq_ok.1 hchecked
  rw [owned_grows h.bindings hbaseline, owned_grows h.bindings hchallenger]
  exact hchecked

theorem ComparabilityArgs.checked_grows {a : ComparabilityArgs Doc} (h : Grows s t)
    (hchecked : a.checked s ownerId = .ok ()) : a.checked t ownerId = .ok () := by
  unfold ComparabilityArgs.checked at hchecked ⊢
  obtain ⟨comparison, hcomparison, hchecked⟩ := bind_eq_ok.1 hchecked
  obtain ⟨evidence, hevidence, hchecked⟩ := bind_eq_ok.1 hchecked
  rw [owned_grows h.comparisons hcomparison, ownedIf_grows h.evidence hevidence]
  cases hprior : a.supersedesId with
  | none => rfl
  | some i =>
    rw [hprior] at hchecked
    dsimp only at hchecked
    split at hchecked
    · cases hchecked
    · next prior hfound =>
      have hfound' := find?_grows h.comparabilities hfound
      dsimp only [bind, Except.bind]
      rw [hfound']
      exact hchecked

theorem QualityArgs.checked_grows {a : QualityArgs} {subject : Subject} {v : VerificationState}
    (h : Grows s t) (hchecked : a.checked s ownerId = .ok (subject, v)) :
    ∃ v', a.checked t ownerId = .ok (subject, v') := by
  unfold QualityArgs.checked at hchecked ⊢
  obtain ⟨comparison, hcomparison, hchecked⟩ := bind_eq_ok.1 hchecked
  rw [owned_grows h.comparisons hcomparison]
  split at hchecked
  · cases hchecked
  · next side hside =>
    obtain ⟨binding, hbinding, hchecked⟩ := bind_eq_ok.1 hchecked
    obtain ⟨evidence, hevidence, hchecked⟩ := bind_eq_ok.1 hchecked
    obtain ⟨rfl, -⟩ := Prod.mk.inj (Except.ok.inj hchecked)
    refine ⟨verificationState t ownerId (comparison.side side), ?_⟩
    show (owned t.bindings _ _ ownerId (comparison.side side) _ >>= _) = _
    rw [owned_grows h.bindings hbinding]
    show (ownedIf t.evidence _ _ ownerId a.evidenceId _ >>= _) = _
    rw [ownedIf_grows h.evidence hevidence]
    rfl

/-- the obligations are satisfied where there are some and all have passed -/
def VerificationState.Sound (v : VerificationState) : Prop :=
  v.obligationsSatisfied = decide (v.required ≠ 0 ∧ v.passed = v.required)

theorem verificationState_sound (s : Tables Doc) (ownerId : OwnerId) (i : BindingId) :
    (verificationState s ownerId i).Sound := by
  unfold VerificationState.Sound verificationState
  simp only [ne_eq, List.length_eq_zero_iff]

theorem QualityArgs.checked_sound {a : QualityArgs} {subject : Subject} {v : VerificationState}
    (hchecked : a.checked s ownerId = .ok (subject, v)) : v.Sound := by
  unfold QualityArgs.checked at hchecked
  obtain ⟨comparison, -, hchecked⟩ := bind_eq_ok.1 hchecked
  split at hchecked
  · cases hchecked
  · obtain ⟨binding, -, hchecked⟩ := bind_eq_ok.1 hchecked
    obtain ⟨evidence, -, hchecked⟩ := bind_eq_ok.1 hchecked
    obtain ⟨-, rfl⟩ := Prod.mk.inj (Except.ok.inj hchecked)
    exact verificationState_sound s ownerId _

theorem DeltaArgs.checked_grows {a : DeltaArgs} {row : EfficiencyDelta} (h : Grows s t)
    (hchecked : a.checked s ownerId = .ok row) : a.checked t ownerId = .ok row := by
  unfold DeltaArgs.checked at hchecked ⊢
  obtain ⟨comparison, hcomparison, hchecked⟩ := bind_eq_ok.1 hchecked
  obtain ⟨baseline, hbaseline, hchecked⟩ := bind_eq_ok.1 hchecked
  obtain ⟨challenger, hchallenger, hchecked⟩ := bind_eq_ok.1 hchecked
  rw [owned_grows h.comparisons hcomparison, owned_grows h.efficiencies hbaseline,
    owned_grows h.efficiencies hchallenger]
  exact hchecked

theorem ExperimentArgs.checked_grows {a : ExperimentArgs Doc} (h : Grows s t)
    (hchecked : a.checked s ownerId = .ok ()) : a.checked t ownerId = .ok () := by
  unfold ExperimentArgs.checked at hchecked ⊢
  obtain ⟨baseline, hbaseline, hchecked⟩ := bind_eq_ok.1 hchecked
  obtain ⟨challenger, hchallenger, hchecked⟩ := bind_eq_ok.1 hchecked
  rw [owned_grows h.strategies hbaseline, owned_grows h.strategies hchallenger]
  exact hchecked

theorem CandidateArgs.checked_grows {a : CandidateArgs Doc} (h : Grows s t)
    (hchecked : a.checked s ownerId = .ok ()) : a.checked t ownerId = .ok () := by
  unfold CandidateArgs.checked at hchecked ⊢
  obtain ⟨strategy, hstrategy, hchecked⟩ := bind_eq_ok.1 hchecked
  obtain ⟨baseline, hbaseline, hchecked⟩ := bind_eq_ok.1 hchecked
  rw [owned_grows h.strategies hstrategy, owned_grows h.strategies hbaseline]
  exact hchecked

theorem Comparison.strategies_grows {c : Comparison Doc} {strategies : StrategyId × StrategyId}
    (h : Grows s t) (hs : c.strategies s ownerId = .ok strategies) :
    c.strategies t ownerId = .ok strategies := by
  unfold Comparison.strategies at hs ⊢
  obtain ⟨baseline, hbaseline, hs⟩ := bind_eq_ok.1 hs
  obtain ⟨challenger, hchallenger, hs⟩ := bind_eq_ok.1 hs
  rw [owned_grows h.bindings hbaseline, owned_grows h.bindings hchallenger]
  exact hs

theorem linkChecked_grows {comparisonId : ComparisonId} {experimentId : Option ExperimentId}
    {candidateId : Option CandidateId} {parent : Parent} (h : Grows s t)
    (hchecked : linkChecked s ownerId comparisonId experimentId candidateId = .ok parent) :
    linkChecked t ownerId comparisonId experimentId candidateId = .ok parent := by
  unfold linkChecked at hchecked ⊢
  obtain ⟨comparison, hcomparison, hchecked⟩ := bind_eq_ok.1 hchecked
  rw [owned_grows h.comparisons hcomparison]
  cases experimentId with
  | none =>
    cases candidateId with
    | none => exact hchecked
    | some id =>
      obtain ⟨row, hrow, hchecked⟩ := bind_eq_ok.1 hchecked
      obtain ⟨strategies, hstrategies, hchecked⟩ := bind_eq_ok.1 hchecked
      obtain ⟨hget, howner⟩ := owned_ok.1 hrow
      obtain ⟨row', hget', hsame⟩ := h.candidates id row hget
      have howner' : row'.ownerId = ownerId := (congrArg Candidate.ownerId hsame).trans howner
      have hbaseline : row'.baselineStrategyId = row.baselineStrategyId :=
        (congrArg Candidate.baselineStrategyId hsame :)
      have hstrategy : row'.strategyId = row.strategyId := (congrArg Candidate.strategyId hsame :)
      show (owned t.candidates _ _ ownerId id _ >>= _) = _
      rw [owned_ok.2 ⟨hget', howner'⟩]
      show (comparison.strategies t ownerId >>= _) = _
      rw [Comparison.strategies_grows h hstrategies]
      show (if strategies ≠ (row'.baselineStrategyId, row'.strategyId) then _ else _) = _
      rw [hbaseline, hstrategy]
      exact hchecked
  | some id =>
    cases candidateId with
    | some id' => exact hchecked
    | none =>
      obtain ⟨row, hrow, hchecked⟩ := bind_eq_ok.1 hchecked
      obtain ⟨strategies, hstrategies, hchecked⟩ := bind_eq_ok.1 hchecked
      obtain ⟨hget, howner⟩ := owned_ok.1 hrow
      obtain ⟨row', hget', hsame⟩ := h.experiments id row hget
      have howner' : row'.ownerId = ownerId := (congrArg Experiment.ownerId hsame).trans howner
      have hbaseline : row'.baselineStrategyId = row.baselineStrategyId :=
        (congrArg Experiment.baselineStrategyId hsame :)
      have hchallenger : row'.challengerStrategyId = row.challengerStrategyId :=
        (congrArg Experiment.challengerStrategyId hsame :)
      show (owned t.experiments _ _ ownerId id _ >>= _) = _
      rw [owned_ok.2 ⟨hget', howner'⟩]
      show (comparison.strategies t ownerId >>= _) = _
      rw [Comparison.strategies_grows h hstrategies]
      show (if strategies ≠ (row'.baselineStrategyId, row'.challengerStrategyId) then _ else _) = _
      rw [hbaseline, hchallenger]
      exact hchecked

/-! ## what is recorded -/

/-- what the repetition of a call that returned finds -/
def Recorded (lib : Documents Doc) (s : Tables Doc) (d : Done Doc) : Prop :=
  match d.call with
  | .createComparison a => a.checked s d.ownerId = .ok () ∧
    ∃ i, d.answer = .comparison i ∧
      lookup Comparison.key s.comparisons (d.ownerId, a.idempotencyKey) = some (i, a.row lib d.ownerId)
  | .assessComparability a => a.checked s d.ownerId = .ok () ∧
    ∃ i stamp, d.answer = .comparability i ∧
      lookup ComparabilityAssessment.key s.comparabilities (d.ownerId, a.idempotencyKey) =
        some (i, a.row lib d.ownerId stamp)
  | .assessQuality a => ∃ subject v, a.checked s d.ownerId = .ok (subject, v) ∧
    ∃ i stamp v, d.answer = .quality i ∧ v.Sound ∧
      lookup QualityAssessment.key s.qualities (d.ownerId, a.idempotencyKey) =
        some (i, a.row d.ownerId stamp subject v)
  | .recordEfficiencyDelta a => ∃ row, a.checked s d.ownerId = .ok row ∧
    ∃ i, d.answer = .delta i ∧
      lookup EfficiencyDelta.key s.deltas (d.ownerId, a.idempotencyKey) = some (i, row)
  | .createExperiment a => a.checked s d.ownerId = .ok () ∧
    ∃ i row e, d.answer = .experiment i ∧
      lookup Experiment.key s.experiments (d.ownerId, a.idempotencyKey) = some (i, row) ∧
      row.definition = a.row lib d.ownerId ∧
      lookup Event.key s.events (a.created d.ownerId i).key = some (e, a.created d.ownerId i)
  | .createPromotionCandidate a => a.checked s d.ownerId = .ok () ∧
    ∃ i row e, d.answer = .candidate i ∧
      lookup Candidate.key s.candidates (d.ownerId, a.idempotencyKey) = some (i, row) ∧
      row.definition = a.row lib d.ownerId ∧
      lookup Event.key s.events (a.created d.ownerId i).key = some (e, a.created d.ownerId i)
  | .linkComparison comparisonId key experimentId candidateId =>
    ∃ parent, linkChecked s d.ownerId comparisonId experimentId candidateId = .ok parent ∧
      (∃ e, lookup Event.key s.events (d.ownerId, key ++ ":event") =
        some (e, linkEvent d.ownerId parent comparisonId key)) ∧
      match parent with
      | .experiment id => ∃ i, d.answer = .experimentLink i ∧
        lookup Link.key s.experimentLinks (d.ownerId, key) =
          some (i, ⟨d.ownerId, id, comparisonId, key⟩)
      | .candidate id => ∃ i, d.answer = .promotionLink i ∧
        lookup Link.key s.promotionLinks (d.ownerId, key) =
          some (i, ⟨d.ownerId, id, comparisonId, key⟩)
  | .transitionExperiment id toState key reason => ∃ e old next,
    next ∈ experimentTransitions old ∧ next.name = toState ∧
      d.answer = .experimentEvent id e ∧
      lookup Event.key s.events (d.ownerId, key) =
        some (e, experimentChanged d.ownerId id old next reason key)
  | .transitionCandidate id toState key => ∃ e old next,
    next ∈ candidateTransitions old ∧ next.name = toState ∧
      d.answer = .candidateEvent id e ∧
      lookup Event.key s.events (d.ownerId, key) =
        some (e, candidateChanged d.ownerId id old next key)

theorem Experiment.keeps_key {rows rows' : List (Experiment Doc)}
    (h : Keyed.Keeps Experiment.definition rows rows') : Keyed.Keeps Experiment.key rows rows' :=
  h.comp Experiment.key

theorem Candidate.keeps_key {rows rows' : List (Candidate Doc)}
    (h : Keyed.Keeps Candidate.definition rows rows') : Keyed.Keeps Candidate.key rows rows' :=
  h.comp Candidate.key

/-- **what was recorded stays recorded** -/
theorem Recorded.mono {d : Done Doc} (h : Recorded lib s d) (hgrows : Grows s t) :
    Recorded lib t d := by
  obtain ⟨ownerId, call, answer⟩ := d
  cases call with
  | createComparison a =>
    obtain ⟨hchecked, i, hanswer, hfound⟩ := h
    exact ⟨ComparisonArgs.checked_grows hgrows hchecked, i, hanswer, lookup_extend hfound hgrows.comparisons⟩
  | assessComparability a =>
    obtain ⟨hchecked, i, stamp, hanswer, hfound⟩ := h
    exact ⟨ComparabilityArgs.checked_grows hgrows hchecked, i, stamp, hanswer,
      lookup_extend hfound hgrows.comparabilities⟩
  | assessQuality a =>
    obtain ⟨subject, v, hchecked, i, stamp, w, hanswer, hsound, hfound⟩ := h
    obtain ⟨v', hchecked'⟩ := QualityArgs.checked_grows hgrows hchecked
    exact ⟨subject, v', hchecked', i, stamp, w, hanswer, hsound,
      lookup_extend hfound hgrows.qualities⟩
  | recordEfficiencyDelta a =>
    obtain ⟨row, hchecked, i, hanswer, hfound⟩ := h
    exact ⟨row, DeltaArgs.checked_grows hgrows hchecked, i, hanswer,
      lookup_extend hfound hgrows.deltas⟩
  | createExperiment a =>
    obtain ⟨hchecked, i, row, e, hanswer, hfound, hrow, hevent⟩ := h
    obtain ⟨row', hget, hfound'⟩ := lookup_grows hfound (Experiment.keeps_key hgrows.experiments)
    obtain ⟨row'', hget', hsame⟩ := hgrows.experiments i row (lookup_eq_some.1 hfound).1
    obtain rfl := Option.some.inj (hget.symm.trans hget')
    exact ⟨ExperimentArgs.checked_grows hgrows hchecked, i, row', e, hanswer, hfound',
      hsame.trans hrow, lookup_extend hevent hgrows.events⟩
  | createPromotionCandidate a =>
    obtain ⟨hchecked, i, row, e, hanswer, hfound, hrow, hevent⟩ := h
    obtain ⟨row', hget, hfound'⟩ := lookup_grows hfound (Candidate.keeps_key hgrows.candidates)
    obtain ⟨row'', hget', hsame⟩ := hgrows.candidates i row (lookup_eq_some.1 hfound).1
    obtain rfl := Option.some.inj (hget.symm.trans hget')
    exact ⟨CandidateArgs.checked_grows hgrows hchecked, i, row', e, hanswer, hfound',
      hsame.trans hrow, lookup_extend hevent hgrows.events⟩
  | linkComparison comparisonId key experimentId candidateId =>
    obtain ⟨parent, hchecked, ⟨e, hevent⟩, hlink⟩ := h
    refine ⟨parent, linkChecked_grows hgrows hchecked, ⟨e, lookup_extend hevent hgrows.events⟩, ?_⟩
    cases parent with
    | experiment id =>
      obtain ⟨i, hanswer, hfound⟩ := hlink
      exact ⟨i, hanswer, lookup_extend hfound hgrows.experimentLinks⟩
    | candidate id =>
      obtain ⟨i, hanswer, hfound⟩ := hlink
      exact ⟨i, hanswer, lookup_extend hfound hgrows.promotionLinks⟩
  | transitionExperiment id toState key reason | transitionCandidate id toState key =>
    obtain ⟨e, old, next, hnext, hname, hanswer, hevent⟩ := h
    exact ⟨e, old, next, hnext, hname, hanswer, lookup_extend hevent hgrows.events⟩

/-! ## the keys -/

section
variable {α : Type} {key : α → OwnerId × String} {columns : α → α → List (String × Bool)}
  {refusal : α → Option Err} {rows rows' : List α} {x values : α} {i : ℕ}

theorem idempotent_found (h : lookup key rows (key values) = some (i, x))
    (hcolumns : ∀ p ∈ columns x values, p.2 = true) :
    idempotent key columns refusal rows values = .ok (i, rows) :=
  idempotent_ok.2 (.inl ⟨x, h, hcolumns, rfl⟩)

theorem idempotent_refused (h : lookup key rows (key values) = some (i, x))
    (hcolumns : ¬ ∀ p ∈ columns x values, p.2 = true) :
    ∃ e, idempotent key columns refusal rows values = .error e := by
  cases hrows : idempotent key columns refusal rows values with
  | error e => exact ⟨e, rfl⟩
  | ok r =>
    rcases idempotent_ok.1 hrows with ⟨y, hfound, hy, -⟩ | ⟨hnone, -⟩
    · rw [h] at hfound
      obtain ⟨-, rfl⟩ := Prod.mk.inj (Option.some.inj hfound)
      exact absurd hy hcolumns
    · rw [h] at hnone
      cases hnone

/-- the row under the key of a call that goes through agrees with its values, or is new -/
theorem idempotent_agrees (h : idempotent key columns refusal rows values = .ok (i, rows')) :
    ∃ x, lookup key rows' (key values) = some (i, x) ∧ key x = key values ∧
      ((∀ p ∈ columns x values, p.2 = true) ∨ x = values) := by
  rcases idempotent_ok.1 h with ⟨x, hfound, hcolumns, rfl⟩ | ⟨hnone, -, rfl, rfl⟩
  · exact ⟨x, hfound, (lookup_eq_some.1 hfound).2.1, .inl hcolumns⟩
  · exact ⟨values, lookup_append_self hnone rfl, rfl, .inr rfl⟩

end

theorem Comparison.columns_iff {x v : Comparison Doc} (hkey : x.key = v.key) :
    (∀ p ∈ x.columns v, p.2 = true) ↔ x = v := by
  obtain ⟨howner, hidem⟩ := Prod.mk.inj hkey
  simp only [columns, List.forall_mem_cons, decide_eq_true_eq]
  cases x
  cases v
  simp_all
  tauto

theorem ComparabilityAssessment.columns_iff {x v : ComparabilityAssessment Doc}
    (hkey : x.key = v.key) : (∀ p ∈ x.columns v, p.2 = true) ↔
      x = { v with id := x.id, createdAt := x.createdAt } := by
  obtain ⟨howner, hidem⟩ := Prod.mk.inj hkey
  simp only [columns, List.forall_mem_cons, decide_eq_true_eq]
  cases x
  cases v
  simp_all
  tauto

theorem QualityAssessment.columns_iff {x v : QualityAssessment} (hkey : x.key = v.key) :
    (∀ p ∈ x.columns v, p.2 = true) ↔ x = { v with id := x.id, createdAt := x.createdAt } := by
  obtain ⟨howner, hidem⟩ := Prod.mk.inj hkey
  simp only [columns, List.forall_mem_cons, decide_eq_true_eq]
  cases x
  cases v
  simp_all
  tauto

theorem EfficiencyDelta.columns_iff {x v : EfficiencyDelta} (hkey : x.key = v.key) :
    (∀ p ∈ x.columns v, p.2 = true) ↔ x = v := by
  obtain ⟨howner, hidem⟩ := Prod.mk.inj hkey
  simp only [columns, List.forall_mem_cons, decide_eq_true_eq]
  cases x
  cases v
  simp_all
  tauto

theorem Experiment.columns_iff {x v : Experiment Doc} (hkey : x.key = v.key) :
    (∀ p ∈ x.columns v, p.2 = true) ↔ x = v := by
  obtain ⟨howner, hidem⟩ := Prod.mk.inj hkey
  simp only [columns, List.forall_mem_cons, decide_eq_true_eq]
  cases x
  cases v
  simp_all
  tauto

theorem Candidate.columns_iff {x v : Candidate Doc} (hkey : x.key = v.key) :
    (∀ p ∈ x.columns v, p.2 = true) ↔ x = v := by
  obtain ⟨howner, hidem⟩ := Prod.mk.inj hkey
  simp only [columns, List.forall_mem_cons, decide_eq_true_eq]
  cases x
  cases v
  simp_all
  tauto

theorem Link.columns_iff {x v : Link} (hkey : x.key = v.key) :
    (∀ p ∈ x.columns v, p.2 = true) ↔ x = v := by
  obtain ⟨howner, hidem⟩ := Prod.mk.inj hkey
  simp only [columns, List.forall_mem_cons, decide_eq_true_eq]
  cases x
  cases v
  simp_all
  tauto

theorem Event.columns_iff {x v : Event} (hkey : x.key = v.key) :
    (∀ p ∈ x.columns v, p.2 = true) ↔ x = v := by
  obtain ⟨howner, hidem⟩ := Prod.mk.inj hkey
  simp only [columns, List.forall_mem_cons, decide_eq_true_eq]
  cases x
  cases v
  simp_all
  tauto

theorem event_found {before : Tables Doc} {row : Event} {answer : EventId → Answer} {e : EventId}
    (h : lookup Event.key mid.events row.key = some (e, row)) :
    before.event mid row answer = (.ok (answer e), mid) := by
  have hcolumns := (Event.columns_iff (x := row) (v := row) rfl).2 rfl
  unfold Tables.event
  rw [h]
  dsimp only
  rw [replay_ok.2 ⟨same_eq_none.2 hcolumns, rfl⟩]

theorem event_refused {before : Tables Doc} {row x : Event} {answer : EventId → Answer} {e : EventId}
    (h : lookup Event.key mid.events row.key = some (e, x)) (hne : x ≠ row) :
    ∃ err, before.event mid row answer = (.error err, mid) := by
  have hkey : x.key = row.key := (lookup_eq_some.1 h).2.1
  unfold Tables.event
  rw [h]
  dsimp only
  cases hreplay : replay .strategyEvaluation (x.columns row) (answer e) with
  | error err => exact ⟨err, rfl⟩
  | ok r =>
    have hcolumns := same_eq_none.1 (replay_ok.1 hreplay).1
    exact absurd ((Event.columns_iff hkey).1 hcolumns) hne

/-- the event of a call that returns is there -/
theorem event_recorded {before : Tables Doc} {row : Event} {answer : EventId → Answer} {r : Answer}
    (h : (before.event mid row answer).1 = .ok r) : ∃ e events, r = answer e ∧
      (before.event mid row answer).2 = { mid with events := events } ∧
      lookup Event.key events row.key = some (e, row) := by
  unfold Tables.event at h ⊢
  cases hfound : lookup Event.key mid.events row.key with
  | some found =>
    obtain ⟨e, x⟩ := found
    rw [hfound] at h
    obtain ⟨hsame, hanswer⟩ := replay_ok.1 h
    have hkey : x.key = row.key := (lookup_eq_some.1 hfound).2.1
    obtain rfl := (Event.columns_iff hkey).1 (same_eq_none.1 hsame)
    exact ⟨e, mid.events, hanswer.symm, rfl, hfound⟩
  | none =>
    rw [hfound] at h
    dsimp only at h ⊢
    by_cases hlong : tooLong row.idempotencyKey = true
    · rw [if_pos hlong] at h
      cases h
    · rw [if_neg hlong] at h ⊢
      exact ⟨_, _, (Except.ok.inj h).symm, rfl, lookup_append_self hfound rfl⟩

/-! ## a call that returns -/

theorem createComparison_recorded {a : ComparisonArgs Doc} {r : Answer}
    (h : createComparison lib s ownerId a = (.ok r, t)) :
    Recorded lib t ⟨ownerId, .createComparison a, r⟩ := by
  have hleaves : Leaves lib s (createComparison lib s ownerId a).2 :=
    createComparison_leaves a
  have hgrows : Grows s t := hleaves.grows_of_eq h
  unfold createComparison at h
  split at h
  · cases h
  next hchecked =>
  split at h
  · cases h
  next i rows hrows =>
  cases h
  obtain ⟨x, hfound, hkey, hx⟩ := idempotent_agrees hrows
  obtain rfl : x = a.row lib ownerId := hx.elim (Comparison.columns_iff hkey).1 id
  exact ⟨ComparisonArgs.checked_grows hgrows hchecked, i, rfl, hfound⟩

theorem assessComparability_recorded {a : ComparabilityArgs Doc} {r : Answer}
    (h : assessComparability lib s ownerId stamp a = (.ok r, t)) :
    Recorded lib t ⟨ownerId, .assessComparability a, r⟩ := by
  have hleaves : Leaves lib s (assessComparability lib s ownerId stamp a).2 :=
    assessComparability_leaves a
  have hgrows : Grows s t := hleaves.grows_of_eq h
  unfold assessComparability at h
  split at h
  · cases h
  next hchecked =>
  split at h
  · cases h
  next i rows hrows =>
  cases h
  obtain ⟨x, hfound, hkey, hx⟩ := idempotent_agrees hrows
  have hrow : x = a.row lib ownerId ⟨x.id, x.createdAt⟩ :=
    hx.elim (ComparabilityAssessment.columns_iff hkey).1 fun heq => by rw [heq]; rfl
  rw [hrow] at hfound
  exact ⟨ComparabilityArgs.checked_grows hgrows hchecked, i, _, rfl, hfound⟩

theorem assessQuality_recorded {a : QualityArgs} {r : Answer}
    (h : assessQuality s ownerId stamp a = (.ok r, t)) :
    Recorded lib t ⟨ownerId, .assessQuality a, r⟩ := by
  have hleaves : Leaves lib s (assessQuality s ownerId stamp a).2 :=
    assessQuality_leaves a
  have hgrows : Grows s t := hleaves.grows_of_eq h
  unfold assessQuality at h
  split at h
  · cases h
  next subject v hchecked =>
  split at h
  · cases h
  next i rows hrows =>
  cases h
  obtain ⟨x, hfound, hkey, hx⟩ := idempotent_agrees hrows
  have hrow : x = a.row ownerId ⟨x.id, x.createdAt⟩ subject v :=
    hx.elim (QualityAssessment.columns_iff hkey).1 fun heq => by rw [heq]; rfl
  rw [hrow] at hfound
  obtain ⟨v', hchecked'⟩ := QualityArgs.checked_grows hgrows hchecked
  exact ⟨subject, v', hchecked', i, _, v, rfl, QualityArgs.checked_sound hchecked, hfound⟩

theorem DeltaArgs.checked_eq {a : DeltaArgs} {row : EfficiencyDelta}
    (hchecked : a.checked s ownerId = .ok row) : row.ownerId = ownerId ∧
      (⟨row.comparisonId, row.baselineObservationId, row.challengerObservationId,
        row.idempotencyKey⟩ : DeltaArgs) = a := by
  unfold DeltaArgs.checked at hchecked
  obtain ⟨comparison, -, hchecked⟩ := bind_eq_ok.1 hchecked
  obtain ⟨baseline, -, hchecked⟩ := bind_eq_ok.1 hchecked
  obtain ⟨challenger, -, hchecked⟩ := bind_eq_ok.1 hchecked
  split_ifs at hchecked
  cases hchecked
  exact ⟨rfl, rfl⟩

theorem recordEfficiencyDelta_recorded {a : DeltaArgs} {r : Answer}
    (h : recordEfficiencyDelta s ownerId a = (.ok r, t)) :
    Recorded lib t ⟨ownerId, .recordEfficiencyDelta a, r⟩ := by
  have hleaves : Leaves lib s (recordEfficiencyDelta s ownerId a).2 :=
    recordEfficiencyDelta_leaves a
  have hgrows : Grows s t := hleaves.grows_of_eq h
  unfold recordEfficiencyDelta at h
  split at h
  · cases h
  next values hchecked =>
  split at h
  · cases h
  next i rows hrows =>
  cases h
  obtain ⟨x, hfound, hkey, hx⟩ := idempotent_agrees hrows
  obtain rfl : x = values := hx.elim (EfficiencyDelta.columns_iff hkey).1 id
  obtain ⟨howner, hargs⟩ := DeltaArgs.checked_eq hchecked
  have hvalues : x.key = (ownerId, a.idempotencyKey) :=
    Prod.ext howner (congrArg DeltaArgs.idempotencyKey hargs)
  rw [hvalues] at hfound
  exact ⟨x, DeltaArgs.checked_grows hgrows hchecked, i, rfl, hfound⟩

theorem createExperiment_recorded {a : ExperimentArgs Doc} {r : Answer}
    (h : createExperiment lib s ownerId a = (.ok r, t)) :
    Recorded lib t ⟨ownerId, .createExperiment a, r⟩ := by
  have hleaves : Leaves lib s (createExperiment lib s ownerId a).2 :=
    createExperiment_leaves a
  have hgrows : Grows s t := hleaves.grows_of_eq h
  unfold createExperiment at h
  split at h
  · cases h
  next hchecked =>
  split at h
  · cases h
  next i rows hrows =>
  obtain ⟨e, events, rfl, htables, hevent⟩ := event_recorded (congrArg Prod.fst h)
  rw [h] at htables
  obtain rfl : t = _ := htables
  obtain ⟨x, hfound, hkey, hx⟩ := idempotent_agrees hrows
  obtain rfl : x = a.row lib ownerId := hx.elim (Experiment.columns_iff hkey).1 id
  exact ⟨ExperimentArgs.checked_grows hgrows hchecked, i, _, e, rfl, hfound, rfl, hevent⟩

theorem createPromotionCandidate_recorded {a : CandidateArgs Doc} {r : Answer}
    (h : createPromotionCandidate lib s ownerId a = (.ok r, t)) :
    Recorded lib t ⟨ownerId, .createPromotionCandidate a, r⟩ := by
  have hleaves : Leaves lib s (createPromotionCandidate lib s ownerId a).2 :=
    createPromotionCandidate_leaves a
  have hgrows : Grows s t := hleaves.grows_of_eq h
  unfold createPromotionCandidate at h
  split at h
  · cases h
  next hchecked =>
  split at h
  · cases h
  next i rows hrows =>
  obtain ⟨e, events, rfl, htables, hevent⟩ := event_recorded (congrArg Prod.fst h)
  rw [h] at htables
  obtain rfl : t = _ := htables
  obtain ⟨x, hfound, hkey, hx⟩ := idempotent_agrees hrows
  obtain rfl : x = a.row lib ownerId := hx.elim (Candidate.columns_iff hkey).1 id
  exact ⟨CandidateArgs.checked_grows hgrows hchecked, i, _, e, rfl, hfound, rfl, hevent⟩

theorem linkComparison_recorded {comparisonId : ComparisonId} {key : String}
    {experimentId : Option ExperimentId} {candidateId : Option CandidateId} {r : Answer}
    (h : linkComparison s ownerId comparisonId key experimentId candidateId = (.ok r, t)) :
    Recorded lib t ⟨ownerId, .linkComparison comparisonId key experimentId candidateId, r⟩ := by
  have hleaves : Leaves lib s (linkComparison s ownerId comparisonId key experimentId candidateId).2 :=
    linkComparison_leaves comparisonId key experimentId candidateId
  have hgrows : Grows s t := hleaves.grows_of_eq h
  unfold linkComparison at h
  split at h
  · cases h
  · next id hchecked =>
    split at h
    · cases h
    next i rows hrows =>
    obtain ⟨e, events, rfl, htables, hevent⟩ := event_recorded (congrArg Prod.fst h)
    rw [h] at htables
    obtain rfl : t = _ := htables
    obtain ⟨x, hfound, hkey, hx⟩ := idempotent_agrees hrows
    obtain rfl : x = ⟨ownerId, id, comparisonId, key⟩ := hx.elim (Link.columns_iff hkey).1 fun h => h
    exact ⟨_, linkChecked_grows hgrows hchecked, ⟨e, hevent⟩, i, rfl, hfound⟩
  · next id hchecked =>
    split at h
    · cases h
    next i rows hrows =>
    obtain ⟨e, events, rfl, htables, hevent⟩ := event_recorded (congrArg Prod.fst h)
    rw [h] at htables
    obtain rfl : t = _ := htables
    obtain ⟨x, hfound, hkey, hx⟩ := idempotent_agrees hrows
    obtain rfl : x = ⟨ownerId, id, comparisonId, key⟩ := hx.elim (Link.columns_iff hkey).1 fun h => h
    exact ⟨_, linkChecked_grows hgrows hchecked, ⟨e, hevent⟩, i, rfl, hfound⟩

theorem transitionExperiment_recorded {id : ExperimentId} {toState key : String}
    {reason : Option String} {r : Answer}
    (h : transitionExperiment s ownerId id toState key reason = (.ok r, t)) :
    Recorded lib t ⟨ownerId, .transitionExperiment id toState key reason, r⟩ := by
  unfold transitionExperiment at h
  split at h
  · cases h
  next row hrow =>
  split at h
  · cases h
  next next hnext =>
  obtain ⟨e, events, rfl, htables, hevent⟩ := event_recorded (congrArg Prod.fst h)
  rw [h] at htables
  obtain rfl : t = _ := htables
  have hname : next.name = toState := by simpa using List.find?_some hnext
  exact ⟨e, row.state, next, List.mem_of_find?_eq_some hnext, hname, rfl, hevent⟩

theorem transitionCandidate_recorded {id : CandidateId} {toState key : String} {r : Answer}
    (h : transitionCandidate s ownerId id toState key = (.ok r, t)) :
    Recorded lib t ⟨ownerId, .transitionCandidate id toState key, r⟩ := by
  unfold transitionCandidate at h
  split at h
  · cases h
  next row hrow =>
  split at h
  · cases h
  next next hnext =>
  split at h
  · cases h
  dsimp only at h
  have hwritten := guarded_ok h
  obtain ⟨e, events, rfl, htables, hevent⟩ := event_recorded (congrArg Prod.fst hwritten)
  rw [hwritten] at htables
  obtain rfl : t = _ := htables
  have hname : next.name = toState := by simpa using List.find?_some hnext
  exact ⟨e, row.state, next, List.mem_of_find?_eq_some hnext, hname, rfl, hevent⟩

theorem exec_recorded {call : Call Doc} {r : Answer}
    (h : call.exec lib s ownerId stamp = (.ok r, t)) : Recorded lib t ⟨ownerId, call, r⟩ := by
  cases call with
  | createComparison a => exact createComparison_recorded h
  | assessComparability a => exact assessComparability_recorded h
  | assessQuality a => exact assessQuality_recorded h
  | recordEfficiencyDelta a => exact recordEfficiencyDelta_recorded h
  | createExperiment a => exact createExperiment_recorded h
  | transitionExperiment id toState key reason => exact transitionExperiment_recorded h
  | createPromotionCandidate a => exact createPromotionCandidate_recorded h
  | linkComparison comparisonId key experimentId candidateId => exact linkComparison_recorded h
  | transitionCandidate id toState key => exact transitionCandidate_recorded h

end LifeAI.Strategy
