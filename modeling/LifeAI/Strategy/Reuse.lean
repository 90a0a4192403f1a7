import LifeAI.Lib.History
import LifeAI.Strategy.Replay

/-!
# Calls that reuse a key

* `Reuses`   another call of the kind, under the key of a call that returned;
* `clashes`  it is told apart before it writes;
* `Recorded.refused_iff`   it raises and changes nothing exactly when it clashes;
* `calls_replay_iff`   **in every run, a call that returned replays exactly when it is steady, and another
                       call under its key is refused exactly when it clashes**.
-/

set_option linter.unusedSectionVars false

namespace LifeAI.Strategy

open Keyed
open Synthesis (owned owned_ok ownedIf same same_eq_none replay replay_ok tooLong)

variable {Doc : Type} [DecidableEq Doc]

inductive Kind where
  | comparison | comparability | quality | delta | experiment | candidate | link | transition
  deriving DecidableEq

namespace Call

def kind : Call Doc → Kind
  | .createComparison _ => .comparison
  | .assessComparability _ => .comparability
  | .assessQuality _ => .quality
  | .recordEfficiencyDelta _ => .delta
  | .createExperiment _ => .experiment
  | .createPromotionCandidate _ => .candidate
  | .linkComparison .. => .link
  | .transitionExperiment .. | .transitionCandidate .. => .transition

def key : Call Doc → String
  | .createComparison a => a.idempotencyKey
  | .assessComparability a => a.idempotencyKey
  | .assessQuality a => a.idempotencyKey
  | .recordEfficiencyDelta a => a.idempotencyKey
  | .createExperiment a => a.idempotencyKey
  | .createPromotionCandidate a => a.idempotencyKey
  | .linkComparison _ key _ _ | .transitionExperiment _ _ key _ | .transitionCandidate _ _ key => key

/-- the call with `{}` and `[]` for what is left out -/
def filled (lib : Documents Doc) : Call Doc → Call Doc
  | .createComparison a => .createComparison { a with provenance := some (lib.orEmpty a.provenance) }
  | .assessComparability a => .assessComparability
    { a with dimensions := some (lib.orEmpty a.dimensions), reasons := some (a.reasons.getD []) }
  | .createExperiment a => .createExperiment
    { a with
      qualityInvariants := some (a.qualityInvariants.getD [])
      scope := some (lib.orEmpty a.scope)
      applicability := some (lib.orEmpty a.applicability)
      provenance := some (lib.orEmpty a.provenance) }
  | .createPromotionCandidate a => .createPromotionCandidate
    { a with
      applicableContext := some (lib.orEmpty a.applicableContext)
      knownTradeoffs := some (a.knownTradeoffs.getD [])
      provenance := some (lib.orEmpty a.provenance) }
  | c => c

end Call

/-- another call of the kind that reuses the key -/
def Reuses (d : Done Doc) (c : Call Doc) : Prop :=
  c ≠ d.call ∧ c.kind = d.call.kind ∧ c.key = d.call.key

/-- the call would add a link -/
def addsLink (s : Tables Doc) (ownerId : OwnerId) (comparisonId : ComparisonId) (key : String)
    (experimentId : Option ExperimentId) (candidateId : Option CandidateId) : Bool :=
  let adds (pairs : String) (rows : List Link) (id : ℕ) : Bool :=
    (lookup Link.key rows (ownerId, key)).isNone &&
      (Link.refusal pairs rows ⟨ownerId, id, comparisonId, key⟩).isNone
  match linkChecked s ownerId comparisonId experimentId candidateId with
  | .error _ => false
  | .ok (.experiment id) => adds "uq_strategy_experiment_comparisons_pair" s.experimentLinks id
  | .ok (.candidate id) => adds "uq_strategy_promotion_comparisons_pair" s.promotionLinks id

/-- the call would change the state of a row -/
def moves (s : Tables Doc) (ownerId : OwnerId) : Call Doc → Bool
  | .transitionExperiment id toState _ _ => s.experiments[id]?.any fun row =>
    row.ownerId = ownerId ∧ (experimentTransitions row.state).any (·.name = toState)
  | .transitionCandidate id toState _ => s.candidates[id]?.any fun row =>
    row.ownerId = ownerId ∧ ((candidateTransitions row.state).find? (·.name = toState)).any
      fun next => (next = .approved → (summaryOf s ownerId id row).promotable) ∧
        candidateGuard s id row { row with state := next } = none
  | _ => false

/-- a call that reuses the key of an earlier one is told apart before it writes -/
def clashes (lib : Documents Doc) (s : Tables Doc) (d : Done Doc) (c : Call Doc) : Bool :=
  match c with
  | .linkComparison comparisonId key experimentId candidateId =>
    ! addsLink s d.ownerId comparisonId key experimentId candidateId
  | .transitionExperiment .. | .transitionCandidate .. => ! moves s d.ownerId c
  | _ => c.filled lib ≠ d.call.filled lib || ! steady s d

/-- a call that returns, and its answer -/
def answered (lib : Documents Doc) (s : Tables Doc) : Op Doc → Option (Done Doc)
  | .call ownerId c stamp _ =>
    match c.exec lib s ownerId stamp with
    | (.ok r, _) => some ⟨ownerId, c, r⟩
    | _ => none
  | .elsewhere _ => none

/-- the step that keeps the calls that returned -/
def answering (lib : Documents Doc) :
    Tables Doc × List (Done Doc) → Op Doc → Tables Doc × List (Done Doc) :=
  History.recorded (step lib) (answered lib)

variable {lib : Documents Doc} {s t mid : Tables Doc} {ownerId : OwnerId} {stamp : Stamp}

theorem orEmpty_some (lib : Documents Doc) (d : Option Doc) :
    lib.orEmpty (some (lib.orEmpty d)) = lib.orEmpty d := by
  unfold Documents.orEmpty
  cases hd : d.filter lib.truthy with
  | none =>
    show ((some lib.empty).filter lib.truthy).getD lib.empty = lib.empty
    cases hempty : lib.truthy lib.empty with
    | true => rw [Option.filter_some_pos hempty, Option.getD_some]
    | false => rw [Option.filter_some_neg (by simp [hempty]), Option.getD_none]
  | some x =>
    have hx : lib.truthy x = true := (Option.filter_eq_some_iff.1 hd).2
    show ((some x).filter lib.truthy).getD lib.empty = x
    rw [Option.filter_some_pos hx, Option.getD_some]

theorem exec_filled (c : Call Doc) : (c.filled lib).exec lib s ownerId stamp =
    c.exec lib s ownerId stamp := by
  cases c with
  | createComparison a =>
    show createComparison lib s ownerId _ = createComparison lib s ownerId a
    unfold createComparison ComparisonArgs.row
    simp only [orEmpty_some]
    rfl
  | assessComparability a =>
    show assessComparability lib s ownerId stamp _ = assessComparability lib s ownerId stamp a
    unfold assessComparability ComparabilityArgs.row
    simp only [orEmpty_some]
    rfl
  | createExperiment a =>
    show createExperiment lib s ownerId _ = createExperiment lib s ownerId a
    unfold createExperiment ExperimentArgs.row
    simp only [orEmpty_some]
    rfl
  | createPromotionCandidate a =>
    show createPromotionCandidate lib s ownerId _ = createPromotionCandidate lib s ownerId a
    unfold createPromotionCandidate CandidateArgs.row
    simp only [orEmpty_some]
    rfl
  | _ => rfl

/-- the calls that ask for one row are one call -/
theorem ComparisonArgs.filled_eq {a b : ComparisonArgs Doc}
    (h : a.row lib ownerId = b.row lib ownerId) :
    (Call.createComparison a).filled lib = (Call.createComparison b).filled lib := by
  cases a
  cases b
  simp_all [row, Call.filled]

theorem ComparabilityArgs.filled_eq {a b : ComparabilityArgs Doc} {stamp' : Stamp}
    (h : a.row lib ownerId stamp = b.row lib ownerId stamp') :
    (Call.assessComparability a).filled lib = (Call.assessComparability b).filled lib := by
  cases a
  cases b
  simp_all [row, Call.filled]

theorem ExperimentArgs.filled_eq {a b : ExperimentArgs Doc}
    (h : a.row lib ownerId = b.row lib ownerId) :
    (Call.createExperiment a).filled lib = (Call.createExperiment b).filled lib := by
  cases a
  cases b
  simp_all [row, Call.filled]

theorem CandidateArgs.filled_eq {a b : CandidateArgs Doc}
    (h : a.row lib ownerId = b.row lib ownerId) :
    (Call.createPromotionCandidate a).filled lib =
      (Call.createPromotionCandidate b).filled lib := by
  cases a
  cases b
  simp_all [row, Call.filled]

theorem QualityArgs.checked_subject {a : QualityArgs} {subject : Subject} {v : VerificationState}
    (hchecked : a.checked s ownerId = .ok (subject, v)) : subject.name = a.subject := by
  unfold QualityArgs.checked at hchecked
  obtain ⟨comparison, -, hchecked⟩ := bind_eq_ok.1 hchecked
  split at hchecked
  · cases hchecked
  · next side hside =>
    obtain ⟨binding, -, hchecked⟩ := bind_eq_ok.1 hchecked
    obtain ⟨evidence, -, hchecked⟩ := bind_eq_ok.1 hchecked
    obtain ⟨rfl, -⟩ := Prod.mk.inj (Except.ok.inj hchecked)
    simpa using List.find?_some hside

theorem QualityArgs.eq_of_row {a b : QualityArgs} {stamp' : Stamp} {subject subject' : Subject}
    {v w : VerificationState} (ha : subject.name = a.subject) (hb : subject'.name = b.subject)
    (h : a.row ownerId stamp subject v = b.row ownerId stamp' subject' w) : a = b := by
  have hsubject : subject = subject' := congrArg QualityAssessment.subject h
  cases a
  cases b
  simp_all [row]

/-- a call that records a row is refused where its row differs from the one under the key -/
theorem Recorded.refused_row {d : Done Doc} (h : Recorded lib s d) {c : Call Doc}
    (hc : Reuses d c) (hlink : c.kind ≠ .link) (htransition : c.kind ≠ .transition)
    (hclash : c.filled lib ≠ d.call.filled lib ∨ steady s d = false) :
    Refused lib s d.ownerId c stamp := by
  obtain ⟨ownerId, call, answer⟩ := d
  obtain ⟨hne, hkind, hkey⟩ := hc
  dsimp only at hne hkind hkey hclash ⊢
  cases call with
  | createComparison a =>
    cases c with
    | createComparison b =>
      obtain ⟨-, i, -, hfound⟩ := h
      obtain hkey : b.idempotencyKey = a.idempotencyKey := hkey
      dsimp only at hfound
      rw [← hkey] at hfound
      refine createComparison_refused hfound fun heq => ?_
      exact hclash.elim (· (ComparisonArgs.filled_eq heq).symm) (by simp [steady])
    | _ => cases hkind
  | assessComparability a =>
    cases c with
    | assessComparability b =>
      obtain ⟨-, i, stamp', -, hfound⟩ := h
      obtain hkey : b.idempotencyKey = a.idempotencyKey := hkey
      dsimp only at hfound
      rw [← hkey] at hfound
      refine assessComparability_refused hfound fun stamp heq => ?_
      exact hclash.elim (· (ComparabilityArgs.filled_eq heq).symm) (by simp [steady])
    | _ => cases hkind
  | assessQuality a =>
    cases c with
    | assessQuality b =>
      obtain ⟨subject, v, hchecked, i, stamp', w, -, -, hfound⟩ := h
      obtain hkey : b.idempotencyKey = a.idempotencyKey := hkey
      dsimp only at hchecked hfound
      rw [← hkey] at hfound
      refine assessQuality_refused hfound fun stamp subject' v' hchecked' heq => hne ?_
      rw [QualityArgs.eq_of_row (QualityArgs.checked_subject hchecked)
        (QualityArgs.checked_subject hchecked') heq]
    | _ => cases hkind
  | recordEfficiencyDelta a =>
    cases c with
    | recordEfficiencyDelta b =>
      obtain ⟨row, hchecked, i, -, hfound⟩ := h
      obtain hkey : b.idempotencyKey = a.idempotencyKey := hkey
      dsimp only at hchecked hfound
      rw [← hkey] at hfound
      refine recordEfficiencyDelta_refused hfound fun hchecked' => hne ?_
      rw [← (DeltaArgs.checked_eq hchecked).2, ← (DeltaArgs.checked_eq hchecked').2]
    | _ => cases hkind
  | createExperiment a =>
    cases c with
    | createExperiment b =>
      obtain ⟨-, i, row, e, -, hfound, hrow, -⟩ := h
      obtain hkey : b.idempotencyKey = a.idempotencyKey := hkey
      dsimp only at hfound hrow
      have hsteady : steady s ⟨ownerId, .createExperiment a, answer⟩ = decide (row.state = .draft) := by
        unfold steady
        dsimp only
        rw [hfound]
        rfl
      rw [← hkey] at hfound
      refine createExperiment_refused hfound ?_
      rintro rfl
      -- a row as it was created
      rcases hclash with hfilled | hmoved
      · exact hfilled (ExperimentArgs.filled_eq hrow)
      · rw [hsteady] at hmoved
        exact of_decide_eq_false hmoved rfl
    | _ => cases hkind
  | createPromotionCandidate a =>
    cases c with
    | createPromotionCandidate b =>
      obtain ⟨-, i, row, e, -, hfound, hrow, -⟩ := h
      obtain hkey : b.idempotencyKey = a.idempotencyKey := hkey
      dsimp only at hfound hrow
      have hsteady : steady s ⟨ownerId, .createPromotionCandidate a, answer⟩ =
          decide (row.state = .candidate) := by
        unfold steady
        dsimp only
        rw [hfound]
        rfl
      rw [← hkey] at hfound
      refine createPromotionCandidate_refused hfound ?_
      rintro rfl
      rcases hclash with hfilled | hmoved
      · exact hfilled (CandidateArgs.filled_eq hrow)
      · rw [hsteady] at hmoved
        exact of_decide_eq_false hmoved rfl
    | _ => cases hkind
  | linkComparison comparisonId key experimentId candidateId => exact absurd hkind hlink
  | transitionExperiment id toState key reason => exact absurd hkind htransition
  | transitionCandidate id toState key => exact absurd hkind htransition

theorem Recorded.refused_row_iff {d : Done Doc} (h : Recorded lib s d) (hdrafted : Drafted s)
    {c : Call Doc} (hc : Reuses d c) (hlink : c.kind ≠ .link) (htransition : c.kind ≠ .transition) :
    Refused lib s d.ownerId c stamp ↔
      (c.filled lib ≠ d.call.filled lib || ! steady s d) = true := by
  rw [Bool.or_eq_true, decide_eq_true_eq, Bool.not_eq_true']
  refine ⟨fun hrefused => ?_, h.refused_row hc hlink htransition⟩
  by_contra hno
  obtain ⟨hfilled, hsteady⟩ := not_or.1 hno
  have hreplays : Replays lib s d stamp := (h.replays_iff hdrafted).2 (Bool.not_eq_false _ ▸ hsteady)
  obtain ⟨e, he⟩ := hrefused
  have hexec : c.exec lib s d.ownerId stamp = d.call.exec lib s d.ownerId stamp := by
    rw [← exec_filled c, not_not.1 hfilled, exec_filled]
  rw [hexec] at he
  have hclash : (Except.ok d.answer, s) = (Except.error e, s) := hreplays.symm.trans he
  cases hclash

theorem event_kept {before : Tables Doc} {row x : Event} {answer : EventId → Answer} {e : EventId}
    (h : lookup Event.key mid.events row.key = some (e, x)) : (before.event mid row answer).2 = mid := by
  unfold Tables.event
  rw [h]

/-- a keyed row, then an event whose key another event has -/
theorem keyed_refused_iff {rows : List Link} {values : Link} {pairs : String}
    {row x : Event} {answer : ℕ → EventId → Answer} {e : EventId}
    {w : Except Err Answer × Tables Doc} (put : List Link → Tables Doc)
    (hw : w = match idempotent Link.key Link.columns (Link.refusal pairs rows) rows values with
      | .error e => (.error e, s)
      | .ok (i, rows') => s.event (put rows') row (answer i))
    (hput : put rows = s) (hadded : put (rows ++ [values]) ≠ s)
    (hevents : ∀ rows', (put rows').events = s.events)
    (hevent : lookup Event.key s.events row.key = some (e, x)) (hne : x ≠ row) :
    (∃ e, w = (.error e, s)) ↔
      ((lookup Link.key rows values.key).isNone && (Link.refusal pairs rows values).isNone) =
        false := by
  cases hfound : lookup Link.key rows values.key with
  | some found =>
    obtain ⟨i, y⟩ := found
    refine iff_of_true ?_ rfl
    by_cases hall : ∀ p ∈ y.columns values, p.2 = true
    · -- the row is the other call's, and so is the event
      rw [idempotent_found hfound hall] at hw
      dsimp only at hw
      rw [hput] at hw
      obtain ⟨err, herr⟩ : ∃ err, s.event s row (answer i) = (.error err, s) :=
        event_refused hevent hne
      exact ⟨err, hw.trans herr⟩
    · obtain ⟨err, herr⟩ : ∃ err, idempotent Link.key Link.columns (Link.refusal pairs rows) rows
          values = .error err := idempotent_refused hfound hall
      rw [herr] at hw
      exact ⟨err, hw⟩
  | none =>
    cases hrefusal : Link.refusal pairs rows values with
    | some err =>
      refine iff_of_true ?_ rfl
      have hrows : ∀ i rows', idempotent Link.key Link.columns (Link.refusal pairs rows) rows values ≠
          .ok (i, rows') := by
        intro i rows' hok
        rcases idempotent_ok.1 hok with ⟨y, hy, -⟩ | ⟨-, hnone, -⟩
        · rw [hfound] at hy
          cases hy
        · rw [hrefusal] at hnone
          cases hnone
      split at hw
      · next e _ => exact ⟨e, hw⟩
      · next i rows' hok => exact absurd hok (hrows i rows')
    | none =>
      refine iff_of_false ?_ (by simp)
      have hok : idempotent Link.key Link.columns (Link.refusal pairs rows) rows values =
          .ok (rows.length, rows ++ [values]) := idempotent_ok.2 (.inr ⟨hfound, hrefusal, rfl, rfl⟩)
      rw [hok] at hw
      dsimp only at hw
      have hkept : w.2 = put (rows ++ [values]) := by
        rw [hw]
        exact event_kept ((hevents _).symm ▸ hevent)
      rintro ⟨err, herr⟩
      rw [herr] at hkept
      exact hadded hkept.symm

theorem linkChecked_parent {comparisonId : ComparisonId} {experimentId : Option ExperimentId}
    {candidateId : Option CandidateId} {parent : Parent}
    (h : linkChecked s ownerId comparisonId experimentId candidateId = .ok parent) (key : String) :
    (linkEvent ownerId parent comparisonId key).experimentId = experimentId ∧
      (linkEvent ownerId parent comparisonId key).candidateId = candidateId := by
  unfold linkChecked at h
  obtain ⟨comparison, -, h⟩ := bind_eq_ok.1 h
  split at h
  · obtain ⟨row, -, h⟩ := bind_eq_ok.1 h
    obtain ⟨strategies, -, h⟩ := bind_eq_ok.1 h
    split_ifs at h
    cases h
    exact ⟨rfl, rfl⟩
  · obtain ⟨row, -, h⟩ := bind_eq_ok.1 h
    obtain ⟨strategies, -, h⟩ := bind_eq_ok.1 h
    split_ifs at h
    cases h
    exact ⟨rfl, rfl⟩
  · cases h

theorem linkComparison_refused_iff {comparisonId comparisonId' : ComparisonId} {key : String}
    {experimentId experimentId' : Option ExperimentId} {candidateId candidateId' : Option CandidateId}
    {parent : Parent} {e : EventId}
    (hparent : linkChecked s ownerId comparisonId experimentId candidateId = .ok parent)
    (hevent : lookup Event.key s.events (ownerId, key ++ ":event") =
      some (e, linkEvent ownerId parent comparisonId key))
    (hne : Call.linkComparison comparisonId' key experimentId' candidateId' ≠
      (.linkComparison comparisonId key experimentId candidateId : Call Doc)) :
    Refused lib s ownerId (.linkComparison comparisonId' key experimentId' candidateId') stamp ↔
      addsLink s ownerId comparisonId' key experimentId' candidateId' = false := by
  show (∃ e, linkComparison s ownerId comparisonId' key experimentId' candidateId' = (.error e, s)) ↔ _
  have hother : ∀ parent', linkChecked s ownerId comparisonId' experimentId' candidateId' = .ok parent' →
      linkEvent ownerId parent comparisonId key ≠ linkEvent ownerId parent' comparisonId' key := by
    intro parent' hparent' heq
    obtain ⟨hexperiment, hcandidate⟩ := linkChecked_parent hparent key
    obtain ⟨hexperiment', hcandidate'⟩ := linkChecked_parent hparent' key
    have hdetail : EventDetail.comparison comparisonId = .comparison comparisonId' :=
      congrArg Event.detail heq
    obtain rfl := EventDetail.comparison.inj hdetail
    refine hne ?_
    rw [← hexperiment, ← hcandidate, ← hexperiment', ← hcandidate', heq]
  unfold linkComparison addsLink
  cases hchecked : linkChecked s ownerId comparisonId' experimentId' candidateId' with
  | error err => exact iff_of_true ⟨err, rfl⟩ rfl
  | ok parent' =>
    cases parent' with
    | experiment id =>
      refine keyed_refused_iff (fun rows => { s with experimentLinks := rows }) rfl rfl
        (fun heq => ?_) (fun rows => rfl) hevent (hother _ hchecked)
      have hlinks := congrArg Tables.experimentLinks heq
      exact List.cons_ne_nil _ _ (List.append_right_eq_self.1 hlinks)
    | candidate id =>
      refine keyed_refused_iff (fun rows => { s with promotionLinks := rows }) rfl rfl
        (fun heq => ?_) (fun rows => rfl) hevent (hother _ hchecked)
      have hlinks := congrArg Tables.promotionLinks heq
      exact List.cons_ne_nil _ _ (List.append_right_eq_self.1 hlinks)

theorem guarded_refused {α : Type} (before : Tables Doc) (refused : Err)
    (written : Except Err α × Tables Doc) :
    ∃ e, guarded before (some refused) written = (.error e, before) := by
  obtain ⟨result, after⟩ := written
  cases result with
  | ok r => exact ⟨refused, rfl⟩
  | error e => exact ⟨e, rfl⟩

theorem transitionExperiment_refused_iff {id : ExperimentId} {toState key : String}
    {reason : Option String} {x : Event} {e : EventId}
    (hevent : lookup Event.key s.events (ownerId, key) = some (e, x)) :
    Refused lib s ownerId (.transitionExperiment id toState key reason) stamp ↔
      moves s ownerId (.transitionExperiment id toState key reason) = false := by
  have hmoves : moves s ownerId (.transitionExperiment id toState key reason) = true ↔
      ∃ row, s.experiments[id]? = some row ∧ row.ownerId = ownerId ∧
        (experimentTransitions row.state).any (·.name = toState) = true := by
    unfold moves
    rw [Option.any_eq_true]
    simp only [decide_eq_true_eq]
  show (∃ e, transitionExperiment s ownerId id toState key reason = (.error e, s)) ↔ _
  rw [← Bool.not_eq_true, hmoves]
  unfold transitionExperiment
  cases howned : owned s.experiments (·.ownerId) .strategyEvaluation ownerId id "experiment" with
  | error err =>
    refine iff_of_true ⟨err, rfl⟩ ?_
    rintro ⟨row, hget, howner, -⟩
    rw [owned_ok.2 ⟨hget, howner⟩] at howned
    cases howned
  | ok row =>
    obtain ⟨hget, howner⟩ := owned_ok.1 howned
    dsimp only
    cases hnext : (experimentTransitions row.state).find? (·.name = toState) with
    | none =>
      refine iff_of_true ⟨_, rfl⟩ ?_
      rintro ⟨row', hget', -, hany⟩
      obtain rfl := Option.some.inj (hget.symm.trans hget')
      obtain ⟨next, hmem, hname⟩ := List.any_eq_true.1 hany
      exact List.find?_eq_none.1 hnext next hmem hname
    | some next =>
      have hany : (experimentTransitions row.state).any (·.name = toState) = true :=
        List.any_eq_true.2 ⟨next, List.mem_of_find?_eq_some hnext, (List.find?_some hnext :)⟩
      refine iff_of_false ?_ (not_not_intro ⟨row, hget, howner, hany⟩)
      rintro ⟨err, herr⟩
      have hkept : s = _ := (congrArg Prod.snd herr).symm.trans (event_kept hevent)
      exact experiment_moved_ne hget (List.mem_of_find?_eq_some hnext) hkept.symm

theorem transitionCandidate_refused_iff {id : CandidateId} {toState key : String} {x : Event}
    {e : EventId} (hevent : lookup Event.key s.events (ownerId, key) = some (e, x)) :
    Refused lib s ownerId (.transitionCandidate id toState key) stamp ↔
      moves s ownerId (.transitionCandidate id toState key) = false := by
  have hmoves : moves s ownerId (.transitionCandidate id toState key) = true ↔
      ∃ row, s.candidates[id]? = some row ∧ row.ownerId = ownerId ∧
        ∃ next, (candidateTransitions row.state).find? (·.name = toState) = some next ∧
          (next = .approved → (summaryOf s ownerId id row).promotable = true) ∧
            candidateGuard s id row { row with state := next } = none := by
    unfold moves
    rw [Option.any_eq_true]
    simp only [Option.any_eq_true, decide_eq_true_eq]
  show (∃ e, transitionCandidate s ownerId id toState key = (.error e, s)) ↔ _
  rw [← Bool.not_eq_true, hmoves]
  unfold transitionCandidate
  cases howned : owned s.candidates (·.ownerId) .strategyEvaluation ownerId id "candidate" with
  | error err =>
    refine iff_of_true ⟨err, rfl⟩ ?_
    rintro ⟨row, hget, howner, -⟩
    rw [owned_ok.2 ⟨hget, howner⟩] at howned
    cases howned
  | ok row =>
    obtain ⟨hget, howner⟩ := owned_ok.1 howned
    have hrow : (∃ row', s.candidates[id]? = some row' ∧ row'.ownerId = ownerId ∧
        ∃ next, (candidateTransitions row'.state).find? (·.name = toState) = some next ∧
          (next = .approved → (summaryOf s ownerId id row').promotable = true) ∧
            candidateGuard s id row' { row' with state := next } = none) ↔
        ∃ next, (candidateTransitions row.state).find? (·.name = toState) = some next ∧
          (next = .approved → (summaryOf s ownerId id row).promotable = true) ∧
            candidateGuard s id row { row with state := next } = none := by
      constructor
      · rintro ⟨row', hget', -, hnext⟩
        obtain rfl := Option.some.inj (hget.symm.trans hget')
        exact hnext
      · exact fun hnext => ⟨row, hget, howner, hnext⟩
    rw [hrow]
    dsimp only
    cases hnext : (candidateTransitions row.state).find? (·.name = toState) with
    | none => exact iff_of_true ⟨_, rfl⟩ (by simp)
    | some next =>
      dsimp only
      by_cases hevidence : next = .approved ∧ ¬ (summaryOf s ownerId id row).promotable = true
      · rw [if_pos hevidence]
        refine iff_of_true ⟨_, rfl⟩ ?_
        rintro ⟨next', hnext', happroved, -⟩
        obtain rfl := Option.some.inj hnext'
        exact hevidence.2 (happroved hevidence.1)
      · rw [if_neg hevidence]
        cases hguard : candidateGuard s id row { row with state := next } with
        | some err =>
          refine iff_of_true ?_ ?_
          · exact guarded_refused s err _
          · rintro ⟨next', hnext', -, hguard'⟩
            obtain rfl := Option.some.inj hnext'
            rw [hguard] at hguard'
            cases hguard'
        | none =>
          refine iff_of_false ?_ (not_not_intro ⟨next, rfl, ?_, hguard⟩)
          · rintro ⟨err, herr⟩
            have hkept : s = _ := (congrArg Prod.snd herr).symm.trans (event_kept hevent)
            exact candidate_moved_ne hget (List.mem_of_find?_eq_some hnext) hkept.symm
          · intro happroved
            by_contra hno
            exact hevidence ⟨happroved, hno⟩

theorem Recorded.transition_event {d : Done Doc} (h : Recorded lib s d)
    (hkind : d.call.kind = .transition) :
    ∃ e x, lookup Event.key s.events (d.ownerId, d.call.key) = some (e, x) := by
  obtain ⟨ownerId, call, answer⟩ := d
  cases call with
  | transitionExperiment id toState key reason | transitionCandidate id toState key =>
    obtain ⟨e, old, next, -, -, -, hevent⟩ := h
    exact ⟨e, _, hevent⟩
  | _ => cases hkind

/-- **another call under the key** raises and changes nothing exactly when it clashes -/
theorem Recorded.refused_iff {d : Done Doc} (h : Recorded lib s d) (hdrafted : Drafted s)
    {c : Call Doc} (hc : Reuses d c) :
    Refused lib s d.ownerId c stamp ↔ clashes lib s d c = true := by
  obtain ⟨ownerId, call, answer⟩ := d
  obtain ⟨hne, hkind, hkey⟩ := hc
  cases c with
  | linkComparison comparisonId' key' experimentId' candidateId' =>
    cases call with
    | linkComparison comparisonId key experimentId candidateId =>
      obtain ⟨parent, hchecked, ⟨e, hevent⟩, -⟩ := h
      obtain rfl : key' = key := hkey
      rw [linkComparison_refused_iff hchecked hevent hne]
      show _ ↔ (! addsLink s ownerId comparisonId' key' experimentId' candidateId') = true
      rw [Bool.not_eq_true']
    | _ => cases hkind
  | transitionExperiment id toState key reason =>
    obtain ⟨e, x, hevent⟩ := h.transition_event hkind.symm
    obtain hkey : key = call.key := hkey
    rw [transitionExperiment_refused_iff (hkey ▸ hevent)]
    show _ ↔ (! moves s ownerId (.transitionExperiment id toState key reason)) = true
    rw [Bool.not_eq_true']
  | transitionCandidate id toState key =>
    obtain ⟨e, x, hevent⟩ := h.transition_event hkind.symm
    obtain hkey : key = call.key := hkey
    rw [transitionCandidate_refused_iff (hkey ▸ hevent)]
    show _ ↔ (! moves s ownerId (.transitionCandidate id toState key)) = true
    rw [Bool.not_eq_true']
  | _ => exact h.refused_row_iff hdrafted ⟨hne, hkind, hkey⟩ nofun nofun

/-! ## runs -/

theorem answered_some {op : Op Doc} {d : Done Doc} (h : answered lib s op = some d) :
    Recorded lib (step lib s op) d := by
  cases op with
  | elsewhere new => cases h
  | call ownerId c stamp rollsBack =>
    unfold answered at h
    unfold step
    dsimp only at h ⊢
    cases hexec : c.exec lib s ownerId stamp with
    | mk result after =>
      rw [hexec] at h
      cases result with
      | error e => cases h
      | ok r =>
        obtain rfl := Option.some.inj h
        exact exec_recorded hexec

/-- what holds of the tables, and of the calls that returned, along a run -/
structure Remembers (lib : Documents Doc) (p : Tables Doc × List (Done Doc)) : Prop where
  drafted : Drafted p.1
  recorded : ∀ d ∈ p.2, Recorded lib p.1 d

theorem Remembers.step {p : Tables Doc × List (Done Doc)} (h : Remembers lib p) (op : Op Doc) :
    Remembers lib (answering lib p op) where
  drafted := h.drafted.step op
  recorded d hd := by
    rcases List.mem_append.1 hd with hd | hd
    · exact (h.recorded d hd).mono (step_grows lib p.1 op)
    · exact answered_some (Option.mem_toList.1 hd)

/-- in every state of every run a call that returned replays exactly when it is steady, and another
call under its key is refused exactly when it clashes -/
theorem calls_replay_iff (lib : Documents Doc) (ops : List (Op Doc)) :
    Run.Always (answering lib) (fun p => ∀ d ∈ p.2, ∀ stamp,
      (Replays lib p.1 d stamp ↔ steady p.1 d = true) ∧
        ∀ c, Reuses d c → (Refused lib p.1 d.ownerId c stamp ↔ clashes lib p.1 d c = true))
      ({}, []) ops := by
  have hinitial : Remembers lib (({}, []) : Tables Doc × List (Done Doc)) :=
    ⟨fun row hrow => absurd hrow List.not_mem_nil, fun d hd => absurd hd List.not_mem_nil⟩
  have hmeets : Run.Meets (answering lib) (fun _ _ => True) ({}, []) ops :=
    Run.Meets.of_forall _ (fun _ _ => trivial) _
  refine Run.always (I := Remembers lib) (fun p hp d hd stamp => ?_) (fun p op hp _ => hp.step op)
    hinitial hmeets
  have hrecorded : Recorded lib p.1 d := hp.recorded d hd
  exact ⟨hrecorded.replays_iff hp.drafted, fun c hc => hrecorded.refused_iff hp.drafted hc⟩

/-- a call that returned replays, and no other call of the kind reuses its key -/
def ReplaySafe (lib : Documents Doc) (s : Tables Doc) (d : Done Doc) : Prop :=
  ∀ stamp, Replays lib s d stamp ∧ ∀ c, Reuses d c → Refused lib s d.ownerId c stamp

/-! ## an experiment that is ready -/

/-- JSON values by their text -/
def texts : Documents String where
  empty := "{}"
  truthy d := d ∉ ["{}", "[]", "null", "false", "0", "\"\""]
  isObject d := d.toList.head? = some '\x7b'

def drafting : Call String := .createExperiment
  { baselineStrategyId := 0
    challengerStrategyId := 1
    hypothesis := "fewer retries"
    intendedChange := "one plan"
    expectedBenefit := "time"
    idempotencyKey := "e1" }

def readied : List (Op String) :=
  [.elsewhere { strategies := [7, 7] }, .call 7 drafting ⟨0, 0⟩ true,
    .call 7 (.transitionExperiment 0 "ready" "e1:ready" none) ⟨1, 1⟩ true]

/-- once its experiment is ready, `create_experiment` is not repeated: its key "e1" is reused with
different fields, the state -/
theorem readied_not_replayed : ¬ ∀ ops : List (Op String),
    Run.Always (answering texts) (fun p => ∀ d ∈ p.2, ReplaySafe texts p.1 d) ({}, []) ops := by
  intro h
  have hsafe := (h readied).run ⟨7, drafting, .experiment 0⟩ (by decide)
  have hreplays := congrArg Prod.fst (hsafe ⟨2, 2⟩).1
  revert hreplays
  decide

end LifeAI.Strategy
