import LifeAI.Lib.History
import LifeAI.Workforce.Steps

/-!
# External effects that are not known

* `Noted`, `Op.notes`    what a call records about the effect of an assignment;
* `UnknownStays`         no retry and no takeover before evidence, and no evidence from nothing;
* `overwrites`           a checkpoint of `none_known` over an effect that is unknown or proven;
* `unknown_not_retried`  every run without these.
-/

namespace LifeAI.Workforce

/-- an effect state that a checkpoint records -/
structure Noted where
  assignment : AssignmentId
  effect : EffectState
  /-- the caller states the effect: no default, no restart, no retry -/
  stated : Bool
  deriving DecidableEq

/-- what the call records -/
def Op.notes (s : Tables) (op : Op) : Option Noted :=
  if (op.exec s).1.isOk then
    match op.call with
    | .checkpoint _ a c =>
      (effectState? (c.externalEffectState.getD "none_known")).map
        (⟨a, ·, c.externalEffectState.isSome⟩)
    | .failure _ a _ externalEffectState _ _ =>
      (effectState? externalEffectState).map (⟨a, ·, true⟩)
    | .restart _ a _ => s.assignments[a]?.map fun row => ⟨a, row.externalEffectState, false⟩
    | .retry _ a => some ⟨a, .noneProven, false⟩
    | _ => none
  else none

/-- an unknown or proven effect of the assignment -/
def Noted.raises (a : AssignmentId) (n : Noted) : Prop := n.assignment = a ∧ n.effect.blocks = true

/-- evidence that the assignment had no effect -/
def Noted.settles (a : AssignmentId) (n : Noted) : Prop :=
  n.assignment = a ∧ n.stated = true ∧ n.effect = .noneProven

/-- an effect of the assignment is unknown or proven, and there is no later evidence of none -/
def Unsettled (a : AssignmentId) (notes : List Noted) : Prop :=
  History.Pending (Noted.raises a) (Noted.settles a) notes

/-- `safe_retry_same_agent` or `alternate_agent_takeover` of the assignment -/
def Call.retries (a : AssignmentId) : Call → Bool
  | .retry _ b => b = a
  | .takeover _ t => t.failed = a
  | _ => false

/-- a checkpoint without a stated effect, a restart, a retry -/
def Call.unstated (a : AssignmentId) : Call → Bool
  | .checkpoint _ b c => b = a ∧ c.externalEffectState = none
  | .restart _ b _ => b = a
  | .retry _ b => b = a
  | _ => false

def Tables.blocked (s : Tables) (a : AssignmentId) : Bool :=
  s.assignments[a]?.any (·.externalEffectState.blocks)

/-- Where an effect is unsettled, a retry or a takeover refuses; where one is unknown or proven, only
a stated effect changes that. -/
structure UnknownStays (p : Tables × List Noted) (op : Op) : Prop where
  refuses : ∀ a, op.call.retries a = true → Unsettled a p.2 → (op.exec p.1).1.isOk = false
  stays : ∀ a, op.call.unstated a = true → p.1.blocked a = true → (step p.1 op).blocked a = true

/-- the call states or defaults to `none_known`, where the effect is unknown or proven -/
def overwrites (s : Tables) (op : Op) : Bool :=
  match op.call with
  | .checkpoint _ a c => c.externalEffectState.getD "none_known" = "none_known" ∧ s.blocked a
  | .failure _ a _ externalEffectState _ _ => externalEffectState = "none_known" ∧ s.blocked a
  | _ => false

/-- a run that keeps what it records -/
def noting : Tables × List Noted → Op → Tables × List Noted := History.recorded step Op.notes

variable {s : Tables} {op : Op} {a : AssignmentId} {row row' : WorkforceAssignment} {history : List Noted}

/-! ## a call -/

theorem blocked_iff : s.blocked a = true ↔
    ∃ row, s.assignments[a]? = some row ∧ row.externalEffectState.blocks = true := by
  unfold Tables.blocked
  cases s.assignments[a]? with
  | none => simp
  | some row => simp

theorem effectState?_noneKnown {text : String} (h : effectState? text = some .noneKnown) :
    text = "none_known" := by
  unfold effectState? at h
  have hname := List.find?_some h
  exact (of_decide_eq_true hname).symm

theorem decide_effect (decision : VerificationStatus) :
    (row.decide op.now decision).externalEffectState = row.externalEffectState := by
  cases decision <;> rfl

theorem applied_effect (decision : VerificationStatus) :
    (row.applied op.now decision).externalEffectState = row.externalEffectState := by
  unfold WorkforceAssignment.applied
  split
  · exact decide_effect decision
  · exact decide_effect decision

theorem notes_of_ok (h : (op.exec s).1.isOk = true) : op.notes s =
    match op.call with
    | .checkpoint _ a c =>
      (effectState? (c.externalEffectState.getD "none_known")).map
        (⟨a, ·, c.externalEffectState.isSome⟩)
    | .failure _ a _ externalEffectState _ _ =>
      (effectState? externalEffectState).map (⟨a, ·, true⟩)
    | .restart _ a _ => s.assignments[a]?.map fun row => ⟨a, row.externalEffectState, false⟩
    | .retry _ a => some ⟨a, .noneProven, false⟩
    | _ => none := by
  unfold Op.notes
  rw [if_pos h]

theorem notes_of_error (h : (op.exec s).1.isOk = false) : op.notes s = none := by
  unfold Op.notes
  rw [h]
  rfl

/-- what it records is what the row says afterwards; where it records nothing, the effect stays -/
theorem RowChange.recorded (h : RowChange op a row (op.exec s).1.isOk row')
    (hrow : s.assignments[a]? = some row) :
    (∃ stated, op.notes s = some ⟨a, row'.externalEffectState, stated⟩) ∨
    (op.notes s = none ∧ row'.externalEffectState = row.externalEffectState) := by
  generalize hans : (op.exec s).1.isOk = returns at h
  cases h with
  | ingested ownerId payload hcall hlive | cancelled ownerId reason hcall =>
    rw [notes_of_ok hans, hcall]
    exact .inr ⟨rfl, rfl⟩
  | marked ownerId status verifier decision hcall hstatus hverifier =>
    rw [notes_of_ok hans, hcall]
    exact .inr ⟨rfl, decide_effect decision⟩
  | applied ownerId status risk e reason decision hcall hstatus hevidence =>
    rw [notes_of_ok hans, hcall]
    exact .inr ⟨rfl, applied_effect decision⟩
  | noted ownerId c effect hcall heffect =>
    rw [notes_of_ok hans, hcall]
    refine .inl ⟨c.externalEffectState.isSome, ?_⟩
    show (effectState? (c.externalEffectState.getD "none_known")).map _ = _
    rw [heffect]
    rfl
  | failed ownerId failureClass externalEffectState partialResult evidenceRefs effect hcall heffect =>
    rw [notes_of_ok hans, hcall]
    refine .inl ⟨true, ?_⟩
    show (effectState? externalEffectState).map _ = _
    rw [heffect]
    rfl
  | retried ownerId hcall hsafe hlive =>
    rw [notes_of_ok hans, hcall]
    exact .inl ⟨_, rfl⟩
  | miscounted ownerId hcall hlive => exact .inr ⟨notes_of_error hans, rfl⟩
  | restarted ownerId restartKind hcall =>
    rw [notes_of_ok hans, hcall]
    refine .inl ⟨false, ?_⟩
    show (s.assignments[a]?).map _ = _
    rw [hrow]
    rfl

/-- a call changes the effect of an assignment only to what it records -/
theorem effect_after (hrow : s.assignments[a]? = some row) :
    ∃ row', (step s op).assignments[a]? = some row' ∧
      ((∃ stated, op.notes s = some ⟨a, row'.externalEffectState, stated⟩) ∨
        ((∀ n, op.notes s = some n → n.assignment ≠ a) ∧
          row'.externalEffectState = row.externalEffectState)) := by
  have hgoes := exec_goes s op
  obtain ⟨row', hrow'⟩ := hgoes.row_some hrow
  refine ⟨row', hrow', ?_⟩
  have hquiet : op.notes s = none → ∀ n, op.notes s = some n → n.assignment ≠ a := by
    intro hnone n hn
    rw [hnone] at hn
    exact nomatch hn
  generalize hans : (op.exec s).1 = answer at hgoes
  generalize hafter : (op.exec s).2 = s' at hgoes hrow'
  cases hgoes with
  | refused e =>
    rw [hrow] at hrow'
    obtain rfl := Option.some.inj hrow'
    exact .inr ⟨hquiet (notes_of_error (by rw [hans]; rfl)), rfl⟩
  | aside _ hcall hrows hrequests =>
    rw [hrows, hrow] at hrow'
    obtain rfl := Option.some.inj hrow'
    refine .inr ⟨hquiet ?_, rfl⟩
    rw [notes_of_ok (by rw [hans]; rfl)]
    rcases hcall with ⟨profiles, hcall⟩ | ⟨request, hcall⟩
    · rw [hcall]
    · rw [hcall]
  | changed _ _ b row0 row1 hb hchange hrows hrequests =>
    rw [← hans] at hchange
    rw [hrows] at hrow'
    rcases eq_or_ne b a with rfl | hne
    · rw [List.getElem?_set_self (List.getElem?_eq_some_iff.1 hb).1] at hrow'
      obtain rfl := Option.some.inj hrow'
      obtain rfl := Option.some.inj (hb.symm.trans hrow)
      rcases hchange.recorded hb with hnotes | ⟨hnone, hsame⟩
      · exact .inl hnotes
      · exact .inr ⟨hquiet hnone, hsame⟩
    · rw [List.getElem?_set_ne hne, hrow] at hrow'
      obtain rfl := Option.some.inj hrow'
      refine .inr ⟨fun n hn => ?_, rfl⟩
      rcases hchange.recorded hb with ⟨stated, hnotes⟩ | ⟨hnone, -⟩
      · rw [hnotes] at hn
        obtain rfl := Option.some.inj hn
        exact hne
      · exact hquiet hnone n hn
  | resolved ownerId request q req profileId profile _ hcall hreq hopen hrequests hrows =>
    rw [hrows, List.getElem?_append_left (List.getElem?_eq_some_iff.1 hrow).1, hrow] at hrow'
    obtain rfl := Option.some.inj hrow'
    refine .inr ⟨hquiet ?_, rfl⟩
    rw [notes_of_ok (by rw [hans]; rfl), hcall]
  | stranded ownerId t row0 req alt hcall hfailed hreq hsafe halt hother hverifier =>
    refine .inr ⟨hquiet (notes_of_error (by rw [hans]; rfl)), ?_⟩
    rcases getElem?_set_some hrow' with hkept | ⟨rfl, rfl⟩
    · rw [hrow] at hkept
      rw [Option.some.inj hkept]
    · rw [hfailed] at hrow
      rw [← Option.some.inj hrow]
      rfl
  | takenOver ownerId t row0 req alt hcall hfailed hreq hsafe halt hother hverifier =>
    refine .inr ⟨hquiet (by rw [notes_of_ok (by rw [hans]; rfl), hcall]), ?_⟩
    have hlt : a < (s.assignments.set t.failed
        { row0.supersede op.now with supersedesAssignmentId := none }).length := by
      rw [List.length_set]
      exact (List.getElem?_eq_some_iff.1 hrow).1
    have hset := (List.getElem?_append_left hlt).symm.trans hrow'
    rcases getElem?_set_some hset with hkept | ⟨rfl, rfl⟩
    · rw [hrow] at hkept
      rw [Option.some.inj hkept]
    · rw [hfailed] at hrow
      rw [← Option.some.inj hrow]
      rfl

/-- a retry or a takeover that returns has found no unknown or proven effect -/
theorem not_blocked_of_retries (hcall : op.call.retries a = true) (hok : (op.exec s).1.isOk = true) :
    s.blocked a = false := by
  have hfree : ∀ row, s.assignments[a]? = some row → row.externalEffectState.blocks = false →
      s.blocked a = false := by
    intro row hrow hsafe
    unfold Tables.blocked
    rw [hrow, Option.any_some, hsafe]
  have hgoes := exec_goes s op
  generalize (op.exec s).1 = answer at hgoes hok
  generalize (op.exec s).2 = s' at hgoes
  cases hgoes with
  | refused e => exact nomatch hok
  | aside _ hother hrows hrequests =>
    rcases hother with ⟨profiles, hother⟩ | ⟨request, hother⟩
    · rw [hother] at hcall
      exact nomatch hcall
    · rw [hother] at hcall
      exact nomatch hcall
  | changed _ _ b row0 row1 hb hchange hrows hrequests =>
    rw [hok] at hchange
    cases hchange with
    | retried ownerId hretry hsafe hlive =>
      rw [hretry] at hcall
      obtain rfl := of_decide_eq_true hcall
      exact hfree row0 hb hsafe
    | ingested ownerId payload hother hlive | cancelled ownerId reason hother
    | noted ownerId c effect hother heffect | restarted ownerId restartKind hother
    | marked ownerId status verifier decision hother hstatus hverifier
    | applied ownerId status risk e reason decision hother hstatus hevidence
    | failed ownerId failureClass effectState partialResult evidenceRefs effect hother heffect =>
      rw [hother] at hcall; exact nomatch hcall
  | resolved ownerId request q req profileId profile _ hother hreq hopen hrequests hrows =>
    rw [hother] at hcall
    exact nomatch hcall
  | stranded ownerId t row0 req alt hother hrow hreq hsafe halt hne hverifier => exact nomatch hok
  | takenOver ownerId t row0 req alt hother hrow hreq hsafe halt hne hverifier =>
    rw [hother] at hcall
    obtain rfl := of_decide_eq_true hcall
    exact hfree row0 hrow hsafe

/-- what a call that overwrites nothing records over an unknown or proven effect -/
theorem notes_over_blocked {n : Noted} (hn : op.notes s = some n)
    (hb : s.blocked n.assignment = true) (hover : overwrites s op = false) :
    n.effect.blocks = true ∨ (n.stated = true ∧ n.effect = .noneProven) := by
  have hok : (op.exec s).1.isOk = true := by
    by_contra herr
    rw [notes_of_error (Bool.eq_false_iff.2 herr)] at hn
    exact nomatch hn
  have hretry : op.call.retries n.assignment = true → (op.exec s).1.isOk = true →
      s.blocked n.assignment = false :=
    not_blocked_of_retries
  have hknown : ∀ effect : EffectState, effect ≠ .noneKnown →
      effect.blocks = true ∨ effect = .noneProven := by
    intro effect hne
    cases effect with
    | noneKnown => exact absurd rfl hne
    | noneProven => exact .inr rfl
    | unknown => exact .inl rfl
    | effectProven => exact .inl rfl
  rw [notes_of_ok hok] at hn
  unfold overwrites at hover
  generalize hcall : op.call = call at hn hover
  cases call with
  | checkpoint ownerId a c =>
    obtain ⟨effect, heffect, rfl⟩ := Option.map_eq_some_iff.1 hn
    have hstates : effect ≠ .noneKnown := by
      rintro rfl
      exact of_decide_eq_false hover ⟨effectState?_noneKnown heffect, hb⟩
    cases hstated : c.externalEffectState with
    | none =>
      rw [hstated] at heffect
      exact absurd (Option.some.inj heffect).symm hstates
    | some text => exact (hknown effect hstates).imp id fun h => ⟨rfl, h⟩
  | failure ownerId a failureClass text partialResult evidenceRefs =>
    obtain ⟨effect, heffect, rfl⟩ := Option.map_eq_some_iff.1 hn
    have hstates : effect ≠ .noneKnown := by
      rintro rfl
      exact of_decide_eq_false hover ⟨effectState?_noneKnown heffect, hb⟩
    exact (hknown effect hstates).imp id fun h => ⟨rfl, h⟩
  | restart ownerId a restartKind =>
    obtain ⟨row, hrow, rfl⟩ := Option.map_eq_some_iff.1 hn
    obtain ⟨row', hrow', hblocks⟩ := blocked_iff.1 hb
    obtain rfl := Option.some.inj (hrow.symm.trans hrow')
    exact .inl hblocks
  | retry ownerId a =>
    obtain rfl := Option.some.inj hn
    have hfree : s.blocked a = false := hretry (by rw [hcall]; exact decide_eq_true rfl) hok
    rw [hfree] at hb
    exact nomatch hb
  | _ => exact nomatch hn

/-- an effect that is unknown or proven stays so, but for evidence that is stated -/
theorem blocked_step (hb : s.blocked a = true) (hover : overwrites s op = false) :
    (step s op).blocked a = true ∨ ∃ n, op.notes s = some n ∧ n.settles a := by
  obtain ⟨row, hrow, hblocks⟩ := blocked_iff.1 hb
  obtain ⟨row', hrow', hnotes | ⟨-, hsame⟩⟩ := @effect_after s op _ _ hrow
  · obtain ⟨stated, hn⟩ := hnotes
    rcases notes_over_blocked hn hb hover with heffect | ⟨hstated, heffect⟩
    · exact .inl (blocked_iff.2 ⟨row', hrow', heffect⟩)
    · exact .inr ⟨_, hn, rfl, hstated, heffect⟩
  · exact .inl (blocked_iff.2 ⟨row', hrow', by rw [hsame]; exact hblocks⟩)

/-- a call records something of an assignment that there is -/
theorem row_of_notes {n : Noted} (hn : op.notes s = some n) :
    ∃ row, s.assignments[n.assignment]? = some row := by
  have hok : (op.exec s).1.isOk = true := by
    by_contra herr
    rw [notes_of_error (Bool.eq_false_iff.2 herr)] at hn
    exact nomatch hn
  have hgoes := exec_goes s op
  generalize hans : (op.exec s).1 = answer at hgoes
  generalize (op.exec s).2 = s' at hgoes
  have hn' := hn
  rw [notes_of_ok hok] at hn'
  rw [hans] at hok
  cases hgoes with
  | refused e => exact nomatch hok
  | aside _ hcall hrows hrequests =>
    rcases hcall with ⟨profiles, hcall⟩ | ⟨request, hcall⟩
    · rw [hcall] at hn'
      exact nomatch hn'
    · rw [hcall] at hn'
      exact nomatch hn'
  | changed _ _ b row0 row1 hb hchange hrows hrequests =>
    rw [← hans] at hchange
    rcases hchange.recorded hb with ⟨stated, hnotes⟩ | ⟨hnone, -⟩
    · rw [hn] at hnotes
      rw [Option.some.inj hnotes]
      exact ⟨row0, hb⟩
    · rw [hn] at hnone
      exact nomatch hnone
  | resolved ownerId request q req profileId profile _ hcall hreq hopen hrequests hrows =>
    rw [hcall] at hn'
    exact nomatch hn'
  | stranded ownerId t row0 req alt hcall hrow hreq hsafe halt hother hverifier => exact nomatch hok
  | takenOver ownerId t row0 req alt hcall hrow hreq hsafe halt hother hverifier =>
    rw [hcall] at hn'
    exact nomatch hn'

/-- what a call records of an assignment is in its row -/
theorem blocked_of_notes {n : Noted} (hn : op.notes s = some n) (hb : n.effect.blocks = true) :
    (step s op).blocked n.assignment = true := by
  obtain ⟨row, hrow⟩ := row_of_notes hn
  obtain ⟨row', hrow', hnotes | ⟨hother, -⟩⟩ := @effect_after s op _ _ hrow
  · obtain ⟨stated, hn'⟩ := hnotes
    have heffect : n.effect = row'.externalEffectState := by
      rw [Option.some.inj (hn.symm.trans hn')]
    exact blocked_iff.2 ⟨row', hrow', by rw [← heffect]; exact hb⟩
  · exact absurd rfl (hother n hn)

/-- a default, a restart and a retry state no effect -/
theorem unstated_notes {n : Noted} (hcall : op.call.unstated a = true) (hn : op.notes s = some n) :
    n.stated = false := by
  have hok : (op.exec s).1.isOk = true := by
    by_contra herr
    rw [notes_of_error (Bool.eq_false_iff.2 herr)] at hn
    exact nomatch hn
  rw [notes_of_ok hok] at hn
  generalize op.call = call at hcall hn
  cases call with
  | checkpoint ownerId b c =>
    obtain ⟨-, hnone⟩ := of_decide_eq_true hcall
    obtain ⟨effect, -, rfl⟩ := Option.map_eq_some_iff.1 hn
    show c.externalEffectState.isSome = false
    rw [hnone]
    rfl
  | restart ownerId b restartKind =>
    obtain ⟨row, -, rfl⟩ := Option.map_eq_some_iff.1 hn
    rfl
  | retry ownerId b =>
    rw [← Option.some.inj hn]
  | _ => exact nomatch hcall

/-! ## a run -/

/-- an unsettled effect is unknown or proven in the row -/
def Kept (p : Tables × List Noted) : Prop := ∀ a, Unsettled a p.2 → p.1.blocked a = true

theorem Kept.noting {p : Tables × List Noted} (h : Kept p) (hover : overwrites p.1 op = false) :
    Kept (noting p op) := by
  intro a hunsettled
  unfold Workforce.noting at hunsettled ⊢
  cases hnotes : op.notes p.1 with
  | none =>
    rw [History.recorded_none hnotes] at hunsettled ⊢
    rcases blocked_step (h a hunsettled) hover with hb | ⟨n, hn, -⟩
    · exact hb
    · rw [hnotes] at hn
      exact nomatch hn
  | some n =>
    rw [History.recorded_some hnotes] at hunsettled ⊢
    rcases History.pending_append_singleton.1 hunsettled with ⟨rfl, hraises⟩ | ⟨hbefore, hsettles⟩
    · exact blocked_of_notes hnotes hraises
    · rcases blocked_step (h a hbefore) hover with hb | ⟨n', hn', hsettled⟩
      · exact hb
      · rw [hnotes] at hn'
        obtain rfl := Option.some.inj hn'
        exact absurd hsettled hsettles

theorem Kept.unknownStays {p : Tables × List Noted} (h : Kept p) (hover : overwrites p.1 op = false) :
    UnknownStays p op where
  refuses := by
    intro a hretries hunsettled
    by_contra hok
    have hfree := not_blocked_of_retries hretries (Bool.not_eq_false _ ▸ hok)
    rw [h a hunsettled] at hfree
    exact nomatch hfree
  stays := by
    intro a hunstated hb
    rcases blocked_step hb hover with hkeep | ⟨n, hn, -, hstated, -⟩
    · exact hkeep
    · rw [unstated_notes hunstated hn] at hstated
      exact nomatch hstated

/-- **In every run that writes no `none_known` over an unknown or proven effect, retries and takeovers
wait for evidence of none, and nothing else takes the place of evidence.** -/
theorem unknown_not_retried (s : Tables) (ops : List Op)
    (h : ∀ p ∈ Run.trace step s ops, overwrites p.1 p.2 = false) :
    ∀ p ∈ Run.trace noting (s, []) ops, UnknownStays p.1 p.2 := by
  have hkept : Kept (s, []) := fun a hunsettled => absurd hunsettled History.not_pending_nil
  refine Run.trace_all_of_meets (I := Kept) (fun p op hp hover => ?_) hkept
    (History.meets_recorded (C := fun s op => overwrites s op = false) h)
  exact ⟨hp.unknownStays hover, hp.noting hover⟩

/-! ## a timeout and a retry -/

/-- evidence that there was no effect -/
def provenNone : Op :=
  ⟨2, .checkpoint 1 0 { checkpointKind := "progress", externalEffectState := some "none_proven" }⟩

/-- a retry after the evidence -/
theorem unknown_not_retried_proven :
    UnknownStays (Run.run noting (team, []) [delegated, timedOut "unknown", provenNone])
      ⟨3, .retry 1 0⟩ := by
  refine unknown_not_retried team
    ([delegated, timedOut "unknown", provenNone] ++ [⟨3, .retry 1 0⟩]) (by decide)
    (Run.run noting (team, []) [delegated, timedOut "unknown", provenNone], ⟨3, .retry 1 0⟩) ?_
  rw [Run.trace_append]
  exact List.mem_append_right _ List.mem_cons_self

/-- An ordinary checkpoint after the timeout, and the retry goes through. -/
theorem progressed_retried :
    ¬ ∀ (s : Tables) (ops : List Op), ∀ p ∈ Run.trace noting (s, []) ops, UnknownStays p.1 p.2 := by
  intro h
  let found := Run.run noting (team, []) [delegated, timedOut "unknown", progressed]
  have hmem : (found, ⟨3, .retry 1 0⟩) ∈
      Run.trace noting (team, []) ([delegated, timedOut "unknown", progressed] ++ [⟨3, .retry 1 0⟩]) := by
    rw [Run.trace_append]
    exact List.mem_append_right _ List.mem_cons_self
  have hnotes : found.2 = [] ++ ⟨0, .unknown, true⟩ :: [⟨0, .noneKnown, false⟩] := by decide
  have hunsettled : Unsettled 0 found.2 := by
    refine ⟨[], ⟨0, .unknown, true⟩, [⟨0, .noneKnown, false⟩], hnotes, ⟨rfl, rfl⟩, fun n hn => ?_⟩
    rw [List.mem_singleton.1 hn]
    exact fun hsettles => nomatch hsettles.2.1
  have hrefused := (h _ _ _ hmem).refuses 0 rfl hunsettled
  exact absurd hrefused (by decide)

end LifeAI.Workforce
