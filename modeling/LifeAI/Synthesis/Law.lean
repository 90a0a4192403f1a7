import LifeAI.Lib.History
import LifeAI.Synthesis.Steps
import Mathlib.Data.List.Range

/-!
# What a synthesis case says of its strategy

* `Synthesized`  the numbers of a recipe, the materialization of an assembled case, the fingerprint;
* `Obeys`        what a materialization needs, and the replay of an earlier call;
* `orderly`      the condition: `transition_case` assembles no case, and a reordering or a conflict is
                 repeated only while the case is a draft;
* `synthesis_law` a run whose steps all meet it keeps the law.
-/

set_option linter.unusedSectionVars false

namespace LifeAI.Synthesis

open Keyed

variable {Doc : Type} [DecidableEq Doc]

/-! ## the law -/

/-- the sequence numbers of a case -/
def Tables.numbers (s : Tables Doc) (caseId : CaseId) : List ℕ :=
  (s.components.filter (·.caseId = caseId)).map (·.sequenceNumber)

/-- the materializations of a case -/
def Tables.candidates (s : Tables Doc) (caseId : CaseId) : List Materialization :=
  s.materializations.filter (·.caseId = caseId)

/-- the fingerprint of a materialization is that of the recipe of its case -/
def Fingerprinted (lib : Documents Doc) (s : Tables Doc) (m : Materialization)
    (c : SynthesisCase Doc) : Prop :=
  m.recipeFingerprint =
    lib.digest (recipeDocument m.caseId c (s.orderedRecipe m.ownerId m.caseId))

structure Synthesized (lib : Documents Doc) (s : Tables Doc) : Prop where
  numbered : ∀ (i : CaseId) (c : SynthesisCase Doc), s.cases[i]? = some c →
    (s.numbers i).Perm (List.range' 1 (s.numbers i).length) ∧
      c.nextComponentSequence = (s.numbers i).length + 1
  materialized : ∀ (i : CaseId) (c : SynthesisCase Doc), s.cases[i]? = some c →
    c.status = .assembled ∨ c.status = .completed → (s.candidates i).length = 1
  fingerprint : ∀ m ∈ s.materializations, ∃ c, s.cases[m.caseId]? = some c ∧
    c.ownerId = m.ownerId ∧ Fingerprinted lib s m c

/-- a call that returned, and its answer -/
def answered (lib : Documents Doc) (s : Tables Doc) (op : Op Doc) : Option (Call Doc × Answer) :=
  match op.call.exec lib s with
  | (.ok r, _) => some (op.call, r)
  | _ => none

/-- the step that keeps the calls that returned -/
def answering (lib : Documents Doc) :
    Tables Doc × List (Call Doc × Answer) → Op Doc → Tables Doc × List (Call Doc × Answer) :=
  History.recorded (step lib) (answered lib)

structure Obeys (lib : Documents Doc) (p : Tables Doc × List (Call Doc × Answer)) (op : Op Doc) :
    Prop where
  /-- a new materialization finds no unresolved hard conflict, and a usable component -/
  materializes : ∀ (k : ℕ) (m : Materialization), p.1.materializations.length ≤ k →
    (step lib p.1 op).materializations[k]? = some m →
      (∀ x ∈ p.1.conflicts, x.caseId = m.caseId → x.severity = .hard → x.status ≠ .unresolved) ∧
        ∃ x ∈ p.1.components, x.caseId = m.caseId ∧ x.usable = true
  /-- an earlier call returns its row again, and changes nothing -/
  replays : ∀ r, (op.call, r) ∈ p.2 → op.call.exec lib p.1 = (.ok r, p.1)

/-- `transition_case` moves a ready case to `assembled` -/
def assembles (s : Tables Doc) : Call Doc → Bool
  | .transitionCase ownerId caseId status key => status = "assembled" &&
      s.cases[caseId]?.any (fun c => c.ownerId = ownerId ∧ c.status = .ready) &&
      (lookup Event.key s.events (ownerId, key)).isNone && ! tooLong key
  | _ => false

def orderly (p : Tables Doc × List (Call Doc × Answer)) (op : Op Doc) : Bool :=
  ! assembles p.1 op.call && (p.2.all (·.1 ≠ op.call) || stillOpen p.1 op.call)

/-- the cases are as `create_synthesis_case` leaves them -/
structure Fresh (s : Tables Doc) : Prop where
  drafts : ∀ c ∈ s.cases, c.status = .draft ∧ c.nextComponentSequence = 1
  components : s.components = []
  conflicts : s.conflicts = []
  materializations : s.materializations = []

variable {lib : Documents Doc} {s t mid : Tables Doc} {ownerId : OwnerId} {caseId : CaseId}
  {c : SynthesisCase Doc} {call : Call Doc}

/-! ## the numbers -/

/-- a component under its new number -/
def renumbered (ids : List ComponentId) (p : Component Doc × ComponentId) : Component Doc :=
  if p.2 ∈ ids then { p.1 with sequenceNumber := ids.idxOf p.2 + 1 } else p.1

theorem foldl_modify_getElem? (rows : List (Component Doc)) {ids : List ComponentId} (k j : ℕ)
    (hids : ids.Nodup) : ((ids.zipIdx k).foldl
      (fun rows p => rows.modify p.1 fun row => { row with sequenceNumber := p.2 }) rows)[j]? =
    rows[j]?.map fun x => if j ∈ ids then { x with sequenceNumber := ids.idxOf j + k } else x := by
  induction ids generalizing rows k with
  | nil => simp
  | cons i ids ih =>
    obtain ⟨hi, hids⟩ := List.nodup_cons.1 hids
    rw [List.zipIdx_cons, List.foldl_cons, ih _ _ hids, List.getElem?_modify]
    cases rows[j]? with
    | none => rfl
    | some x =>
      by_cases hij : i = j
      · -- the number that is set last is the one that stays: no later one is for this component
        subst hij
        simp [hi]
      · have hidx : (i :: ids).idxOf j = ids.idxOf j + 1 := List.idxOf_cons_ne _ hij
        have hmem : j ∈ i :: ids ↔ j ∈ ids := by simp [Ne.symm hij]
        have hnumber : ids.idxOf j + (k + 1) = ids.idxOf j + 1 + k := by omega
        simp only [hij, hidx, hmem, hnumber, if_false, Option.map_some, Functor.map]

theorem resequence_eq (rows : List (Component Doc)) {ids : List ComponentId} (hids : ids.Nodup) :
    resequence rows ids = rows.zipIdx.map (renumbered ids) := by
  refine List.ext_getElem? fun j => ?_
  unfold resequence
  rw [foldl_modify_getElem? rows 1 j hids, List.getElem?_map, List.getElem?_zipIdx]
  cases rows[j]? with
  | none => rfl
  | some x =>
    rw [Option.map_some, Option.map_some, Option.map_some, Nat.zero_add]
    rfl

/-- the numbers of a case, with the ids of its components at hand -/
theorem numbers_eq (s : Tables Doc) (i : CaseId) : s.numbers i =
    (s.components.zipIdx.filter (·.1.caseId = i)).map (·.1.sequenceNumber) := by
  unfold Tables.numbers
  conv_lhs => rw [← List.zipIdx_map_fst 0 s.components]
  rw [List.filter_map, List.map_map]
  rfl

/-- the ids of the components of a case -/
def Tables.componentIds (s : Tables Doc) (i : CaseId) : List ComponentId :=
  (s.components.zipIdx.filter (·.1.caseId = i)).map Prod.snd

theorem componentIds_nodup (s : Tables Doc) (i : CaseId) : (s.componentIds i).Nodup := by
  have hsub : (s.componentIds i).Sublist (s.components.zipIdx.map Prod.snd) :=
    List.filter_sublist.map Prod.snd
  refine hsub.nodup ?_
  rw [List.zipIdx_map_snd]
  exact List.nodup_range'

theorem mem_componentIds {i : CaseId} {j : ComponentId} :
    j ∈ s.componentIds i ↔ ∃ x, s.components[j]? = some x ∧ x.caseId = i := by
  unfold Tables.componentIds
  simp only [List.mem_map, List.mem_filter, decide_eq_true_eq, Prod.exists, exists_eq_right,
    List.mem_zipIdx_iff_getElem?]

theorem mem_orderedRecipe {i : CaseId} {p : ComponentId × Component Doc} :
    p ∈ s.orderedRecipe ownerId i ↔
      s.components[p.1]? = some p.2 ∧ p.2.ownerId = ownerId ∧ p.2.caseId = i := by
  unfold Tables.orderedRecipe
  rw [List.mem_insertionSort, List.mem_filter, List.mem_map, decide_eq_true_eq]
  refine and_congr_left fun _ => ?_
  constructor
  · intro h
    obtain ⟨⟨x, j⟩, hmem, rfl⟩ := h
    exact List.mem_zipIdx_iff_getElem?.1 hmem
  · intro h
    exact ⟨(p.2, p.1), List.mem_zipIdx_iff_getElem?.2 h, rfl⟩

/-- the numbers that a new order gives, in that order -/
theorem map_idxOf {ids : List ComponentId} (hids : ids.Nodup) :
    ids.map (fun j => ids.idxOf j + 1) = List.range' 1 ids.length := by
  refine List.ext_getElem (by simp) fun n hn hn' => ?_
  rw [List.getElem_map, List.getElem_range', hids.idxOf_getElem]
  omega

/-- the recipe of a case that a new component or a new order is not for -/
theorem orderedRecipe_congr {i : CaseId}
    (h : s.components.zipIdx.filter (·.1.caseId = i) = t.components.zipIdx.filter (·.1.caseId = i)) :
    s.orderedRecipe ownerId i = t.orderedRecipe ownerId i := by
  have hfilter : ∀ u : Tables Doc, (u.components.zipIdx.map Prod.swap).filter
      (fun p => p.2.ownerId = ownerId ∧ p.2.caseId = i) =
      ((u.components.zipIdx.filter (·.1.caseId = i)).filter (·.1.ownerId = ownerId)).map Prod.swap := by
    intro u
    rw [List.filter_map, List.filter_filter]
    congr 1
    refine List.filter_congr fun p _ => ?_
    simp
  unfold Tables.orderedRecipe
  rw [hfilter, hfilter, h]

/-! ## the invariant -/

/-- a row names a case of its owner, as the composite foreign keys have it -/
def Owns (s : Tables Doc) (ownerId : OwnerId) (i : CaseId) : Prop :=
  ∃ c, s.cases[i]? = some c ∧ c.ownerId = ownerId

theorem Owns.mono (h : Owns s ownerId caseId) (hgrows : Grows s t) : Owns t ownerId caseId := by
  obtain ⟨c, hcase, howner⟩ := h
  obtain ⟨c', hcase', hdefinition⟩ := hgrows.cases caseId c hcase
  have howner' : c'.definition.ownerId = c.definition.ownerId := congrArg _ hdefinition
  exact ⟨c', hcase', Eq.trans howner' howner⟩

structure Inv (lib : Documents Doc) (s : Tables Doc) : Prop extends Synthesized lib s where
  components : ∀ x ∈ s.components, Owns s x.ownerId x.caseId
  conflicts : ∀ x ∈ s.conflicts, Owns s x.ownerId x.caseId
  unresolved : ∀ x ∈ s.conflicts, x.status = .unresolved → x.resolutionReason = none
  /-- the case of a materialization is closed -/
  closed : ∀ m ∈ s.materializations, ∀ c, s.cases[m.caseId]? = some c →
    c.status ≠ .draft ∧ c.status ≠ .ready

theorem Inv.noted {events : List Event} (h : Inv lib s) : Inv lib { s with events := events } :=
  { h with }

theorem Fresh.inv (h : Fresh s) : Inv lib s where
  numbered i c hcase := by
    have hnone : s.numbers i = [] := by
      unfold Tables.numbers
      rw [h.components]
      rfl
    rw [hnone]
    exact ⟨List.Perm.refl _, (h.drafts c (List.mem_of_getElem? hcase)).2⟩
  materialized i c hcase hstatus := by
    have hdraft := (h.drafts c (List.mem_of_getElem? hcase)).1
    rw [hdraft] at hstatus
    rcases hstatus with hstatus | hstatus <;> cases hstatus
  fingerprint m hm := by
    rw [h.materializations] at hm
    cases hm
  components x hx := by
    rw [h.components] at hx
    cases hx
  conflicts x hx := by
    rw [h.conflicts] at hx
    cases hx
  unresolved x hx := by
    rw [h.conflicts] at hx
    cases hx
  closed m hm := by
    rw [h.materializations] at hm
    cases hm

/-! ## what a call writes keeps the invariant -/

theorem Inv.fingerprint_kept (h : Inv lib s) (hgrows : Grows s t) {m : Materialization}
    (hm : m ∈ s.materializations)
    (hrecipe : t.orderedRecipe m.ownerId m.caseId = s.orderedRecipe m.ownerId m.caseId) :
    ∃ c, t.cases[m.caseId]? = some c ∧ c.ownerId = m.ownerId ∧ Fingerprinted lib t m c := by
  obtain ⟨c, hcase, howner, hprint⟩ := h.fingerprint m hm
  obtain ⟨c', hcase', hdefinition⟩ := hgrows.cases m.caseId c hcase
  have howner' : c'.definition.ownerId = c.definition.ownerId := congrArg _ hdefinition
  have hdocument : ∀ x : SynthesisCase Doc, recipeDocument m.caseId x.definition
      (s.orderedRecipe m.ownerId m.caseId) =
        recipeDocument m.caseId x (s.orderedRecipe m.ownerId m.caseId) := fun _ => rfl
  refine ⟨c', hcase', Eq.trans howner' howner, ?_⟩
  unfold Fingerprinted
  rw [hrecipe, ← hdocument c', hdefinition, hdocument c]
  exact hprint

/-- the case of a draft has no materialization -/
theorem Inv.ne_of_open (h : Inv lib s) (hcase : s.cases[caseId]? = some c)
    (hopen : c.status = .draft ∨ c.status = .ready) {m : Materialization}
    (hm : m ∈ s.materializations) : m.caseId ≠ caseId := by
  rintro rfl
  obtain ⟨hdraft, hready⟩ := h.closed m hm c hcase
  exact hopen.elim hdraft hready

theorem inv_component (h : Inv lib s) {row : Component Doc} (hcase : s.cases[row.caseId]? = some c)
    (howner : c.ownerId = row.ownerId) (hdraft : c.status = .draft)
    (hnumber : row.sequenceNumber = c.nextComponentSequence)
    (hgrows : Grows s { s with
      cases := s.cases.set row.caseId { c with nextComponentSequence := c.nextComponentSequence + 1 }
      components := s.components ++ [row] }) :
    Inv lib { s with
      cases := s.cases.set row.caseId { c with nextComponentSequence := c.nextComponentSequence + 1 }
      components := s.components ++ [row] } := by
  generalize hmid : ({ s with
      cases := s.cases.set row.caseId { c with nextComponentSequence := c.nextComponentSequence + 1 }
      components := s.components ++ [row] } : Tables Doc) = mid at hgrows ⊢
  have hcases : ∀ i, mid.cases[i]? = if row.caseId = i then
      some { c with nextComponentSequence := c.nextComponentSequence + 1 } else s.cases[i]? := by
    intro i
    rw [← hmid]
    exact getElem?_set_row hcase
  have hcomponents : mid.components = s.components ++ [row] := by rw [← hmid]
  have hmaterializations : mid.materializations = s.materializations := by rw [← hmid]
  have hconflicts : mid.conflicts = s.conflicts := by rw [← hmid]
  have hother : ∀ i, row.caseId ≠ i → mid.components.zipIdx.filter (·.1.caseId = i) =
      s.components.zipIdx.filter (·.1.caseId = i) := by
    intro i hi
    rw [hcomponents, List.zipIdx_append, List.filter_append]
    simp [hi]
  refine { numbered := ?_, materialized := ?_, fingerprint := ?_, components := ?_, conflicts := ?_,
           unresolved := ?_, closed := ?_ }
  · intro i c' hc'
    rw [hcases] at hc'
    obtain ⟨hperm, hnext⟩ := h.numbered row.caseId c hcase
    split at hc'
    · next hi =>
      obtain rfl := Option.some.inj hc'
      subst hi
      have hnumbers : mid.numbers row.caseId = s.numbers row.caseId ++ [c.nextComponentSequence] := by
        unfold Tables.numbers
        rw [hcomponents, List.filter_append, List.map_append, ← hnumber]
        simp
      rw [hnumbers, List.length_append, List.length_singleton, List.range'_1_concat]
      refine ⟨?_, by rw [hnext]⟩
      have hlast : c.nextComponentSequence = 1 + (s.numbers row.caseId).length := by omega
      rw [hlast]
      exact hperm.append_right _
    · next hi =>
      have hnumbers : mid.numbers i = s.numbers i := by rw [numbers_eq, numbers_eq, hother i hi]
      rw [hnumbers]
      exact h.numbered i c' hc'
  · intro i c' hc' hstatus
    rw [hcases] at hc'
    unfold Tables.candidates
    rw [hmaterializations]
    split at hc'
    · obtain rfl := Option.some.inj hc'
      dsimp only at hstatus
      rw [hdraft] at hstatus
      rcases hstatus with hstatus | hstatus <;> cases hstatus
    · exact h.materialized i c' hc' hstatus
  · intro m hm
    rw [hmaterializations] at hm
    have hne := h.ne_of_open hcase (.inl hdraft) hm
    exact h.fingerprint_kept hgrows hm (orderedRecipe_congr (hother _ hne.symm))
  · intro x hx
    rw [hcomponents] at hx
    rcases List.mem_append.1 hx with hx | hx
    · exact (h.components x hx).mono hgrows
    · obtain rfl := List.mem_singleton.1 hx
      exact Owns.mono ⟨c, hcase, howner⟩ hgrows
  · intro x hx
    rw [hconflicts] at hx
    exact (h.conflicts x hx).mono hgrows
  · rw [hconflicts]
    exact h.unresolved
  · intro m hm c' hc'
    rw [hmaterializations] at hm
    rw [hcases, if_neg (h.ne_of_open hcase (.inl hdraft) hm).symm] at hc'
    exact h.closed m hm c' hc'

theorem renumbered_caseId (ids : List ComponentId) (p : Component Doc × ComponentId) :
    (renumbered ids p).caseId = p.1.caseId := by
  unfold renumbered
  split <;> rfl

theorem renumbered_ownerId (ids : List ComponentId) (p : Component Doc × ComponentId) :
    (renumbered ids p).ownerId = p.1.ownerId := by
  unfold renumbered
  split <;> rfl

/-- the components of a case, once they have new numbers -/
theorem filter_renumbered (rows : List (Component Doc)) (ids : List ComponentId) (i : CaseId) :
    (rows.zipIdx.map (renumbered ids)).zipIdx.filter (·.1.caseId = i) =
      (rows.zipIdx.filter (·.1.caseId = i)).map fun p => (renumbered ids p, p.2) := by
  have hzip : (rows.zipIdx.map (renumbered ids)).zipIdx =
      rows.zipIdx.map fun p => (renumbered ids p, p.2) := by
    refine List.ext_getElem? fun n => ?_
    rw [List.getElem?_zipIdx, List.getElem?_map, List.getElem?_map, List.getElem?_zipIdx]
    cases rows[n]? with
    | none => rfl
    | some x =>
      rw [Option.map_some, Option.map_some, Option.map_some, Option.map_some, Nat.zero_add]
  rw [hzip, List.filter_map]
  congr 1
  refine List.filter_congr fun p _ => ?_
  simp only [Function.comp_apply, renumbered_caseId]

/-- an order that covers the recipe lists the components of the case -/
theorem componentIds_perm (h : Inv lib s) (hcase : s.ownedCase ownerId caseId = .ok c)
    {ids : List ComponentId} (hcovers : coversRecipe s ownerId caseId ids = true) :
    (s.componentIds caseId).Perm ids ∧ ids.Nodup := by
  obtain ⟨hrow, howner⟩ := ownedCase_ok.1 hcase
  obtain ⟨hids, hsame⟩ := of_decide_eq_true hcovers
  refine ⟨(List.perm_ext_iff_of_nodup (componentIds_nodup s caseId) hids).2 fun j => ?_, hids⟩
  have hmem : j ∈ ids ↔ j ∈ (s.orderedRecipe ownerId caseId).map Prod.fst := by
    rw [← List.mem_toFinset, hsame, List.mem_toFinset]
  rw [mem_componentIds, hmem, List.mem_map]
  constructor
  · intro hj
    obtain ⟨x, hx, hi⟩ := hj
    obtain ⟨c', hcase', howner'⟩ := h.components x (List.mem_of_getElem? hx)
    rw [hi, hrow] at hcase'
    obtain rfl := Option.some.inj hcase'
    exact ⟨(j, x), mem_orderedRecipe.2 ⟨hx, howner'.symm.trans howner, hi⟩, rfl⟩
  · intro hj
    obtain ⟨p, hp, rfl⟩ := hj
    obtain ⟨hx, -, hi⟩ := mem_orderedRecipe.1 hp
    exact ⟨p.2, hx, hi⟩

theorem inv_order (h : Inv lib s) (hcase : s.ownedCase ownerId caseId = .ok c)
    (hdraft : c.status = .draft) {ids : List ComponentId}
    (hcovers : coversRecipe s ownerId caseId ids = true)
    (hgrows : Grows s { s with components := resequence s.components ids }) :
    Inv lib { s with components := resequence s.components ids } := by
  obtain ⟨hperm, hids⟩ := componentIds_perm h hcase hcovers
  obtain ⟨hrow, -⟩ := ownedCase_ok.1 hcase
  rw [resequence_eq _ hids] at hgrows ⊢
  generalize hmid : ({ s with components := s.components.zipIdx.map (renumbered ids) } : Tables Doc) =
    mid at hgrows ⊢
  have hfilter : ∀ i, mid.components.zipIdx.filter (·.1.caseId = i) =
      (s.components.zipIdx.filter (·.1.caseId = i)).map fun p => (renumbered ids p, p.2) := by
    intro i
    rw [← hmid]
    exact filter_renumbered s.components ids i
  -- the components of another case are none of those that are numbered
  have hother : ∀ i, i ≠ caseId → mid.components.zipIdx.filter (·.1.caseId = i) =
      s.components.zipIdx.filter (·.1.caseId = i) := by
    intro i hi
    rw [hfilter]
    refine (List.map_congr_left fun p hp => ?_).trans (List.map_id _)
    have hp' := List.mem_filter.1 hp
    have hnot : p.2 ∉ ids := by
      intro hmem
      obtain ⟨x, hx, hxi⟩ := mem_componentIds.1 (hperm.mem_iff.2 hmem)
      have hpx : s.components[p.2]? = some p.1 := List.mem_zipIdx_iff_getElem?.1 hp'.1
      obtain rfl := Option.some.inj (hx.symm.trans hpx)
      exact hi ((of_decide_eq_true hp'.2).symm.trans hxi)
    rw [renumbered, if_neg hnot]
    rfl
  have hcases : mid.cases = s.cases := by rw [← hmid]
  have hmaterializations : mid.materializations = s.materializations := by rw [← hmid]
  have hconflicts : mid.conflicts = s.conflicts := by rw [← hmid]
  have hlength : ∀ i, (mid.numbers i).length = (s.numbers i).length := by
    intro i
    rw [numbers_eq, numbers_eq, hfilter]
    simp only [List.length_map]
  refine { numbered := ?_, materialized := ?_, fingerprint := ?_, components := ?_, conflicts := ?_,
           unresolved := ?_, closed := ?_ }
  · intro i c' hc'
    rw [hcases] at hc'
    obtain ⟨hnumbered, hnext⟩ := h.numbered i c' hc'
    refine ⟨?_, by rw [hlength]; exact hnext⟩
    rw [hlength]
    by_cases hi : i = caseId
    · subst hi
      have hnumbers : mid.numbers i = (s.componentIds i).map fun j => ids.idxOf j + 1 := by
        rw [numbers_eq, hfilter, Tables.componentIds, List.map_map, List.map_map]
        refine List.map_congr_left fun p hp => ?_
        have hmem : p.2 ∈ ids := hperm.mem_iff.1 (List.mem_map_of_mem hp)
        show (renumbered ids p).sequenceNumber = ids.idxOf p.2 + 1
        rw [renumbered, if_pos hmem]
      have hcount : (s.numbers i).length = ids.length := by
        rw [← hperm.length_eq, numbers_eq, Tables.componentIds, List.length_map, List.length_map]
      rw [hnumbers, hcount, ← map_idxOf hids]
      exact hperm.map _
    · have hnumbers : mid.numbers i = s.numbers i := by rw [numbers_eq, numbers_eq, hother i hi]
      rw [hnumbers]
      exact hnumbered
  · intro i c' hc' hstatus
    rw [hcases] at hc'
    unfold Tables.candidates
    rw [hmaterializations]
    exact h.materialized i c' hc' hstatus
  · intro m hm
    rw [hmaterializations] at hm
    have hne := h.ne_of_open hrow (.inl hdraft) hm
    exact h.fingerprint_kept hgrows hm (orderedRecipe_congr (hother _ hne))
  · intro x hx
    rw [← hmid] at hx
    obtain ⟨p, hp, rfl⟩ := List.mem_map.1 hx
    have hp' : p.1 ∈ s.components := List.mem_of_getElem? (List.mem_zipIdx_iff_getElem?.1 hp)
    rw [renumbered_caseId, renumbered_ownerId]
    exact (h.components p.1 hp').mono hgrows
  · intro x hx
    rw [hconflicts] at hx
    exact (h.conflicts x hx).mono hgrows
  · rw [hconflicts]
    exact h.unresolved
  · intro m hm c' hc'
    rw [hmaterializations] at hm
    rw [hcases] at hc'
    exact h.closed m hm c' hc'

theorem inv_conflicts (h : Inv lib s) {conflicts : List Conflict}
    (howns : ∀ x ∈ conflicts, Owns s x.ownerId x.caseId)
    (hreasons : ∀ x ∈ conflicts, x.status = .unresolved → x.resolutionReason = none) :
    Inv lib { s with conflicts := conflicts } :=
  { h with
    conflicts := howns
    unresolved := hreasons }

theorem inv_conflict (h : Inv lib s) {row : Conflict} (hcase : s.cases[row.caseId]? = some c)
    (howner : c.ownerId = row.ownerId) (hreason : row.resolutionReason = none) :
    Inv lib { s with conflicts := s.conflicts ++ [row] } := by
  refine inv_conflicts h (fun x hx => ?_) (fun x hx hopen => ?_)
  · rcases List.mem_append.1 hx with hx | hx
    · exact h.conflicts x hx
    · obtain rfl := List.mem_singleton.1 hx
      exact ⟨c, hcase, howner⟩
  · rcases List.mem_append.1 hx with hx | hx
    · exact h.unresolved x hx hopen
    · obtain rfl := List.mem_singleton.1 hx
      exact hreason

theorem inv_conflictStatus (h : Inv lib s) {i : ConflictId} {conflict moved : Conflict}
    (hrow : s.conflicts[i]? = some conflict) (howner : moved.ownerId = conflict.ownerId)
    (hcase : moved.caseId = conflict.caseId) (hmoved : moved.status ≠ .unresolved) :
    Inv lib { s with conflicts := s.conflicts.set i moved } := by
  refine inv_conflicts h (fun x hx => ?_) (fun x hx hopen => ?_)
  · rcases List.mem_or_eq_of_mem_set hx with hx | rfl
    · exact h.conflicts x hx
    · rw [howner, hcase]
      exact h.conflicts conflict (List.mem_of_getElem? hrow)
  · rcases List.mem_or_eq_of_mem_set hx with hx | rfl
    · exact h.unresolved x hx hopen
    · exact absurd hopen hmoved

/-- where a transition of a case comes from -/
theorem caseTransitions_from {old next : CaseStatus} (h : next ∈ caseTransitions old) :
    next ≠ .draft ∧ (next = .ready → old = .draft) ∧ (next = .assembled → old = .ready) ∧
      (next = .completed → old = .assembled) := by
  cases old <;> cases next <;> simp_all [caseTransitions]

theorem inv_caseStatus (h : Inv lib s) (hcase : s.cases[caseId]? = some c) {next : CaseStatus}
    (hnext : next ∈ caseTransitions c.status) (hassembled : next ≠ .assembled)
    (hgrows : Grows s { s with cases := s.cases.set caseId { c with status := next } }) :
    Inv lib { s with cases := s.cases.set caseId { c with status := next } } := by
  obtain ⟨hdraft, hready, -, hcompleted⟩ := caseTransitions_from hnext
  generalize hmid : ({ s with cases := s.cases.set caseId { c with status := next } } : Tables Doc) =
    mid at hgrows ⊢
  have hcases : ∀ i, mid.cases[i]? = if caseId = i then some { c with status := next }
      else s.cases[i]? := by
    intro i
    rw [← hmid]
    exact getElem?_set_row hcase
  have hcomponents : mid.components = s.components := by rw [← hmid]
  have hmaterializations : mid.materializations = s.materializations := by rw [← hmid]
  have hconflicts : mid.conflicts = s.conflicts := by rw [← hmid]
  refine { numbered := ?_, materialized := ?_, fingerprint := ?_, components := ?_, conflicts := ?_,
           unresolved := ?_, closed := ?_ }
  · intro i c' hc'
    have hnumbers : mid.numbers i = s.numbers i := by rw [Tables.numbers, hcomponents]; rfl
    rw [hnumbers]
    rw [hcases] at hc'
    split at hc'
    · next hi =>
      obtain rfl := Option.some.inj hc'
      exact hi ▸ h.numbered caseId c hcase
    · exact h.numbered i c' hc'
  · intro i c' hc' hstatus
    unfold Tables.candidates
    rw [hmaterializations]
    rw [hcases] at hc'
    split at hc'
    · next hi =>
      obtain rfl := Option.some.inj hc'
      rcases hstatus with hstatus | hstatus
      · exact absurd hstatus hassembled
      · exact hi ▸ h.materialized caseId c hcase (.inl (hcompleted hstatus))
    · exact h.materialized i c' hc' hstatus
  · intro m hm
    rw [hmaterializations] at hm
    have hrecipe : mid.orderedRecipe m.ownerId m.caseId = s.orderedRecipe m.ownerId m.caseId := by
      refine orderedRecipe_congr ?_
      rw [hcomponents]
    exact h.fingerprint_kept hgrows hm hrecipe
  · intro x hx
    rw [hcomponents] at hx
    exact (h.components x hx).mono hgrows
  · intro x hx
    rw [hconflicts] at hx
    exact (h.conflicts x hx).mono hgrows
  · rw [hconflicts]
    exact h.unresolved
  · intro m hm c' hc'
    rw [hmaterializations] at hm
    rw [hcases] at hc'
    split at hc'
    · next hi =>
      obtain rfl := Option.some.inj hc'
      obtain ⟨holdDraft, -⟩ := h.closed m hm c (hi ▸ hcase)
      exact ⟨hdraft, fun heq => holdDraft (hready heq)⟩
    · exact h.closed m hm c' hc'

theorem inv_materialization (h : Inv lib s) (hcase : s.cases[caseId]? = some c)
    (hready : c.status = .ready) {strategies : List (WorkStrategy Doc)} {m : Materialization}
    (hcaseId : m.caseId = caseId) (howner : c.ownerId = m.ownerId) (hprint : Fingerprinted lib s m c)
    (hgrows : Grows s { s with
      strategies := strategies
      materializations := s.materializations ++ [m]
      cases := s.cases.set caseId { c with status := .assembled } }) :
    Inv lib { s with
      strategies := strategies
      materializations := s.materializations ++ [m]
      cases := s.cases.set caseId { c with status := .assembled } } := by
  generalize hmid : ({ s with
      strategies := strategies
      materializations := s.materializations ++ [m]
      cases := s.cases.set caseId { c with status := .assembled } } : Tables Doc) = mid at hgrows ⊢
  have hcases : ∀ i, mid.cases[i]? = if caseId = i then some { c with status := .assembled }
      else s.cases[i]? := by
    intro i
    rw [← hmid]
    exact getElem?_set_row hcase
  have hcomponents : mid.components = s.components := by rw [← hmid]
  have hmaterializations : mid.materializations = s.materializations ++ [m] := by rw [← hmid]
  have hconflicts : mid.conflicts = s.conflicts := by rw [← hmid]
  have hrecipe : ∀ o i, mid.orderedRecipe o i = s.orderedRecipe o i := by
    intro o i
    refine orderedRecipe_congr ?_
    rw [hcomponents]
  have hnone : ∀ x ∈ s.materializations, x.caseId ≠ caseId := fun x hx =>
    h.ne_of_open hcase (.inr hready) hx
  refine { numbered := ?_, materialized := ?_, fingerprint := ?_, components := ?_, conflicts := ?_,
           unresolved := ?_, closed := ?_ }
  · intro i c' hc'
    have hnumbers : mid.numbers i = s.numbers i := by rw [Tables.numbers, hcomponents]; rfl
    rw [hnumbers]
    rw [hcases] at hc'
    split at hc'
    · next hi =>
      obtain rfl := Option.some.inj hc'
      exact hi ▸ h.numbered caseId c hcase
    · exact h.numbered i c' hc'
  · intro i c' hc' hstatus
    unfold Tables.candidates
    rw [hmaterializations, List.filter_append, List.length_append]
    rw [hcases] at hc'
    split at hc'
    · next hi =>
      subst hi
      have hold : s.materializations.filter (·.caseId = caseId) = [] := by
        refine List.filter_eq_nil_iff.2 fun x hx => ?_
        rw [decide_eq_true_eq]
        exact hnone x hx
      rw [hold]
      simp [hcaseId]
    · next hi =>
      have hnew : m.caseId ≠ i := fun heq => hi (hcaseId.symm.trans heq)
      have hone := h.materialized i c' hc' hstatus
      rw [Tables.candidates] at hone
      rw [hone]
      simp [hnew]
  · intro x hx
    rw [hmaterializations] at hx
    rcases List.mem_append.1 hx with hx | hx
    · exact h.fingerprint_kept hgrows hx (hrecipe _ _)
    · obtain rfl := List.mem_singleton.1 hx
      refine ⟨{ c with status := .assembled }, ?_, howner, ?_⟩
      · rw [hcases, if_pos hcaseId.symm]
      · unfold Fingerprinted
        rw [hrecipe]
        exact hprint
  · intro x hx
    rw [hcomponents] at hx
    exact (h.components x hx).mono hgrows
  · intro x hx
    rw [hconflicts] at hx
    exact (h.conflicts x hx).mono hgrows
  · rw [hconflicts]
    exact h.unresolved
  · intro x hx c' hc'
    rw [hmaterializations] at hx
    rw [hcases] at hc'
    split at hc'
    · obtain rfl := Option.some.inj hc'
      exact ⟨nofun, nofun⟩
    · next hi =>
      rcases List.mem_append.1 hx with hx | hx
      · exact h.closed x hx c' hc'
      · obtain rfl := List.mem_singleton.1 hx
        exact absurd hcaseId.symm hi

/-- a call that does not assemble its case by hand keeps the invariant in what it writes -/
theorem Writes.inv {row : Event} {answer : EventId → Answer} (h : Inv lib s)
    (hwrites : Writes lib s call mid row answer)
    (hkey : lookup Event.key mid.events row.key = none → ¬ tooLong row.idempotencyKey = true)
    (hby : assembles s call = false) : Inv lib mid := by
  have hgrows := hwrites.grows
  cases hwrites with
  | component ownerId a c hchecked hnew hdraft =>
    obtain ⟨hrow, howner⟩ := ownedCase_ok.1 (ComponentArgs.checked_ok.1 hchecked).1
    exact @inv_component _ _ _ _ _ h (a.row lib ownerId c) hrow howner hdraft rfl hgrows
  | order ownerId caseId ids key c hcase hdraft hcovers =>
    exact inv_order h hcase hdraft hcovers hgrows
  | conflictAgain ownerId a id existing hchecked hfound hsame => exact h
  | conflict ownerId a hchecked hnew =>
    obtain ⟨⟨c, hcase, -⟩, -⟩ := ConflictArgs.checked_ok.1 hchecked
    obtain ⟨hrow, howner⟩ := ownedCase_ok.1 hcase
    exact inv_conflict h hrow howner rfl
  | conflictStatus ownerId id conflict next status reason key hconflict howner hopen hnext =>
    exact inv_conflictStatus h hconflict rfl rfl hnext
  | caseStatus ownerId caseId c next status key hcase hnext hname hnew =>
    obtain ⟨hrow, howner⟩ := ownedCase_ok.1 hcase
    refine inv_caseStatus h hrow hnext ?_ hgrows
    rintro rfl
    have hready : c.status = .ready := (caseTransitions_from hnext).2.2.1 rfl
    have hlong := hkey hnew
    have hassembles : assembles s (.transitionCase ownerId caseId status key) = true := by
      have hshort : tooLong key = false := Bool.eq_false_iff.2 hlong
      simp [assembles, ← hname, hrow, hnew, CaseStatus.name, howner, hready, hshort]
    rw [hassembles] at hby
    cases hby
  | materialization ownerId caseId key c strategyId strategies values hcase hnew hready hstate
      hvalues =>
    obtain ⟨hrow, howner⟩ := ownedCase_ok.1 hcase
    subst hvalues
    exact inv_materialization h hrow hready rfl howner rfl hgrows

/-! ## a step -/

theorem step_eq (lib : Documents Doc) (s : Tables Doc) (op : Op Doc) :
    step lib s op = s ∨ step lib s op = (op.call.exec lib s).2 := by
  unfold step
  split
  · next heq => exact .inr (by rw [heq])
  · next heq =>
    split
    · exact .inl rfl
    · exact .inr (by rw [heq])

theorem Inv.exec (h : Inv lib s) (hby : assembles s call = false) :
    Inv lib (call.exec lib s).2 := by
  have hgoes := exec_goes lib s call
  generalize call.exec lib s = p at hgoes ⊢
  cases hgoes with
  | refused e => exact h
  | replayed r hr => exact h
  | wrote mid row answer hwrites =>
    rcases event_tables s mid row answer with heq | ⟨hkey, events, -, heq⟩
    · rw [heq]
      exact h
    · rw [heq]
      exact (hwrites.inv h hkey hby).noted

theorem Inv.step (h : Inv lib s) {op : Op Doc} (hby : assembles s op.call = false) :
    Inv lib (step lib s op) := by
  rcases step_eq lib s op with heq | heq
  · rw [heq]
    exact h
  · rw [heq]
    exact h.exec hby

/-- what readiness finds -/
theorem readiness_ready (h : Inv lib s) (hcase : s.ownedCase ownerId caseId = .ok c)
    (hready : (readiness s ownerId caseId c).ready = true) :
    (∀ x ∈ s.conflicts, x.caseId = caseId → x.severity = .hard → x.status ≠ .unresolved) ∧
      ∃ x ∈ s.components, x.caseId = caseId ∧ x.usable = true := by
  have hblockers := of_decide_eq_true hready
  obtain ⟨hfirst, hhard⟩ := List.append_eq_nil_iff.1 hblockers
  obtain ⟨husable, -⟩ := List.append_eq_nil_iff.1 hfirst
  constructor
  · intro x hx hi hsevere hopen
    obtain ⟨hrow, howner⟩ := ownedCase_ok.1 hcase
    obtain ⟨c', hcase', howner'⟩ := h.conflicts x hx
    rw [hi, hrow] at hcase'
    obtain rfl := Option.some.inj hcase'
    obtain ⟨n, hn⟩ := List.getElem?_of_mem hx
    have hmem : (n, x) ∈ s.unresolvedConflicts ownerId caseId := by
      unfold Tables.unresolvedConflicts
      refine List.mem_filter.2 ⟨List.mem_map.2 ⟨(x, n), List.mem_zipIdx_iff_getElem?.2 hn, rfl⟩, ?_⟩
      exact decide_eq_true ⟨howner'.symm.trans howner, hi, hopen⟩
    have hany : (s.unresolvedConflicts ownerId caseId).any (fun row => row.2.severity = .hard) = true :=
      List.any_eq_true.2 ⟨(n, x), hmem, decide_eq_true hsevere⟩
    rw [if_pos hany] at hhard
    cases hhard
  · by_cases hany : (s.orderedRecipe ownerId caseId).any (fun row => row.2.usable) = true
    · obtain ⟨p, hp, hpu⟩ := List.any_eq_true.1 hany
      obtain ⟨hrow, -, hi⟩ := mem_orderedRecipe.1 hp
      exact ⟨p.2, List.mem_of_getElem? hrow, hi, hpu⟩
    · rw [if_neg hany] at husable
      cases husable

theorem exec_materializes (h : Inv lib s) {k : ℕ} {m : Materialization}
    (hk : s.materializations.length ≤ k) (hm : (call.exec lib s).2.materializations[k]? = some m) :
    (∀ x ∈ s.conflicts, x.caseId = m.caseId → x.severity = .hard → x.status ≠ .unresolved) ∧
      ∃ x ∈ s.components, x.caseId = m.caseId ∧ x.usable = true := by
  have hold : s.materializations[k]? = none := List.getElem?_eq_none hk
  have hgoes := exec_goes lib s call
  generalize call.exec lib s = p at hgoes hm
  cases hgoes with
  | refused e =>
    rw [hold] at hm
    cases hm
  | replayed r hr =>
    rw [hold] at hm
    cases hm
  | wrote mid row answer hwrites =>
    rcases event_tables s mid row answer with heq | ⟨-, events, -, heq⟩
    · rw [heq, hold] at hm
      cases hm
    · rw [heq] at hm
      cases hwrites with
      | materialization ownerId caseId key c strategyId strategies values hcase hnew hready hstate
          hvalues =>
        rcases getElem?_insert hm with hm | ⟨-, rfl⟩
        · rw [hold] at hm
          cases hm
        · rw [hvalues]
          exact readiness_ready h hcase hstate
      | _ =>
        rw [hold] at hm
        cases hm

/-- the calls that returned are all still there -/
def Remembers (lib : Documents Doc) (p : Tables Doc × List (Call Doc × Answer)) : Prop :=
  ∀ q ∈ p.2, Recorded lib p.1 q.1 q.2

theorem step_grows (lib : Documents Doc) (s : Tables Doc) (op : Op Doc) :
    Grows s (step lib s op) := by
  rcases step_eq lib s op with heq | heq
  · rw [heq]
    exact Grows.refl s
  · rw [heq]
    exact (exec_goes lib s op.call).grows

/-- between two moments of a run a case keeps its definition and a component its content, a conflict
that was moved stays so, and no event or materialization goes -/
theorem rows_grow (lib : Documents Doc) (s : Tables Doc) (before after : List (Op Doc)) :
    Grows (Run.run (step lib) s before) (Run.run (step lib) s (before ++ after)) := by
  rw [Run.run_append]
  exact Run.inv_all (I := Grows _) (fun t op h => h.trans (step_grows lib t op)) (.refl _) after

theorem answered_some {op : Op Doc} {q : Call Doc × Answer} (h : answered lib s op = some q) :
    op.call = q.1 ∧ op.call.exec lib s = (.ok q.2, step lib s op) := by
  unfold answered at h
  unfold step
  split at h
  · next r after heq =>
    obtain rfl := Option.some.inj h
    refine ⟨rfl, ?_⟩
    rw [heq]
  · cases h

theorem Remembers.step {p : Tables Doc × List (Call Doc × Answer)} (h : Remembers lib p)
    (op : Op Doc) : Remembers lib (answering lib p op) := by
  intro q hq
  have hgrows := step_grows lib p.1 op
  rcases List.mem_append.1 hq with hq | hq
  · exact (h q hq).mono hgrows
  · obtain ⟨hcall, hexec⟩ := answered_some (Option.mem_toList.1 hq)
    have hgoes := exec_goes lib p.1 op.call
    rw [hexec] at hgoes
    rw [← hcall]
    exact hgoes.recorded

theorem obeys_of_orderly {p : Tables Doc × List (Call Doc × Answer)} (h : Inv lib p.1)
    (hcalls : Remembers lib p) {op : Op Doc} (hop : orderly p op = true) : Obeys lib p op where
  materializes k m hk hm := by
    rcases step_eq lib p.1 op with heq | heq
    · rw [heq, List.getElem?_eq_none hk] at hm
      cases hm
    · rw [heq] at hm
      exact exec_materializes h hk hm
  replays r hr := by
    have hopen := (Bool.and_eq_true_iff.1 hop).2
    have hrepeats : p.2.all (·.1 ≠ op.call) = false := by
      refine List.all_eq_false.2 ⟨(op.call, r), hr, ?_⟩
      simp
    rw [hrepeats, Bool.false_or] at hopen
    have hrecorded : Recorded lib p.1 op.call r := hcalls (op.call, r) hr
    exact hrecorded.replays h.unresolved hopen

/-- along every run whose steps are orderly, every step obeys the law of its call, and every state
the law of its cases -/
theorem synthesis_law (lib : Documents Doc) (s : Tables Doc) (hs : Fresh s) (ops : List (Op Doc))
    (hops : Run.Meets (answering lib) (fun p op => orderly p op = true) (s, []) ops) :
    Run.Always (answering lib) (fun p => Synthesized lib p.1) (s, []) ops ∧
      ∀ q ∈ Run.trace (answering lib) (s, []) ops, Obeys lib q.1 q.2 := by
  have hstart : Inv lib s ∧ Remembers lib (s, []) :=
    ⟨hs.inv, fun q hq => absurd hq List.not_mem_nil⟩
  have hstep : ∀ p op, (Inv lib p.1 ∧ Remembers lib p) → orderly p op = true →
      Inv lib (answering lib p op).1 ∧ Remembers lib (answering lib p op) := by
    intro p op hp hop
    have hby : assembles p.1 op.call = false := by
      have hfirst := (Bool.and_eq_true_iff.1 hop).1
      rwa [Bool.not_eq_true'] at hfirst
    have hkept : Inv lib (answering lib p op).1 := hp.1.step hby
    exact ⟨hkept, hp.2.step op⟩
  constructor
  · exact Run.always (I := fun p => Inv lib p.1 ∧ Remembers lib p)
      (fun p hp => hp.1.toSynthesized) hstep hstart hops
  · exact Run.trace_all_of_meets (I := fun p => Inv lib p.1 ∧ Remembers lib p)
      (fun p op hp hop => ⟨obeys_of_orderly hp.1 hp.2 hop, hstep p op hp hop⟩) hstart hops

/-! ## a case about retries -/

/-- JSON values by their text, and the fingerprint of the recipe that `retried` materializes -/
def texts : Documents String where
  empty := "{}"
  truthy d := d ∉ ["{}", "[]", "null", "false", "0", "\"\""]
  isObject d := d.toList.head? = some '{'
  toolIdentity _ := none
  digest _ := "0ac049fa674e25969f6031fff34160e5f0787feca41d89e54473a172fc75e09d"

def retries : Tables String where
  cases := [
    { ownerId := 7
      caseKey := "retries"
      revision := 1
      candidateStrategyKey := "retries"
      candidateStrategyVersion := 1
      qualityInvariants := ["\"verified\""]
      applicability := "{}" }]
  inputs := [⟨7, 0⟩]

def adding (kind : ComponentKind) (description key : String) : Op String where
  call := .addRecipeComponent 7
    { caseId := 0
      inputId := 0
      componentKind := kind
      description := description
      disposition := .included
      reason := "it worked"
      idempotencyKey := key }

def hidden : Op String where
  call := .recordConflict 7
    { caseId := 0
      description := "retries hide failures"
      idempotencyKey := "hidden"
      leftComponentId := some 0 }

/-- two components in another order, and a conflict between them -/
def drafting : List (Op String) :=
  [adding .retryStrategy "retry once" "retry", adding .testSequence "run the tests" "tests",
    ⟨.reorderRecipe 7 0 [1, 0] "order", true⟩, hidden]

def settling : List (Op String) :=
  [⟨.transitionConflict 7 0 "resolved" (some "the tests run first") "settled", true⟩,
    ⟨.transitionCase 7 0 "ready" "ready", true⟩]

/-- the recipe is put together, materialized, and all but the draft's calls are made once more -/
def retried : List (Op String) :=
  drafting ++ drafting ++ settling ++ [⟨.materializeCandidate 7 0 "candidate", true⟩] ++ settling ++
    [⟨.materializeCandidate 7 0 "candidate", true⟩, ⟨.transitionCase 7 0 "completed" "done", true⟩]

theorem synthesis_law_retried :
    (Run.run (answering texts) (retries, []) retried).1.cases.map (·.status) = [.completed] ∧
      Run.Always (answering texts) (fun p => Synthesized texts p.1) (retries, []) retried := by
  refine ⟨by decide, (synthesis_law texts retries ?_ retried ?_).1⟩
  · exact ⟨by decide, rfl, rfl, rfl⟩
  · decide

/-- an assembled case without a materialization, and two earlier calls that raise -/
theorem assembled_without_candidate :
    let drafted := Run.run (answering texts) (retries, []) (drafting ++ settling)
    let assembled := step texts drafted.1 ⟨.transitionCase 7 0 "assembled" "by hand", true⟩
    let reorder : Call String := .reorderRecipe 7 0 [1, 0] "order"
    (assembled.cases.map (·.status) = [.assembled] ∧ assembled.candidates 0 = []) ∧
      ((reorder, .event 2) ∈ drafted.2 ∧ (reorder.exec texts drafted.1).1 =
        .error (.strategySynthesis "recipe may be reordered only while draft")) ∧
      ((hidden.call, .conflict 0) ∈ drafted.2 ∧ (hidden.call.exec texts drafted.1).1 =
        .error (.strategySynthesis "conflicts may be recorded only while draft")) := by
  decide

end LifeAI.Synthesis
