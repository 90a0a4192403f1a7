import LifeAI.MemorySource.Model

/-!
# What the events keep

* `Sound`   one unit under an identity key, and no half pair but that of a call under way;
* `Inv`     what every event keeps (`inv_step`): `Sound`, the unit that a call is about to
            complete is as it was inserted, and a session moved only what it sees;
* `Leaves`  an event of a session leaves what the others wrote (`leaves_step`).
-/

namespace LifeAI.MemorySource
open Inserts (Home)

variable {sha256 : String → String} {s s' : Db} {t u : SessionId} {l : DocumentSourceLocator}
  {i j : UnitId} {m m' : MemorySourceUnit} {x : Session} {p : Pending} {e : Event}

/-- one unit under an identity key, and no unit without its document row but one that a call is
about to complete -/
structure Sound (s : Db) : Prop where
  unique : Inserts.Unique MemorySourceUnit.home MemorySourceUnit.sourceIdentityKey s.units
  whole : ∀ (i : ℕ) (m : MemorySourceUnit), s.units[i]? = some m → m.home ≠ .rolledBack →
    m.document = none →
      ∃ t l, m.home = .pending t ∧ (s.sessions t).pending = some ⟨l, .linking i⟩

structure Inv (sha256 : String → String) (s : Db) : Prop where
  sound : Sound s
  linking : ∀ t l i, (s.sessions t).pending = some ⟨l, .linking i⟩ →
    ∃ m, s.units[i]? = some m ∧ m.home = .pending t ∧ m.sourceKind = l.sourceKind ∧
      m.snapshotStatus = l.snapshotStatus ∧ m.standing = ⟨.active, l.contentHash sha256⟩ ∧
      (s.sessions t).transitions.lookup i = none
  moved : ∀ t, ∀ p ∈ (s.sessions t).transitions,
    ∃ m, s.units[p.1]? = some m ∧ m.home.visible t
  usable : ∀ t p, (s.sessions t).pending = some p → (s.sessions t).deactive = false

/-- the rows of the units are what they were, but for one session -/
theorem inv_setSession (h : Inv sha256 s) (hunits : s'.units = s.units)
    (hsessions : s'.sessions = Function.update s.sessions t x)
    (hlink : ∀ l i, x.pending = some ⟨l, .linking i⟩ ↔
      (s.sessions t).pending = some ⟨l, .linking i⟩)
    (hsame : ∀ l i, x.pending = some ⟨l, .linking i⟩ → x.transitions = (s.sessions t).transitions)
    (hmoved : ∀ p ∈ x.transitions, ∃ m, s.units[p.1]? = some m ∧ m.home.visible t)
    (husable : ∀ p, x.pending = some p → x.deactive = false) : Inv sha256 s' := by
  have hself : s'.sessions t = x := by rw [hsessions, Function.update_self]
  have hother : ∀ u, u ≠ t → s'.sessions u = s.sessions u := fun u hu => by
    rw [hsessions, Function.update_of_ne hu]
  have hpending : ∀ u l i, (s'.sessions u).pending = some ⟨l, .linking i⟩ ↔
      (s.sessions u).pending = some ⟨l, .linking i⟩ := fun u l i => by
    by_cases hu : u = t
    · rw [hu, hself]
      exact hlink l i
    · rw [hother u hu]
  refine ⟨⟨hunits ▸ h.sound.unique, fun i m hm hlive hnone => ?_⟩, fun u l i hp => ?_, fun u => ?_,
    fun u p hp => ?_⟩
  · rw [hunits] at hm
    obtain ⟨u, l, hhome, hp⟩ := h.sound.whole i m hm hlive hnone
    exact ⟨u, l, hhome, (hpending u l i).2 hp⟩
  · obtain ⟨m, hm, hhome, hkind, hsnap, hstanding, hnone⟩ := h.linking u l i ((hpending u l i).1 hp)
    refine ⟨m, hunits ▸ hm, hhome, hkind, hsnap, hstanding, ?_⟩
    by_cases hu : u = t
    · subst hu
      rw [hself] at hp ⊢
      rw [hsame l i hp]
      exact hnone
    · rw [hother u hu]
      exact hnone
  · rw [hunits]
    by_cases hu : u = t
    · rw [hu, hself]
      exact hmoved
    · rw [hother u hu]
      exact h.moved u
  · by_cases hu : u = t
    · subst hu
      rw [hself] at hp ⊢
      exact husable p hp
    · rw [hother u hu] at hp ⊢
      exact h.usable u p hp

/-- a call ends, or looks the unit up, before its unit is inserted -/
theorem inv_pending (h : Inv sha256 s) {p' : Option Pending} {deactive : Bool}
    (hbefore : ∀ l i, (s.sessions t).pending ≠ some ⟨l, .linking i⟩)
    (hafter : ∀ l i, p' ≠ some ⟨l, .linking i⟩) (husable : p' = none ∨ deactive = false) :
    Inv sha256 (s.setSession t { s.sessions t with pending := p', deactive }) := by
  refine inv_setSession h rfl rfl (fun l i => iff_of_false (hafter l i) (hbefore l i))
    (fun l i hp => absurd hp (hafter l i)) (h.moved t) fun p hp => ?_
  rcases husable with hnone | hfalse
  · rw [hnone] at hp
    cases hp
  · exact hfalse

/-- the rows of the units change, with what becomes of the call of a session -/
theorem inv_units (h : Inv sha256 s) {g : ℕ → MemorySourceUnit → MemorySourceUnit}
    (hunits : ∀ j, s'.units[j]? = (s.units[j]?).map (g j))
    (hother : ∀ u, u ≠ t → s'.sessions u = s.sessions u)
    (hended : (s'.sessions t).pending = none)
    (hmoved : ∀ p ∈ (s'.sessions t).transitions, p ∈ (s.sessions t).transitions)
    (hseen : ∀ u, ∀ p ∈ (s'.sessions u).transitions, ∀ m, s.units[p.1]? = some m →
      m.home.visible u → (g p.1 m).home.visible u)
    (hkey : ∀ j m, (g j m).sourceIdentityKey = m.sourceIdentityKey)
    (hback : ∀ (j : ℕ) (m : MemorySourceUnit), s.units[j]? = some m →
      (g j m).home ≠ .rolledBack → m.home ≠ .rolledBack)
    (hwhole : ∀ (j : ℕ) (m : MemorySourceUnit), s.units[j]? = some m →
      (g j m).home ≠ .rolledBack → (g j m).document = none → m.document = none ∧
        (g j m).home = m.home ∧ m.home ≠ .pending t)
    (hpending : ∀ (j : ℕ) (m : MemorySourceUnit) (u : SessionId), u ≠ t → s.units[j]? = some m →
      m.home = .pending u → (g j m).home = m.home ∧ (g j m).sourceKind = m.sourceKind ∧
        (g j m).snapshotStatus = m.snapshotStatus ∧ (g j m).standing = m.standing) :
    Inv sha256 s' := by
  have hrow : ∀ (j : ℕ) (m' : MemorySourceUnit), s'.units[j]? = some m' →
      ∃ m, s.units[j]? = some m ∧ m' = g j m := fun j m' hm' => by
    rw [hunits, Option.map_eq_some_iff] at hm'
    obtain ⟨m, hm, heq⟩ := hm'
    exact ⟨m, hm, heq.symm⟩
  refine ⟨⟨h.sound.unique.of_rows fun j m' hm' => ?_, fun j m' hm' hlive hnone => ?_⟩,
    fun u l i hp => ?_, fun u p hp => ?_, fun u p hp => ?_⟩
  · obtain ⟨m, hm, rfl⟩ := hrow j m' hm'
    exact ⟨m, hm, hkey j m, hback j m hm⟩
  · obtain ⟨m, hm, rfl⟩ := hrow j m' hm'
    obtain ⟨hbefore, hhome, hne⟩ := hwhole j m hm hlive hnone
    obtain ⟨u, l, hpend, hp⟩ := h.sound.whole j m hm (hback j m hm hlive) hbefore
    refine ⟨u, l, hhome.trans hpend, ?_⟩
    rw [hother u fun heq => hne (heq ▸ hpend)]
    exact hp
  · have hu : u ≠ t := fun heq => by
      rw [heq, hended] at hp
      cases hp
    rw [hother u hu] at hp ⊢
    obtain ⟨m, hm, hhome, hkind, hsnap, hstanding, hnone⟩ := h.linking u l i hp
    obtain ⟨hhome', hkind', hsnap', hstanding'⟩ := hpending i m u hu hm hhome
    refine ⟨g i m, ?_, hhome'.trans hhome, hkind'.trans hkind, hsnap'.trans hsnap,
      hstanding'.trans hstanding, hnone⟩
    rw [hunits, hm]
    rfl
  · have hp' : p ∈ (s.sessions u).transitions := by
      by_cases hu : u = t
      · subst hu
        exact hmoved p hp
      · rw [hother u hu] at hp
        exact hp
    obtain ⟨m, hm, hv⟩ := h.moved u p hp'
    refine ⟨g p.1 m, ?_, hseen u p hp m hm hv⟩
    rw [hunits, hm]
    rfl
  · have hu : u ≠ t := fun heq => by
      rw [heq, hended] at hp
      cases hp
    rw [hother u hu] at hp ⊢
    exact h.usable u p hp

theorem not_pending (hu : u ≠ t) (hv : m.home.visible u) : m.home ≠ .pending t := fun heq => by
  rw [heq, Home.visible_iff] at hv
  rcases hv with hc | hp
  · cases hc
  · cases hp
    exact hu rfl

theorem inv_rollback (h : Inv sha256 s) (t : SessionId) : Inv sha256 (s.rollback t) := by
  have hself : (s.rollback t).sessions t = {} := Function.update_self ..
  refine inv_units (t := t) (g := fun _ m => { m with home := m.home.rollingBack t }) h
    (fun j => List.getElem?_map ..) (fun u hu => Function.update_of_ne hu ..)
    (congrArg Session.pending hself) ?_ (fun u p hp m _ hv => ?_) (fun _ _ => rfl)
    (fun _ _ _ hlive => (Home.of_rollingBack hlive).1) (fun j m hm hlive hnone => ?_)
    fun j m u hu hm hhome => ?_
  · rw [hself]
    nofun
  · by_cases hu : u = t
    · subst hu
      rw [hself] at hp
      cases hp
    · exact Home.visible_rollingBack.2 ⟨hv, not_pending hu hv⟩
  · have hne := (Home.of_rollingBack hlive).2
    exact ⟨hnone, if_neg hne, hne⟩
  · refine ⟨if_neg fun heq => ?_, rfl, rfl, rfl⟩
    rw [hhome] at heq
    cases heq
    exact hu rfl

theorem inv_commit (h : Inv sha256 s) (t : SessionId) : Inv sha256 (s.commit t) := by
  unfold Db.commit
  split
  · exact inv_rollback h t
  · rename_i hcomplete
    have hno : ∀ (j : ℕ) (m : MemorySourceUnit), s.units[j]? = some m → m.document = none →
        m.home ≠ .pending t := fun j m hm hnone heq => by
      refine hcomplete (List.any_eq_true.2 ⟨m, List.mem_of_getElem? hm, decide_eq_true ⟨heq, ?_⟩⟩)
      rw [hnone]
      rfl
    have hself : Function.update s.sessions t { loaded := (s.sessions t).loaded
                                                loadedDocuments := (s.sessions t).loadedDocuments }
        t = { loaded := (s.sessions t).loaded
              loadedDocuments := (s.sessions t).loadedDocuments } := Function.update_self ..
    refine inv_units (t := t) h (fun j => List.getElem?_mapIdx ..)
      (fun u hu => Function.update_of_ne hu ..) (congrArg Session.pending hself) (fun p hp => ?_)
      (fun u p hp m _ hv => ?_) (fun _ _ => rfl) (fun _ _ _ hlive => Home.of_committing hlive)
      (fun j m hm hlive hnone => ?_) fun j m u hu hm hhome => ?_
    · change p ∈ (Function.update s.sessions t _ t).transitions at hp
      rw [hself] at hp
      cases hp
    · exact Home.visible_committing.2 (.inl hv)
    · have hbefore := Option.map_eq_none_iff.1 hnone
      have hne := hno j m hm hbefore
      exact ⟨hbefore, if_neg hne, hne⟩
    · refine ⟨if_neg fun heq => ?_, rfl, rfl, ?_⟩
      · rw [hhome] at heq
        cases heq
        exact hu rfl
      · -- the session did not see the unit, so it has no transition of it
        show ((s.sessions t).transitions.lookup j).getD m.standing = m.standing
        cases hlookup : (s.sessions t).transitions.lookup j with
        | none => rfl
        | some y =>
          obtain ⟨l₁, l₂, hl, -⟩ := List.lookup_eq_some_iff.1 hlookup
          obtain ⟨m', hm', hv⟩ := h.moved t (j, y) (by rw [hl]; simp)
          cases hm.symm.trans hm'
          exact absurd hhome (not_pending (Ne.symm hu) hv)

/-- the end of a call whose unit is inserted: the unit has its document row, or is rolled back -/
theorem inv_modify (h : Inv sha256 s) (hp : (s.sessions t).pending = some ⟨l, .linking i⟩)
    {f : MemorySourceUnit → MemorySourceUnit}
    (hkey : ∀ m, (f m).sourceIdentityKey = m.sourceIdentityKey)
    (hf : ∀ m, (f m).home = .rolledBack ∨ ((f m).home = m.home ∧ (f m).document ≠ none))
    (deactive : Bool) : Inv sha256 ({ s with units := s.units.modify i f }.setSession t
      { s.sessions t with pending := none, deactive }) := by
  obtain ⟨own, hown, hhome, -, -, -, hnone⟩ := h.linking t l i hp
  have hself : Function.update s.sessions t { s.sessions t with pending := none, deactive } t =
      { s.sessions t with pending := none, deactive } := Function.update_self ..
  refine inv_units (t := t) (g := fun j m => if i = j then f m else m) h
    (fun j => List.getElem?_modify ..) (fun u hu => Function.update_of_ne hu ..)
    (congrArg Session.pending hself) (fun p hp => ?_) (fun u p hp m hm hv => ?_) (fun j m => ?_)
    (fun j m hm hlive => ?_) (fun j m hm hlive hnone => ?_) fun j m u hu hm hpend => ?_
  · change p ∈ (Function.update s.sessions t _ t).transitions at hp
    rw [hself] at hp
    exact hp
  · rw [if_neg]
    · exact hv
    · intro heq
      rw [← heq, hown] at hm
      cases hm
      by_cases hu : u = t
      · subst hu
        change p ∈ (Function.update s.sessions u _ u).transitions at hp
        rw [hself] at hp
        have hne := (List.lookup_eq_none_iff.1 hnone) p hp
        rw [heq] at hne
        simp at hne
      · exact not_pending hu hv hhome
  · split
    · exact hkey m
    · rfl
  · split at hlive
    · rename_i heq
      rw [← heq, hown] at hm
      cases hm
      rw [hhome]
      nofun
    · exact hlive
  · split at hlive
    · rename_i heq
      rw [if_pos heq] at hnone
      rcases hf m with hback | ⟨-, hsome⟩
      · exact absurd hback hlive
      · exact absurd hnone hsome
    · rename_i hne
      rw [if_neg hne] at hnone
      refine ⟨hnone, if_neg hne ▸ rfl, fun hpend => ?_⟩
      obtain ⟨u, l', hu, hp'⟩ := h.sound.whole j m hm hlive hnone
      rw [hpend] at hu
      cases hu
      rw [hp] at hp'
      cases hp'
      exact hne rfl
  · have hne : i ≠ j := fun heq => by
      rw [← heq, hown] at hm
      cases hm
      rw [hhome] at hpend
      cases hpend
      exact hu rfl
    rw [if_neg hne]
    exact ⟨rfl, rfl, rfl, rfl⟩

/-- the unit that a call inserts -/
def newUnit (sha256 : String → String) (t : SessionId) (l : DocumentSourceLocator) :
    MemorySourceUnit :=
  { sourceKind := l.sourceKind, sourceIdentityKey := l.identityKey
    snapshotStatus := l.snapshotStatus
    standing := { lifecycleStatus := .active, contentHash := l.contentHash sha256 }
    document := none, home := .pending t }

/-- what the flush of a unit does: it raises, it waits, it meets a unit, or the unit is there -/
theorem insertUnit_cases (sha256 : String → String) (s : Db) (t : SessionId)
    (l : DocumentSourceLocator) :
    ((l.contentText.any fun text => '\x00' ∈ text.toList) ∧
      insertUnit sha256 s t l = s.fail t l .valueError) ∨
    ((l.contentText.all fun text => '\x00' ∉ text.toList) ∧
      ((∃ e, insertUnit sha256 s t l = s.finish t l (.error e)) ∨
        insertUnit sha256 s t l = (none, s) ∨
        insertUnit sha256 s t l = (none, s.goOn t l .looking) ∨
        ((∀ (i : ℕ) (m : MemorySourceUnit), s.units[i]? = some m → m.home ≠ .rolledBack →
            m.sourceIdentityKey ≠ l.identityKey) ∧
          insertUnit sha256 s t l = (none, { s with units := s.units ++ [newUnit sha256 t l] }.goOn
            t l (.linking s.units.length))))) := by
  unfold insertUnit
  split
  · rename_i hnul
    exact .inl ⟨hnul, rfl⟩
  · rename_i hnul
    refine .inr ⟨?_, ?_⟩
    · cases htext : l.contentText with
      | none => rfl
      | some text =>
        rw [htext] at hnul
        exact decide_eq_true fun hmem => hnul (decide_eq_true hmem)
    · split
      · rename_i e _
        exact .inl ⟨e, rfl⟩
      · split
        · exact .inr (.inl rfl)
        · rename_i hwaits
          split
          · exact .inr (.inr (.inl rfl))
          · rename_i hfound
            have hnone : s.underKey t l.identityKey = none := by simpa using hfound
            refine .inr (.inr (.inr ⟨fun i m hm hlive => ?_, rfl⟩))
            refine Inserts.key_free hnone (fun htaken => hwaits ?_) hm hlive
            exact decide_eq_true (.inl htaken)

theorem inv_append (h : Inv sha256 s) (hp : (s.sessions t).pending = some ⟨l, .inserting⟩)
    (hfree : ∀ (i : ℕ) (m : MemorySourceUnit), s.units[i]? = some m → m.home ≠ .rolledBack →
      m.sourceIdentityKey ≠ l.identityKey) :
    Inv sha256 ({ s with units := s.units ++ [newUnit sha256 t l] }.goOn t l
      (.linking s.units.length)) := by
  have hself : Function.update s.sessions t { s.sessions t with
        pending := some ⟨l, .linking s.units.length⟩ } t = { s.sessions t with
          pending := some ⟨l, .linking s.units.length⟩ } := Function.update_self ..
  have hkeep : ∀ (i : ℕ) (m : MemorySourceUnit), s.units[i]? = some m →
      (s.units ++ [newUnit sha256 t l])[i]? = some m := fun i m hm =>
    (List.getElem?_append_left (List.getElem?_eq_some_iff.1 hm).1).trans hm
  have hother : ∀ u, u ≠ t → ∀ x, Function.update s.sessions t x u = s.sessions u :=
    fun u hu x => Function.update_of_ne hu ..
  refine ⟨⟨h.sound.unique.append hfree, fun i m hm hlive hnone => ?_⟩, fun u l' i hp' => ?_,
    fun u p hp' => ?_, fun u p hp' => ?_⟩
  · rcases getElem?_insert hm with hm | ⟨rfl, rfl⟩
    · obtain ⟨u, l', hhome, hp'⟩ := h.sound.whole i m hm hlive hnone
      refine ⟨u, l', hhome, ?_⟩
      show (Function.update s.sessions t _ u).pending = _
      rw [hother u fun heq => ?_]
      · exact hp'
      · rw [heq, hp] at hp'
        cases hp'
    · exact ⟨t, l, rfl, congrArg Session.pending hself⟩
  · change (Function.update s.sessions t _ u).pending = _ at hp'
    show ∃ m, (s.units ++ [newUnit sha256 t l])[i]? = some m ∧ m.home = .pending u ∧ _ ∧ _ ∧ _ ∧
      (Function.update s.sessions t _ u).transitions.lookup i = none
    by_cases hu : u = t
    · subst hu
      rw [hself] at hp' ⊢
      cases hp'
      refine ⟨_, List.getElem?_concat_length .., rfl, rfl, rfl, rfl, ?_⟩
      rw [List.lookup_eq_none_iff]
      intro p hp'
      obtain ⟨m, hm, -⟩ := h.moved u p hp'
      exact bne_iff_ne.2 (Nat.ne_of_gt (List.getElem?_eq_some_iff.1 hm).1)
    · rw [hother u hu] at hp' ⊢
      obtain ⟨m, hm, hrest⟩ := h.linking u l' i hp'
      exact ⟨m, hkeep i m hm, hrest⟩
  · have hp'' : p ∈ (s.sessions u).transitions := by
      change p ∈ (Function.update s.sessions t _ u).transitions at hp'
      by_cases hu : u = t
      · subst hu
        rw [hself] at hp'
        exact hp'
      · rw [hother u hu] at hp'
        exact hp'
    obtain ⟨m, hm, hv⟩ := h.moved u p hp''
    exact ⟨m, hkeep p.1 m hm, hv⟩
  · change (Function.update s.sessions t _ u).pending = _ at hp'
    show (Function.update s.sessions t _ u).deactive = false
    by_cases hu : u = t
    · subst hu
      rw [hself]
      exact h.usable u _ hp
    · rw [hother u hu] at hp' ⊢
      exact h.usable u p hp'

theorem inv_insertUnit (h : Inv sha256 s) (hp : (s.sessions t).pending = some ⟨l, .inserting⟩) :
    Inv sha256 (insertUnit sha256 s t l).2 := by
  have hbefore : ∀ l' i, (s.sessions t).pending ≠ some ⟨l', .linking i⟩ := fun l' i heq => by
    rw [hp] at heq
    cases heq
  rcases insertUnit_cases sha256 s t l with ⟨-, hi⟩ | ⟨-, ⟨e, hi⟩ | hi | hi | ⟨hfree, hi⟩⟩
  · rw [hi]
    exact inv_pending h hbefore (fun _ _ => nofun) (.inl rfl)
  · rw [hi]
    exact inv_pending h hbefore (fun _ _ => nofun) (.inl rfl)
  · rw [hi]
    exact h
  · rw [hi]
    exact inv_pending h hbefore (fun _ _ => nofun) (.inr (h.usable t _ hp))
  · rw [hi]
    exact inv_append h hp hfree

theorem inv_rollbackUnit (h : Inv sha256 s)
    (hp : (s.sessions t).pending = some ⟨l, .linking i⟩) (deactive : Bool) :
    Inv sha256 ((s.rollbackUnit i).setSession t
      { s.sessions t with pending := none, deactive }) :=
  inv_modify (f := fun m => { m with home := .rolledBack }) h hp (fun _ => rfl) (fun _ => .inl rfl)
    deactive

theorem inv_insertDocument (h : Inv sha256 s)
    (hp : (s.sessions t).pending = some ⟨l, .linking i⟩) :
    Inv sha256 (insertDocument s t l i).2 := by
  unfold insertDocument
  split
  · exact inv_rollbackUnit h hp (s.sessions t).deactive
  · exact inv_modify
      (f := fun m => { m with document := some ⟨l.documentId, l.versionId, l.chunkId⟩ }) h hp
      (fun _ => rfl) (fun _ => .inr ⟨rfl, nofun⟩) (s.sessions t).deactive

/-- the lookup answers, and leaves the tables -/
theorem lookUp_eq (sha256 : String → String) (s : Db) (t : SessionId) (l : DocumentSourceLocator) :
    ∃ r, lookUp sha256 s t l = s.finish t l r := by
  unfold lookUp
  dsimp only
  split
  · split
    · exact ⟨_, rfl⟩
    · exact ⟨_, rfl⟩
  · exact ⟨_, rfl⟩

theorem inv_lookUp (h : Inv sha256 s) (hp : (s.sessions t).pending = some ⟨l, .looking⟩) :
    Inv sha256 (lookUp sha256 s t l).2 := by
  obtain ⟨r, hr⟩ := lookUp_eq sha256 s t l
  rw [hr]
  refine inv_pending h (fun l' i heq => ?_) (fun _ _ => nofun) (.inl rfl)
  rw [hp] at heq
  cases heq

theorem inv_cancelled (h : Inv sha256 s) {stage : Stage}
    (hp : (s.sessions t).pending = some ⟨l, stage⟩) : Inv sha256 (cancelled s t l stage).2 := by
  have hfail : (∀ i, stage ≠ .linking i) →
      Inv sha256 (s.fail t l (.sqlException "OperationalError")).2 := fun hne => by
    refine inv_pending h (fun l' i heq => ?_) (fun _ _ => nofun) (.inl rfl)
    rw [hp] at heq
    cases heq
    exact hne i rfl
  cases stage with
  | inserting => exact hfail fun _ => nofun
  | looking => exact hfail fun _ => nofun
  | linking i => exact inv_rollbackUnit h hp true

/-! ## the other statements of a session -/

theorem free_iff : x.free ↔ x.pending = none ∧ x.deactive = false := by
  unfold Session.free
  rw [decide_eq_true_iff, Option.isNone_iff_eq_none, Bool.not_eq_true]

/-- a session writes between two calls -/
theorem inv_free (h : Inv sha256 s) (hfree : (s.sessions t).free) (hunits : s'.units = s.units)
    (hsessions : s'.sessions = Function.update s.sessions t x) (hx : x.pending = none)
    (hmoved : ∀ p ∈ x.transitions, ∃ m, s.units[p.1]? = some m ∧ m.home.visible t) :
    Inv sha256 s' := by
  have hnone := (free_iff.1 hfree).1
  refine inv_setSession h hunits hsessions (fun l i => ?_) (fun l i hp => ?_) hmoved fun p hp => ?_
  · rw [hx, hnone]
  · rw [hx] at hp
    cases hp
  · rw [hx] at hp
    cases hp

theorem filter_visible {o : Option MemorySourceUnit}
    (h : (o.filter fun m => m.home.visible t) = some m) : o = some m ∧ m.home.visible t :=
  Option.filter_eq_some_iff.1 h

theorem inv_transition (h : Inv sha256 s) (hfree : (s.sessions t).free) (i : UnitId)
    (target : LifecycleStatus) : Inv sha256 (transition s t i target) := by
  unfold transition
  split
  · exact inv_rollback h t
  · rename_i m hm
    obtain ⟨hm, hv⟩ := filter_visible hm
    split
    · exact h
    · split
      · exact inv_rollback h t
      · refine inv_free h hfree rfl rfl (free_iff.1 hfree).1 fun p hp => ?_
        rcases List.mem_cons.1 hp with rfl | hp
        · exact ⟨m, hm, hv⟩
        · exact h.moved t p hp

theorem inv_deleteChunk (h : Inv sha256 s) (hfree : (s.sessions t).free) (i : UnitId) :
    Inv sha256 (deleteChunk s t i) := by
  unfold deleteChunk
  split
  · exact h
  · split
    · exact inv_rollback h t
    · exact inv_free h hfree rfl rfl (free_iff.1 hfree).1 (h.moved t)

theorem inv_step (h : Inv sha256 s) (e : Event) : Inv sha256 (step sha256 s e) := by
  unfold step perform
  cases e with
  | write t w =>
    dsimp only
    split
    · rename_i hfree
      exact inv_free h hfree rfl rfl (free_iff.1 hfree).1 (h.moved t)
    · exact h
  | load t i =>
    dsimp only
    split
    · rename_i hfree
      split
      · exact h
      · exact inv_free h hfree rfl rfl (free_iff.1 hfree).1 (h.moved t)
    · exact h
  | forget t i =>
    exact inv_setSession (x := { s.sessions t with
      loaded := (s.sessions t).loaded.filter fun p => p.1 ≠ i }) h rfl rfl (fun _ _ => Iff.rfl)
      (fun _ _ _ => rfl) (h.moved t) (h.usable t)
  | forgetDocument t i =>
    exact inv_setSession (x := { s.sessions t with
      loadedDocuments := (s.sessions t).loadedDocuments.filter fun p => p.1 ≠ i }) h rfl rfl
      (fun _ _ => Iff.rfl) (fun _ _ _ => rfl) (h.moved t) (h.usable t)
  | call t l =>
    dsimp only
    split
    · rename_i hfree
      obtain ⟨hnone, hactive⟩ := free_iff.1 hfree
      refine inv_pending h (fun l' i heq => ?_) (fun _ _ h => by cases h) (.inr hactive)
      rw [hnone] at heq
      cases heq
    · exact h
  | insertUnit t =>
    dsimp only
    split
    · rename_i hp
      exact inv_insertUnit h hp
    · exact h
  | insertDocument t =>
    dsimp only
    split
    · rename_i hp
      exact inv_insertDocument h hp
    · exact h
  | look t =>
    dsimp only
    split
    · rename_i hp
      exact inv_lookUp h hp
    · exact h
  | cancel t =>
    dsimp only
    split
    · rename_i hp
      exact inv_cancelled h hp
    · exact h
  | transition t i target =>
    dsimp only
    split
    · rename_i hfree
      exact inv_transition h hfree i target
    · exact h
  | deleteChunk t i =>
    dsimp only
    split
    · rename_i hfree
      exact inv_deleteChunk h hfree i
    · exact h
  | refer r => exact ⟨⟨h.sound.unique, h.sound.whole⟩, h.linking, h.moved, h.usable⟩
  | commit t =>
    dsimp only
    split
    · exact inv_commit h t
    · exact h
  | rollback t => exact inv_rollback h t

/-! ## what the other sessions wrote -/

/-- the other sessions go on with what they wrote -/
def Leaves (s s' : Db) (t : SessionId) : Prop :=
  ∀ u, u ≠ t → s'.sessions u = s.sessions u ∧
    ∀ (j : ℕ) (m : MemorySourceUnit), s.units[j]? = some m → m.home = .pending u →
      ∃ m', s'.units[j]? = some m' ∧ m'.home = .pending u

theorem Leaves.refl (s : Db) (t : SessionId) : Leaves s s t := fun _ _ =>
  ⟨rfl, fun _ m hm hhome => ⟨m, hm, hhome⟩⟩

theorem leaves_setSession (hunits : s'.units = s.units)
    (hsessions : s'.sessions = Function.update s.sessions t x) : Leaves s s' t := fun u hu => by
  refine ⟨?_, fun j m hm hhome => ⟨m, hunits ▸ hm, hhome⟩⟩
  rw [hsessions, Function.update_of_ne hu]

theorem leaves_rows {g : ℕ → MemorySourceUnit → MemorySourceUnit}
    (hunits : ∀ j, s'.units[j]? = (s.units[j]?).map (g j))
    (hsessions : s'.sessions = Function.update s.sessions t x)
    (hhome : ∀ (j : ℕ) (m : MemorySourceUnit) (u : SessionId), u ≠ t → s.units[j]? = some m →
      m.home = .pending u → (g j m).home = m.home) : Leaves s s' t := fun u hu => by
  refine ⟨by rw [hsessions, Function.update_of_ne hu], fun j m hm hpend => ?_⟩
  refine ⟨g j m, ?_, (hhome j m u hu hm hpend).trans hpend⟩
  rw [hunits, hm]
  rfl

theorem pending_ne {h : Home SessionId} (hu : u ≠ t) (hpend : h = .pending u) : h ≠ .pending t :=
  fun heq => by
    rw [hpend] at heq
    cases heq
    exact hu rfl

theorem leaves_rollback (s : Db) (t : SessionId) : Leaves s (s.rollback t) t :=
  leaves_rows (g := fun _ m => { m with home := m.home.rollingBack t })
    (fun _ => List.getElem?_map ..) rfl fun _ _ _ hu _ hpend => if_neg (pending_ne hu hpend)

theorem leaves_commit (s : Db) (t : SessionId) : Leaves s (s.commit t) t := by
  unfold Db.commit
  split
  · exact leaves_rollback s t
  · exact leaves_rows (fun _ => List.getElem?_mapIdx ..) rfl fun _ _ _ hu _ hpend =>
      if_neg (pending_ne hu hpend)

theorem leaves_modify (h : Inv sha256 s) (hp : (s.sessions t).pending = some ⟨l, .linking i⟩)
    (f : MemorySourceUnit → MemorySourceUnit) :
    Leaves s ({ s with units := s.units.modify i f }.setSession t x) t := by
  obtain ⟨own, hown, hhome, -⟩ := h.linking t l i hp
  refine leaves_rows (g := fun j m => if i = j then f m else m) (fun _ => List.getElem?_modify ..)
    rfl fun j m u hu hm hpend => ?_
  rw [if_neg]
  intro heq
  rw [← heq, hown] at hm
  cases hm
  exact pending_ne hu hpend hhome

theorem leaves_insertUnit (sha256 : String → String) (s : Db) (t : SessionId)
    (l : DocumentSourceLocator) : Leaves s (insertUnit sha256 s t l).2 t := by
  rcases insertUnit_cases sha256 s t l with ⟨-, hi⟩ | ⟨-, ⟨e, hi⟩ | hi | hi | ⟨-, hi⟩⟩
  · rw [hi]
    exact leaves_setSession rfl rfl
  · rw [hi]
    exact leaves_setSession rfl rfl
  · rw [hi]
    exact Leaves.refl s t
  · rw [hi]
    exact leaves_setSession rfl rfl
  · rw [hi]
    refine fun u hu => ⟨Function.update_of_ne hu .., fun j m hm hpend => ⟨m, ?_, hpend⟩⟩
    exact (List.getElem?_append_left (List.getElem?_eq_some_iff.1 hm).1).trans hm

theorem leaves_insertDocument (h : Inv sha256 s)
    (hp : (s.sessions t).pending = some ⟨l, .linking i⟩) :
    Leaves s (insertDocument s t l i).2 t := by
  unfold insertDocument
  split
  · exact leaves_modify h hp _
  · exact leaves_modify h hp _

theorem leaves_cancelled (h : Inv sha256 s) {stage : Stage}
    (hp : (s.sessions t).pending = some ⟨l, stage⟩) : Leaves s (cancelled s t l stage).2 t := by
  cases stage with
  | inserting => exact leaves_setSession rfl rfl
  | looking => exact leaves_setSession rfl rfl
  | linking i => exact leaves_modify h hp _

theorem leaves_transition (s : Db) (t : SessionId) (i : UnitId) (target : LifecycleStatus) :
    Leaves s (transition s t i target) t := by
  unfold transition
  split
  · exact leaves_rollback s t
  · split
    · exact Leaves.refl s t
    · split
      · exact leaves_rollback s t
      · exact leaves_setSession rfl rfl

theorem leaves_deleteChunk (s : Db) (t : SessionId) (i : UnitId) :
    Leaves s (deleteChunk s t i) t := by
  unfold deleteChunk
  split
  · exact Leaves.refl s t
  · split
    · exact leaves_rollback s t
    · exact leaves_setSession rfl rfl

/-- the session whose statement an event is -/
def Event.session : Event → Option SessionId
  | .write t _ | .load t _ | .forget t _ | .forgetDocument t _ | .call t _ | .insertUnit t
  | .insertDocument t | .look t | .cancel t | .transition t _ _ | .deleteChunk t _ | .commit t
  | .rollback t => some t
  | .refer _ => none

theorem leaves_step (h : Inv sha256 s) (he : e.session = some t) :
    Leaves s (step sha256 s e) t := by
  unfold step perform
  cases e with
  | refer r => cases he
  | write t w | call t l =>
    cases he
    dsimp only
    split
    · exact leaves_setSession rfl rfl
    · exact Leaves.refl s t
  | load t i =>
    cases he
    dsimp only
    split
    · split
      · exact Leaves.refl s t
      · exact leaves_setSession rfl rfl
    · exact Leaves.refl s t
  | forget t i | forgetDocument t i =>
    cases he
    exact leaves_setSession rfl rfl
  | insertUnit t =>
    cases he
    dsimp only
    split
    · exact leaves_insertUnit sha256 s t _
    · exact Leaves.refl s t
  | insertDocument t =>
    cases he
    dsimp only
    split
    · rename_i hp
      exact leaves_insertDocument h hp
    · exact Leaves.refl s t
  | look t =>
    cases he
    dsimp only
    split
    · rename_i l _
      obtain ⟨r, hr⟩ := lookUp_eq sha256 s t l
      rw [hr]
      exact leaves_setSession rfl rfl
    · exact Leaves.refl s t
  | cancel t =>
    cases he
    dsimp only
    split
    · rename_i hp
      exact leaves_cancelled h hp
    · exact Leaves.refl s t
  | transition t i target =>
    cases he
    dsimp only
    split
    · exact leaves_transition s t i target
    · exact Leaves.refl s t
  | deleteChunk t i =>
    cases he
    dsimp only
    split
    · exact leaves_deleteChunk s t i
    · exact Leaves.refl s t
  | commit t =>
    cases he
    dsimp only
    split
    · exact leaves_commit s t
    · exact Leaves.refl s t
  | rollback t =>
    cases he
    exact leaves_rollback s t

end LifeAI.MemorySource
