import LifeAI.Founder.Model
import LifeAI.Lib.Keyed

/-!
# What the sessions see of the notes

A view is that of a session, or the committed one.  A session that does something leaves the other
views as they are (`SameView`), until it commits: then its view becomes the committed one
(`sameView_commit`), and the other sessions see what it wrote.

* `Db.Sees`, `Db.Follows`, `Db.Retired`  a status, a successor and a note that is not active, in a
                                         view;
* `Inv`        what every event keeps (`inv_step`): a note with a successor or a dispute is retired.
-/

namespace LifeAI.Founder

/-! ## views -/

/-- the note is in the view of the session, or in the committed one -/
def Note.SeenBy (v : Option SessionId) (n : Note) : Prop :=
  n.home = .committed ∨ ∃ t, v = some t ∧ n.home = .pending t

namespace Db

variable (s : Db) (v : Option SessionId)

def writes : List (NoteId × Status) := v.elim [] fun t => (s.sessions t).statuses

def disputedIn : List NoteId := s.disputed ++ v.elim [] fun t => (s.sessions t).disputed

/-- the note has this status in the view -/
def Sees (i : NoteId) (st : Status) : Prop :=
  ∃ n, s.notes[i]? = some n ∧ n.SeenBy v ∧ st = ((s.writes v).lookup i).getD n.status

/-- `j` supersedes `i` -/
def Follows (j i : NoteId) : Prop :=
  ∃ n, s.notes[j]? = some n ∧ n.SeenBy v ∧ n.supersedesNoteId = some i

/-- the note is in the view, and is not active -/
def Retired (i : NoteId) : Prop := ∃ st, s.Sees v i st ∧ st ≠ .active

end Db

variable {readBack : Values → Values} {s s' : Db} {t u : SessionId} {v v' : Option SessionId}
  {i j k : NoteId} {st st' : Status} {n : Note} {x : Session} {c : Call}
  {old : Option (NoteId × Status)} {e : Event}

theorem visible_iff : n.visible t = true ↔ n.SeenBy (some t) := by
  unfold Note.visible Note.SeenBy
  rw [decide_eq_true_iff]
  constructor
  · intro h
    exact h.imp_right fun hp => ⟨t, rfl, hp⟩
  · intro h
    rcases h with h | ⟨u, hu, hp⟩
    · exact .inl h
    · cases hu
      exact .inr hp

theorem status_iff : s.status t i = some st ↔ s.Sees (some t) i st := by
  unfold Db.status Db.Sees
  constructor
  · intro h
    split at h
    · rename_i n hn
      split at h
      · rename_i hv
        cases h
        exact ⟨n, hn, visible_iff.1 hv, rfl⟩
      · cases h
    · cases h
  · intro h
    obtain ⟨n, hn, hv, rfl⟩ := h
    rw [hn]
    dsimp only
    rw [if_pos (visible_iff.2 hv)]
    rfl

theorem Db.Sees.unique (h : s.Sees v i st) (h' : s.Sees v i st') : st = st' := by
  obtain ⟨n, hn, -, rfl⟩ := h
  obtain ⟨n', hn', -, rfl⟩ := h'
  cases hn.symm.trans hn'
  rfl

theorem Db.Retired.not_active (h : s.Retired v i) : ¬ s.Sees v i .active := fun hactive => by
  obtain ⟨st, hst, hne⟩ := h
  exact hne (hst.unique hactive)

theorem mem_listCurrent {noteType : Option String} (h : i ∈ s.listCurrent t noteType) :
    s.Sees (some t) i .active := by
  unfold Db.listCurrent at h
  have hp := of_decide_eq_true (List.mem_filter.1 h).2
  exact status_iff.1 hp.1

/-- the view `v'` of `s'` is the view `v` of `s` -/
structure SameView (s : Db) (v : Option SessionId) (s' : Db) (v' : Option SessionId) : Prop where
  sees : ∀ i st, s'.Sees v' i st ↔ s.Sees v i st
  follows : ∀ j i, s'.Follows v' j i ↔ s.Follows v j i
  disputed : s'.disputedIn v' = s.disputedIn v

theorem SameView.retired (h : SameView s v s' v') : s'.Retired v' i ↔ s.Retired v i := by
  unfold Db.Retired
  simp only [h.sees]

/-- the notes of the view are the same, and so is what its session wrote -/
theorem sameView_of (hnotes : ∀ (i : ℕ) (n : Note), n.SeenBy v →
      (s'.notes[i]? = some n ↔ s.notes[i]? = some n))
    (hwrites : s'.writes v = s.writes v) (hdisputed : s'.disputedIn v = s.disputedIn v) :
    SameView s v s' v := by
  refine ⟨fun i st => ?_, fun j i => ?_, hdisputed⟩
  · unfold Db.Sees
    rw [hwrites]
    refine exists_congr fun n => ?_
    constructor
    · intro h
      exact ⟨(hnotes i n h.2.1).1 h.1, h.2⟩
    · intro h
      exact ⟨(hnotes i n h.2.1).2 h.1, h.2⟩
  · refine exists_congr fun n => ?_
    constructor
    · intro h
      exact ⟨(hnotes j n h.2.1).1 h.1, h.2⟩
    · intro h
      exact ⟨(hnotes j n h.2.1).2 h.1, h.2⟩

/-- a session that changes leaves the views of the others -/
theorem sameView_setSession (hv : v ≠ some t) (hnotes : ∀ (i : ℕ) (n : Note), n.SeenBy v →
      (s'.notes[i]? = some n ↔ s.notes[i]? = some n))
    (hsessions : s'.sessions = Function.update s.sessions t x)
    (hdisputed : s'.disputed = s.disputed) :
    SameView s v s' v := by
  have hsame : ∀ u, v = some u → s'.sessions u = s.sessions u := fun u hu => by
    rw [hsessions, Function.update_of_ne]
    rintro rfl
    exact hv hu
  refine sameView_of hnotes ?_ ?_
  · unfold Db.writes
    cases v with
    | none => rfl
    | some u => exact congrArg Session.statuses (hsame u rfl)
  · unfold Db.disputedIn
    rw [hdisputed]
    cases v with
    | none => rfl
    | some u => exact congrArg (s.disputed ++ ·) (congrArg Session.disputed (hsame u rfl))

/-! ## what every event keeps -/

/-- what a view keeps -/
structure ViewInv (s : Db) (v : Option SessionId) : Prop where
  followed : ∀ j i, s.Follows v j i → s.Retired v i
  disputed : ∀ i ∈ s.disputedIn v, s.Retired v i

/-- the note that a call supersedes is locked, and what the session holds of it is no more active
than it is -/
def OldInv (s : Db) (holder : NoteId → Option SessionId) (t : SessionId) (c : Call)
    (old : Option (NoteId × Status)) : Prop :=
  (c.supersedesNoteId = none ∧ old = none) ∨
    ∃ i seen, c.supersedesNoteId = some i ∧ old = some (i, seen) ∧ holder i = some t ∧
      (∃ st, s.Sees (some t) i st) ∧ (seen ≠ .active → s.Retired (some t) i)

/-- what a session keeps -/
structure SessionInv (s : Db) (t : SessionId) : Prop where
  statuses : ∀ p ∈ (s.sessions t).statuses, p.2 ≠ .active ∧ s.Retired (some t) p.1
  loaded : ∀ p ∈ (s.sessions t).loaded, p.2 ≠ .active → s.Retired (some t) p.1
  old : ∀ c old, (s.sessions t).pending = some ⟨c, .looking old⟩ ∨
    (s.sessions t).pending = some ⟨c, .writing old⟩ → OldInv s s.holder t c old

structure Inv (s : Db) : Prop where
  below : ∀ (j : ℕ) (n : Note) (i : NoteId), s.notes[j]? = some n →
    n.supersedesNoteId = some i → i < j
  keys : ∀ (i j : ℕ) (n m : Note), s.notes[i]? = some n → s.notes[j]? = some m →
    n.home ≠ .rolledBack → m.home ≠ .rolledBack → n.idempotencyKey = m.idempotencyKey → i = j
  locked : ∀ (j : ℕ) (n : Note) (i : NoteId) (t : SessionId), s.notes[j]? = some n →
    n.home = .pending t → n.supersedesNoteId = some i → s.holder i = some t
  view : ∀ v, ViewInv s v
  session : ∀ t, SessionInv s t

theorem ViewInv.same (h : ViewInv s v) (hsame : SameView s v s' v') : ViewInv s' v' where
  followed j i hf := hsame.retired.2 (h.followed j i ((hsame.follows j i).1 hf))
  disputed i hi := hsame.retired.2 (h.disputed i (hsame.disputed ▸ hi))

theorem OldInv.same {holder holder' : NoteId → Option SessionId} (h : OldInv s holder t c old)
    (hsame : SameView s (some t) s' (some t))
    (hholder : ∀ i, holder i = some t → holder' i = some t) :
    OldInv s' holder' t c old := by
  rcases h with h | ⟨i, seen, hc, hold, hheld, ⟨st, hst⟩, hretired⟩
  · exact .inl h
  · exact .inr ⟨i, seen, hc, hold, hholder i hheld, ⟨st, (hsame.sees i st).2 hst⟩,
      fun hne => hsame.retired.2 (hretired hne)⟩

/-- a session that nothing happened to -/
theorem SessionInv.same (h : SessionInv s t) (hsame : SameView s (some t) s' (some t))
    (hsession : s'.sessions t = s.sessions t)
    (hholder : ∀ i, s.holder i = some t → s'.holder i = some t) : SessionInv s' t where
  statuses p hp := by
    rw [hsession] at hp
    exact (h.statuses p hp).imp_right hsame.retired.2
  loaded p hp hne := by
    rw [hsession] at hp
    exact hsame.retired.2 (h.loaded p hp hne)
  old c old hpending := by
    rw [hsession] at hpending
    exact (h.old c old hpending).same hsame hholder

/-- a session changes what it holds and its call; the views are those before -/
theorem Inv.private_step (h : Inv s) (hnotes : s'.notes = s.notes)
    (hsessions : s'.sessions = Function.update s.sessions t x)
    (hdisputed : s'.disputed = s.disputed)
    (hstatuses : x.statuses = (s.sessions t).statuses) (hown : x.disputed = (s.sessions t).disputed)
    (hholder : ∀ i u, s.holder i = some u → s'.holder i = some u)
    (hloaded : ∀ p ∈ x.loaded, p.2 ≠ .active → s.Retired (some t) p.1)
    (hold : ∀ c old, x.pending = some ⟨c, .looking old⟩ ∨ x.pending = some ⟨c, .writing old⟩ →
      OldInv s s'.holder t c old) :
    Inv s' ∧ ∀ v, SameView s v s' v := by
  have hself : s'.sessions t = x := by rw [hsessions, Function.update_self]
  have hview : ∀ v, SameView s v s' v := fun v => by
    by_cases hv : v = some t
    · subst hv
      refine sameView_of (fun i n _ => by rw [hnotes]) ?_ ?_
      · show (s'.sessions t).statuses = (s.sessions t).statuses
        rw [hself, hstatuses]
      · show s'.disputed ++ (s'.sessions t).disputed = s.disputed ++ (s.sessions t).disputed
        rw [hdisputed, hself, hown]
    · exact sameView_setSession hv (fun i n _ => by rw [hnotes]) hsessions hdisputed
  refine ⟨⟨?_, ?_, ?_, fun v => (h.view v).same (hview v), fun u => ?_⟩, hview⟩
  · rw [hnotes]
    exact h.below
  · rw [hnotes]
    exact h.keys
  · intro j n i u hn hhome hsup
    rw [hnotes] at hn
    exact hholder i u (h.locked j n i u hn hhome hsup)
  · by_cases hu : u = t
    · subst hu
      refine ⟨fun p hp => ?_, fun p hp hne => ?_, fun c old hpending => ?_⟩
      · rw [hself, hstatuses] at hp
        exact ((h.session u).statuses p hp).imp_right (hview _).retired.2
      · rw [hself] at hp
        exact (hview _).retired.2 (hloaded p hp hne)
      · rw [hself] at hpending
        exact (hold c old hpending).same (hview _) fun _ hk => hk
    · refine (h.session u).same (hview _) ?_ fun i => hholder i u
      rw [hsessions, Function.update_of_ne hu]

end LifeAI.Founder
