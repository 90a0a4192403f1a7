import LifeAI.Founder.Steps

/-!
# The history of the founder's notes

* `Linear`   what `list_current_founder_memory` answers has no successor and no dispute, the links
             have no cycle, and no two current notes supersede one note;
* `Replays`  a call that repeats a note answers it and changes no status;
* `Holds`    a flush supersedes a note that no current note supersedes, the note of the call was
             not recorded since it looked, and a row that is repeated is read back as it was given;
* `linear_history`   the runs that are linear and replay are those whose events all hold.
-/

namespace LifeAI.Founder

variable {readBack : Values → Values} {s s' : Db} {t u : SessionId} {v : Option SessionId}
  {i j k : NoteId} {n : Note} {c : Call} {old : Option (NoteId × Status)} {e : Event}

/-- what a session finds when it lists the current notes -/
structure Linear (s : Db) (t : SessionId) : Prop where
  retired : ∀ noteType, ∀ i ∈ s.listCurrent t noteType,
    i ∉ s.disputedIn (some t) ∧ ∀ j, ¬ s.Follows (some t) j i
  acyclic : ∀ i, ¬ Relation.TransGen (s.Follows (some t)) i i
  single : ∀ noteType noteType', ∀ i ∈ s.listCurrent t noteType, ∀ j ∈ s.listCurrent t noteType',
    ∀ k, s.Follows (some t) i k → s.Follows (some t) j k → i = j

/-- a call with the key and the values of a note answers the note, and changes no status -/
def Replays (readBack : Values → Values) (s : Db) (e : Event) : Prop :=
  ∀ a, answer readBack s e = some a → ∀ (i : NoteId) (n : Note), s.notes[i]? = some n →
    n.SeenBy (some a.session) → n.idempotencyKey = a.call.idempotencyKey →
      n.supersedesNoteId = a.call.supersedesNoteId → n.given = a.call.values →
        a.result = .ok i ∧ ∀ u k, (step readBack s e).status u k = s.status u k

/-- a note with the values of the call -/
def Note.repeats (c : Call) (n : Note) : Bool :=
  n.supersedesNoteId = c.supersedesNoteId ∧ n.given = c.values

/-- a row that the call repeats is read back as it was given -/
def Db.readsBack (s : Db) (t : SessionId) (held : Bool) : Bool :=
  match (s.sessions t).pending with
  | some ⟨c, .looking _⟩ => (s.underKey t c.idempotencyKey).all fun p =>
      p.1.repeats c → (held ∧ p.1.author = t) ∨ p.1.stored = p.1.given
  | _ => true

/-- the flush of the call inserts a note -/
def Db.inserts (readBack : Values → Values) (s : Db) (t : SessionId) (c : Call) : Bool :=
  (store readBack c.idempotencyKey c.values).isOk ∧ (s.underKey t c.idempotencyKey).isNone ∧
    ¬ s.keyTaken t c.idempotencyKey

/-- the note of the call was not recorded since the call looked for it, and no current note
supersedes the note that the call supersedes -/
def Db.clear (readBack : Values → Values) (s : Db) (t : SessionId) : Bool :=
  match (s.sessions t).pending with
  | some ⟨c, .writing _⟩ =>
    ((s.underKey t c.idempotencyKey).all fun p => ¬ p.1.repeats c) ∧
      (s.inserts readBack t c → c.supersedesNoteId.all fun k => (s.listCurrent t none).all fun i =>
        (s.notes[i]?).all fun n => n.supersedesNoteId ≠ some k)
  | _ => true

/-- the condition on an event -/
def Holds (readBack : Values → Values) (s : Db) : Event → Bool
  | .look t held => s.readsBack t held
  | .flush t => s.clear readBack t
  | _ => true

/-! ## a flush -/

theorem inserts_iff : s.inserts readBack t c ↔ (∃ stored,
    store readBack c.idempotencyKey c.values = .ok stored) ∧
      s.underKey t c.idempotencyKey = none ∧ ¬ s.keyTaken t c.idempotencyKey := by
  unfold Db.inserts
  rw [decide_eq_true_iff, Option.isNone_iff_eq_none]
  refine and_congr_left fun _ => ?_
  cases store readBack c.idempotencyKey c.values with
  | error e => exact ⟨nofun, nofun⟩
  | ok stored => exact ⟨fun _ => ⟨stored, rfl⟩, fun _ => rfl⟩

/-- what a flush does: the note is there, or it raises, or it waits -/
theorem write_cases (readBack : Values → Values) (s : Db) (t : SessionId) (c : Call)
    (old : Option (NoteId × Status)) :
    (s.inserts readBack t c ∧ ∃ note : Note, note.home = .pending t ∧ note.status = .active ∧
      note.supersedesNoteId = c.supersedesNoteId ∧ note.idempotencyKey = c.idempotencyKey ∧
        write readBack s t c old = (some ⟨t, c, .ok s.notes.length⟩, s.inserted t note old)) ∨
      (¬ s.inserts readBack t c ∧ ((∃ e, write readBack s t c old = s.abort t c e) ∨
        s.underKey t c.idempotencyKey = none ∧ write readBack s t c old = (none, s))) := by
  rw [inserts_iff]
  unfold write
  split
  · rename_i e he
    refine .inr ⟨fun h => ?_, .inl ⟨e, rfl⟩⟩
    obtain ⟨stored, hstored⟩ := h.1
    rw [he] at hstored
    cases hstored
  · rename_i stored hstored
    split
    · rename_i hkey
      refine .inr ⟨fun h => ?_, .inl ⟨_, rfl⟩⟩
      rw [h.2.1] at hkey
      cases hkey
    · rename_i hkey
      have hnone : s.underKey t c.idempotencyKey = none := by simpa using hkey
      split
      · rename_i htaken
        exact .inr ⟨fun h => h.2.2 htaken, .inr ⟨hnone, rfl⟩⟩
      · rename_i htaken
        exact .inl ⟨⟨⟨stored, hstored⟩, hnone, htaken⟩, _, rfl, rfl, rfl, rfl, rfl⟩

/-- no note that is there has the key of a note that is inserted -/
theorem key_free (hins : s.inserts readBack t c) (hn : s.notes[i]? = some n)
    (hlive : n.home ≠ .rolledBack) : n.idempotencyKey ≠ c.idempotencyKey := fun heq => by
  obtain ⟨-, hkey, htaken⟩ := inserts_iff.1 hins
  exact underKey_none hkey hn (keyTaken_false htaken hn heq hlive) heq

theorem inv_write (h : Inv s) (hp : (s.sessions t).pending = some ⟨c, .writing old⟩) :
    Inv (write readBack s t c old).2 := by
  rcases write_cases readBack s t c old with ⟨hins, note, hhome, -, hsup, hk, hw⟩ |
    ⟨-, ⟨e, hw⟩ | ⟨-, hw⟩⟩
  · rw [hw]
    refine inv_inserted hhome h ((h.session t).old c old (.inr hp)) hsup fun i n hn hlive => ?_
    rw [hk]
    exact key_free hins hn hlive
  · rw [hw]
    exact inv_rollback h
  · rw [hw]
    exact h

/-- an active note is listed -/
theorem listCurrent_of_sees (hact : s.Sees (some t) i .active) : i ∈ s.listCurrent t none := by
  have hst := status_iff.2 hact
  obtain ⟨n, hn, -⟩ := hact
  refine List.mem_filter.2 ⟨List.mem_range.2 (List.getElem?_eq_some_iff.1 hn).1, ?_⟩
  rw [decide_eq_true_iff, hn]
  exact ⟨hst, rfl⟩

/-- the condition on a flush, as one on the notes that the session sees -/
theorem clear_iff (hp : (s.sessions t).pending = some ⟨c, .writing old⟩) : s.clear readBack t ↔
    (∀ p, s.underKey t c.idempotencyKey = some p → ¬ p.1.repeats c) ∧
      (s.inserts readBack t c → ∀ k, c.supersedesNoteId = some k → ∀ i, s.Sees (some t) i .active →
        ¬ s.Follows (some t) i k) := by
  unfold Db.clear
  rw [hp]
  dsimp only
  rw [decide_eq_true_iff]
  refine and_congr ?_ (imp_congr_right fun _ => ?_)
  · cases s.underKey t c.idempotencyKey with
    | none => exact ⟨fun _ p hp => (nomatch hp), fun _ => rfl⟩
    | some p =>
      constructor
      · intro h q hq
        cases hq
        exact of_decide_eq_true h
      · intro h
        exact decide_eq_true (h p rfl)
  · cases c.supersedesNoteId with
    | none => exact ⟨fun _ k hk => (nomatch hk), fun _ => rfl⟩
    | some k =>
      show (s.listCurrent t none).all _ = true ↔ _
      rw [List.all_eq_true]
      constructor
      · intro h k' hk i hi hf
        cases hk
        obtain ⟨n, hn, -, hnk⟩ := hf
        have hne := h i (listCurrent_of_sees hi)
        rw [hn] at hne
        exact of_decide_eq_true hne hnk
      · intro h i hi
        obtain ⟨n, hn, hv, hst⟩ := mem_listCurrent hi
        rw [hn]
        exact decide_eq_true fun hnk => h k rfl i ⟨n, hn, hv, hst⟩ ⟨n, hn, hv, hnk⟩

theorem single_write (hp : (s.sessions t).pending = some ⟨c, .writing old⟩)
    (hc : s.clear readBack t) (hsingle : ∀ v, Single s v) (v : Option SessionId) :
    Single (write readBack s t c old).2 v := by
  rcases write_cases readBack s t c old with ⟨hins, note, hhome, -, hsup, -, hw⟩ |
    ⟨-, ⟨e, hw⟩ | ⟨-, hw⟩⟩
  · rw [hw]
    exact single_inserted hhome hsup (((clear_iff hp).1 hc).2 hins) (hsingle v)
  · rw [hw]
    exact single_rollback hsingle v
  · rw [hw]
    exact hsingle v

/-! ## an event -/

/-- what an event does: nothing that a session sees, or one of four things -/
theorem step_cases (readBack : Values → Values) (h : Inv s) (e : Event) :
    Quiet s (step readBack s e) ∨
      (∃ t i, (s.sessions t).pending = none ∧ step readBack s e = markDisputed s t i) ∨
      (∃ t c old, e = .flush t ∧ (s.sessions t).pending = some ⟨c, .writing old⟩ ∧
        step readBack s e = (write readBack s t c old).2) ∨
      (∃ t, step readBack s e = s.commit t) ∨ ∃ t, step readBack s e = s.rollback t := by
  unfold step perform
  cases e with
  | load t i =>
    dsimp only
    split
    · rename_i read hread
      refine .inl (quiet_loaded h _ fun p hp hne => ?_)
      rcases List.mem_cons.1 hp with rfl | hp
      · exact (h.session t).holds (status_iff.1 hread) hne
      · exact (h.session t).loaded p hp hne
    · exact .inl (Quiet.refl h)
  | forget t i =>
    refine .inl (quiet_loaded h ((s.sessions t).loaded.filter fun p => p.1 ≠ i) fun p hp hne => ?_)
    exact (h.session t).loaded p (List.mem_filter.1 hp).1 hne
  | call t c =>
    dsimp only
    split
    · refine .inl (quiet_pending h _ fun c' old hp => ?_)
      rcases hp with hp | hp <;> cases hp
    · exact .inl (Quiet.refl h)
  | lock t =>
    dsimp only
    split
    · exact .inl (quiet_lockOld h _)
    · exact .inl (Quiet.refl h)
  | look t held =>
    dsimp only
    split
    · rename_i c old hp
      exact .inl (quiet_lookUp h held hp)
    · exact .inl (Quiet.refl h)
  | flush t =>
    dsimp only
    split
    · rename_i c old hp
      exact .inr (.inr (.inl ⟨t, c, old, rfl, hp, rfl⟩))
    · exact .inl (Quiet.refl h)
  | dispute t i =>
    dsimp only
    split
    · rename_i hp
      exact .inr (.inl ⟨t, i, hp, rfl⟩)
    · exact .inl (Quiet.refl h)
  | commit t =>
    dsimp only
    split
    · exact .inr (.inr (.inr (.inl ⟨t, rfl⟩)))
    · exact .inl (Quiet.refl h)
  | rollback t => exact .inr (.inr (.inr (.inr ⟨t, rfl⟩)))

theorem inv_step (h : Inv s) (e : Event) : Inv (step readBack s e) := by
  rcases step_cases readBack h e with hq | ⟨t, i, hp, hs⟩ | ⟨t, c, old, -, hp, hs⟩ | ⟨t, hs⟩ |
    ⟨t, hs⟩
  · exact hq.1
  · rw [hs]
    exact (inv_markDisputed h hp).1
  · rw [hs]
    exact inv_write h hp
  · rw [hs]
    exact inv_commit h
  · rw [hs]
    exact inv_rollback h

theorem single_step (h : Inv s) (hsingle : ∀ v, Single s v) (hc : Holds readBack s e)
    (v : Option SessionId) : Single (step readBack s e) v := by
  rcases step_cases readBack h e with hq | ⟨t, i, hp, hs⟩ | ⟨t, c, old, rfl, hp, hs⟩ | ⟨t, hs⟩ |
    ⟨t, hs⟩
  · exact (hsingle v).same (hq.2 v)
  · rw [hs]
    exact (inv_markDisputed h hp).2 v (hsingle v)
  · rw [hs]
    exact single_write hp hc hsingle v
  · rw [hs]
    exact single_commit h hsingle v
  · rw [hs]
    exact single_rollback hsingle v

/-! ## the columns that no statement updates -/

theorem keeps_of_notes (h : s'.notes = s.notes) : Keyed.Keeps Note.written s.notes s'.notes :=
  h ▸ Keyed.Keeps.refl Note.written s.notes

theorem keeps_rollback (s : Db) (t : SessionId) :
    Keyed.Keeps Note.written s.notes (s.rollback t).notes := by
  intro i n hn
  by_cases hhome : n.home = .pending t
  · refine ⟨{ n with home := .rolledBack }, ?_, rfl⟩
    show (s.notes.map _)[i]? = _
    rw [List.getElem?_map, hn, Option.map_some, if_pos hhome]
  · exact ⟨n, note_rollback hn hhome, rfl⟩

theorem keeps_commit (s : Db) (t : SessionId) :
    Keyed.Keeps Note.written s.notes (s.commit t).notes := fun _ n hn =>
  ⟨_, commit_note.2 ⟨n, hn, rfl⟩, rfl⟩

theorem keeps_lockOld (s : Db) (t : SessionId) (c : Call) : (lockOld s t c).2.notes = s.notes := by
  unfold lockOld
  split
  · rfl
  · split
    · rfl
    · split
      · rfl
      · rfl

theorem keeps_lookUp (s : Db) (t : SessionId) (c : Call) (old : Option (NoteId × Status))
    (held : Bool) : (lookUp s t c old held).2.notes = s.notes := by
  unfold lookUp
  split
  · dsimp only
    split <;> split <;> rfl
  · rfl

theorem keeps_markDisputed (s : Db) (t : SessionId) (i : NoteId) :
    (markDisputed s t i).notes = s.notes := by
  unfold markDisputed
  split
  · rfl
  · split
    · rfl
    · rfl

theorem keeps_write (s : Db) (t : SessionId) (c : Call) (old : Option (NoteId × Status)) :
    Keyed.Keeps Note.written s.notes (write readBack s t c old).2.notes := by
  rcases write_cases readBack s t c old with ⟨-, note, -, -, -, -, hw⟩ | ⟨-, ⟨e, hw⟩ | ⟨-, hw⟩⟩
  · rw [hw]
    exact Keyed.Keeps.append Note.written s.notes [note]
  · rw [hw]
    exact keeps_rollback s t
  · rw [hw]
    exact Keyed.Keeps.refl Note.written s.notes

theorem written_step (s : Db) (e : Event) :
    Keyed.Keeps Note.written s.notes (step readBack s e).notes := by
  unfold step perform
  cases e with
  | load t i | call t c =>
    dsimp only
    split
    · exact keeps_of_notes rfl
    · exact keeps_of_notes rfl
  | forget t i => exact keeps_of_notes rfl
  | lock t =>
    dsimp only
    split
    · exact keeps_of_notes (keeps_lockOld s t _)
    · exact keeps_of_notes rfl
  | look t held =>
    dsimp only
    split
    · exact keeps_of_notes (keeps_lookUp s t _ _ held)
    · exact keeps_of_notes rfl
  | flush t =>
    dsimp only
    split
    · exact keeps_write s t _ _
    · exact keeps_of_notes rfl
  | dispute t i =>
    dsimp only
    split
    · exact keeps_of_notes (keeps_markDisputed s t i)
    · exact keeps_of_notes rfl
  | commit t =>
    dsimp only
    split
    · exact keeps_commit s t
    · exact keeps_of_notes rfl
  | rollback t => exact keeps_rollback s t

/-! ## an answer -/

theorem quiet_status (h : Quiet s s') (u : SessionId) (k : NoteId) :
    s'.status u k = s.status u k := by
  refine Option.ext fun st => ?_
  rw [status_iff, status_iff]
  exact (h.2 (some u)).sees k st

/-- a note that repeats a call is the one under its key -/
theorem underKey_eq (h : Inv s) (hn : s.notes[i]? = some n) (hv : n.SeenBy (some t))
    {p : Note × NoteId} (hfound : s.underKey t n.idempotencyKey = some p) : p = (n, i) := by
  have hlive : ∀ m : Note, m.SeenBy (some t) → m.home ≠ .rolledBack := fun m hm heq => by
    rcases hm with hc | ⟨u, -, hp⟩
    · rw [heq] at hc
      cases hc
    · rw [heq] at hp
      cases hp
  obtain ⟨hm, hv', hkey⟩ := find_underKey hfound
  have hi := h.keys p.2 i p.1 n hm hn (hlive _ hv') (hlive _ hv) hkey
  rw [hi, hn] at hm
  exact Prod.ext (Option.some.inj hm).symm hi

/-- a note that is seen supersedes one that is seen -/
theorem status_of_follows (h : Inv s) (hf : s.Follows (some t) j i) :
    ∃ st, s.status t i = some st := by
  obtain ⟨st, hst, -⟩ := (h.view (some t)).followed j i hf
  exact ⟨st, status_iff.2 hst⟩

theorem replays_lockOld (h : Inv s) {a : Answer} (ha : (lockOld s t c).1 = some a)
    (hn : s.notes[i]? = some n) (hv : n.SeenBy (some a.session))
    (hsup : n.supersedesNoteId = a.call.supersedesNoteId) : False := by
  unfold lockOld at ha
  split at ha
  · cases ha
  · rename_i k hk
    split at ha
    · rename_i hnone
      cases ha
      obtain ⟨st, hst⟩ := status_of_follows h (t := t) (i := k) ⟨n, hn, hv, hsup.trans hk⟩
      rw [hst] at hnone
      cases hnone
    · split at ha <;> cases ha

theorem repeats_iff : n.repeats c ↔ n.supersedesNoteId = c.supersedesNoteId ∧ n.given = c.values :=
  decide_eq_true_iff

/-- the condition on a lookup, as one on the row that the session finds -/
theorem readsBack_iff {held : Bool} (hp : (s.sessions t).pending = some ⟨c, .looking old⟩) :
    s.readsBack t held ↔ ∀ p, s.underKey t c.idempotencyKey = some p → p.1.repeats c →
      (held ∧ p.1.author = t) ∨ p.1.stored = p.1.given := by
  unfold Db.readsBack
  rw [hp]
  dsimp only
  cases s.underKey t c.idempotencyKey with
  | none => exact ⟨fun _ p hp => (nomatch hp), fun _ => rfl⟩
  | some p =>
    constructor
    · intro h q hq
      cases hq
      exact of_decide_eq_true h
    · intro h
      exact decide_eq_true (h p rfl)

/-- a lookup replays the row that the call repeats, or raises -/
theorem lookUp_repeats (old : Option (NoteId × Status)) (held : Bool)
    (hfound : s.underKey t c.idempotencyKey = some (n, i)) (hrep : n.repeats c) :
    lookUp s t c old held =
      if (held ∧ n.author = t) ∨ n.stored = n.given then s.over t c (.ok i)
      else s.over t c (.error (.founderMemory "idempotency key reused with different fields")) := by
  obtain ⟨hsup, hgiven⟩ := repeats_iff.1 hrep
  unfold lookUp
  rw [hfound]
  dsimp only
  by_cases hheld : held = true ∧ n.author = t
  · rw [if_pos hheld, if_pos ⟨hgiven, hsup⟩, if_pos (.inl hheld)]
  · rw [if_neg hheld]
    by_cases hstored : n.stored = n.given
    · rw [if_pos ⟨hstored.trans hgiven, hsup⟩, if_pos (.inr hstored)]
    · rw [if_neg fun h => hstored (h.1.trans hgiven.symm), if_neg (not_or.2 ⟨hheld, hstored⟩)]

theorem answer_lookUp {held : Bool} {a : Answer} (ha : (lookUp s t c old held).1 = some a) :
    a.session = t ∧ a.call = c := by
  unfold lookUp at ha
  split at ha
  · dsimp only at ha
    split at ha <;> split at ha <;> cases ha <;> exact ⟨rfl, rfl⟩
  · cases ha

theorem answer_write {a : Answer} (ha : (write readBack s t c old).1 = some a) :
    a.session = t ∧ a.call = c := by
  rcases write_cases readBack s t c old with ⟨-, note, -, -, -, -, hw⟩ | ⟨-, ⟨e, hw⟩ | ⟨-, hw⟩⟩
  · rw [hw] at ha
    cases ha
    exact ⟨rfl, rfl⟩
  · rw [hw] at ha
    cases ha
    exact ⟨rfl, rfl⟩
  · rw [hw] at ha
    cases ha

/-- the note that a call repeats is found under its key -/
theorem underKey_some (h : Inv s) (hn : s.notes[i]? = some n) (hv : n.SeenBy (some t))
    (hkey : n.idempotencyKey = c.idempotencyKey) :
    s.underKey t c.idempotencyKey = some (n, i) := by
  cases hfound : s.underKey t c.idempotencyKey with
  | none => exact absurd hkey (underKey_none hfound hn hv)
  | some p =>
    rw [← hkey] at hfound
    rw [underKey_eq h hn hv hfound]

theorem replays_look (h : Inv s) {held : Bool}
    (hp : (s.sessions t).pending = some ⟨c, .looking old⟩) :
    Replays readBack s (.look t held) ↔ s.readsBack t held := by
  have hperform : perform readBack s (.look t held) = lookUp s t c old held := by
    unfold perform
    dsimp only
    rw [hp]
  unfold Replays answer step
  rw [hperform, readsBack_iff hp]
  constructor
  · intro hrep p hfound hp
    by_contra hno
    have hlook := lookUp_repeats old held hfound hp
    rw [if_neg hno] at hlook
    obtain ⟨hn, hv, hkey⟩ := find_underKey hfound
    obtain ⟨hsup, hgiven⟩ := repeats_iff.1 hp
    have hres := (hrep _ (congrArg Prod.fst hlook) p.2 p.1 hn hv hkey hsup hgiven).1
    cases hres
  · intro hread a ha i n hn hv hkey hsup hgiven
    obtain ⟨ht, hcall⟩ := answer_lookUp ha
    rw [ht] at hv
    rw [hcall] at hkey hsup hgiven
    have hfound := underKey_some h hn hv hkey
    have hrep := repeats_iff.2 ⟨hsup, hgiven⟩
    have hlook := lookUp_repeats old held hfound hrep
    rw [if_pos (hread _ hfound hrep)] at hlook
    rw [hlook] at ha ⊢
    cases ha
    exact ⟨rfl, quiet_status (quiet_over h c _)⟩

theorem replays_flush (h : Inv s) (hp : (s.sessions t).pending = some ⟨c, .writing old⟩) :
    Replays readBack s (.flush t) ↔
      ∀ p, s.underKey t c.idempotencyKey = some p → ¬ p.1.repeats c := by
  have hperform : perform readBack s (.flush t) = write readBack s t c old := by
    unfold perform
    dsimp only
    rw [hp]
  unfold Replays answer step
  rw [hperform]
  constructor
  · intro hrep p hfound hp
    obtain ⟨hn, hv, hkey⟩ := find_underKey hfound
    obtain ⟨hsup, hgiven⟩ := repeats_iff.1 hp
    rcases write_cases readBack s t c old with ⟨hins, -⟩ | ⟨-, ⟨e, hw⟩ | ⟨hnone, -⟩⟩
    · rw [(inserts_iff.1 hins).2.1] at hfound
      cases hfound
    · have hres := (hrep _ (congrArg Prod.fst hw) p.2 p.1 hn hv hkey hsup hgiven).1
      cases hres
    · rw [hnone] at hfound
      cases hfound
  · intro hnone a ha i n hn hv hkey hsup hgiven
    obtain ⟨ht, hcall⟩ := answer_write ha
    rw [ht] at hv
    rw [hcall] at hkey hsup hgiven
    exact absurd (repeats_iff.2 ⟨hsup, hgiven⟩) (hnone _ (underKey_some h hn hv hkey))

/-- an event that answers nothing replays -/
theorem replays_of_none (h : answer readBack s e = none) : Replays readBack s e := fun a ha => by
  rw [h] at ha
  cases ha

theorem replays_step (h : Inv s) (hc : Holds readBack s e) : Replays readBack s e := by
  cases e with
  | load t i | call t c | dispute t i | commit t =>
    refine replays_of_none ?_
    unfold answer perform
    dsimp only
    split <;> rfl
  | forget t i => exact replays_of_none rfl
  | lock t =>
    intro a ha i n hn hv hkey hsup hgiven
    unfold answer perform at ha
    dsimp only at ha
    split at ha
    · exact (replays_lockOld h ha hn hv hsup).elim
    · cases ha
  | look t held =>
    by_cases hp : ∃ c old, (s.sessions t).pending = some ⟨c, .looking old⟩
    · obtain ⟨c, old, hp⟩ := hp
      exact (replays_look h hp).2 hc
    · refine replays_of_none ?_
      unfold answer perform
      dsimp only
      split
      · rename_i c old hlook
        exact absurd ⟨c, old, hlook⟩ hp
      · rfl
  | flush t =>
    by_cases hp : ∃ c old, (s.sessions t).pending = some ⟨c, .writing old⟩
    · obtain ⟨c, old, hp⟩ := hp
      exact (replays_flush h hp).2 ((clear_iff hp).1 hc).1
    · refine replays_of_none ?_
      unfold answer perform
      dsimp only
      split
      · rename_i c old hwrite
        exact absurd ⟨c, old, hwrite⟩ hp
      · rfl
  | rollback t => exact replays_of_none rfl

/-! ## the condition is needed -/

/-- an active note stays active when a note that supersedes another one is inserted -/
theorem active_inserted {note : Note} (hold : OldInv s s.holder t c old)
    (hne : c.supersedesNoteId ≠ some i) (hact : s.Sees (some t) i .active) :
    (s.inserted t note old).Sees (some t) i .active := by
  obtain ⟨m, hm, hv, hst⟩ := hact
  refine ⟨m, keeps_inserted i m hm, hv, ?_⟩
  have hself : (s.inserted t note old).sessions t =
      { supersede old (s.sessions t) with pending := none } := Function.update_self ..
  show _ = (((s.inserted t note old).sessions t).statuses.lookup i).getD m.status
  rw [hself]
  rcases supersede_cases old (s.sessions t) with hx | ⟨k, hk, hx⟩
  · rw [hx]
    exact hst
  · rw [hx]
    have hki : i ≠ k := fun heq => by
      rcases hold with ⟨-, hnone⟩ | ⟨k', seen, hk', hsome, -⟩
      · rw [hk] at hnone
        cases hnone
      · cases hk.symm.trans hsome
        exact hne (heq ▸ hk')
    show _ = (((k, Status.superseded) :: (s.sessions t).statuses).lookup i).getD m.status
    rw [List.lookup_cons, beq_eq_false_iff_ne.2 hki]
    exact hst

/-- a note is active when it is inserted -/
theorem new_active {note : Note} (h : SessionInv s t) (hold : OldInv s s.holder t c old)
    (hhome : note.home = .pending t) (hactive : note.status = .active) :
    (s.inserted t note old).Sees (some t) s.notes.length .active := by
  refine ⟨note, List.getElem?_concat_length .., .inr ⟨t, rfl, hhome⟩, ?_⟩
  have hlt : ∀ k st, s.Sees (some t) k st → k < s.notes.length := fun k st hk => by
    obtain ⟨m, hm, -⟩ := hk
    exact (List.getElem?_eq_some_iff.1 hm).1
  have hself : (s.inserted t note old).sessions t =
      { supersede old (s.sessions t) with pending := none } := Function.update_self ..
  have hwritten : (s.sessions t).statuses.lookup s.notes.length = none := by
    rw [List.lookup_eq_none_iff]
    intro p hp
    obtain ⟨-, st, hst, -⟩ := h.statuses p hp
    exact bne_iff_ne.2 (hlt p.1 st hst).ne'
  show _ = (((s.inserted t note old).sessions t).statuses.lookup s.notes.length).getD note.status
  rw [hself, hactive]
  rcases supersede_cases old (s.sessions t) with hx | ⟨k, hk, hx⟩
  · rw [hx]
    show _ = ((s.sessions t).statuses.lookup s.notes.length).getD .active
    rw [hwritten]
    rfl
  · have hne : s.notes.length ≠ k := by
      rcases hold with ⟨-, hnone⟩ | ⟨k', seen, -, hsome, -, ⟨st, hst⟩, -⟩
      · rw [hk] at hnone
        cases hnone
      · cases hk.symm.trans hsome
        exact (hlt k st hst).ne'
    rw [hx]
    show _ = (((k, Status.superseded) ::
      (s.sessions t).statuses).lookup s.notes.length).getD .active
    rw [List.lookup_cons, beq_eq_false_iff_ne.2 hne, hwritten]
    rfl

/-- no note of the view supersedes the note of the call, if there is one successor after it -/
theorem clear_of_linear (h : Inv s) (hp : (s.sessions t).pending = some ⟨c, .writing old⟩)
    (hlinear : Linear (step readBack s (.flush t)) t) (hins : s.inserts readBack t c)
    (hk : c.supersedesNoteId = some k) (hact : s.Sees (some t) i .active)
    (hf : s.Follows (some t) i k) : False := by
  rcases write_cases readBack s t c old with ⟨-, note, hhome, hactive, hsup, -, hw⟩ | ⟨hno, -⟩
  · have hstep : step readBack s (.flush t) = s.inserted t note old := by
      unfold step perform
      dsimp only
      rw [hp]
      exact congrArg Prod.snd hw
    rw [hstep] at hlinear
    have hold := (h.session t).old c old (.inr hp)
    obtain ⟨n, hn, hv, hnk⟩ := hf
    have hlt : k < i := h.below i n k hn hnk
    have hne : c.supersedesNoteId ≠ some i := fun heq => by
      rw [hk] at heq
      cases heq
      exact hlt.false
    have hi := listCurrent_of_sees (s := s.inserted t note old) (active_inserted hold hne hact)
    have hnew := listCurrent_of_sees (new_active (h.session t) hold hhome hactive)
    have heq := hlinear.single none none i hi _ hnew k ⟨n, keeps_inserted i n hn, hv, hnk⟩
      ⟨note, List.getElem?_concat_length .., .inr ⟨t, rfl, hhome⟩, hsup.trans hk⟩
    exact (List.getElem?_eq_some_iff.1 hn).1.ne heq
  · exact hno hins

theorem holds_of (h : Inv s) (hlinear : ∀ t, Linear (step readBack s e) t)
    (hrep : Replays readBack s e) : Holds readBack s e := by
  cases e with
  | look t held =>
    by_cases hp : ∃ c old, (s.sessions t).pending = some ⟨c, .looking old⟩
    · obtain ⟨c, old, hp⟩ := hp
      exact (replays_look h hp).1 hrep
    · show s.readsBack t held = true
      unfold Db.readsBack
      split
      · rename_i c old hlook
        exact absurd ⟨c, old, hlook⟩ hp
      · rfl
  | flush t =>
    by_cases hp : ∃ c old, (s.sessions t).pending = some ⟨c, .writing old⟩
    · obtain ⟨c, old, hp⟩ := hp
      exact (clear_iff hp).2 ⟨(replays_flush h hp).1 hrep, fun hins k hk i hact hf =>
        clear_of_linear h hp (hlinear t) hins hk hact hf⟩
    · show s.clear readBack t = true
      unfold Db.clear
      split
      · rename_i c old hwrite
        exact absurd ⟨c, old, hwrite⟩ hp
      · rfl
  | _ => rfl

/-! ## runs -/

/-- without notes there is nothing to see -/
theorem inv_empty : Inv {} := by
  have hnone : ∀ i, ({} : Db).notes[i]? = none := fun _ => List.getElem?_nil
  refine ⟨fun j n i hn => ?_, fun i j n m hn => ?_, fun j n i t hn => ?_, fun v => ?_,
    fun t => sessionInv_idle rfl⟩
  · rw [hnone] at hn
    cases hn
  · rw [hnone] at hn
    cases hn
  · rw [hnone] at hn
    cases hn
  · refine ⟨fun j i hf => ?_, fun i hi => ?_⟩
    · obtain ⟨n, hn, -⟩ := hf
      rw [hnone] at hn
      cases hn
    · cases v with
      | none => cases hi
      | some t => cases hi

theorem single_empty (v : Option SessionId) : Single {} v := fun i _ _ hi _ _ _ => by
  obtain ⟨n, hn, -⟩ := hi
  cases hn

/-- the links go down -/
theorem lt_of_transGen (h : Inv s) (hij : Relation.TransGen (s.Follows v) j i) : i < j := by
  have hlt : ∀ j i, s.Follows v j i → i < j := fun j i hf => by
    obtain ⟨n, hn, -, hi⟩ := hf
    exact h.below j n i hn hi
  induction hij with
  | single hf => exact hlt _ _ hf
  | tail _ hf ih => exact (hlt _ _ hf).trans ih

theorem linear_of_inv (h : Inv s) (hsingle : ∀ v, Single s v) (t : SessionId) : Linear s t where
  retired _ i hi :=
    ⟨fun hd => ((h.view (some t)).disputed i hd).not_active (mem_listCurrent hi),
      fun j hf => ((h.view (some t)).followed j i hf).not_active (mem_listCurrent hi)⟩
  acyclic _ hi := (lt_of_transGen h hi).false
  single _ _ i hi j hj k hik hjk :=
    hsingle (some t) i j k (mem_listCurrent hi) (mem_listCurrent hj) hik hjk

/-- from no notes on, the runs that are linear and replay are those whose events all hold -/
theorem linear_history (readBack : Values → Values) (es : List Event) :
    (Run.Always (step readBack) (fun s => ∀ t, Linear s t) {} es ∧
      ∀ p ∈ Run.trace (step readBack) {} es, Replays readBack p.1 p.2 ∧
        Keyed.Keeps Note.written p.1.notes (step readBack p.1 p.2).notes) ↔
      Run.Meets (step readBack) (fun s e => Holds readBack s e = true) {} es := by
  have hstart : Inv {} ∧ ∀ v, Single {} v := ⟨inv_empty, single_empty⟩
  have hstep : ∀ s e, (Inv s ∧ ∀ v, Single s v) → Holds readBack s e →
      Inv (step readBack s e) ∧ ∀ v, Single (step readBack s e) v := fun s e hI hc =>
    ⟨inv_step hI.1 e, single_step hI.1 hI.2 hc⟩
  have hduty : ∀ s e, (Inv s ∧ ∀ v, Single s v) →
      (((∀ t, Linear (step readBack s e) t) ∧ Replays readBack s e ∧
        Keyed.Keeps Note.written s.notes (step readBack s e).notes) ↔ Holds readBack s e) :=
    fun s e hI => by
      constructor
      · intro h
        exact holds_of hI.1 h.1 h.2.1
      · intro hc
        have hI' := hstep s e hI hc
        exact ⟨linear_of_inv hI'.1 hI'.2, replays_step hI.1 hc, written_step s e⟩
  rw [← Run.trace_iff_meets (I := fun s => Inv s ∧ ∀ v, Single s v) hduty
    (fun s e hI hd => hstep s e hI ((hduty s e hI).1 hd)) hstart, Run.always_iff_trace]
  constructor
  · intro h p hp
    exact ⟨h.1.2 p hp, h.2 p hp⟩
  · intro h
    exact ⟨⟨linear_of_inv hstart.1 hstart.2, fun p hp => (h p hp).1⟩, fun p hp => (h p hp).2⟩

/-! ## two corrections of one note, and a float that is repeated -/

/-- a NUMERIC(5, 4) column -/
def readBack54 (v : Values) : Values :=
  { v with confidence := v.confidence.map fun c => ((c * 10000 + 1 / 2).floor : ℚ) / 10000 }

/-- a session that records one note -/
def recording (t : SessionId) (c : Call) : List Event :=
  [.call t c, .lock t, .look t false, .flush t, .commit t]

/-- a decision, and two corrections of it -/
def corrections : List Event :=
  recording 0 ⟨"tea", none, { noteType := "decision", content := "tea" }⟩ ++
  recording 1 ⟨"coffee", some 0, { noteType := "correction", content := "coffee" }⟩ ++
  recording 2 ⟨"water", some 0, { noteType := "correction", content := "water" }⟩

/-- a preference of which the caller is sure by the float 0.9 -/
def sure : Call :=
  ⟨"tea", none, { noteType := "preference", content := "tea"
                  confidence := some (8106479329266893 / 9007199254740992) }⟩

def twice : List Event := recording 0 sure ++ recording 1 sure

/-- both corrections are current, and the preference is not replayed -/
theorem two_current_corrections :
    ¬ Run.Always (step readBack54) (fun s => ∀ t, Linear s t) {} corrections ∧
      ¬ ∀ p ∈ Run.trace (step readBack54) {} twice, Replays readBack54 p.1 p.2 := by
  constructor
  · intro h
    have hlinear := h.run 3
    have hlisted : (Run.run (step readBack54) {} corrections).listCurrent 3 none = [1, 2] := by
      decide
    have hone := hlinear.single none none 1 (by rw [hlisted]; decide) 2 (by rw [hlisted]; decide) 0
      ⟨_, rfl, .inl rfl, rfl⟩ ⟨_, rfl, .inl rfl, rfl⟩
    cases hone
  · intro h
    have hrep := h (Run.run (step readBack54) {} (twice.take 7), .look 1 false)
      (List.mem_of_getElem? (i := 7) rfl)
    have hrow : (Run.run (step readBack54) {} (twice.take 7)).notes[0]? =
        some ⟨"tea", none, sure.values, readBack54 sure.values, .active, 0, .committed⟩ := by
      decide +kernel
    have hanswer : answer readBack54 (Run.run (step readBack54) {} (twice.take 7)) (.look 1 false) =
        some ⟨1, sure, .error (.founderMemory "idempotency key reused with different fields")⟩ := by
      decide +kernel
    have hres := (hrep _ hanswer 0 _ hrow (.inl rfl) rfl rfl rfl).1
    cases hres

/-! ## what is retired -/

/-- what is retired in the table is so for every session -/
theorem retired_view (h : Inv s) (hret : s.Retired none i) : s.Retired (some t) i := by
  obtain ⟨_, ⟨n, hn, hv, rfl⟩, hne⟩ := hret
  have hv' : n.SeenBy (some t) := Or.imp_right (fun ⟨_, hu, _⟩ => nomatch hu) hv
  refine ⟨_, ⟨n, hn, hv', rfl⟩, ?_⟩
  cases hown : (s.writes (some t)).lookup i with
  | some st => exact lookup_ne_active (h.session t) hown
  | none => exact hne

theorem retired_step (h : Inv s) (hret : s.Retired none i) (e : Event) :
    (step readBack s e).Retired none i := by
  rcases step_cases readBack h e with hq | ⟨t, j, -, hs⟩ | ⟨t, c, old, -, -, hs⟩ | ⟨t, hs⟩ | ⟨t, hs⟩
  · exact (hq.2 none).retired.2 hret
  · rw [hs]
    unfold markDisputed
    split
    · exact hret
    · split <;> exact hret
  · rw [hs]
    rcases write_cases readBack s t c old with ⟨-, note, hhome, -, -, -, hw⟩ | ⟨-, ⟨e, hw⟩ | ⟨-, hw⟩⟩
    · rw [hw]
      exact (sameView_inserted (v := none) hhome nofun).retired.2 hret
    · rw [hw]
      exact (sameView_rollback (v := none) nofun).retired.2 hret
    · rw [hw]
      exact hret
  · rw [hs]
    exact sameView_commit.retired.2 (retired_view h hret)
  · rw [hs]
    exact (sameView_rollback (v := none) nofun).retired.2 hret

/-- no session lists a note again that is superseded or disputed in the table -/
theorem never_current_again {es : List Event} (h : (Run.run (step readBack) {} es).Retired none i)
    (es' : List Event) : Run.Always (step readBack)
      (fun s => ∀ t noteType, i ∉ s.listCurrent t noteType) (Run.run (step readBack) {} es) es' := by
  have hinv : Inv (Run.run (step readBack) {} es) :=
    Run.inv_all (I := Inv) (fun _ e hs => inv_step hs e) inv_empty es
  refine Run.always_of_inv (I := fun s => Inv s ∧ s.Retired none i) (fun s hs t noteType hi => ?_)
    (fun s e hs => ⟨inv_step hs.1 e, retired_step hs.1 hs.2 e⟩) ⟨hinv, h⟩ es'
  exact (retired_view hs.1 hs.2).not_active (mem_listCurrent hi)

theorem never_current_again_corrected : Run.Always (step readBack54)
    (fun s => ∀ t noteType, 0 ∉ s.listCurrent t noteType)
    (Run.run (step readBack54) {} (corrections.take 10)) (corrections.drop 10) :=
  never_current_again ⟨_, ⟨_, rfl, .inl rfl, rfl⟩, by decide⟩ _

end LifeAI.Founder
