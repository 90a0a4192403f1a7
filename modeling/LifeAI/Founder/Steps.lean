import LifeAI.Founder.Views

/-!
# What the events keep

One lemma for each event: a call that is under way changes nothing that a session sees
(`inv_lookUp`, `inv_lockOld`), a dispute and a flush change the view of their session
(`inv_markDisputed`, `inv_write`), the end of a session gives its view up, or to all
(`inv_rollback`, `inv_commit`).
-/

namespace LifeAI.Founder

variable {readBack : Values → Values} {s s' : Db} {t u : SessionId} {v v' : Option SessionId}
  {i j k : NoteId} {st read : Status} {n : Note} {x : Session} {c : Call}
  {old : Option (NoteId × Status)} {e : Event}

/-- no two active notes of the view supersede one note -/
def Single (s : Db) (v : Option SessionId) : Prop :=
  ∀ i j k, s.Sees v i .active → s.Sees v j .active → s.Follows v i k → s.Follows v j k → i = j

theorem Single.same (h : Single s v) (hsame : SameView s v s' v') : Single s' v' :=
  fun i j k hi hj hik hjk => h i j k ((hsame.sees i _).1 hi) ((hsame.sees j _).1 hj)
    ((hsame.follows i k).1 hik) ((hsame.follows j k).1 hjk)

/-! ## writes of a session -/

/-- a view with one more write, which is no activation -/
def Writes (s s' : Db) (v : Option SessionId) : Prop :=
  s'.writes v = s.writes v ∨ ∃ p : NoteId × Status, p.2 ≠ .active ∧ s'.writes v = p :: s.writes v

theorem Writes.cases (h : Writes s s' v) (i : NoteId) :
    (s'.writes v).lookup i = (s.writes v).lookup i ∨
      ∃ st, st ≠ .active ∧ (s'.writes v).lookup i = some st := by
  rcases h with h | ⟨p, hne, h⟩
  · rw [h]
    exact .inl rfl
  · rw [h, List.lookup_cons]
    split
    · exact .inr ⟨p.2, hne, rfl⟩
    · exact .inl rfl

theorem Writes.retired (h : Writes s s' v)
    (hnotes : ∀ n, s.notes[i]? = some n → s'.notes[i]? = some n) (hret : s.Retired v i) :
    s'.Retired v i := by
  obtain ⟨_, ⟨n, hn, hv, rfl⟩, hne⟩ := hret
  refine ⟨_, ⟨n, hnotes n hn, hv, rfl⟩, ?_⟩
  rcases h.cases i with hsame | ⟨st, hst, hnew⟩
  · rw [hsame]
    exact hne
  · rw [hnew]
    exact hst

theorem Writes.active (h : Writes s s' v)
    (hnotes : ∀ n, s'.notes[i]? = some n → s.notes[i]? = some n) (hact : s'.Sees v i .active) :
    s.Sees v i .active := by
  obtain ⟨n, hn, hv, hst⟩ := hact
  refine ⟨n, hnotes n hn, hv, ?_⟩
  rcases h.cases i with hsame | ⟨st, hne, hnew⟩
  · rw [← hsame]
    exact hst
  · rw [hnew] at hst
    exact absurd hst.symm hne

/-- the status that a session holds is no more active than the note is -/
theorem SessionInv.holds (h : SessionInv s t) (hread : s.Sees (some t) i read)
    (hne : (s.sessions t).holds i read ≠ .active) : s.Retired (some t) i := by
  unfold Session.holds at hne
  cases hlookup : (s.sessions t).loaded.lookup i with
  | none =>
    rw [hlookup] at hne
    exact ⟨read, hread, hne⟩
  | some st =>
    rw [hlookup] at hne
    obtain ⟨l₁, l₂, hl, -⟩ := List.lookup_eq_some_iff.1 hlookup
    exact h.loaded (i, st) (by rw [hl]; simp) hne

/-- a row that no other session holds may be locked -/
theorem holder_lock (hfree : ¬ (s.holder i).any (· ≠ t)) (k : NoteId) (u : SessionId)
    (h : s.holder k = some u) : Function.update s.holder i (some t) k = some u := by
  rw [Function.update_apply]
  split
  · rename_i hk
    rw [hk] at h
    rw [h] at hfree
    have hu : u = t := by simpa using hfree
    rw [hu]
  · exact h

/-! ## the events of a call -/

/-- every view is as it was, and so is what every event keeps -/
def Quiet (s s' : Db) : Prop := Inv s' ∧ ∀ v, SameView s v s' v

theorem SameView.refl (s : Db) (v : Option SessionId) : SameView s v s v :=
  ⟨fun _ _ => Iff.rfl, fun _ _ => Iff.rfl, rfl⟩

theorem Quiet.refl (h : Inv s) : Quiet s s := ⟨h, SameView.refl s⟩

theorem quiet_pending (h : Inv s) (p : Option Pending)
    (hold : ∀ c old, p = some ⟨c, .looking old⟩ ∨ p = some ⟨c, .writing old⟩ →
      OldInv s s.holder t c old) :
    Quiet s (s.setSession t { s.sessions t with pending := p }) :=
  h.private_step rfl rfl rfl rfl rfl (fun _ _ hk => hk) (h.session t).loaded hold

theorem quiet_loaded (h : Inv s) (l : List (NoteId × Status))
    (hl : ∀ p ∈ l, p.2 ≠ .active → s.Retired (some t) p.1) :
    Quiet s (s.setSession t { s.sessions t with loaded := l }) :=
  h.private_step rfl rfl rfl rfl rfl (fun _ _ hk => hk) hl (h.session t).old

theorem quiet_over (h : Inv s) (c : Call) (r : Except Err NoteId) : Quiet s (s.over t c r).2 := by
  refine quiet_pending h none fun c old hp => ?_
  rcases hp with hp | hp <;> cases hp

theorem quiet_lockOld (h : Inv s) (c : Call) : Quiet s (lockOld s t c).2 := by
  unfold lockOld
  split
  · rename_i hnone
    refine quiet_pending h _ fun c' old hp => ?_
    rcases hp with hp | hp
    · cases hp
      exact .inl ⟨hnone, rfl⟩
    · cases hp
  · rename_i i hi
    split
    · exact quiet_over h c _
    · rename_i read hread
      split
      · exact Quiet.refl h
      · rename_i hfree
        have hsees := status_iff.1 hread
        refine h.private_step rfl rfl rfl rfl rfl (holder_lock hfree) (fun p hp hne => ?_)
          fun c' old hp => ?_
        · rcases List.mem_cons.1 hp with rfl | hp
          · exact (h.session t).holds hsees hne
          · exact (h.session t).loaded p hp hne
        · rcases hp with hp | hp
          · cases hp
            exact .inr ⟨i, _, hi, rfl, Function.update_self .., ⟨read, hsees⟩,
              (h.session t).holds hsees⟩
          · cases hp

theorem quiet_lookUp (h : Inv s) (held : Bool)
    (hp : (s.sessions t).pending = some ⟨c, .looking old⟩) :
    Quiet s (lookUp s t c old held).2 := by
  unfold lookUp
  split
  · dsimp only
    split
    · split
      · exact quiet_over h c _
      · exact quiet_over h c _
    · split
      · exact quiet_over h c _
      · exact quiet_over h c _
  · refine quiet_pending h _ fun c' old' hp' => ?_
    rcases hp' with hp' | hp'
    · cases hp'
    · cases hp'
      exact (h.session t).old c old (.inl hp)

/-! ## a dispute -/

theorem inv_markDisputed (h : Inv s) (hp : (s.sessions t).pending = none) :
    Inv (markDisputed s t i) ∧ ∀ v, Single s v → Single (markDisputed s t i) v := by
  unfold markDisputed
  split
  · exact ⟨h, fun _ hv => hv⟩
  · rename_i read hread
    split
    · exact ⟨h, fun _ hv => hv⟩
    · rename_i hfree
      have hsees := status_iff.1 hread
      dsimp only
      generalize hst : (if (s.sessions t).holds i read = .disputed then (s.sessions t).statuses
        else (i, Status.disputed) :: (s.sessions t).statuses) = statuses
      generalize hs' : Db.setSession { s with holder := Function.update s.holder i (some t) } t
        { s.sessions t with
          statuses, loaded := (i, .disputed) :: (s.sessions t).loaded
          disputed := i :: (s.sessions t).disputed } = s'
      have hnotes : s'.notes = s.notes := by rw [← hs']; rfl
      have hsessions : s'.sessions = Function.update s.sessions t { s.sessions t with
          statuses, loaded := (i, .disputed) :: (s.sessions t).loaded
          disputed := i :: (s.sessions t).disputed } := by rw [← hs']; rfl
      have hdisputed : s'.disputed = s.disputed := by rw [← hs']; rfl
      have hholder : ∀ k u, s.holder k = some u → s'.holder k = some u := by
        rw [← hs']
        exact holder_lock hfree
      have hself : s'.sessions t = { s.sessions t with
          statuses, loaded := (i, .disputed) :: (s.sessions t).loaded
          disputed := i :: (s.sessions t).disputed } := by rw [hsessions, Function.update_self]
      have hwrites : Writes s s' (some t) := by
        show (s'.sessions t).statuses = (s.sessions t).statuses ∨ ∃ p : NoteId × Status, _ ∧
          (s'.sessions t).statuses = p :: (s.sessions t).statuses
        rw [hself, ← hst]
        dsimp only
        split
        · exact .inl rfl
        · exact .inr ⟨(i, .disputed), nofun, rfl⟩
      have hret : ∀ k, s.Retired (some t) k → s'.Retired (some t) k := fun k =>
        hwrites.retired fun n hn => by rw [hnotes]; exact hn
      -- the note is disputed now, or the session held it so
      have hi : s'.Retired (some t) i := by
        by_cases hheld : (s.sessions t).holds i read = .disputed
        · exact hret i ((h.session t).holds hsees (by rw [hheld]; nofun))
        · obtain ⟨n, hn, hv, -⟩ := hsees
          refine ⟨.disputed, ⟨n, by rw [hnotes]; exact hn, hv, ?_⟩, nofun⟩
          show _ = ((s'.sessions t).statuses.lookup i).getD n.status
          rw [hself, ← hst, if_neg hheld, List.lookup_cons_self]
          rfl
      have hother : ∀ v, v ≠ some t → SameView s v s' v := fun v hv =>
        sameView_setSession hv (fun k n _ => by rw [hnotes]) hsessions hdisputed
      refine ⟨⟨?_, ?_, ?_, fun v => ?_, fun u => ?_⟩, fun v hsingle => ?_⟩
      · rw [hnotes]
        exact h.below
      · rw [hnotes]
        exact h.keys
      · intro j n k u hn hhome hsup
        rw [hnotes] at hn
        exact hholder k u (h.locked j n k u hn hhome hsup)
      · by_cases hv : v = some t
        · subst hv
          refine ⟨fun j k hf => ?_, fun k hk => ?_⟩
          · have hf' : s.Follows (some t) j k := by
              obtain ⟨n, hn, hrest⟩ := hf
              rw [hnotes] at hn
              exact ⟨n, hn, hrest⟩
            exact hret k ((h.view _).followed j k hf')
          · change k ∈ s'.disputed ++ (s'.sessions t).disputed at hk
            rw [hdisputed, hself, List.mem_append, List.mem_cons] at hk
            rcases hk with hk | rfl | hk
            · exact hret k ((h.view (some t)).disputed k (List.mem_append_left _ hk))
            · exact hi
            · exact hret k ((h.view (some t)).disputed k (List.mem_append_right _ hk))
        · exact (h.view v).same (hother v hv)
      · by_cases hu : u = t
        · subst hu
          refine ⟨?_, fun p hp' hne => ?_, fun c old hp' => ?_⟩
          · have hkept : ∀ p ∈ (s.sessions u).statuses, p.2 ≠ .active ∧ s'.Retired (some u) p.1 :=
              fun p hp => ((h.session u).statuses p hp).imp_right (hret p.1)
            rw [hself, ← hst]
            dsimp only
            split
            · exact hkept
            · exact List.forall_mem_cons.2 ⟨⟨nofun, hi⟩, hkept⟩
          · rw [hself] at hp'
            rcases List.mem_cons.1 hp' with rfl | hp'
            · exact hi
            · exact hret p.1 ((h.session u).loaded p hp' hne)
          · rw [hself] at hp'
            change (s.sessions u).pending = _ ∨ (s.sessions u).pending = _ at hp'
            rw [hp] at hp'
            rcases hp' with hp' | hp' <;> cases hp'
        · refine (h.session u).same (hother _ fun heq => hu (Option.some.inj heq)) ?_
            fun k => hholder k u
          rw [hsessions, Function.update_of_ne hu]
      · by_cases hv : v = some t
        · subst hv
          have hact : ∀ k, s'.Sees (some t) k .active → s.Sees (some t) k .active := fun k =>
            hwrites.active fun n hn => by rw [← hnotes]; exact hn
          have hfol : ∀ a b, s'.Follows (some t) a b → s.Follows (some t) a b := fun a b hf => by
            obtain ⟨n, hn, hrest⟩ := hf
            rw [hnotes] at hn
            exact ⟨n, hn, hrest⟩
          exact fun a b k ha hb hak hbk => hsingle a b k (hact a ha) (hact b hb) (hfol a k hak)
            (hfol b k hbk)
        · exact hsingle.same (hother v hv)

/-! ## a flush -/

theorem find_underKey {key : String} {p : Note × NoteId} (h : s.underKey t key = some p) :
    s.notes[p.2]? = some p.1 ∧ p.1.SeenBy (some t) ∧ p.1.idempotencyKey = key := by
  unfold Db.underKey at h
  have hmem := List.mem_zipIdx_iff_getElem?.1 (List.mem_of_find?_eq_some h)
  have hfound := List.find?_some h
  have hp : p.1.visible t ∧ p.1.idempotencyKey = key := of_decide_eq_true hfound
  exact ⟨hmem, visible_iff.1 hp.1, hp.2⟩

theorem underKey_none {key : String} (h : s.underKey t key = none) (hn : s.notes[i]? = some n)
    (hv : n.SeenBy (some t)) : n.idempotencyKey ≠ key := fun hkey => by
  unfold Db.underKey at h
  have hno := List.find?_eq_none.1 h (n, i) (List.mem_zipIdx_iff_getElem?.2 hn)
  exact hno (decide_eq_true ⟨visible_iff.2 hv, hkey⟩)

theorem keyTaken_false {key : String} (h : ¬ s.keyTaken t key) (hn : s.notes[i]? = some n)
    (hkey : n.idempotencyKey = key) (hlive : n.home ≠ .rolledBack) : n.SeenBy (some t) := by
  unfold Db.keyTaken at h
  rw [List.any_eq_true] at h
  by_contra hno
  refine h ⟨n, List.mem_of_getElem? hn, decide_eq_true ⟨hkey, fun hc => hno (.inl hc), hlive, ?_⟩⟩
  exact fun hp => hno (.inr ⟨t, rfl, hp⟩)

/-- the session after it superseded the locked note -/
theorem supersede_cases (old : Option (NoteId × Status)) (x : Session) :
    supersede old x = x ∨ ∃ i, old = some (i, .active) ∧ supersede old x =
      { x with
        statuses := (i, .superseded) :: x.statuses, loaded := (i, .superseded) :: x.loaded } := by
  unfold supersede
  split
  · exact .inr ⟨_, rfl, rfl⟩
  · exact .inl rfl

/-- the state after the flush of a note -/
def Db.inserted (s : Db) (t : SessionId) (note : Note) (old : Option (NoteId × Status)) : Db :=
  { s with notes := s.notes ++ [note] }.setSession t
    { supersede old (s.sessions t) with pending := none }

section
variable {note : Note} (hhome : note.home = .pending t)
include hhome

theorem sameView_inserted (hv : v ≠ some t) : SameView s v (s.inserted t note old) v := by
  refine sameView_setSession hv (fun k n hn => ?_) rfl rfl
  constructor
  · intro h
    rcases getElem?_insert h with h | ⟨-, rfl⟩
    · exact h
    · rcases hn with hn | ⟨u, hu, hn⟩
      · rw [hhome] at hn
        cases hn
      · rw [hhome] at hn
        cases hn
        exact absurd hu hv
  · intro h
    exact (List.getElem?_append_left (List.getElem?_eq_some_iff.1 h).1).trans h

omit hhome in
theorem writes_inserted : Writes s (s.inserted t note old) (some t) := by
  have hself : (s.inserted t note old).sessions t =
      { supersede old (s.sessions t) with pending := none } := Function.update_self ..
  show ((s.inserted t note old).sessions t).statuses = (s.sessions t).statuses ∨
    ∃ p : NoteId × Status, _ ∧
      ((s.inserted t note old).sessions t).statuses = p :: (s.sessions t).statuses
  rw [hself]
  rcases supersede_cases old (s.sessions t) with hx | ⟨i, -, hx⟩
  · rw [hx]
    exact .inl rfl
  · rw [hx]
    exact .inr ⟨(i, .superseded), nofun, rfl⟩

omit hhome in
theorem keeps_inserted (k : ℕ) (n : Note) (h : s.notes[k]? = some n) :
    (s.inserted t note old).notes[k]? = some n :=
  (List.getElem?_append_left (List.getElem?_eq_some_iff.1 h).1).trans h

omit hhome in
/-- the locked note is retired by the flush, if it was not before -/
theorem retired_inserted (hold : OldInv s s.holder t c old) (hi : c.supersedesNoteId = some i) :
    (s.inserted t note old).Retired (some t) i := by
  rcases hold with ⟨hnone, -⟩ | ⟨k, seen, hk, hold, -, ⟨st, n, hn, hv, -⟩, hret⟩
  · rw [hi] at hnone
    cases hnone
  · rw [hi] at hk
    cases hk
    by_cases hseen : seen = .active
    · subst hseen
      refine ⟨.superseded, ⟨n, keeps_inserted i n hn, hv, ?_⟩, nofun⟩
      have hself : (s.inserted t note old).sessions t =
          { supersede old (s.sessions t) with pending := none } := Function.update_self ..
      show _ = (((s.inserted t note old).sessions t).statuses.lookup i).getD n.status
      rw [hself, hold]
      show _ = (((i, Status.superseded) :: (s.sessions t).statuses).lookup i).getD n.status
      rw [List.lookup_cons_self]
      rfl
    · exact writes_inserted.retired (keeps_inserted i) (hret hseen)

theorem inv_inserted (h : Inv s) (hold : OldInv s s.holder t c old)
    (hsup : note.supersedesNoteId = c.supersedesNoteId)
    (hfree : ∀ (k : ℕ) (n : Note), s.notes[k]? = some n → n.home ≠ .rolledBack →
      n.idempotencyKey ≠ note.idempotencyKey) :
    Inv (s.inserted t note old) := by
  have hself : (s.inserted t note old).sessions t =
      { supersede old (s.sessions t) with pending := none } := Function.update_self ..
  have hret : ∀ k, s.Retired (some t) k → (s.inserted t note old).Retired (some t) k := fun k =>
    writes_inserted.retired (keeps_inserted k)
  refine ⟨fun j n i hn hi => ?_, fun i j n m hn hm hnlive hmlive hkey => ?_,
    fun j n i u hn hpending hi => ?_, fun v => ?_, fun u => ?_⟩
  · rcases getElem?_insert hn with hn | ⟨rfl, rfl⟩
    · exact h.below j n i hn hi
    · rcases hold with ⟨hnone, -⟩ | ⟨k, seen, hk, -, -, ⟨st, m, hm, -⟩, -⟩
      · rw [hsup, hnone] at hi
        cases hi
      · rw [hsup, hk] at hi
        cases hi
        exact (List.getElem?_eq_some_iff.1 hm).1
  · rcases getElem?_insert hn with hn' | ⟨hi, hnew⟩
    · rcases getElem?_insert hm with hm' | ⟨-, hnew⟩
      · exact h.keys i j n m hn' hm' hnlive hmlive hkey
      · exact absurd (hnew ▸ hkey) (hfree i n hn' hnlive)
    · rcases getElem?_insert hm with hm' | ⟨hj, -⟩
      · exact absurd (hnew ▸ hkey.symm) (hfree j m hm' hmlive)
      · rw [hi, hj]
  · rcases getElem?_insert hn with hn | ⟨rfl, rfl⟩
    · exact h.locked j n i u hn hpending hi
    · rw [hhome] at hpending
      cases hpending
      rcases hold with ⟨hnone, -⟩ | ⟨k, seen, hk, -, hheld, -⟩
      · rw [hsup, hnone] at hi
        cases hi
      · rw [hsup, hk] at hi
        cases hi
        exact hheld
  · by_cases hv : v = some t
    · subst hv
      refine ⟨fun j k hf => ?_, fun k hk => ?_⟩
      · obtain ⟨n, hn, hv, hk⟩ := hf
        rcases getElem?_insert hn with hn | ⟨-, rfl⟩
        · exact hret k ((h.view _).followed j k ⟨n, hn, hv, hk⟩)
        · exact retired_inserted hold (hsup ▸ hk)
      · refine hret k ((h.view (some t)).disputed k ?_)
        change k ∈ s.disputed ++ ((s.inserted t note old).sessions t).disputed at hk
        rw [hself] at hk
        rcases supersede_cases old (s.sessions t) with hx | ⟨i, -, hx⟩
        · rw [hx] at hk
          exact hk
        · rw [hx] at hk
          exact hk
    · exact (h.view v).same (sameView_inserted hhome hv)
  · by_cases hu : u = t
    · subst hu
      have hold' : ∀ i, old = some (i, .active) → (s.inserted u note old).Retired (some u) i :=
        fun i hi => by
          rcases hold with ⟨-, hnone⟩ | ⟨k, seen, hk, hsome, hrest⟩
          · rw [hi] at hnone
            cases hnone
          · have hsame := hi.symm.trans hsome
            cases hsame
            exact retired_inserted (.inr ⟨i, .active, hk, hi, hrest⟩) hk
      refine ⟨?_, ?_, fun c' old' hp => ?_⟩
      · have hkept : ∀ p ∈ (s.sessions u).statuses, p.2 ≠ .active ∧
            (s.inserted u note old).Retired (some u) p.1 :=
          fun p hp => ((h.session u).statuses p hp).imp_right (hret p.1)
        rw [hself]
        rcases supersede_cases old (s.sessions u) with hx | ⟨i, hi, hx⟩
        · rw [hx]
          exact hkept
        · rw [hx]
          exact List.forall_mem_cons.2 ⟨⟨nofun, hold' i hi⟩, hkept⟩
      · have hloaded : ∀ p ∈ (s.sessions u).loaded, p.2 ≠ .active →
            (s.inserted u note old).Retired (some u) p.1 := fun p hp hne =>
          hret p.1 ((h.session u).loaded p hp hne)
        rw [hself]
        rcases supersede_cases old (s.sessions u) with hx | ⟨i, hi, hx⟩
        · rw [hx]
          exact hloaded
        · rw [hx]
          exact List.forall_mem_cons.2 ⟨fun _ => hold' i hi, hloaded⟩
      · rw [hself] at hp
        rcases hp with hp | hp <;> cases hp
    · refine (h.session u).same (sameView_inserted hhome fun heq => hu (Option.some.inj heq)) ?_
        fun k hk => hk
      exact Function.update_of_ne hu ..

/-- the new note may be the only active one to supersede a note -/
theorem single_inserted (hsup : note.supersedesNoteId = c.supersedesNoteId)
    (hcurrent : ∀ k, c.supersedesNoteId = some k → ∀ i, s.Sees (some t) i .active →
      ¬ s.Follows (some t) i k) (hsingle : Single s v) : Single (s.inserted t note old) v := by
  by_cases hv : v = some t
  · subst hv
    have hcase : ∀ i k, (s.inserted t note old).Sees (some t) i .active →
        (s.inserted t note old).Follows (some t) i k →
          (s.Sees (some t) i .active ∧ s.Follows (some t) i k) ∨
            i = s.notes.length ∧ c.supersedesNoteId = some k := fun i k hsees hf => by
      obtain ⟨n, hn, hv, hk⟩ := hf
      rcases getElem?_insert hn with hn' | ⟨hi, rfl⟩
      · refine .inl ⟨writes_inserted.active (fun m hm => ?_) hsees, n, hn', hv, hk⟩
        rw [hn] at hm
        cases hm
        exact hn'
      · exact .inr ⟨hi, hsup ▸ hk⟩
    intro i j k hi hj hik hjk
    rcases hcase i k hi hik with ⟨hi', hik'⟩ | ⟨rfl, hk⟩
    · rcases hcase j k hj hjk with ⟨hj', hjk'⟩ | ⟨rfl, hk⟩
      · exact hsingle i j k hi' hj' hik' hjk'
      · exact absurd hik' (hcurrent k hk i hi')
    · rcases hcase j k hj hjk with ⟨hj', hjk'⟩ | ⟨rfl, -⟩
      · exact absurd hjk' (hcurrent k hk j hj')
      · rfl
  · exact hsingle.same (sameView_inserted hhome hv)

end

/-! ## the end of a session -/

theorem holder_end (hne : u ≠ t) (h : s.holder i = some u) :
    (if s.holder i = some t then none else s.holder i) = some u := by
  rw [if_neg, h]
  rw [h]
  exact fun heq => hne (Option.some.inj heq)

/-- a note of a rolled back session is in no view -/
theorem rollback_note {m : Note} (h : (s.rollback t).notes[i]? = some m) :
    ∃ n, s.notes[i]? = some n ∧
      ((n.home = .pending t ∧ m = { n with home := .rolledBack }) ∨
        (n.home ≠ .pending t ∧ m = n)) := by
  change (s.notes.map _)[i]? = some m at h
  rw [List.getElem?_map, Option.map_eq_some_iff] at h
  obtain ⟨n, hn, hm⟩ := h
  refine ⟨n, hn, ?_⟩
  split at hm
  · rename_i hhome
    exact .inl ⟨hhome, hm.symm⟩
  · rename_i hhome
    exact .inr ⟨hhome, hm.symm⟩

theorem note_rollback (hn : s.notes[i]? = some n) (hhome : n.home ≠ .pending t) :
    (s.rollback t).notes[i]? = some n := by
  show (s.notes.map _)[i]? = some n
  rw [List.getElem?_map, hn, Option.map_some, if_neg hhome]

/-- what is seen of the notes once a session is rolled back -/
theorem seen_rollback (hv : v ≠ some t) (i : ℕ) (n : Note) (hseen : n.SeenBy v) :
    (s.rollback t).notes[i]? = some n ↔ s.notes[i]? = some n := by
  have hhome : n.home ≠ .pending t := fun heq => by
    rcases hseen with hc | ⟨u, hu, hp⟩
    · rw [heq] at hc
      cases hc
    · rw [heq] at hp
      cases hp
      exact hv hu
  constructor
  · intro h
    obtain ⟨m, hm, hcase⟩ := rollback_note h
    rcases hcase with ⟨-, rfl⟩ | ⟨-, rfl⟩
    · rcases hseen with hc | ⟨u, -, hp⟩
      · cases hc
      · cases hp
    · exact hm
  · intro h
    exact note_rollback h hhome

/-- the view of a session that has not written anything is the committed one -/
theorem sameView_idle (hstatuses : (s.sessions t).statuses = [])
    (hdisputed : (s.sessions t).disputed = [])
    (hnone : ∀ (i : ℕ) (n : Note), s.notes[i]? = some n → n.home ≠ .pending t) :
    SameView s none s (some t) := by
  have hseen : ∀ (i : ℕ) (n : Note), s.notes[i]? = some n →
      (n.SeenBy (some t) ↔ n.SeenBy none) := fun i n hn => by
    constructor
    · intro h
      rcases h with h | ⟨u, hu, hp⟩
      · exact .inl h
      · cases hu
        exact absurd hp (hnone i n hn)
    · intro h
      exact h.imp_right fun ⟨u, hu, _⟩ => nomatch hu
  refine ⟨fun i st => ?_, fun j i => ?_, ?_⟩
  · have hwrites : s.writes (some t) = s.writes none := hstatuses
    unfold Db.Sees
    rw [hwrites]
    exact exists_congr fun n => and_congr_right fun hn => and_congr_left fun _ => hseen i n hn
  · exact exists_congr fun n => and_congr_right fun hn => and_congr_left fun _ => hseen j n hn
  · exact congrArg (s.disputed ++ ·) hdisputed

theorem sessionInv_idle (hidle : s.sessions t = {}) : SessionInv s t where
  statuses := by
    rw [hidle]
    nofun
  loaded := by
    rw [hidle]
    nofun
  old c old hp := by
    rw [hidle] at hp
    rcases hp with hp | hp <;> cases hp

theorem sameView_rollback (hv : v ≠ some t) : SameView s v (s.rollback t) v :=
  sameView_setSession hv (seen_rollback hv) rfl rfl

theorem idle_rollback : SameView (s.rollback t) none (s.rollback t) (some t) := by
  have hidle : (s.rollback t).sessions t = {} := Function.update_self ..
  refine sameView_idle (congrArg Session.statuses hidle) (congrArg Session.disputed hidle)
    fun i m hm hhome => ?_
  obtain ⟨n, -, ⟨-, rfl⟩ | ⟨hne, rfl⟩⟩ := rollback_note hm
  · cases hhome
  · exact hne hhome

theorem inv_rollback (h : Inv s) : Inv (s.rollback t) := by
  refine ⟨fun j m i hm hi => ?_, fun i j m m' hm hm' hlive hlive' hkey => ?_,
    fun j m i u hm hhome hi => ?_, fun v => ?_, fun u => ?_⟩
  · obtain ⟨n, hn, ⟨-, rfl⟩ | ⟨-, rfl⟩⟩ := rollback_note hm
    · exact h.below j n i hn hi
    · exact h.below j m i hn hi
  · obtain ⟨n, hn, ⟨-, rfl⟩ | ⟨-, rfl⟩⟩ := rollback_note hm
    · exact absurd rfl hlive
    · obtain ⟨n', hn', ⟨-, rfl⟩ | ⟨-, rfl⟩⟩ := rollback_note hm'
      · exact absurd rfl hlive'
      · exact h.keys i j m m' hn hn' hlive hlive' hkey
  · obtain ⟨n, hn, ⟨-, rfl⟩ | ⟨hne, rfl⟩⟩ := rollback_note hm
    · cases hhome
    · have hu : u ≠ t := fun heq => hne (heq ▸ hhome)
      exact holder_end hu (h.locked j m i u hn hhome hi)
  · by_cases hv : v = some t
    · subst hv
      exact ((h.view none).same (sameView_rollback nofun)).same idle_rollback
    · exact (h.view v).same (sameView_rollback hv)
  · by_cases hu : u = t
    · subst hu
      exact sessionInv_idle (Function.update_self ..)
    · refine (h.session u).same (sameView_rollback fun heq => hu (Option.some.inj heq)) ?_
        fun i => holder_end hu
      exact Function.update_of_ne hu ..

theorem single_rollback (hsingle : ∀ v, Single s v) (v : Option SessionId) :
    Single (s.rollback t) v := by
  by_cases hv : v = some t
  · subst hv
    exact ((hsingle none).same (sameView_rollback nofun)).same idle_rollback
  · exact (hsingle v).same (sameView_rollback hv)

/-- a note after a commit -/
theorem commit_note {m : Note} : (s.commit t).notes[i]? = some m ↔ ∃ n, s.notes[i]? = some n ∧
    m = { n with
      status := ((s.sessions t).statuses.lookup i).getD n.status
      home := if n.home = .pending t then .committed else n.home } := by
  show (s.notes.mapIdx _)[i]? = some m ↔ _
  rw [List.getElem?_mapIdx, Option.map_eq_some_iff]
  exact exists_congr fun n => and_congr_right fun _ => eq_comm

/-- the view of a session becomes the committed one -/
theorem sameView_commit : SameView s (some t) (s.commit t) none := by
  have hseen : ∀ n : Note, (if n.home = .pending t then Home.committed else n.home) = .committed ↔
      n.SeenBy (some t) := fun n => by
    constructor
    · intro h
      split at h
      · rename_i hp
        exact .inr ⟨t, rfl, hp⟩
      · exact .inl h
    · intro h
      rcases h with h | ⟨u, hu, hp⟩
      · rw [h]
        rfl
      · cases hu
        exact if_pos hp
  have hnone : ∀ n : Note, n.SeenBy none ↔ n.home = .committed := fun n => by
    constructor
    · intro h
      rcases h with h | ⟨u, hu, -⟩
      · exact h
      · cases hu
    · exact .inl
  refine ⟨fun i st => ?_, fun j i => ?_, List.append_nil _⟩
  · constructor
    · intro h
      obtain ⟨m, hm, hv, rfl⟩ := h
      obtain ⟨n, hn, rfl⟩ := commit_note.1 hm
      exact ⟨n, hn, (hseen n).1 ((hnone _).1 hv), rfl⟩
    · intro h
      obtain ⟨n, hn, hv, rfl⟩ := h
      exact ⟨_, commit_note.2 ⟨n, hn, rfl⟩, (hnone _).2 ((hseen n).2 hv), rfl⟩
  · constructor
    · intro h
      obtain ⟨m, hm, hv, hi⟩ := h
      obtain ⟨n, hn, rfl⟩ := commit_note.1 hm
      exact ⟨n, hn, (hseen n).1 ((hnone _).1 hv), hi⟩
    · intro h
      obtain ⟨n, hn, hv, hi⟩ := h
      exact ⟨_, commit_note.2 ⟨n, hn, rfl⟩, (hnone _).2 ((hseen n).2 hv), hi⟩

theorem loaded_commit (s : Db) (t : SessionId) :
    (s.commit t).sessions t = { loaded := (s.sessions t).loaded } := Function.update_self ..

theorem idle_commit : SameView (s.commit t) none (s.commit t) (some t) := by
  have hidle := loaded_commit s t
  refine sameView_idle (congrArg Session.statuses hidle) (congrArg Session.disputed hidle)
    fun i m hm hhome => ?_
  obtain ⟨n, -, rfl⟩ := commit_note.1 hm
  change (if n.home = .pending t then Home.committed else n.home) = .pending t at hhome
  split at hhome
  · cases hhome
  · rename_i hne
    exact hne hhome

section
variable (hu : u ≠ t)
include hu

theorem session_commit : (s.commit t).sessions u = s.sessions u := Function.update_of_ne hu ..

/-- another session sees after a commit what it saw, and what the session that committed saw; the
writes of both stand -/
theorem sees_commit : (s.commit t).Sees (some u) i st ↔ ∃ n, s.notes[i]? = some n ∧
    (n.SeenBy (some u) ∨ n.SeenBy (some t)) ∧ st = ((s.sessions u).statuses.lookup i).getD
      (((s.sessions t).statuses.lookup i).getD n.status) := by
  have hseen : ∀ n : Note, Note.SeenBy (some u) { n with
        status := ((s.sessions t).statuses.lookup i).getD n.status
        home := if n.home = .pending t then .committed else n.home } ↔
      n.SeenBy (some u) ∨ n.SeenBy (some t) := fun n => by
    unfold Note.SeenBy
    dsimp only
    by_cases hp : n.home = .pending t
    · rw [if_pos hp]
      exact ⟨fun _ => .inr (.inr ⟨t, rfl, hp⟩), fun _ => .inl rfl⟩
    · rw [if_neg hp]
      refine ⟨.inl, fun h => h.elim id fun h => ?_⟩
      rcases h with h | ⟨w, hw, h⟩
      · exact .inl h
      · cases hw
        exact absurd h hp
  have hwrites : (s.commit t).writes (some u) = (s.sessions u).statuses :=
    congrArg Session.statuses (session_commit hu)
  unfold Db.Sees
  rw [hwrites]
  constructor
  · intro h
    obtain ⟨m, hm, hv, rfl⟩ := h
    obtain ⟨n, hn, rfl⟩ := commit_note.1 hm
    exact ⟨n, hn, (hseen n).1 hv, rfl⟩
  · intro h
    obtain ⟨n, hn, hv, rfl⟩ := h
    exact ⟨_, commit_note.2 ⟨n, hn, rfl⟩, (hseen n).2 hv, rfl⟩

omit hu in
theorem follows_commit (h : (s.commit t).Follows (some u) j i) :
    ∃ n, s.notes[j]? = some n ∧ (n.SeenBy (some u) ∨ n.SeenBy (some t)) ∧
      n.supersedesNoteId = some i := by
  obtain ⟨m, hm, hv, hi⟩ := h
  obtain ⟨n, hn, rfl⟩ := commit_note.1 hm
  refine ⟨n, hn, ?_, hi⟩
  rcases hv with hc | ⟨w, hw, hp⟩
  · change (if n.home = .pending t then Home.committed else n.home) = .committed at hc
    split at hc
    · rename_i hpend
      exact .inr (.inr ⟨t, rfl, hpend⟩)
    · exact .inl (.inl hc)
  · change (if n.home = .pending t then Home.committed else n.home) = .pending w at hp
    split at hp
    · cases hp
    · exact .inl (.inr ⟨w, hw, hp⟩)

end

theorem lookup_ne_active (h : SessionInv s t) (hst : (s.sessions t).statuses.lookup i = some st) :
    st ≠ .active := by
  obtain ⟨l₁, l₂, hl, -⟩ := List.lookup_eq_some_iff.1 hst
  exact (h.statuses (i, st) (by rw [hl]; simp)).1

/-- a note that is retired in one of the two views is retired in the joint one -/
theorem retired_commit (h : Inv s) (hu : u ≠ t)
    (hret : s.Retired (some u) i ∨ s.Retired (some t) i) : (s.commit t).Retired (some u) i := by
  rcases hret with ⟨_, ⟨n, hn, hv, rfl⟩, hne⟩ | ⟨_, ⟨n, hn, hv, rfl⟩, hne⟩
  · refine ⟨_, (sees_commit hu).2 ⟨n, hn, .inl hv, rfl⟩, ?_⟩
    change ((s.sessions u).statuses.lookup i).getD n.status ≠ .active at hne
    cases hown : (s.sessions u).statuses.lookup i with
    | some st => exact lookup_ne_active (h.session u) hown
    | none =>
      rw [hown] at hne
      cases hother : (s.sessions t).statuses.lookup i with
      | some st => exact lookup_ne_active (h.session t) hother
      | none => exact hne
  · refine ⟨_, (sees_commit hu).2 ⟨n, hn, .inr hv, rfl⟩, ?_⟩
    cases hown : (s.sessions u).statuses.lookup i with
    | some st => exact lookup_ne_active (h.session u) hown
    | none => exact hne

/-- a note that is active in the joint view is active in the views that it was in -/
theorem active_commit (h : Inv s) (hu : u ≠ t) (hact : (s.commit t).Sees (some u) i .active)
    (hn : s.notes[i]? = some n) (hw : u = k ∨ t = k) (hv : n.SeenBy (some k)) :
    s.Sees (some k) i .active := by
  obtain ⟨m, hm, -, hst⟩ := (sees_commit hu).1 hact
  cases hn.symm.trans hm
  cases hown : (s.sessions u).statuses.lookup i with
  | some st =>
    rw [hown] at hst
    exact absurd hst.symm (lookup_ne_active (h.session u) hown)
  | none =>
    cases hother : (s.sessions t).statuses.lookup i with
    | some st =>
      rw [hown, hother] at hst
      exact absurd hst.symm (lookup_ne_active (h.session t) hother)
    | none =>
      rw [hown, hother] at hst
      refine ⟨n, hn, hv, ?_⟩
      show _ = ((s.sessions k).statuses.lookup i).getD n.status
      rcases hw with rfl | rfl
      · rw [hown]
        exact hst
      · rw [hother]
        exact hst

theorem viewInv_commit (h : Inv s) (v : Option SessionId) : ViewInv (s.commit t) v := by
  have hnone : ViewInv (s.commit t) none := (h.view (some t)).same sameView_commit
  cases v with
  | none => exact hnone
  | some u =>
    by_cases hu : u = t
    · subst hu
      exact hnone.same idle_commit
    · refine ⟨fun j i hf => ?_, fun i hi => ?_⟩
      · obtain ⟨n, hn, hv, hi⟩ := follows_commit hf
        refine retired_commit h hu ?_
        rcases hv with hv | hv
        · exact .inl ((h.view (some u)).followed j i ⟨n, hn, hv, hi⟩)
        · exact .inr ((h.view (some t)).followed j i ⟨n, hn, hv, hi⟩)
      · refine retired_commit h hu ?_
        change i ∈ (s.disputed ++ (s.sessions t).disputed) ++
          ((s.commit t).sessions u).disputed at hi
        rw [session_commit hu, List.mem_append] at hi
        rcases hi with hi | hi
        · exact .inr ((h.view (some t)).disputed i hi)
        · exact .inl ((h.view (some u)).disputed i (List.mem_append_right _ hi))

theorem inv_commit (h : Inv s) : Inv (s.commit t) := by
  refine ⟨fun j m i hm hi => ?_, fun i j m m' hm hm' hlive hlive' hkey => ?_,
    fun j m i u hm hhome hi => ?_, viewInv_commit h, fun u => ?_⟩
  · obtain ⟨n, hn, rfl⟩ := commit_note.1 hm
    exact h.below j n i hn hi
  · obtain ⟨n, hn, rfl⟩ := commit_note.1 hm
    obtain ⟨n', hn', rfl⟩ := commit_note.1 hm'
    have hhome : ∀ n : Note,
        (if n.home = .pending t then Home.committed else n.home) ≠ .rolledBack →
        n.home ≠ .rolledBack := fun n hne heq => by
      rw [heq] at hne
      exact hne rfl
    exact h.keys i j n n' hn hn' (hhome n hlive) (hhome n' hlive') hkey
  · obtain ⟨n, hn, rfl⟩ := commit_note.1 hm
    change (if n.home = .pending t then Home.committed else n.home) = .pending u at hhome
    split at hhome
    · cases hhome
    · rename_i hne
      have hu : u ≠ t := fun heq => hne (heq ▸ hhome)
      exact holder_end hu (h.locked j n i u hn hhome hi)
  · by_cases hu : u = t
    · subst hu
      -- the identity map outlives the transaction
      refine ⟨?_, fun p hp hne => ?_, fun c old hp => ?_⟩
      · rw [loaded_commit]
        nofun
      · rw [loaded_commit] at hp
        exact idle_commit.retired.2 (sameView_commit.retired.2 ((h.session u).loaded p hp hne))
      · rw [loaded_commit] at hp
        rcases hp with hp | hp <;> cases hp
    · refine ⟨fun p hp => ?_, fun p hp hne => ?_, fun c old hp => ?_⟩
      · rw [session_commit hu] at hp
        exact ((h.session u).statuses p hp).imp_right fun hret => retired_commit h hu (.inl hret)
      · rw [session_commit hu] at hp
        exact retired_commit h hu (.inl ((h.session u).loaded p hp hne))
      · rw [session_commit hu] at hp
        rcases (h.session u).old c old hp with hnone |
          ⟨i, seen, hi, hold, hheld, ⟨st, n, hn, hv, -⟩, hret⟩
        · exact .inl hnone
        · exact .inr ⟨i, seen, hi, hold, holder_end hu hheld,
            ⟨_, (sees_commit hu).2 ⟨n, hn, .inl hv, rfl⟩⟩,
            fun hne => retired_commit h hu (.inl (hret hne))⟩

theorem single_commit (h : Inv s) (hsingle : ∀ v, Single s v) (v : Option SessionId) :
    Single (s.commit t) v := by
  have hnone : Single (s.commit t) none := (hsingle (some t)).same sameView_commit
  cases v with
  | none => exact hnone
  | some u =>
    by_cases hu : u = t
    · subst hu
      exact hnone.same idle_commit
    · intro i j k hi hj hik hjk
      obtain ⟨n, hn, hvn, hnk⟩ := follows_commit hik
      obtain ⟨m, hm, hvm, hmk⟩ := follows_commit hjk
      -- two notes of one view are one; otherwise both sessions hold the lock on the same note
      have hone : ∀ w, u = w ∨ t = w → n.SeenBy (some w) → m.SeenBy (some w) → i = j :=
        fun w hw hnw hmw => hsingle (some w) i j k (active_commit h hu hi hn hw hnw)
          (active_commit h hu hj hm hw hmw) ⟨n, hn, hnw, hnk⟩ ⟨m, hm, hmw, hmk⟩
      have hapart : ∀ w w', w ≠ w' →
          ∀ a b (x y : Note), s.notes[a]? = some x → s.notes[b]? = some y →
          x.supersedesNoteId = some k → y.supersedesNoteId = some k → x.home = .pending w →
            y.home = .pending w' → False := fun w w' hne a b x y hx hy hxk hyk hxw hyw => by
        have hheld := h.locked a x k w hx hxw hxk
        rw [h.locked b y k w' hy hyw hyk] at hheld
        exact hne (Option.some.inj hheld).symm
      rcases hvn with hvn | hvn
      · rcases hvm with hvm | hvm
        · exact hone u (.inl rfl) hvn hvm
        · rcases hvn with hc | ⟨w, hw, hp⟩
          · exact hone t (.inr rfl) (.inl hc) hvm
          · rcases hvm with hc | ⟨w', hw', hp'⟩
            · exact hone u (.inl rfl) (.inr ⟨w, hw, hp⟩) (.inl hc)
            · cases hw
              cases hw'
              exact (hapart u t hu i j n m hn hm hnk hmk hp hp').elim
      · rcases hvm with hvm | hvm
        · rcases hvn with hc | ⟨w, hw, hp⟩
          · exact hone u (.inl rfl) (.inl hc) hvm
          · rcases hvm with hc | ⟨w', hw', hp'⟩
            · exact hone t (.inr rfl) (.inr ⟨w, hw, hp⟩) (.inl hc)
            · cases hw
              cases hw'
              exact (hapart t u (Ne.symm hu) i j n m hn hm hnk hmk hp hp').elim
        · exact hone t (.inr rfl) hvn hvm

end LifeAI.Founder
