import LifeAI.MemorySource.Steps

/-!
# Finding or creating a memory source unit

* `Serves`  a call returns a unit that fits its locator, refuses one that does not, and leaves
            what its session wrote before;
* `Holds`   no statement of a call fails with an error that is no IntegrityError, and the lookup
            takes no outdated row from the identity map;
* `find_or_create`   every run is sound, and the runs that serve are those whose events all hold.
-/

namespace LifeAI.MemorySource
open Inserts (Home)

variable {sha256 : String → String} {s s' : Db} {t u : SessionId} {l : DocumentSourceLocator}
  {i j : UnitId} {m m' : MemorySourceUnit} {x : Session} {p : Pending} {e : Event}

/-- the unit is active, and is what the locator says -/
def MemorySourceUnit.fits (sha256 : String → String) (l : DocumentSourceLocator)
    (m : MemorySourceUnit) (x : Standing) (d : DocumentSourceUnit) : Bool :=
  x.lifecycleStatus = .active ∧ m.sourceKind = l.sourceKind ∧ d.documentId = l.documentId ∧
    d.versionId = l.versionId ∧ m.snapshotStatus = l.snapshotStatus ∧
    x.contentHash = l.contentHash sha256

/-- what the session sees under the id fits the locator -/
def Db.Fits (sha256 : String → String) (s : Db) (t : SessionId) (l : DocumentSourceLocator)
    (i : UnitId) : Prop :=
  ∃ m d, s.units[i]? = some m ∧ m.home.visible t ∧ m.document = some d ∧
    m.fits sha256 l (s.standing t i m) (s.document t i d)

/-- the unit that a call is about to complete -/
def Pending.own (p : Pending) : Option UnitId :=
  match p.stage with
  | .linking i => some i
  | _ => none

/-- the transaction of the session goes on with what it wrote, but for the unit of its call -/
structure Survives (s s' : Db) (t : SessionId) (own : Option UnitId) : Prop where
  usable : (s'.sessions t).deactive = false
  work : (s'.sessions t).work = (s.sessions t).work
  transitions : (s'.sessions t).transitions = (s.sessions t).transitions
  cleared : (s'.sessions t).cleared = (s.sessions t).cleared
  units : ∀ (j : ℕ) (m : MemorySourceUnit), s.units[j]? = some m → m.home = .pending t →
    own ≠ some j → ∃ m', s'.units[j]? = some m' ∧ m'.home = .pending t

/-- what an event owes to the calls -/
structure Serves (sha256 : String → String) (s : Db) (e : Event) : Prop where
  returns : ∀ a, answer sha256 s e = some a → ∀ i, a.result = .ok i →
    (step sha256 s e).Fits sha256 a.session a.locator i
  refuses : ∀ a, answer sha256 s e = some a →
    (s.sessions a.session).pending = some ⟨a.locator, .looking⟩ →
      ∀ m i, s.underKey a.session a.locator.identityKey = some (m, i) →
        ¬ s.Fits sha256 a.session a.locator i →
          ∃ message, a.result = .error (.memorySourceIdentityConflict message)
  survives : ∀ t p, (s.sessions t).pending = some p → e ≠ .rollback t →
    Survives s (step sha256 s e) t p.own

/-- if the rows that the session holds pass, then so do those of the tables -/
def Db.upToDate (sha256 : String → String) (s : Db) (t : SessionId) : Bool :=
  let x := s.sessions t
  match x.pending with
  | some ⟨l, .looking⟩ => (s.underKey t l.identityKey).all fun p => p.1.document.all fun d =>
      (check sha256 l p.1 p.2 ((x.loaded.lookup p.2).getD (s.standing t p.2 p.1))
        ((x.loadedDocuments.lookup p.2).getD (s.document t p.2 d))).isOk →
        p.1.fits sha256 l (s.standing t p.2 p.1) (s.document t p.2 d)
  | _ => true

/-- the text of the locator can be sent -/
def Db.textual (s : Db) (t : SessionId) : Bool :=
  match (s.sessions t).pending with
  | some ⟨l, .inserting⟩ => l.contentText.all fun text => '\x00' ∉ text.toList
  | _ => true

/-- the condition on an event -/
def Holds (sha256 : String → String) (s : Db) : Event → Bool
  | .insertUnit t => s.textual t
  | .look t => s.upToDate sha256 t
  | .cancel t => (s.sessions t).pending.isNone
  | _ => true

/-! ## what the session of a call wrote -/

theorem survives_of (x : Session) (husable : (s.sessions t).deactive = false)
    (hsessions : s'.sessions = Function.update s.sessions t x)
    (hdeactive : x.deactive = (s.sessions t).deactive) (hwork : x.work = (s.sessions t).work)
    (htransitions : x.transitions = (s.sessions t).transitions)
    (hcleared : x.cleared = (s.sessions t).cleared) {own : Option UnitId}
    (hunits : ∀ (j : ℕ) (m : MemorySourceUnit), s.units[j]? = some m → own ≠ some j →
      s'.units[j]? = some m) : Survives s s' t own := by
  have hself : s'.sessions t = x := by rw [hsessions, Function.update_self]
  refine ⟨?_, ?_, ?_, ?_, fun j m hm hhome hne => ⟨m, hunits j m hm hne, hhome⟩⟩
  · rw [hself, hdeactive, husable]
  · rw [hself, hwork]
  · rw [hself, htransitions]
  · rw [hself, hcleared]

theorem Survives.refl (husable : (s.sessions t).deactive = false) (own : Option UnitId) :
    Survives s s t own :=
  ⟨husable, rfl, rfl, rfl, fun _ m hm hhome _ => ⟨m, hm, hhome⟩⟩

theorem survives_pending (husable : (s.sessions t).deactive = false) (p' : Option Pending)
    (own : Option UnitId) :
    Survives s (s.setSession t { s.sessions t with pending := p' }) t own :=
  survives_of { s.sessions t with pending := p' } husable rfl rfl rfl rfl rfl fun _ _ hm _ => hm

theorem survives_insertUnit (husable : (s.sessions t).deactive = false) (own : Option UnitId)
    (htext : l.contentText.all fun text => '\x00' ∉ text.toList) :
    Survives s (insertUnit sha256 s t l).2 t own := by
  rcases insertUnit_cases sha256 s t l with ⟨hnul, -⟩ | ⟨-, ⟨e, hi⟩ | hi | hi | ⟨-, hi⟩⟩
  · cases hl : l.contentText with
    | none =>
      rw [hl] at hnul
      cases hnul
    | some text =>
      rw [hl] at hnul htext
      exact absurd (of_decide_eq_true hnul) (of_decide_eq_true htext)
  · rw [hi]
    exact survives_pending husable none own
  · rw [hi]
    exact Survives.refl husable own
  · rw [hi]
    exact survives_pending husable _ own
  · rw [hi]
    refine survives_of { s.sessions t with pending := some ⟨l, .linking s.units.length⟩ } husable
      rfl rfl rfl rfl rfl fun j m hm _ => ?_
    exact (List.getElem?_append_left (List.getElem?_eq_some_iff.1 hm).1).trans hm

theorem survives_insertDocument (husable : (s.sessions t).deactive = false) :
    Survives s (insertDocument s t l i).2 t (some i) := by
  have hrow : ∀ (f : MemorySourceUnit → MemorySourceUnit) (j : ℕ) (m : MemorySourceUnit),
      s.units[j]? = some m → some i ≠ some j → (s.units.modify i f)[j]? = some m :=
    fun f j m hm hne => by
      rw [List.getElem?_modify, hm]
      exact congrArg some (if_neg fun heq => hne (congrArg some heq))
  unfold insertDocument
  split
  · exact survives_of { s.sessions t with pending := none } husable rfl rfl rfl rfl rfl (hrow _)
  · exact survives_of { s.sessions t with pending := none } husable rfl rfl rfl rfl rfl (hrow _)

/-- while a call is under way, every event but the end of its transaction leaves what the session
wrote, unless a statement of the call fails -/
theorem survives_step (h : Inv sha256 s) (hp : (s.sessions t).pending = some p)
    (hne : e ≠ .rollback t) (hcancel : e ≠ .cancel t)
    (htext : e = .insertUnit t → s.textual t) : Survives s (step sha256 s e) t p.own := by
  have husable := h.usable t p hp
  have hbusy : ¬ (s.sessions t).free := fun hfree => by
    rw [(free_iff.1 hfree).1] at hp
    cases hp
  by_cases hother : e.session = some t
  · unfold step perform
    cases e with
    | refer r => cases hother
    | write u w | load u i | call u l | transition u i target | deleteChunk u i | commit u =>
      cases hother
      dsimp only
      rw [if_neg hbusy]
      exact Survives.refl husable _
    | forget u i =>
      cases hother
      exact survives_of { s.sessions t with
        loaded := (s.sessions t).loaded.filter fun q => q.1 ≠ i } husable rfl rfl rfl rfl rfl
        fun _ _ hm _ => hm
    | forgetDocument u i =>
      cases hother
      exact survives_of { s.sessions t with
        loadedDocuments := (s.sessions t).loadedDocuments.filter fun q => q.1 ≠ i } husable rfl rfl
        rfl rfl rfl fun _ _ hm _ => hm
    | insertUnit u =>
      cases hother
      have htextual := htext rfl
      unfold Db.textual at htextual
      dsimp only
      split
      · rename_i l hp'
        rw [hp'] at htextual
        exact survives_insertUnit husable _ htextual
      · exact Survives.refl husable _
    | insertDocument u =>
      cases hother
      dsimp only
      split
      · rename_i l i hp'
        rw [hp] at hp'
        cases hp'
        exact survives_insertDocument husable
      · exact Survives.refl husable _
    | look u =>
      cases hother
      dsimp only
      split
      · rename_i l _
        obtain ⟨r, hr⟩ := lookUp_eq sha256 s t l
        rw [hr]
        exact survives_pending husable none _
      · exact Survives.refl husable _
    | cancel u =>
      cases hother
      exact absurd rfl hcancel
    | rollback u =>
      cases hother
      exact absurd rfl hne
  · cases he : e.session with
    | none =>
      cases e with
      | refer r => exact ⟨husable, rfl, rfl, rfl, fun _ m hm hhome _ => ⟨m, hm, hhome⟩⟩
      | _ => cases he
    | some u =>
      have hu : t ≠ u := fun heq => hother (heq ▸ he)
      obtain ⟨hsession, hrows⟩ := leaves_step h he t hu
      refine ⟨?_, ?_, ?_, ?_, fun j m hm hhome _ => hrows j m hm hhome⟩
      · rw [hsession, husable]
      · rw [hsession]
      · rw [hsession]
      · rw [hsession]

/-! ## answers -/

/-- a call answers when a statement of it does -/
theorem answer_cases {a : Answer} (ha : answer sha256 s e = some a) : ∃ t,
    (e = .insertUnit t ∧ ∃ l, (s.sessions t).pending = some ⟨l, .inserting⟩ ∧
      (insertUnit sha256 s t l).1 = some a) ∨
    (e = .insertDocument t ∧ ∃ l i, (s.sessions t).pending = some ⟨l, .linking i⟩ ∧
      (insertDocument s t l i).1 = some a) ∨
    (e = .look t ∧ ∃ l, (s.sessions t).pending = some ⟨l, .looking⟩ ∧
      (lookUp sha256 s t l).1 = some a) ∨
    (e = .cancel t ∧ ∃ l stage, (s.sessions t).pending = some ⟨l, stage⟩ ∧
      (cancelled s t l stage).1 = some a) := by
  unfold answer perform at ha
  cases e with
  | insertUnit t =>
    dsimp only at ha
    split at ha
    · rename_i l hp
      exact ⟨t, .inl ⟨rfl, l, hp, ha⟩⟩
    · cases ha
  | insertDocument t =>
    dsimp only at ha
    split at ha
    · rename_i l i hp
      exact ⟨t, .inr (.inl ⟨rfl, l, i, hp, ha⟩)⟩
    · cases ha
  | look t =>
    dsimp only at ha
    split at ha
    · rename_i l hp
      exact ⟨t, .inr (.inr (.inl ⟨rfl, l, hp, ha⟩))⟩
    · cases ha
  | cancel t =>
    dsimp only at ha
    split at ha
    · rename_i l stage hp
      exact ⟨t, .inr (.inr (.inr ⟨rfl, l, stage, hp, ha⟩))⟩
    · cases ha
  | load t i =>
    dsimp only at ha
    split at ha
    · split at ha <;> cases ha
    · cases ha
  | forget t i => cases ha
  | forgetDocument t i => cases ha
  | refer r => cases ha
  | rollback t => cases ha
  | _ =>
    dsimp only at ha
    split at ha <;> cases ha

theorem answer_insertUnit {a : Answer} (ha : (insertUnit sha256 s t l).1 = some a) :
    ∃ e, a = ⟨t, l, .error e⟩ := by
  rcases insertUnit_cases sha256 s t l with ⟨-, hi⟩ | ⟨-, ⟨e, hi⟩ | hi | hi | ⟨-, hi⟩⟩
  · rw [hi] at ha
    cases ha
    exact ⟨_, rfl⟩
  · rw [hi] at ha
    cases ha
    exact ⟨e, rfl⟩
  · rw [hi] at ha
    cases ha
  · rw [hi] at ha
    cases ha
  · rw [hi] at ha
    cases ha

theorem answer_cancelled {stage : Stage} {a : Answer} (ha : (cancelled s t l stage).1 = some a) :
    ∃ e, a = ⟨t, l, .error e⟩ := by
  cases stage <;> cases ha <;> exact ⟨_, rfl⟩

/-- a chunk that is deleted leaves the other ids of the row -/
theorem document_ids (s : Db) (t : SessionId) (i : UnitId) (d : DocumentSourceUnit) :
    (s.document t i d).documentId = d.documentId ∧ (s.document t i d).versionId = d.versionId := by
  unfold Db.document
  split
  · exact ⟨rfl, rfl⟩
  · exact ⟨rfl, rfl⟩

/-- a unit that no transition touched fits the locator that it was made from -/
theorem fits_of {d : DocumentSourceUnit} (hm : s.units[i]? = some m) (hv : m.home.visible t)
    (hd : m.document = some d) (hnone : (s.sessions t).transitions.lookup i = none)
    (hstanding : m.standing = ⟨.active, l.contentHash sha256⟩) (hkind : m.sourceKind = l.sourceKind)
    (hsnap : m.snapshotStatus = l.snapshotStatus) (hdocument : d.documentId = l.documentId)
    (hversion : d.versionId = l.versionId) : s.Fits sha256 t l i := by
  have hread : s.standing t i m = ⟨.active, l.contentHash sha256⟩ := by
    unfold Db.standing
    rw [hnone]
    exact hstanding
  obtain ⟨hdocument', hversion'⟩ := document_ids s t i d
  refine ⟨m, d, hm, hv, hd, ?_⟩
  rw [hread]
  exact decide_eq_true
    ⟨rfl, hkind, hdocument'.trans hdocument, hversion'.trans hversion, hsnap, rfl⟩

/-- a unit whose document row is inserted fits the locator of its call -/
theorem fits_insertDocument (h : Inv sha256 s)
    (hp : (s.sessions t).pending = some ⟨l, .linking i⟩) {a : Answer}
    (ha : (insertDocument s t l i).1 = some a) : a.session = t ∧ a.locator = l ∧
      ∀ j, a.result = .ok j → (insertDocument s t l i).2.Fits sha256 t l j := by
  obtain ⟨m, hm, hhome, hkind, hsnap, hstanding, hnone⟩ := h.linking t l i hp
  unfold insertDocument at ha ⊢
  split at ha
  · cases ha
    exact ⟨rfl, rfl, fun _ => nofun⟩
  · cases ha
    refine ⟨rfl, rfl, fun j hj => ?_⟩
    cases hj
    refine fits_of (d := ⟨l.documentId, l.versionId, l.chunkId⟩)
      (m := { m with document := some ⟨l.documentId, l.versionId, l.chunkId⟩ }) ?_
      (Home.visible_iff.2 (.inr hhome)) rfl ?_ hstanding hkind hsnap rfl rfl
    · show (s.units.modify i _)[i]? = _
      rw [List.getElem?_modify, hm]
      exact congrArg some (if_pos rfl)
    · show (Function.update s.sessions t _ t).transitions.lookup i = none
      rw [Function.update_self]
      exact hnone

/-- what the call demands of a unit is that it fits; else there is a conflict -/
theorem check_cases (sha256 : String → String) (l : DocumentSourceLocator) (m : MemorySourceUnit)
    (i : UnitId) (y : Standing) (d : DocumentSourceUnit) :
    (check sha256 l m i y d = .ok i ∧ m.fits sha256 l y d) ∨
      ∃ message, check sha256 l m i y d = .error (.memorySourceIdentityConflict message) := by
  unfold check
  dsimp only
  split
  · exact .inr ⟨_, rfl⟩
  · rename_i hlocator
    split
    · exact .inr ⟨_, rfl⟩
    · rename_i hactive
      split
      · exact .inr ⟨_, rfl⟩
      · rename_i hsnapshot
        rw [not_or, not_or, not_or] at hlocator
        rw [not_or] at hsnapshot
        exact .inl ⟨rfl, decide_eq_true ⟨not_not.1 hactive, not_not.1 hlocator.1,
          not_not.1 hlocator.2.1, not_not.1 hlocator.2.2.1, not_not.1 hsnapshot.1,
          not_not.1 hsnapshot.2⟩⟩

/-- the verdict of a lookup on the unit that it found -/
def Db.verdict (sha256 : String → String) (s : Db) (t : SessionId) (l : DocumentSourceLocator)
    (m : MemorySourceUnit) (i : UnitId) (d : DocumentSourceUnit) : Except Err UnitId :=
  check sha256 l m i (((s.sessions t).loaded.lookup i).getD (s.standing t i m))
    (((s.sessions t).loadedDocuments.lookup i).getD (s.document t i d))

/-- a lookup that finds no pair is a conflict -/
theorem lookUp_cases (sha256 : String → String) (s : Db) (t : SessionId)
    (l : DocumentSourceLocator) :
    (∃ m i d, s.underKey t l.identityKey = some (m, i) ∧ m.document = some d ∧
      lookUp sha256 s t l = s.finish t l (s.verdict sha256 t l m i d)) ∨
    ((∀ m i, s.underKey t l.identityKey = some (m, i) → m.document = none) ∧ ∃ message,
      lookUp sha256 s t l = s.finish t l (.error (.memorySourceIdentityConflict message))) := by
  unfold lookUp
  dsimp only
  cases hfound : s.underKey t l.identityKey with
  | none => exact .inr ⟨fun m i hm => (nomatch hm), _, rfl⟩
  | some q =>
    obtain ⟨m, i⟩ := q
    dsimp only
    cases hd : m.document with
    | some d => exact .inl ⟨m, i, d, rfl, hd, rfl⟩
    | none =>
      refine .inr ⟨fun m' i' hm => ?_, _, rfl⟩
      cases hm
      exact hd

theorem upToDate_iff (hp : (s.sessions t).pending = some ⟨l, .looking⟩) :
    s.upToDate sha256 t ↔ ∀ m i d, s.underKey t l.identityKey = some (m, i) → m.document = some d →
      (s.verdict sha256 t l m i d).isOk →
        m.fits sha256 l (s.standing t i m) (s.document t i d) := by
  unfold Db.upToDate
  dsimp only
  rw [hp]
  dsimp only
  cases hfound : s.underKey t l.identityKey with
  | none => exact ⟨fun _ m i d hm => (nomatch hm), fun _ => rfl⟩
  | some q =>
    obtain ⟨m, i⟩ := q
    cases hd : m.document with
    | none =>
      refine ⟨fun _ m' i' d hm hd' => ?_, fun _ => ?_⟩
      · cases hm
        rw [hd] at hd'
        cases hd'
      · show m.document.all _ = true
        rw [hd]
        rfl
    | some d =>
      rw [Option.all_some]
      dsimp only
      rw [hd, Option.all_some, decide_eq_true_iff]
      constructor
      · intro h m' i' d' hm hd'
        cases hm
        rw [hd] at hd'
        cases hd'
        exact h
      · intro h
        exact h m i d rfl hd

theorem fits_finish (r : Except Err UnitId) {l' : DocumentSourceLocator} :
    (s.finish t l r).2.Fits sha256 t l' i ↔ s.Fits sha256 t l' i := by
  have hself : (s.finish t l r).2.sessions t = { s.sessions t with pending := none } :=
    Function.update_self ..
  have hstanding : ∀ m, (s.finish t l r).2.standing t i m = s.standing t i m := fun m => by
    unfold Db.standing
    rw [hself]
  have hdocument : ∀ d, (s.finish t l r).2.document t i d = s.document t i d := fun d => by
    unfold Db.document
    rw [hself]
  unfold Db.Fits
  simp only [hstanding, hdocument]
  rfl

/-- a lookup returns only what fits if and only if its rows are not outdated -/
theorem returns_look (hp : (s.sessions t).pending = some ⟨l, .looking⟩) :
    (∀ a, (lookUp sha256 s t l).1 = some a → ∀ i, a.result = .ok i →
      (lookUp sha256 s t l).2.Fits sha256 a.session a.locator i) ↔ s.upToDate sha256 t := by
  rw [upToDate_iff hp]
  rcases lookUp_cases sha256 s t l with ⟨m, i, d, hfound, hd, hl⟩ | ⟨hnone, message, hl⟩
  · obtain ⟨hm, hv, -⟩ := Inserts.of_underKey hfound
    have hfits : s.Fits sha256 t l i ↔ m.fits sha256 l (s.standing t i m) (s.document t i d) := by
      constructor
      · intro h
        obtain ⟨m', d', hm', -, hd', hfits⟩ := h
        cases hm.symm.trans hm'
        cases hd.symm.trans hd'
        exact hfits
      · intro h
        exact ⟨m, d, hm, hv, hd, h⟩
    rw [hl]
    constructor
    · intro h m' i' d' hfound' hd' hok
      cases hfound.symm.trans hfound'
      cases hd.symm.trans hd'
      rcases check_cases sha256 l m i _ _ with ⟨hcheck, -⟩ | ⟨message, hcheck⟩
      · exact hfits.1 ((fits_finish _).1 (h _ rfl i hcheck))
      · change (check sha256 l m i _ _).isOk = true at hok
        rw [hcheck] at hok
        cases hok
    · intro h a ha j hj
      cases ha
      change s.verdict sha256 t l m i d = .ok j at hj
      have hok : (s.verdict sha256 t l m i d).isOk := by
        rw [hj]
        rfl
      have hij : j = i := by
        rcases check_cases sha256 l m i _ _ with ⟨hcheck, -⟩ | ⟨message, hcheck⟩
        · exact (Except.ok.inj (hcheck.symm.trans hj)).symm
        · cases hcheck.symm.trans hj
      rw [hij]
      exact (fits_finish _).2 (hfits.2 (h m i d hfound hd hok))
  · rw [hl]
    constructor
    · intro _ m i d hfound hd
      rw [hnone m i hfound] at hd
      cases hd
    · intro _ a ha j hj
      cases ha
      cases hj

/-! ## events and runs -/

theorem perform_insertUnit (hp : (s.sessions t).pending = some ⟨l, .inserting⟩) :
    perform sha256 s (.insertUnit t) = insertUnit sha256 s t l := by
  unfold perform
  dsimp only
  rw [hp]

theorem perform_insertDocument (hp : (s.sessions t).pending = some ⟨l, .linking i⟩) :
    perform sha256 s (.insertDocument t) = insertDocument s t l i := by
  unfold perform
  dsimp only
  rw [hp]

theorem perform_look (hp : (s.sessions t).pending = some ⟨l, .looking⟩) :
    perform sha256 s (.look t) = lookUp sha256 s t l := by
  unfold perform
  dsimp only
  rw [hp]

theorem perform_cancel {stage : Stage} (hp : (s.sessions t).pending = some ⟨l, stage⟩) :
    perform sha256 s (.cancel t) = cancelled s t l stage := by
  unfold perform
  dsimp only
  rw [hp]

theorem returns_step (h : Inv sha256 s) (hc : Holds sha256 s e) {a : Answer}
    (ha : answer sha256 s e = some a) (hi : a.result = .ok i) :
    (step sha256 s e).Fits sha256 a.session a.locator i := by
  obtain ⟨t, ⟨rfl, l, hp, ha⟩ | ⟨rfl, l, k, hp, ha⟩ | ⟨rfl, l, hp, ha⟩ | ⟨rfl, l, stage, hp, ha⟩⟩ :=
    answer_cases ha
  · obtain ⟨e, rfl⟩ := answer_insertUnit ha
    cases hi
  · obtain ⟨ht, hl, hfits⟩ := fits_insertDocument h hp ha
    unfold step
    rw [perform_insertDocument hp, ht, hl]
    exact hfits i hi
  · unfold step
    rw [perform_look hp]
    exact (returns_look hp).2 hc a ha i hi
  · obtain ⟨e, rfl⟩ := answer_cancelled ha
    cases hi

theorem refuses_step (h : Inv sha256 s) (hc : Holds sha256 s e) {a : Answer}
    (ha : answer sha256 s e = some a)
    (hlook : (s.sessions a.session).pending = some ⟨a.locator, .looking⟩)
    (hfound : s.underKey a.session a.locator.identityKey = some (m, i))
    (hno : ¬ s.Fits sha256 a.session a.locator i) :
    ∃ message, a.result = .error (.memorySourceIdentityConflict message) := by
  obtain ⟨t, ⟨rfl, l, hp, ha⟩ | ⟨rfl, l, k, hp, ha⟩ | ⟨rfl, l, hp, ha⟩ | ⟨rfl, l, stage, hp, ha⟩⟩ :=
    answer_cases ha
  · obtain ⟨e, rfl⟩ := answer_insertUnit ha
    cases hp.symm.trans hlook
  · obtain ⟨ht, -, -⟩ := fits_insertDocument h hp ha
    rw [ht] at hlook
    cases hp.symm.trans hlook
  · rcases lookUp_cases sha256 s t l with ⟨m', i', d, hfound', hd, hl⟩ | ⟨-, message, hl⟩
    · rw [hl] at ha
      cases ha
      cases hfound'.symm.trans hfound
      rcases check_cases sha256 l m i _ _ with ⟨hcheck, -⟩ | ⟨message, hcheck⟩
      · obtain ⟨hm, hv, -⟩ := Inserts.of_underKey hfound
        have hok : (s.verdict sha256 t l m i d).isOk := by
          unfold Db.verdict
          rw [hcheck]
          rfl
        exact absurd ⟨m, d, hm, hv, hd, (upToDate_iff hp).1 hc m i d hfound hd hok⟩ hno
      · exact ⟨message, hcheck⟩
    · rw [hl] at ha
      cases ha
      exact ⟨message, rfl⟩
  · change (s.sessions t).pending.isNone = true at hc
    rw [hp] at hc
    cases hc

theorem serves_step (h : Inv sha256 s) (hc : Holds sha256 s e) : Serves sha256 s e where
  returns _ ha _ hi := returns_step h hc ha hi
  refuses _ ha hlook _ _ hfound hno := refuses_step h hc ha hlook hfound hno
  survives t p hp hne := by
    refine survives_step h hp hne (fun heq => ?_) fun heq => ?_
    · rw [heq] at hc
      change (s.sessions t).pending.isNone = true at hc
      rw [hp] at hc
      cases hc
    · rw [heq] at hc
      exact hc

/-- a call that fails leaves its session deactive -/
theorem deactive_fail (s : Db) (t : SessionId) (l : DocumentSourceLocator) (e : Err) :
    ((s.fail t l e).2.sessions t).deactive = true := by
  show (Function.update s.sessions t _ t).deactive = true
  rw [Function.update_self]

theorem deactive_cancelled (s : Db) (t : SessionId) (l : DocumentSourceLocator) (stage : Stage) :
    ((cancelled s t l stage).2.sessions t).deactive = true := by
  cases stage with
  | inserting => exact deactive_fail s t l _
  | linking i => exact deactive_fail (s.rollbackUnit i) t l _
  | looking => exact deactive_fail s t l _

/-- a call whose statement fails takes the transaction of its session with it -/
theorem not_serves_cancel (hp : (s.sessions t).pending = some p) :
    ¬ Serves sha256 s (.cancel t) := fun hs => by
  have husable := (hs.survives t p hp nofun).usable
  unfold step at husable
  rw [perform_cancel hp, deactive_cancelled] at husable
  cases husable

theorem holds_of (hs : Serves sha256 s e) : Holds sha256 s e := by
  cases e with
  | insertUnit t =>
    show s.textual t = true
    unfold Db.textual
    split
    · rename_i l hp
      rcases insertUnit_cases sha256 s t l with ⟨-, hi⟩ | ⟨htext, -⟩
      · have husable := (hs.survives t _ hp nofun).usable
        unfold step at husable
        rw [perform_insertUnit hp, hi, deactive_fail] at husable
        cases husable
      · exact htext
    · rfl
  | look t =>
    show s.upToDate sha256 t = true
    by_cases hp : ∃ l, (s.sessions t).pending = some ⟨l, .looking⟩
    · obtain ⟨l, hp⟩ := hp
      refine (returns_look hp).1 fun a ha i hi => ?_
      have hret := hs.returns a (by unfold answer; rw [perform_look hp]; exact ha) i hi
      unfold step at hret
      rw [perform_look hp] at hret
      exact hret
    · unfold Db.upToDate
      dsimp only
      split
      · rename_i l hp'
        exact absurd ⟨l, hp'⟩ hp
      · rfl
  | cancel t =>
    show (s.sessions t).pending.isNone = true
    cases hp : (s.sessions t).pending with
    | none => rfl
    | some p =>
      exact absurd hs (not_serves_cancel hp)
  | _ => rfl

theorem inv_empty : Inv sha256 {} where
  sound := ⟨Inserts.unique_nil, fun i m hm => by
    change ([] : List MemorySourceUnit)[i]? = some m at hm
    rw [List.getElem?_nil] at hm
    cases hm⟩
  linking _ _ _ := nofun
  moved _ := nofun
  usable _ _ := nofun

/-- every run from empty tables is sound, and the runs that serve their calls are those whose
events all hold -/
theorem find_or_create (sha256 : String → String) (es : List Event) :
    Run.Always (step sha256) Sound {} es ∧
      ((∀ p ∈ Run.trace (step sha256) {} es, Serves sha256 p.1 p.2) ↔
        Run.Meets (step sha256) (fun s e => Holds sha256 s e = true) {} es) := by
  constructor
  · exact Run.always_of_inv (I := Inv sha256) (fun _ h => h.sound) (fun _ e h => inv_step h e)
      inv_empty es
  · exact Run.trace_iff_meets (I := Inv sha256) (D := Serves sha256)
      (C := fun s e => Holds sha256 s e = true)
      (fun s e h => ⟨fun hs => holds_of hs, fun hc => serves_step h hc⟩)
      (fun s e h _ => inv_step h e) inv_empty es

/-! ## a deadlock -/

/-- a document of which nothing but its record is a source -/
def record (documentId : Uuid) : DocumentSourceLocator :=
  { documentId, versionId := none, chunkId := none, contentText := none
    snapshotStatus := .degraded }

/-- a call up to its answer -/
def finding (t : SessionId) (l : DocumentSourceLocator) : List Event :=
  [.call t l, .insertUnit t, .insertDocument t]

/-- two sessions each write something, make a source of one of two documents, and turn to the other
document: each waits for the other one -/
def deadlock : List Event :=
  [.refer { documents := ["a", "b"] }, .write 0 1, .write 1 2] ++ finding 0 (record "a") ++
    finding 1 (record "b") ++ [.call 0 (record "b"), .insertUnit 0, .call 1 (record "a"),
      .insertUnit 1, .cancel 1]

/-- the call that the database cancels takes what its session wrote before with it -/
theorem cancelled_call_loses_its_transaction :
    ¬ ∀ p ∈ Run.trace (step id) {} deadlock, Serves id p.1 p.2 := by
  intro h
  have hserves : Serves id (Run.run (step id) {} (deadlock.take 13)) (.cancel 1) :=
    h (_, .cancel 1) (List.mem_of_getElem? (i := 13) rfl)
  have hp : ((Run.run (step id) {} (deadlock.take 13)).sessions 1).pending =
      some ⟨record "a", .inserting⟩ := by decide +kernel
  exact not_serves_cancel hp hserves

end LifeAI.MemorySource
