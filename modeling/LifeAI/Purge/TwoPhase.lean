import LifeAI.Purge.Steps
import LifeAI.Lib.Locks

/-!
# The two phases of a purge

* `Op.findsOwn`      the condition: the second phase of `purge_source` finds the row as its session
                     has it;
* `TwoPhase`         what an operation of a run may do;
* `Call.Ok`          what holds of a call, phase by phase;
* `purge_two_phase`  every run.
-/

namespace LifeAI.Purge

open Import (DocId ImportJobId IndexStatus DeletionStatus ImportJob ImportJobStatus)

variable {env : Env} {s t : Store} {c b c' : Call} {d : DocId} {key : String}

/-! ## the statement -/

/-- The second phase of `purge_source` does not meet a row that another call has set to `purged`
since the first one. -/
def Op.findsOwn (s : Sys) : Op → Bool
  | .step i env => (s.calls[i]?).all fun c => env.fails ∨ s.waits i c ∨ c.committed = false ∨
      c.pc ≠ .relocking ∨ (s.store.db.documents[c.doc]?).all (·.deletionStatus ≠ .purged)
  | _ => true

/-- how many `purge_source` calls on the document have committed -/
def Sys.successes (s : Sys) (d : DocId) : Nat :=
  s.calls.countP fun c => c.committed ∧ c.doc = d

/-- an operation from `s` to `t`, in a run from the store `s₀` -/
structure TwoPhase (s₀ : Store) (s : Sys) (o : Op) (t : Sys) : Prop where
  /-- a start or the death of a call changes nothing -/
  idle : (∀ i env, o ≠ .step i env) → t.store = s.store
  /-- a `purge_source` call changes nothing before its commit -/
  atomic : ∀ i env c, o = .step i env → t.calls[i]? = some c → c.kind = .purgeSource →
    c.committed = false → t.store = s.store
  /-- a blob is removed for a document that is deleted, and nothing refers to it -/
  removed : ∀ key, s.store.blobs key = true → t.store.blobs key = false →
    s.store.db.stillReferenced key = false ∧ ∃ (i : CallId) (env : Env) (c : Call) (r : Document),
      o = .step i env ∧ s.calls[i]? = some c ∧ s.store.db.documents[c.doc]? = some r ∧
        r.storageKey = some key ∧ r.deletedAt ≠ none
  /-- a document that is `purged` has no blob -/
  purged : ∀ (d : DocId) (r₀ r : Document), s₀.db.documents[d]? = some r₀ →
    r₀.deletionStatus ≠ .purged → t.store.db.documents[d]? = some r → r.deletionStatus = .purged →
      r.deletedAt ≠ none ∧ ∀ key, r.storageKey = some key → t.store.blobs key = false
  /-- a document is deleted by one call -/
  once : ∀ (d : DocId) (r₀ r : Document), s₀.db.documents[d]? = some r₀ → r₀.deletedAt = none →
    t.store.db.documents[d]? = some r → t.successes d = if r.deletedAt = none then 0 else 1
  /-- a call of the owner that does not find it comes after that one -/
  late : ∀ (i : CallId) (c : Call) (m : String) (r₀ : Document), t.calls[i]? = some c →
    c.kind = .purgeSource → c.pc = .done (.notFound m) → s₀.db.documents[c.doc]? = some r₀ →
      r₀.liveOf c.owner = true → t.successes c.doc = 1
  /-- once a document is `purged`, a call on it changes nothing -/
  idempotent : ∀ (i : CallId) (env : Env) (c : Call) (r : Document), o = .step i env →
    s.calls[i]? = some c → s.store.db.documents[c.doc]? = some r → r.deletedAt ≠ none →
      r.deletionStatus = .purged → t.store = s.store

/-! ## one call -/

/-- the second phase past its lock on the row, with the key of the session's copy -/
def Pc.second? : Pc → Option (Option String)
  | .lockingKey key | .checking key | .deleting key => some (some key)
  | .settling key _ => some key
  | _ => none

/-- the phases of a call -/
inductive Call.Ok (s : Store) (c : Call) : Prop where
  | start (hpc : c.pc = .locking) (hkind : c.kind = .purgeSource) (hc : c.committed = false)
      (hw : c.writes = [])
  | first (r : Document) (hpc : c.pc.first = true) (hkind : c.kind = .purgeSource)
      (hc : c.committed = false) (hr : s.db.documents[c.doc]? = some r)
      (hlive : r.liveOf c.owner = true) (hheld : c.held = some r)
      (hw : ∀ w ∈ c.writes, w.memory = true)
  | relock (hpc : c.pc = .relocking) (hkind : c.kind = .purgeSource → c.committed = true)
      (hheld : ∀ h, c.held = some h → ∃ r, s.db.documents[c.doc]? = some r ∧
        h.storageKey = r.storageKey)
      (hretry : c.committed = false → c.held = none)
  | second (key : Option String) (r : Document) (hpc : c.pc.second? = some key)
      (hkind : c.kind = .purgeSource → c.committed = true)
      (hr : s.db.documents[c.doc]? = some r) (hdel : r.deletedAt ≠ none)
      (hst : r.deletionStatus ≠ .purged) (hkey : r.storageKey = key)
      (hfree : ∀ k, c.pc = .deleting k → s.db.stillReferenced k = false)
      (hgone : ∀ k, c.pc = .settling (some k) .purged → s.blobs k = false)
  | done (o : Outcome) (hpc : c.pc = .done o)
      (hlate : ∀ m, o = .notFound m → c.kind = .purgeSource →
        ∀ r, s.db.documents[c.doc]? = some r → r.liveOf c.owner = false)

/-- a commit leaves a deleted document -/
def Call.Committed (s : Store) (c : Call) : Prop :=
  c.committed = true → c.kind = .purgeSource ∧
    ∃ r, s.db.documents[c.doc]? = some r ∧ r.deletedAt ≠ none

theorem Call.first_holdsRow (h : c.pc.first = true) : c.holdsRow c.doc = true := by
  unfold holdsRow
  cases hpc : c.pc <;> simp_all [Pc.first]

theorem Call.second_holdsRow (key : Option String) (h : c.pc.second? = some key) :
    c.holdsRow c.doc = true := by
  unfold holdsRow
  cases hpc : c.pc <;> simp_all [Pc.second?]

theorem liveOf_false_of_keeps {r r' : Document} {owner : OwnerId} (h : r.Keeps r')
    (hlive : r.liveOf owner = false) : r'.liveOf owner = false := by
  by_contra hno
  have hlive' : r'.liveOf owner = true := eq_true_of_ne_false hno
  obtain ⟨huploaded, hdel⟩ := of_decide_eq_true hlive'
  have hr : r.liveOf owner = true := by
    refine decide_eq_true ⟨h.uploadedBy ▸ huploaded, ?_⟩
    by_contra hdel'
    exact h.deleted hdel' hdel
  rw [hlive] at hr
  cases hr

/-- a call that another one's step leaves alone -/
theorem Call.Ok.frame {i : DocId} (h : c.Ok s) (hst : Store.Leads i s t)
    (hrow : c.holdsRow c.doc = true → i ≠ c.doc) : c.Ok t := by
  cases h with
  | start hpc hkind hc hw => exact .start hpc hkind hc hw
  | first r hpc hkind hc hr hlive hheld hw =>
    have hne := hrow (first_holdsRow hpc)
    exact .first r hpc hkind hc ((hst.rows _ (Ne.symm hne)).trans hr) hlive hheld hw
  | relock hpc hkind hheld hretry =>
    refine .relock hpc hkind (fun h hh => ?_) hretry
    obtain ⟨r, hr, hkey⟩ := hheld h hh
    obtain ⟨r', hr', hkeeps⟩ := hst.stays hr
    exact ⟨r', hr', hkey.trans hkeeps.storageKey.symm⟩
  | second key r hpc hkind hr hdel hst' hkey hfree hgone =>
    have hne := hrow (second_holdsRow key hpc)
    refine .second key r hpc hkind ((hst.rows _ (Ne.symm hne)).trans hr) hdel hst' hkey
      (fun k hk => ?_) fun k hk => ?_
    · by_contra hno
      have hold := hst.refs k (eq_true_of_ne_false hno)
      rw [hfree k hk] at hold
      cases hold
    · by_contra hno
      have hold := hst.blobs k (eq_true_of_ne_false hno)
      rw [hgone k hk] at hold
      cases hold
  | done o hpc hlate =>
    refine .done o hpc fun m hm hkind r' hr' => ?_
    obtain ⟨r, hr, hkeeps⟩ := hst.back hr'
    exact liveOf_false_of_keeps hkeeps (hlate m hm hkind r hr)

theorem Call.Committed.frame {i : DocId} (h : c.Committed s) (hst : Store.Leads i s t) :
    c.Committed t := by
  intro hc
  obtain ⟨hkind, r, hr, hdel⟩ := h hc
  obtain ⟨r', hr', hkeeps⟩ := hst.stays hr
  exact ⟨hkind, r', hr', hkeeps.deleted hdel⟩

/-- what one statement does -/
structure Call.Steps (s : Store) (c : Call) (t : Store) (c' : Call) : Prop where
  leads : Store.Leads c.doc s t
  ok : c'.Ok t
  committed : c'.Committed t
  /-- the commit, or nothing that counts -/
  counts : (c'.committed = c.committed ∧ ∀ (d : DocId) (r r' : Document), s.db.documents[d]? = some r →
      t.db.documents[d]? = some r' → r'.deletedAt = r.deletedAt) ∨
    c.committed = false ∧ c'.committed = true ∧ ∃ r r' : Document, s.db.documents[c.doc]? = some r ∧
      r.deletedAt = none ∧ t.db.documents[c.doc]? = some r' ∧ r'.deletedAt ≠ none
  /-- a row that comes to be `purged` -/
  purged : ∀ r r' : Document, s.db.documents[c.doc]? = some r → t.db.documents[c.doc]? = some r' →
    r'.deletionStatus = .purged → r.deletionStatus = .purged ∧ r'.deletedAt = r.deletedAt ∨
      r'.deletedAt ≠ none ∧ ∀ key, r'.storageKey = some key → t.blobs key = false
  atomic : c'.kind = .purgeSource → c'.committed = false → t = s
  removed : ∀ key, s.blobs key = true → t.blobs key = false → s.db.stillReferenced key = false ∧
    ∃ r : Document, s.db.documents[c.doc]? = some r ∧ r.storageKey = some key ∧ r.deletedAt ≠ none
  idempotent : ∀ r : Document, s.db.documents[c.doc]? = some r → r.deletedAt ≠ none →
    r.deletionStatus = .purged → t = s

/-- a statement that writes nothing -/
theorem Call.Steps.quiet (ok : c'.Ok s) (committed : c'.Committed s)
    (hsame : c'.committed = c.committed) : c.Steps s s c' := by
  refine ⟨.refl, ok, committed, .inl ⟨hsame, fun d r r' hr hr' => ?_⟩, fun r r' hr hr' hst => .inl ?_,
    fun _ _ => rfl, fun key hk hno => ?_, fun _ _ _ _ => rfl⟩
  · exact congrArg _ (Option.some.inj (hr'.symm.trans hr))
  · obtain rfl := Option.some.inj (hr'.symm.trans hr)
    exact ⟨hst, rfl⟩
  · rw [hk] at hno
    cases hno

/-! ## the phases, from where a call stands -/

theorem Call.Ok.of_start (h : c.Ok s) (hpc : c.pc = .locking) :
    c.kind = .purgeSource ∧ c.committed = false ∧ c.writes = [] := by
  cases h with
  | start _ hkind hc hw => exact ⟨hkind, hc, hw⟩
  | first r hpc' => simp [hpc, Pc.first] at hpc'
  | relock hpc' => simp [hpc] at hpc'
  | second key r hpc' => simp [hpc, Pc.second?] at hpc'
  | done o hpc' => simp [hpc] at hpc'

theorem Call.Ok.of_first (h : c.Ok s) (hpc : c.pc.first = true) :
    c.kind = .purgeSource ∧ c.committed = false ∧ (∀ w ∈ c.writes, w.memory = true) ∧
      ∃ r, s.db.documents[c.doc]? = some r ∧ r.liveOf c.owner = true ∧ c.held = some r := by
  cases h with
  | start hpc' => simp [hpc', Pc.first] at hpc
  | first r _ hkind hc hr hlive hheld hw => exact ⟨hkind, hc, hw, r, hr, hlive, hheld⟩
  | relock hpc' => simp [hpc', Pc.first] at hpc
  | second key r hpc' =>
    cases hp : c.pc <;> simp [hp, Pc.first, Pc.second?] at hpc hpc'
  | done o hpc' => simp [hpc', Pc.first] at hpc

theorem Call.Ok.of_relock (h : c.Ok s) (hpc : c.pc = .relocking) :
    (c.kind = .purgeSource → c.committed = true) ∧ (c.committed = false → c.held = none) ∧
      ∀ h, c.held = some h → ∃ r, s.db.documents[c.doc]? = some r ∧ h.storageKey = r.storageKey := by
  cases h with
  | start hpc' => simp [hpc'] at hpc
  | first r hpc' => simp [hpc, Pc.first] at hpc'
  | relock _ hkind hheld hretry => exact ⟨hkind, hretry, hheld⟩
  | second key r hpc' => simp [hpc, Pc.second?] at hpc'
  | done o hpc' => simp [hpc'] at hpc

theorem Call.Ok.of_second (h : c.Ok s) (key : Option String) (hpc : c.pc.second? = some key) :
    (c.kind = .purgeSource → c.committed = true) ∧ ∃ r, s.db.documents[c.doc]? = some r ∧
      r.deletedAt ≠ none ∧ r.deletionStatus ≠ .purged ∧ r.storageKey = key ∧
        (∀ k, c.pc = .deleting k → s.db.stillReferenced k = false) ∧
          ∀ k, c.pc = .settling (some k) .purged → s.blobs k = false := by
  cases h with
  | start hpc' => simp [hpc', Pc.second?] at hpc
  | first r hpc' =>
    cases hp : c.pc <;> simp [hp, Pc.first, Pc.second?] at hpc hpc'
  | relock hpc' => simp [hpc', Pc.second?] at hpc
  | second key' r hpc' hkind hr hdel hst hkey hfree hgone =>
    obtain rfl : key' = key := Option.some.inj (hpc'.symm.trans hpc)
    exact ⟨hkind, r, hr, hdel, hst, hkey, hfree, hgone⟩
  | done o hpc' => simp [hpc', Pc.second?] at hpc

/-- the call ends, with no `SourcePurgeNotFoundError` of `purge_source` -/
theorem Call.Steps.ends {o : Outcome} (hc : c.Committed s)
    (ho : ∀ m, o = .notFound m → c.kind = .purgeSource →
      ∀ r, s.db.documents[c.doc]? = some r → r.liveOf c.owner = false) :
    c.Steps s s (c.endWith o) :=
  .quiet (.done o rfl ho) hc rfl

/-- the call goes on in the second phase, and has written nothing -/
theorem Call.Steps.goesOn {key : Option String} {pc : Pc} (hok : c.Ok s) (hc : c.Committed s)
    (hpc : c.pc.second? = some key) (hpc' : pc.second? = some key)
    (hfree : ∀ k, pc = .deleting k → s.db.stillReferenced k = false)
    (hgone : ∀ k, pc ≠ .settling (some k) .purged) : c.Steps s s (c.goto pc) := by
  obtain ⟨hkind, r, hr, hdel, hst, hkey, -, -⟩ := hok.of_second key hpc
  exact .quiet (.second key r hpc' hkind hr hdel hst hkey hfree fun k hk => absurd hk (hgone k)) hc rfl

/-! ## one statement -/

theorem Call.commit_steps {now : Time} {cancels : Option ImportJobId} {r : Document}
    (hpc : c.pc = .committing cancels) (hheld : c.held = some r) (hok : c.Ok s) :
    c.Steps s { s with db := s.db.view (c.commit now cancels r).1 } (c.commit now cancels r).2 := by
  obtain ⟨hkind, hc, hw, r', hr, hlive, hheld'⟩ := hok.of_first (by rw [hpc]; rfl)
  obtain rfl : r' = r := Option.some.inj (hheld'.symm.trans hheld)
  obtain ⟨huploaded, halive⟩ := of_decide_eq_true hlive
  have hleads := Call.commit_leads now cancels hw hr
  have hrow : (s.db.view (c.commit now cancels r').1).documents[c.doc]? = some (purgedRow now r') := by
    rw [(c.commit_view s.db now cancels r' hw).1]
    exact List.getElem?_set_self (List.getElem?_eq_some_iff.1 hr).1
  have hcommitted : (c.commit now cancels r').2.Committed
      { s with db := s.db.view (c.commit now cancels r').1 } :=
    fun _ => ⟨hkind, purgedRow now r', hrow, Option.some_ne_none now⟩
  refine ⟨hleads, ?_, hcommitted, .inr ⟨hc, rfl, r', purgedRow now r', hr, halive, hrow,
    Option.some_ne_none now⟩, fun q q' hq hq' hst => .inr ?_, fun _ hno => (nomatch hno),
    fun key hk hno => ?_, fun q hq hdel => ?_⟩
  · by_cases hpending : (purgedRow now r').deletionStatus = .pending
    · refine .relock (if_pos hpending) (fun _ => rfl) (fun h hh => ?_) fun hno => nomatch hno
      obtain rfl := Option.some.inj hh
      exact ⟨_, hrow, rfl⟩
    · exact .done _ (if_neg hpending) fun m hm => nomatch hm
  · obtain rfl := Option.some.inj (hq'.symm.trans hrow)
    refine ⟨Option.some_ne_none now, fun key hkey => ?_⟩
    have hnone : (purgedRow now r').deletionStatus = .pending := by
      rw [purgedRow_deletionStatus, if_neg]
      exact fun hno => Option.some_ne_none key (hkey.symm.trans hno)
    rw [hnone] at hst
    cases hst
  · have hk' : s.blobs key = false := hno
    rw [hk] at hk'
    cases hk'
  · obtain rfl := Option.some.inj (hq.symm.trans hr)
    exact absurd halive hdel

theorem Call.delete_steps (hpc : c.pc = .deleting key) (hok : c.Ok s) (hc : c.Committed s) :
    c.Steps s { s with blobs := fun k => if k = key then false else s.blobs k }
      (c.goto (.settling (some key) .purged)) := by
  obtain ⟨hkind, r, hr, hdel, hst, hkey, hfree, -⟩ := hok.of_second (some key) (by rw [hpc]; rfl)
  have hgone : ∀ k, (if k = key then false else s.blobs k) = true → s.blobs k = true := by
    intro k hk
    split at hk
    · cases hk
    · exact hk
  refine ⟨⟨fun q hq => ⟨q, hq, .refl q⟩, fun _ _ => rfl, id, fun _ => id, hgone⟩, ?_, hc,
    .inl ⟨rfl, fun d q q' hq hq' => ?_⟩, fun q q' hq hq' hst' => ?_, fun hk hno => ?_,
    fun k hk hno => ?_, fun q hq _ hst' => ?_⟩
  · refine .second (some key) r rfl hkind hr hdel hst hkey (fun k hk => nomatch hk) fun k hk => ?_
    cases hk
    exact if_pos rfl
  · exact congrArg _ (Option.some.inj (hq'.symm.trans hq))
  · obtain rfl := Option.some.inj (hq.symm.trans hr)
    obtain rfl := Option.some.inj (hq'.symm.trans hr)
    exact absurd hst' hst
  · exact absurd (hkind hk) (by rw [show c.committed = false from hno]; simp)
  · have hkk : k = key := by
      by_contra hne
      have hk' : s.blobs k = false := (if_neg hne).symm.trans hno
      rw [hk] at hk'
      cases hk'
    subst hkk
    exact ⟨hfree k hpc, r, hr, hkey, hdel⟩
  · obtain rfl := Option.some.inj (hq.symm.trans hr)
    exact absurd hst' hst

theorem Call.settle_steps {key : Option String} {st : DeletionStatus} {now : Time}
    (hpc : c.pc = .settling key st) (hok : c.Ok s) (hc : c.Committed s) :
    c.Steps s { s with db := s.db.setDeletionStatus c.doc st now } (c.settled st) := by
  obtain ⟨hkind, r, hr, hdel, hst, hkey, -, hgone⟩ := hok.of_second key (by rw [hpc]; rfl)
  have hleads := settle_leads s c.doc st now
  have hrow : (s.db.setDeletionStatus c.doc st now).documents[c.doc]? =
      some { r with deletionStatus := st, updatedAt := now } := by
    rw [Db.setDeletionStatus_row, hr, Option.map_some, if_pos rfl]
  refine ⟨hleads, ?_, hc.frame hleads, .inl ⟨rfl, fun d q q' hq hq' => ?_⟩,
    fun q q' hq hq' hst' => .inr ?_, fun hk hno => ?_, fun k hk hno => ?_, fun q hq _ hst' => ?_⟩
  · refine .done _ rfl fun m hm => ?_
    split at hm <;> cases hm
  · have hq'' := (Db.setDeletionStatus_row s.db c.doc d st now).symm.trans hq'
    rw [hq, Option.map_some] at hq''
    obtain rfl := Option.some.inj hq''
    split <;> rfl
  · obtain rfl := Option.some.inj (hq'.symm.trans hrow)
    refine ⟨hdel, fun k hk => ?_⟩
    have hst'' : st = .purged := hst'
    have hkk : key = some k := hkey.symm.trans hk
    exact hgone k (by rw [hpc, hst'', hkk])
  · exact absurd (hkind hk) (by rw [show c.committed = false from hno]; simp)
  · have hk' : s.blobs k = false := hno
    rw [hk] at hk'
    cases hk'
  · obtain rfl := Option.some.inj (hq.symm.trans hr)
    exact absurd hst' hst

/-- one statement of a call whose second phase finds the row as its session has it -/
theorem Call.Goes.steps (h : c.Goes env s t c') (hok : c.Ok s) (hc : c.Committed s)
    (hfinds : env.fails = false → c.committed = true → c.pc = .relocking →
      ∀ r, s.db.documents[c.doc]? = some r → r.deletionStatus ≠ .purged) : c.Steps s t c' := by
  have hcopy : ∀ r, env.fails = false → c.pc = .relocking → s.db.documents[c.doc]? = some r →
      (c.held.getD r).deletionStatus ≠ .purged →
        r.deletionStatus ≠ .purged ∧ (c.held.getD r).storageKey = r.storageKey := by
    intro r hf hpc hr hst
    obtain ⟨-, hretry, hheld⟩ := hok.of_relock hpc
    cases hcom : c.committed with
    | false =>
      rw [hretry hcom] at hst ⊢
      exact ⟨hst, rfl⟩
    | true =>
      refine ⟨hfinds hf hcom hpc r hr, ?_⟩
      cases hh : c.held with
      | none => rfl
      | some q =>
        obtain ⟨r', hr', hkey⟩ := hheld q hh
        obtain rfl := Option.some.inj (hr'.symm.trans hr)
        exact hkey
  cases h with
  | done o hpc => exact .quiet hok hc rfl
  | fail o hpc ho =>
    refine .ends hc fun m hm hkind => ?_
    cases hcom : c.committed with
    | true =>
      rw [hcom, if_pos rfl] at hm
      cases hm
    | false =>
      rw [hcom, if_neg Bool.false_ne_true] at hm
      rcases ho with rfl | hrelock
      · cases hm
      · have hyes := (hok.of_relock hrelock).1 hkind
        rw [hcom] at hyes
        cases hyes
  | refused m hpc hrow => exact .ends hc fun _ _ _ => hrow
  | lock r hpc hr hlive =>
    obtain ⟨hkind, hcom, hw⟩ := hok.of_start hpc
    refine .quiet (.first r rfl hkind hcom hr hlive rfl fun w hmem => ?_) hc rfl
    have hmem' : w ∈ c.writes := hmem
    rw [hw] at hmem'
    cases hmem'
  | work c' hpc hpc' hsame hheld hwrites =>
    obtain ⟨hkind, hcom, hw, r, hr, hlive, hheld'⟩ := hok.of_first hpc
    obtain ⟨ws, hws, hmem⟩ := hwrites
    refine .quiet (.first r hpc' (hsame.kind.trans hkind) (hsame.committed.trans hcom) ?_ ?_
      (hheld.trans hheld') fun w hmem' => ?_) ?_ hsame.committed
    · rw [hsame.doc]
      exact hr
    · rw [hsame.owner]
      exact hlive
    · rw [hws] at hmem'
      rcases List.mem_append.1 hmem' with hold | hnew
      · exact hw w hold
      · exact hmem w hnew
    · intro hyes
      rw [hsame.committed, hcom] at hyes
      cases hyes
  | commit cancels r hpc hheld => exact Call.commit_steps hpc hheld hok
  | found r hpc hr hdel hst | unchanged key st hpc =>
    refine .ends hc fun m hm => ?_
    split at hm <;> cases hm
  | relockNone r hpc hf hr hdel hst hkey =>
    obtain ⟨hst', hkey'⟩ := hcopy r hf hpc hr hst
    obtain ⟨hkind, -, -⟩ := hok.of_relock hpc
    refine .quiet (.second none r rfl hkind hr (of_decide_eq_true hdel).2 hst' (hkey'.symm.trans hkey)
      (fun k hk => nomatch hk) fun k hk => nomatch hk) hc rfl
  | relock r key hpc hf hr hdel hst hkey =>
    obtain ⟨hst', hkey'⟩ := hcopy r hf hpc hr hst
    obtain ⟨hkind, -, -⟩ := hok.of_relock hpc
    refine .quiet (.second (some key) r rfl hkind hr (of_decide_eq_true hdel).2 hst'
      (hkey'.symm.trans hkey) (fun k hk => nomatch hk) fun k hk => nomatch hk) hc rfl
  | lockKey key hpc | keep key hpc | deleteFails key hpc =>
    exact .goesOn hok hc (by rw [hpc]; rfl) rfl (fun k hk => nomatch hk) fun k hk => nomatch hk
  | free key hpc hno =>
    refine .goesOn hok hc (by rw [hpc]; rfl) rfl (fun k hk => ?_) fun k hk => nomatch hk
    cases hk
    exact eq_false_of_ne_true hno
  | delete key hpc => exact Call.delete_steps hpc hok hc
  | settle key st hpc => exact Call.settle_steps hpc hok hc

/-- who writes has locked the row -/
theorem Call.Goes.writes (h : c.Goes env s t c') : t = s ∨ c.holdsRow c.doc = true := by
  cases h with
  | commit cancels r hpc => exact .inr (Call.first_holdsRow (by rw [hpc]; rfl))
  | delete key hpc => exact .inr (Call.second_holdsRow (some key) (by rw [hpc]; rfl))
  | settle key st hpc => exact .inr (Call.second_holdsRow key (by rw [hpc]; rfl))
  | _ => exact .inl rfl

/-! ## the system -/

/-- only one call's part of the count changes -/
theorem Sys.successes_set {s : Sys} {i : CallId} (t : Store) (c' : Call) (d : DocId)
    (hi : s.calls[i]? = some c) :
    ({ store := t, calls := s.calls.set i c' } : Sys).successes d +
        (if c.committed ∧ c.doc = d then 1 else 0) =
      s.successes d + if c'.committed ∧ c'.doc = d then 1 else 0 := by
  obtain ⟨hlt, hget⟩ := List.getElem?_eq_some_iff.1 hi
  have hle : (if decide (c.committed = true ∧ c.doc = d) = true then 1 else 0) ≤
      s.calls.countP fun c => c.committed ∧ c.doc = d := by
    split
    · next hp => exact List.countP_pos_iff.2 ⟨c, List.mem_of_getElem? hi, hp⟩
    · exact Nat.zero_le _
  unfold Sys.successes
  rw [List.countP_set hlt, hget]
  simp only [decide_eq_true_eq] at hle ⊢
  omega

/-- the rows of `documents` are locked by one call each -/
def RowLocks (calls : List Call) : Prop := Locks.Exclusive Call.holdsRow calls

variable {s₀ : Store}

structure Sys.Inv (s₀ : Store) (s : Sys) : Prop where
  calls : ∀ (i : CallId) (c : Call), s.calls[i]? = some c → c.Ok s.store ∧ c.Committed s.store
  locks : RowLocks s.calls
  since : ∀ (d : DocId) (r₀ : Document), s₀.db.documents[d]? = some r₀ →
    ∃ r, s.store.db.documents[d]? = some r ∧ r₀.Keeps r
  purged : ∀ (d : DocId) (r₀ r : Document), s₀.db.documents[d]? = some r₀ →
    r₀.deletionStatus ≠ .purged → s.store.db.documents[d]? = some r → r.deletionStatus = .purged →
      r.deletedAt ≠ none ∧ ∀ key, r.storageKey = some key → s.store.blobs key = false
  once : ∀ (d : DocId) (r₀ r : Document), s₀.db.documents[d]? = some r₀ → r₀.deletedAt = none →
    s.store.db.documents[d]? = some r → s.successes d = if r.deletedAt = none then 0 else 1

namespace Sys.Inv

variable {s : Sys} {i : CallId}

theorem init : ({ store := s₀ } : Sys).Inv s₀ := by
  refine ⟨fun i c hi => (nomatch hi), Locks.Exclusive.nil, fun d r hr => ⟨r, hr, .refl r⟩,
    fun d r₀ r hr₀ hst hr hst' => ?_, fun d r₀ r hr₀ hlive hr => ?_⟩
  · obtain rfl := Option.some.inj (hr₀.symm.trans hr)
    exact absurd hst' hst
  · obtain rfl := Option.some.inj (hr₀.symm.trans hr)
    rw [if_pos hlive]
    rfl

theorem late (h : s.Inv s₀) {m : String} {r₀ : Document} (hi : s.calls[i]? = some c)
    (hkind : c.kind = .purgeSource) (hpc : c.pc = .done (.notFound m))
    (hr₀ : s₀.db.documents[c.doc]? = some r₀) (hlive : r₀.liveOf c.owner = true) :
    s.successes c.doc = 1 := by
  obtain ⟨huploaded, halive⟩ := of_decide_eq_true hlive
  obtain ⟨r, hr, hkeeps⟩ := h.since c.doc r₀ hr₀
  have hgone : r.liveOf c.owner = false := by
    cases (h.calls i c hi).1 with
    | done o hpc' hlate =>
      obtain rfl := Pc.done.inj (hpc.symm.trans hpc')
      exact hlate m rfl hkind r hr
    | start hpc' => exact nomatch hpc.symm.trans hpc'
    | first q hpc' => rw [hpc] at hpc'; cases hpc'
    | relock hpc' => exact nomatch hpc.symm.trans hpc'
    | second key q hpc' => rw [hpc] at hpc'; cases hpc'
  have hdel : r.deletedAt ≠ none := by
    intro hno
    have hyes : r.liveOf c.owner = true := decide_eq_true ⟨hkeeps.uploadedBy.trans huploaded, hno⟩
    rw [hgone] at hyes
    cases hyes
  rw [h.once c.doc r₀ r hr₀ halive hr, if_neg hdel]

/-- the same calls but one, on the same store, which has committed as much -/
theorem set (h : s.Inv s₀) (hi : s.calls[i]? = some c) (hok : c'.Ok s.store)
    (hcom : c'.Committed s.store) (hdoc : c'.doc = c.doc) (hsame : c'.committed = c.committed)
    (hholds : ∀ d, c'.holdsRow d = true → c.holdsRow d = true ∨
      ¬ Locks.heldByOther Call.holdsRow s.calls i d = true) :
    ({ s with calls := s.calls.set i c' } : Sys).Inv s₀ := by
  have hlt : i < s.calls.length := (List.getElem?_eq_some_iff.1 hi).1
  refine ⟨fun k b hk => ?_, Locks.Exclusive.set h.locks hi hholds, h.since, h.purged,
    fun d r₀ r hr₀ hlive hr => ?_⟩
  · by_cases hki : k = i
    · subst hki
      have hb : (s.calls.set k c')[k]? = some b := hk
      rw [List.getElem?_set_self hlt] at hb
      obtain rfl := Option.some.inj hb
      exact ⟨hok, hcom⟩
    · have hb : (s.calls.set i c')[k]? = some b := hk
      rw [List.getElem?_set_ne (Ne.symm hki)] at hb
      exact h.calls k b hb
  · have hcount : ({ s with calls := s.calls.set i c' } : Sys).successes d = s.successes d := by
      have hset := Sys.successes_set s.store c' d hi
      rw [hdoc, hsame] at hset
      exact Nat.add_right_cancel hset
    rw [hcount]
    exact h.once d r₀ r hr₀ hlive hr

/-- a call that starts -/
theorem start (h : s.Inv s₀) (hok : c.Ok s.store) (hcom : c.committed = false)
    (hholds : ∀ d, c.holdsRow d = false) : ({ s with calls := s.calls ++ [c] } : Sys).Inv s₀ := by
  refine ⟨fun k b hk => ?_, Locks.Exclusive.append h.locks fun d => by simp [hholds d], h.since,
    h.purged, fun d r₀ r hr₀ hlive hr => ?_⟩
  · have hb : (s.calls ++ [c])[k]? = some b := hk
    rcases getElem?_insert hb with hold | ⟨-, rfl⟩
    · exact h.calls k b hold
    · refine ⟨hok, fun hyes => ?_⟩
      rw [hcom] at hyes
      cases hyes
  · have hcount : ({ s with calls := s.calls ++ [c] } : Sys).successes d = s.successes d := by
      unfold Sys.successes
      rw [List.countP_append]
      simp [hcom]
    rw [hcount]
    exact h.once d r₀ r hr₀ hlive hr

theorem waits_iff {c : Call} (hwait : ¬ s.waits i c) (htakes : c.takesRow d = true) :
    ¬ Locks.heldByOther Call.holdsRow s.calls i d = true := by
  intro hheld
  obtain ⟨k, b, hki, hk, hb⟩ := Locks.heldByOther_iff.1 hheld
  have hdoc : c.doc = d := by
    unfold Call.takesRow at htakes
    split at htakes
    · exact of_decide_eq_true htakes
    · exact of_decide_eq_true htakes
    · cases htakes
  refine hwait ?_
  unfold Sys.waits
  refine List.any_eq_true.2 ⟨k, List.mem_range.2 (List.getElem?_eq_some_iff.1 hk).1,
    decide_eq_true ⟨hki, (Option.any_eq_true _ _).2 ⟨b, hk, decide_eq_true (.inl ⟨?_, ?_⟩)⟩⟩⟩
  · rw [hdoc, htakes]
  · rw [hdoc, hb]

/-- one statement of a call that waits for no lock -/
theorem step (h : s.Inv s₀) (hi : s.calls[i]? = some c) (hwait : ¬ s.waits i c)
    (hfinds : (Op.step i env).findsOwn s = true) :
    TwoPhase s₀ s (.step i env)
        { store := (c.step env s.store).1, calls := s.calls.set i (c.step env s.store).2 } ∧
      ({ store := (c.step env s.store).1
         calls := s.calls.set i (c.step env s.store).2 } : Sys).Inv s₀ := by
  obtain ⟨hok, hcom⟩ := h.calls i c hi
  have hgoes := Call.goes env s.store c
  generalize hstep : c.step env s.store = q at hgoes
  obtain ⟨t, c'⟩ := q
  have hgoes : c.Goes env s.store t c' := hgoes
  have hrow : env.fails = false → c.committed = true → c.pc = .relocking →
      ∀ r, s.store.db.documents[c.doc]? = some r → r.deletionStatus ≠ .purged := by
    intro hf hyes hpc r hr
    unfold Op.findsOwn at hfinds
    dsimp only at hfinds
    rw [hi, Option.all_some, decide_eq_true_iff, hr, Option.all_some] at hfinds
    rcases hfinds with hno | hno | hno | hno | hst
    · rw [hf] at hno
      cases hno
    · exact absurd hno hwait
    · rw [hyes] at hno
      cases hno
    · exact absurd hpc hno
    · exact of_decide_eq_true hst
  have hsteps := hgoes.steps hok hcom hrow
  obtain ⟨hdoc, howner, hkind, -⟩ := hgoes.same
  have hlt : i < s.calls.length := (List.getElem?_eq_some_iff.1 hi).1
  have hself : (s.calls.set i c')[i]? = some c' := List.getElem?_set_self hlt
  have hlocks : RowLocks (s.calls.set i c') := by
    refine Locks.Exclusive.set h.locks hi fun d hd => ?_
    exact (hgoes.holds hd).imp_right (waits_iff hwait)
  -- the other calls have locked other rows
  have hothers : ∀ (k : CallId) (b : Call), k ≠ i → s.calls[k]? = some b →
      b.Ok t ∧ b.Committed t := by
    intro k b hki hk
    obtain ⟨hbok, hbcom⟩ := h.calls k b hk
    rcases hgoes.writes with rfl | hholds
    · exact ⟨hbok, hbcom⟩
    · refine ⟨hbok.frame hsteps.leads fun hb heq => ?_, hbcom.frame hsteps.leads⟩
      rw [heq] at hholds
      exact hki (Locks.Exclusive.eq_of_holds h.locks hk hi hb hholds)
  have hcalls : ∀ (k : CallId) (b : Call), (s.calls.set i c')[k]? = some b →
      b.Ok t ∧ b.Committed t := by
    intro k b hk
    by_cases hki : k = i
    · subst hki
      obtain rfl := Option.some.inj (hself.symm.trans hk)
      exact ⟨hsteps.ok, hsteps.committed⟩
    · rw [List.getElem?_set_ne (Ne.symm hki)] at hk
      exact hothers k b hki hk
  have hsince : ∀ (d : DocId) (r₀ : Document), s₀.db.documents[d]? = some r₀ →
      ∃ r, t.db.documents[d]? = some r ∧ r₀.Keeps r := by
    intro d r₀ hr₀
    obtain ⟨r, hr, hkeeps⟩ := h.since d r₀ hr₀
    obtain ⟨r', hr', hkeeps'⟩ := hsteps.leads.stays hr
    exact ⟨r', hr', hkeeps'.storageKey.trans hkeeps.storageKey,
      hkeeps'.uploadedBy.trans hkeeps.uploadedBy, fun hdel => hkeeps'.deleted (hkeeps.deleted hdel)⟩
  have hpurged : ∀ (d : DocId) (r₀ r : Document), s₀.db.documents[d]? = some r₀ →
      r₀.deletionStatus ≠ .purged → t.db.documents[d]? = some r → r.deletionStatus = .purged →
        r.deletedAt ≠ none ∧ ∀ key, r.storageKey = some key → t.blobs key = false := by
    intro d r₀ r' hr₀ hst₀ hr' hst'
    obtain ⟨r, hr, hkeeps⟩ := hsteps.leads.back hr'
    have hold : r.deletionStatus = .purged →
        r'.deletedAt ≠ none ∧ ∀ key, r'.storageKey = some key → t.blobs key = false := by
      intro hst
      obtain ⟨hdel, hgone⟩ := h.purged d r₀ r hr₀ hst₀ hr hst
      refine ⟨hkeeps.deleted hdel, fun key hkey => ?_⟩
      have hno := hgone key (hkeeps.storageKey.symm.trans hkey)
      by_contra hyes
      have hyes' := hsteps.leads.blobs key (eq_true_of_ne_false hyes)
      rw [hno] at hyes'
      cases hyes'
    by_cases hd : d = c.doc
    · subst hd
      rcases hsteps.purged r r' hr hr' hst' with ⟨hst, -⟩ | hnew
      · exact hold hst
      · exact hnew
    · rw [hsteps.leads.rows d hd, hr] at hr'
      obtain rfl := Option.some.inj hr'
      exact hold hst'
  have honce : ∀ (d : DocId) (r₀ r : Document), s₀.db.documents[d]? = some r₀ →
      r₀.deletedAt = none → t.db.documents[d]? = some r →
        ({ store := t, calls := s.calls.set i c' } : Sys).successes d =
          if r.deletedAt = none then 0 else 1 := by
    intro d r₀ r' hr₀ hlive hr'
    obtain ⟨r, hr, hkeeps⟩ := hsteps.leads.back hr'
    have hold := h.once d r₀ r hr₀ hlive hr
    have hset := Sys.successes_set t c' d hi
    rw [hdoc] at hset
    rcases hsteps.counts with ⟨hsame, hdel⟩ | ⟨hbefore, hafter, q, q', hq, hqlive, hq', hqdel⟩
    · rw [hsame] at hset
      rw [hdel d r r' hr hr', ← hold]
      exact Nat.add_right_cancel hset
    · by_cases hd : c.doc = d
      · subst hd
        obtain rfl := Option.some.inj (hq.symm.trans hr)
        obtain rfl := Option.some.inj (hq'.symm.trans hr')
        rw [if_pos hqlive] at hold
        rw [if_neg hqdel]
        simp [hbefore, hafter] at hset
        omega
      · have hsame : r'.deletedAt = r.deletedAt := by
          rw [hsteps.leads.rows d (Ne.symm hd), hr] at hr'
          rw [Option.some.inj hr']
        rw [hsame, ← hold]
        simpa [hd] using hset
  have hinv : ({ store := t, calls := s.calls.set i c' } : Sys).Inv s₀ :=
    ⟨hcalls, hlocks, hsince, hpurged, honce⟩
  refine ⟨⟨fun hno => absurd rfl (hno i env), fun k env' b ho hk hbkind hbcom => ?_,
    fun key hk hno => ?_, hpurged, honce,
    fun k b m r₀ hk hbkind hpc hr₀ hlive => hinv.late hk hbkind hpc hr₀ hlive,
    fun k env' b r ho hk hr hdel hst => ?_⟩, hinv⟩
  · obtain ⟨rfl, rfl⟩ := Op.step.inj ho
    obtain rfl := Option.some.inj (hself.symm.trans hk)
    exact hsteps.atomic hbkind hbcom
  · obtain ⟨hfree, r, hr, hkey, hdel⟩ := hsteps.removed key hk hno
    exact ⟨hfree, i, env, c, r, rfl, hi, hr, hkey, hdel⟩
  · obtain ⟨rfl, rfl⟩ := Op.step.inj ho
    obtain rfl := Option.some.inj (hi.symm.trans hk)
    exact hsteps.idempotent r hr hdel hst

/-- an operation that leaves the store alone -/
theorem quiet {o : Op} {t : Sys} (ht : t.Inv s₀) (hstore : t.store = s.store) :
    TwoPhase s₀ s o t := by
  refine ⟨fun _ => hstore, fun _ _ _ _ _ _ _ => hstore, fun key hk hno => ?_, ht.purged, ht.once,
    fun k b m r₀ hk hbkind hpc hr₀ hlive => ht.late hk hbkind hpc hr₀ hlive,
    fun _ _ _ _ _ _ _ _ _ => hstore⟩
  rw [hstore, hk] at hno
  cases hno

theorem exec (h : s.Inv s₀) (o : Op) (ho : o.findsOwn s = true) :
    TwoPhase s₀ s o (o.exec s) ∧ (o.exec s).Inv s₀ := by
  cases o with
  | purgeSource doc owner clientIp =>
    have ht : ((Op.purgeSource doc owner clientIp).exec s).Inv s₀ :=
      h.start (.start rfl rfl rfl rfl) rfl fun _ => rfl
    exact ⟨ht.quiet rfl, ht⟩
  | retrySourceBlobPurge doc owner =>
    have ht : ((Op.retrySourceBlobPurge doc owner).exec s).Inv s₀ :=
      h.start (.relock rfl (fun hno => nomatch hno) (fun _ hno => nomatch hno) fun _ => rfl) rfl
        fun _ => rfl
    exact ⟨ht.quiet rfl, ht⟩
  | step i env =>
    unfold Op.exec
    dsimp only
    cases hi : s.calls[i]? with
    | none => exact ⟨h.quiet rfl, h⟩
    | some c =>
      dsimp only
      by_cases hwait : s.waits i c
      · rw [if_pos hwait]
        exact ⟨h.quiet rfl, h⟩
      · rw [if_neg hwait]
        exact h.step hi hwait ho
  | crash i =>
    unfold Op.exec
    dsimp only
    cases hi : s.calls[i]? with
    | none => exact ⟨h.quiet rfl, h⟩
    | some c =>
      obtain ⟨hok, hcom⟩ := h.calls i c hi
      dsimp only
      cases hpc : c.pc with
      | done o =>
        have ht := h.set hi hok hcom rfl rfl fun d hd => .inl hd
        exact ⟨ht.quiet rfl, ht⟩
      | _ =>
        have ht : ({ s with calls := s.calls.set i (c.endWith .died) } : Sys).Inv s₀ :=
          h.set hi (.done .died rfl fun m hm => nomatch hm) hcom rfl rfl fun d hd => nomatch hd
        exact ⟨ht.quiet rfl, ht⟩

end Sys.Inv

/-! ## every run -/

/-- In every run from any store whose second phases find the row as their sessions have it, every
operation keeps to the two phases. -/
theorem purge_two_phase (s₀ : Store) (ops : List Op)
    (hops : Run.Meets Op.exec (fun s o => o.findsOwn s) { store := s₀ } ops) :
    ∀ p ∈ Run.trace Op.exec { store := s₀ } ops, TwoPhase s₀ p.1 p.2 (p.2.exec p.1) :=
  Run.trace_all_of_meets (I := Sys.Inv s₀) (D := fun s o => TwoPhase s₀ s o (o.exec s))
    (fun _ o h ho => Sys.Inv.exec h o ho) Sys.Inv.init hops

/-- statements of a call that nothing disturbs -/
def turns (i : CallId) (n : Nat) : List Op := List.replicate n (.step i {})

/-- a document of the user 1 with its blob -/
def oneDocument : Store where
  db := { documents := [{ uploadedBy := some 1, storageKey := some "k", status := .indexed }] }
  blobs key := key = "k"

/-- two purges of the document at a time, and a retry after them -/
def twoPurges : List Op :=
  [.purgeSource 0 1 none, .purgeSource 0 1 none] ++ turns 0 3 ++ turns 1 1 ++ turns 0 9 ++
    turns 1 1 ++ [.retrySourceBlobPurge 0 1]

theorem purge_two_phase_oneDocument :
    TwoPhase oneDocument (Run.run Op.exec { store := oneDocument } twoPurges) (.step 2 {})
      ((Op.step 2 {}).exec (Run.run Op.exec { store := oneDocument } twoPurges)) := by
  have hmem : (Run.run Op.exec { store := oneDocument } twoPurges, Op.step 2 {}) ∈
      Run.trace Op.exec { store := oneDocument } (twoPurges ++ turns 2 1) := by
    rw [Run.trace_append]
    exact List.mem_append_right _ List.mem_cons_self
  exact purge_two_phase oneDocument (twoPurges ++ turns 2 1) (by decide) _ hmem

/-- A retry purges the blob between the two phases of a purge; then the blob cannot be deleted
again. -/
def retriedBetween : List Op :=
  [.purgeSource 0 1 none] ++ turns 0 7 ++ [.retrySourceBlobPurge 0 1] ++ turns 1 5 ++ turns 0 3 ++
    [.step 0 { storageError := true }]

/-- The purge sets the document from `purged` to `failed`. -/
theorem retriedBetween_not_idempotent :
    ¬ ∀ p ∈ Run.trace Op.exec { store := oneDocument } (retriedBetween ++ turns 0 1),
      TwoPhase oneDocument p.1 p.2 (p.2.exec p.1) := by
  intro h
  have hmem : (Run.run Op.exec { store := oneDocument } retriedBetween, Op.step 0 {}) ∈
      Run.trace Op.exec { store := oneDocument } (retriedBetween ++ turns 0 1) := by
    rw [Run.trace_append]
    exact List.mem_append_right _ List.mem_cons_self
  have hlast := h _ hmem
  have hcall : ((Run.run Op.exec { store := oneDocument } retriedBetween).calls[0]?).any
      (·.doc = 0) := by decide
  have hrow : ((Run.run Op.exec { store := oneDocument } retriedBetween).store.db.documents[0]?).any
      fun r => r.deletedAt ≠ none ∧ r.deletionStatus = .purged := by decide
  have hafter : ((Op.step 0 {}).exec
      (Run.run Op.exec { store := oneDocument } retriedBetween)).store.db.documents ≠
        (Run.run Op.exec { store := oneDocument } retriedBetween).store.db.documents := by
    decide
  obtain ⟨c, hc, hdoc⟩ := (Option.any_eq_true _ _).1 hcall
  obtain ⟨r, hr, hdel⟩ := (Option.any_eq_true _ _).1 hrow
  obtain ⟨hdel, hst⟩ := of_decide_eq_true hdel
  have hdoc' : c.doc = 0 := of_decide_eq_true hdoc
  have hsame := hlast.idempotent 0 {} c r rfl hc (hdoc'.symm ▸ hr) hdel hst
  exact hafter (congrArg (fun s => s.db.documents) hsame)

end LifeAI.Purge
