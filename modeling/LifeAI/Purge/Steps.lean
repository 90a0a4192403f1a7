import LifeAI.Purge.Model

/-!
# What a step of a purge can do

* `Call.Goes`    one case for each way on in `Call.step`;
* `Db.Purges`    what the first phase makes of the tables;
* `Store.Leads`  what no step undoes.
-/

namespace LifeAI.Purge

open Import (DocId ImportJobId IndexStatus DeletionStatus ImportJob ImportJobStatus)

variable {env : Env} {s t : Store} {c b : Call} {d : DocId} {key : String}

/-! ## the first phase -/

/-- between the lock on the row and the commit -/
def Pc.first : Pc → Bool
  | .listing | .transitioning _ | .deletingChunks | .counting | .loadingJob | .committing _ => true
  | _ => false

/-- a write to the memory sources and the chunks -/
def Write.memory : Write → Bool
  | .transition _ _ _ | .deleteChunks _ _ => true
  | _ => false

theorem transitionOwnMemorySource_memory {db : Db} {caller : OwnerId} {u : UnitId} {now : Time}
    {w : Write} (h : transitionOwnMemorySource db caller u now = some w) : w.memory = true := by
  unfold transitionOwnMemorySource at h
  split at h
  · cases h
  · split at h
    · cases h
    · split at h
      · cases h
      · cases h
        rfl

/-- `c'` is the call further on, under the same lock -/
structure Call.Same (c c' : Call) : Prop where
  kind : c'.kind = c.kind
  doc : c'.doc = c.doc
  owner : c'.owner = c.owner
  committed : c'.committed = c.committed

/-! ## one statement -/

variable (env s c) in
/-- the ways on -/
inductive Call.Goes : Store → Call → Prop where
  | done (o : Outcome) (h : c.pc = .done o) : Goes s c
  | fail (o : Outcome) (h : ∀ o, c.pc ≠ .done o) (ho : o = .failed ∨ c.pc = .relocking) :
    Goes s (c.fail o)
  | refused (m : String) (h : c.pc = .locking)
      (hrow : ∀ d, s.db.documents[c.doc]? = some d → d.liveOf c.owner = false) :
    Goes s (c.endWith (.notFound m))
  | lock (d : Document) (h : c.pc = .locking) (hd : s.db.documents[c.doc]? = some d)
      (hlive : d.liveOf c.owner = true) : Goes s { c with held := some d, pc := .listing }
  | work (c' : Call) (h : c.pc.first = true) (h' : c'.pc.first = true) (hsame : c.Same c')
      (hheld : c'.held = c.held)
      (hwrites : ∃ ws, c'.writes = c.writes ++ ws ∧ ∀ w ∈ ws, w.memory = true) : Goes s c'
  | commit (cancels : Option ImportJobId) (d : Document) (h : c.pc = .committing cancels)
      (hheld : c.held = some d) :
    Goes { s with db := s.db.view (c.commit env.now cancels d).1 } (c.commit env.now cancels d).2
  | found (row : Document) (h : c.pc = .relocking) (hrow : s.db.documents[c.doc]? = some row)
      (hdel : row.deletedOf c.owner = true) (hst : (c.held.getD row).deletionStatus = .purged) :
    Goes s (c.settled .purged)
  | relockNone (row : Document) (h : c.pc = .relocking) (hf : env.fails = false) (hrow : s.db.documents[c.doc]? = some row)
      (hdel : row.deletedOf c.owner = true) (hst : (c.held.getD row).deletionStatus ≠ .purged)
      (hkey : (c.held.getD row).storageKey = none) :
    Goes s { c with held := some (c.held.getD row), pc := .settling none .purged }
  | relock (row : Document) (key : String) (h : c.pc = .relocking) (hf : env.fails = false)
      (hrow : s.db.documents[c.doc]? = some row) (hdel : row.deletedOf c.owner = true)
      (hst : (c.held.getD row).deletionStatus ≠ .purged)
      (hkey : (c.held.getD row).storageKey = some key) :
    Goes s { c with held := some (c.held.getD row), pc := .lockingKey key }
  | lockKey (key : String) (h : c.pc = .lockingKey key) : Goes s (c.goto (.checking key))
  | keep (key : String) (h : c.pc = .checking key) :
    Goes s (c.goto (.settling (some key) .pending))
  | free (key : String) (h : c.pc = .checking key) (hno : ¬ s.db.stillReferenced key) :
    Goes s (c.goto (.deleting key))
  | deleteFails (key : String) (h : c.pc = .deleting key) :
    Goes s (c.goto (.settling (some key) .failed))
  | delete (key : String) (h : c.pc = .deleting key) :
    Goes { s with blobs := fun k => if k = key then false else s.blobs k }
      (c.goto (.settling (some key) .purged))
  | unchanged (key : Option String) (st : DeletionStatus) (h : c.pc = .settling key st) :
    Goes s (c.settled st)
  | settle (key : Option String) (st : DeletionStatus) (h : c.pc = .settling key st) :
    Goes { s with db := s.db.setDeletionStatus c.doc st env.now } (c.settled st)

theorem filter_eq_none {α : Type} {p : α → Bool} {o : Option α} (h : o.filter p = none) :
    ∀ a, o = some a → p a = false := by
  rintro a rfl
  simpa [Option.filter] using h

theorem Call.goes (env : Env) (s : Store) (c : Call) :
    c.Goes env s (c.step env s).1 (c.step env s).2 := by
  have hnow : ∀ (ws : List Write), c.writes ++ [] = c.writes ∧ ∀ w ∈ ([] : List Write), w.memory = true :=
    fun _ => ⟨List.append_nil _, nofun⟩
  unfold Call.step
  cases hpc : c.pc with
  | done o => exact .done o hpc
  | deleting key =>
    dsimp only
    split
    · exact .fail .failed (by simp [hpc]) (.inl rfl)
    · split
      · exact .deleteFails key hpc
      · exact .delete key hpc
  | locking =>
    dsimp only
    split
    · exact .fail .failed (by simp [hpc]) (.inl rfl)
    · split
      · next h => exact .refused _ hpc (filter_eq_none h)
      · next d h =>
        obtain ⟨hd, hlive⟩ := Option.filter_eq_some_iff.1 h
        exact .lock d hpc hd hlive
  | listing | counting | loadingJob =>
    dsimp only
    split
    · exact .fail .failed (by simp [hpc]) (.inl rfl)
    · exact .work _ (by rw [hpc]; rfl) rfl ⟨rfl, rfl, rfl, rfl⟩ rfl ⟨[], (hnow []).1.symm, (hnow []).2⟩
  | transitioning todo =>
    have hfirst : c.pc.first = true := by rw [hpc]; rfl
    dsimp only
    split
    · exact .fail .failed (by simp [hpc]) (.inl rfl)
    · cases todo with
      | nil => exact .work _ hfirst rfl ⟨rfl, rfl, rfl, rfl⟩ rfl ⟨[], (hnow []).1.symm, (hnow []).2⟩
      | cons x todo =>
        obtain ⟨u, st⟩ := x
        dsimp only
        split
        · exact .work _ hfirst rfl ⟨rfl, rfl, rfl, rfl⟩ rfl ⟨[], (hnow []).1.symm, (hnow []).2⟩
        · split
          · exact .fail .failed (by simp [hpc]) (.inl rfl)
          · next w hw =>
            refine .work _ hfirst rfl ⟨rfl, rfl, rfl, rfl⟩ rfl ⟨[w], rfl, fun w' hw' => ?_⟩
            rw [List.mem_singleton.1 hw']
            exact transitionOwnMemorySource_memory hw
  | deletingChunks =>
    dsimp only
    split
    · exact .fail .failed (by simp [hpc]) (.inl rfl)
    · split
      · exact .fail .failed (by simp [hpc]) (.inl rfl)
      · refine .work _ (by rw [hpc]; rfl) rfl ⟨rfl, rfl, rfl, rfl⟩ rfl ⟨[_], rfl, fun w hw => ?_⟩
        rw [List.mem_singleton.1 hw]
        rfl
  | committing cancels =>
    dsimp only
    split
    · exact .fail .failed (by simp [hpc]) (.inl rfl)
    · split
      · exact .fail .failed (by simp [hpc]) (.inl rfl)
      · next d hd => exact .commit cancels d hpc hd
  | relocking =>
    dsimp only
    split
    · exact .fail .failed (by simp [hpc]) (.inl rfl)
    · next hfails =>
      have hf : env.fails = false := eq_false_of_ne_true hfails
      split
      · exact .fail _ (by simp [hpc]) (.inr hpc)
      · next row h =>
        obtain ⟨hrow, hdel⟩ := Option.filter_eq_some_iff.1 h
        split
        · next hst => exact .found row hpc hrow hdel hst
        · next hst =>
          split
          · next hkey => exact .relockNone row hpc hf hrow hdel hst hkey
          · next key hkey => exact .relock row key hpc hf hrow hdel hst hkey
  | lockingKey key =>
    dsimp only
    split
    · exact .fail .failed (by simp [hpc]) (.inl rfl)
    · exact .lockKey key hpc
  | checking key =>
    dsimp only
    split
    · exact .fail .failed (by simp [hpc]) (.inl rfl)
    · split
      · exact .keep key hpc
      · next hno => exact .free key hpc hno
  | settling key st =>
    dsimp only
    split
    · exact .fail .failed (by simp [hpc]) (.inl rfl)
    · split
      · exact .unchanged key st hpc
      · exact .settle key st hpc

/-- what every way on keeps, but for the commit of the first phase -/
theorem Call.Goes.same {c' : Call} (h : c.Goes env s t c') :
    c'.doc = c.doc ∧ c'.owner = c.owner ∧ c'.kind = c.kind ∧
      (c'.committed = c.committed ∨ ∃ cancels d, c.pc = .committing cancels ∧ c.held = some d ∧
        c' = (c.commit env.now cancels d).2 ∧ t = { s with db := s.db.view (c.commit env.now cancels d).1 }) := by
  cases h with
  | commit cancels d h hheld => exact ⟨rfl, rfl, rfl, .inr ⟨cancels, d, h, hheld, rfl, rfl⟩⟩
  | work c' h h' hsame => exact ⟨hsame.doc, hsame.owner, hsame.kind, .inl hsame.committed⟩
  | _ => exact ⟨rfl, rfl, rfl, .inl rfl⟩

/-- a row that is locked after the step was locked before it, or is locked by it -/
theorem Call.Goes.holds {c' : Call} (h : c.Goes env s t c') (hrow : c'.holdsRow d = true) :
    c.holdsRow d = true ∨ c.takesRow d = true := by
  cases h with
  | lock r h hd hlive => exact .inr (by simpa [holdsRow, takesRow, h] using hrow)
  | relockNone row h | relock row key h => exact .inr (by simpa [holdsRow, takesRow, h] using hrow)
  | done o h => simp [holdsRow, h] at hrow
  | fail o | refused m | found row | unchanged key st | settle key st =>
    simp [holdsRow, Call.fail, endWith, settled] at hrow
  | commit cancels r h hheld =>
    have hfree : (c.commit env.now cancels r).2.holdsRow d = false := by
      unfold Call.commit holdsRow goto
      dsimp only
      by_cases hst : (purgedRow env.now r).deletionStatus = .pending
      · rw [if_pos hst]
      · rw [if_neg hst]
    rw [hfree] at hrow
    cases hrow
  | work c' h h' hsame =>
    have hdoc : c.doc = d := by
      rw [← hsame.doc]
      unfold holdsRow at hrow
      split at hrow
      · cases hrow
      · cases hrow
      · cases hrow
      · exact of_decide_eq_true hrow
    refine .inl ?_
    unfold holdsRow
    split
    · next hpc => simp [Pc.first, hpc] at h
    · next hpc => simp [Pc.first, hpc] at h
    · next hpc => simp [Pc.first, hpc] at h
    · exact decide_eq_true hdoc
  | lockKey key h | keep key h | free key h | deleteFails key h | delete key h =>
    have hdoc : decide (c.doc = d) = true := hrow
    refine .inl ?_
    unfold holdsRow
    rw [h]
    exact hdoc

/-! ## the tables -/

/-- the references of `t` are references of `s` -/
theorem Db.stillReferenced_of {a b : Db}
    (hdocs : ∀ r' ∈ b.documents, r'.deletedAt = none → ∃ r ∈ a.documents,
      r.storageKey = r'.storageKey ∧ r.importJobId = r'.importJobId ∧ r.status = r'.status ∧
        r.deletedAt = none)
    (hjobs : ∀ (j : ImportJobId) (r' : ImportJob), b.jobs[j]? = some r' → ∃ r, a.jobs[j]? = some r ∧
      r.sourceStorageKey = r'.sourceStorageKey ∧ (r'.stillNeedsRawBlob → r.stillNeedsRawBlob))
    (hkeys : b.projectKeys = a.projectKeys) (h : b.stillReferenced key) : a.stillReferenced key := by
  have hstuck : ∀ j, b.stuck j → a.stuck j := by
    intro j hj
    unfold Db.stuck at hj ⊢
    obtain ⟨r', hr', hp⟩ := List.any_eq_true.1 hj
    obtain ⟨hjob, hlive, hres⟩ := of_decide_eq_true hp
    obtain ⟨r, hr, -, hjob', hst, hlive'⟩ := hdocs r' hr' hlive
    refine List.any_eq_true.2 ⟨r, hr, decide_eq_true ⟨?_, hlive', ?_⟩⟩
    · rw [hjob', hjob]
    · rw [hst, hres]
  unfold Db.stillReferenced at h ⊢
  rw [decide_eq_true_iff] at h ⊢
  rcases h with h | h | h
  · obtain ⟨r', hr', hp⟩ := List.any_eq_true.1 h
    obtain ⟨hkey, hlive⟩ := of_decide_eq_true hp
    obtain ⟨r, hr, hkey', -, -, hlive'⟩ := hdocs r' hr' hlive
    exact .inl (List.any_eq_true.2 ⟨r, hr, decide_eq_true ⟨hkey'.trans hkey, hlive'⟩⟩)
  · obtain ⟨j, -, hj⟩ := List.any_eq_true.1 h
    obtain ⟨r', hr', hp⟩ := (Option.any_eq_true _ _).1 hj
    obtain ⟨hkey, hneed⟩ := of_decide_eq_true hp
    obtain ⟨r, hr, hkey', hneed'⟩ := hjobs j r' hr'
    have hj' : j < a.jobs.length := (List.getElem?_eq_some_iff.1 hr).1
    refine .inr (.inl (List.any_eq_true.2 ⟨j, List.mem_range.2 hj', ?_⟩))
    exact (Option.any_eq_true _ _).2 ⟨r, hr, decide_eq_true ⟨hkey'.trans hkey,
      hneed.imp hneed' (hstuck j)⟩⟩
  · exact .inr (.inr (hkeys ▸ h))

/-- what no step undoes in a row -/
structure Document.Keeps (r r' : Document) : Prop where
  storageKey : r'.storageKey = r.storageKey
  uploadedBy : r'.uploadedBy = r.uploadedBy
  deleted : r.deletedAt ≠ none → r'.deletedAt ≠ none

theorem Document.Keeps.refl (r : Document) : r.Keeps r := ⟨rfl, rfl, id⟩

/-- `t` comes after `s`, where at most the row `i` has changed -/
structure Store.Leads (i : DocId) (s t : Store) : Prop where
  row : ∀ r, s.db.documents[i]? = some r → ∃ r', t.db.documents[i]? = some r' ∧ r.Keeps r'
  rows : ∀ d, d ≠ i → t.db.documents[d]? = s.db.documents[d]?
  none : s.db.documents[i]? = none → t.db.documents[i]? = none
  refs : ∀ key, t.db.stillReferenced key → s.db.stillReferenced key
  blobs : ∀ key, t.blobs key = true → s.blobs key = true

namespace Store.Leads

variable {i : DocId}

theorem refl : Store.Leads i s s :=
  ⟨fun r hr => ⟨r, hr, .refl r⟩, fun _ _ => rfl, id, fun _ => id, fun _ => id⟩

theorem stays (h : Store.Leads i s t) {r : Document} (hr : s.db.documents[d]? = some r) :
    ∃ r', t.db.documents[d]? = some r' ∧ r.Keeps r' := by
  by_cases hd : d = i
  · subst hd
    exact h.row r hr
  · exact ⟨r, (h.rows d hd).trans hr, .refl r⟩

theorem back (h : Store.Leads i s t) {r' : Document} (hr' : t.db.documents[d]? = some r') :
    ∃ r, s.db.documents[d]? = some r ∧ r.Keeps r' := by
  cases hr : s.db.documents[d]? with
  | none =>
    by_cases hd : d = i
    · subst hd
      rw [h.none hr] at hr'
      cases hr'
    · rw [h.rows d hd, hr] at hr'
      cases hr'
  | some r =>
    obtain ⟨r'', hr'', hkeeps⟩ := h.stays hr
    obtain rfl := Option.some.inj (hr''.symm.trans hr')
    exact ⟨r, rfl, hkeeps⟩

end Store.Leads

/-! ## the two commits -/

theorem Db.view_memory {ws : List Write} (h : ∀ w ∈ ws, w.memory = true) (db : Db) :
    (db.view ws).documents = db.documents ∧ (db.view ws).jobs = db.jobs ∧
      (db.view ws).projectKeys = db.projectKeys := by
  unfold Db.view
  induction ws generalizing db with
  | nil => exact ⟨rfl, rfl, rfl⟩
  | cons w ws ih =>
    have hrest := ih (fun w' hw' => h w' (List.mem_cons_of_mem _ hw')) (w.apply db)
    have hfirst : (w.apply db).documents = db.documents ∧ (w.apply db).jobs = db.jobs ∧
        (w.apply db).projectKeys = db.projectKeys := by
      have hw := h w List.mem_cons_self
      cases w with
      | transition u r now => exact ⟨rfl, rfl, rfl⟩
      | deleteChunks d owner => exact ⟨rfl, rfl, rfl⟩
      | _ => cases hw
    rw [List.foldl_cons]
    exact ⟨hrest.1.trans hfirst.1, hrest.2.1.trans hfirst.2.1, hrest.2.2.trans hfirst.2.2⟩

/-- what the first phase writes to the documents, the jobs and the keys -/
theorem Call.commit_view (db : Db) (now : Time) (cancels : Option ImportJobId) (r : Document)
    (h : ∀ w ∈ c.writes, w.memory = true) :
    (db.view (c.commit now cancels r).1).documents = db.documents.set c.doc (purgedRow now r) ∧
      (db.view (c.commit now cancels r).1).projectKeys = db.projectKeys ∧
        ∀ (j : ImportJobId) (q' : ImportJob), (db.view (c.commit now cancels r).1).jobs[j]? = some q' →
          ∃ q, db.jobs[j]? = some q ∧ q.sourceStorageKey = q'.sourceStorageKey ∧
            (q'.stillNeedsRawBlob → q.stillNeedsRawBlob) := by
  obtain ⟨hdocs, hjobs, hkeys⟩ := Db.view_memory h db
  unfold Db.view at hdocs hjobs hkeys
  unfold Db.view commit
  dsimp only
  rw [List.foldl_append, List.foldl_append, List.foldl_append]
  generalize c.writes.foldl Write.apply db = v at hdocs hjobs hkeys
  cases cancels with
  | none =>
    refine ⟨?_, hkeys, fun j q' hq' => ⟨q', ?_, rfl, id⟩⟩
    · show v.documents.set c.doc _ = _
      rw [hdocs]
    · have hq : v.jobs[j]? = some q' := hq'
      rwa [hjobs] at hq
  | some k =>
    refine ⟨?_, hkeys, fun j q' hq' => ?_⟩
    · show v.documents.set c.doc _ = _
      rw [hdocs]
    · have hq : (v.jobs.modify k fun q => { q with status := .cancelled, completedAt := some now })[j]? =
        some q' := hq'
      rw [List.getElem?_modify, hjobs] at hq
      obtain ⟨q, hq, hq'⟩ := Option.map_eq_some_iff.1 hq
      refine ⟨q, hq, ?_⟩
      rw [← hq']
      split
      · refine ⟨rfl, fun hneed => ?_⟩
        simp [ImportJob.stillNeedsRawBlob, ImportJob.requeueEligible] at hneed
      · exact ⟨rfl, id⟩

theorem purgedRow_deletionStatus (now : Time) (r : Document) :
    (purgedRow now r).deletionStatus = if r.storageKey = none then .purged else .pending := rfl

theorem Call.commit_leads (now : Time) (cancels : Option ImportJobId) {r : Document}
    (h : ∀ w ∈ c.writes, w.memory = true) (hr : s.db.documents[c.doc]? = some r) :
    Store.Leads c.doc s { s with db := s.db.view (c.commit now cancels r).1 } := by
  obtain ⟨hdocs, hkeys, hjobs⟩ := c.commit_view s.db now cancels r h
  have hlt : c.doc < s.db.documents.length := (List.getElem?_eq_some_iff.1 hr).1
  have hself : (s.db.documents.set c.doc (purgedRow now r))[c.doc]? = some (purgedRow now r) :=
    List.getElem?_set_self hlt
  refine ⟨fun q hq => ⟨purgedRow now r, ?_, ?_⟩, fun d hd => ?_, fun hnone => ?_, fun key hk => ?_,
    fun _ => id⟩
  · show (s.db.view _).documents[c.doc]? = _
    rw [hdocs, hself]
  · obtain rfl := Option.some.inj (hq.symm.trans hr)
    exact ⟨rfl, rfl, fun _ => Option.some_ne_none now⟩
  · show (s.db.view _).documents[d]? = _
    rw [hdocs, List.getElem?_set_ne (Ne.symm hd)]
  · rw [hr] at hnone
    cases hnone
  · refine Db.stillReferenced_of (fun q' hq' hlive => ?_) hjobs hkeys hk
    have hmem : q' ∈ s.db.documents.set c.doc (purgedRow now r) := hdocs ▸ hq'
    rcases List.mem_or_eq_of_mem_set hmem with hold | rfl
    · exact ⟨q', hold, rfl, rfl, rfl, hlive⟩
    · exact absurd hlive (Option.some_ne_none now)

theorem Db.setDeletionStatus_row (db : Db) (d k : DocId) (st : DeletionStatus) (now : Time) :
    (db.setDeletionStatus d st now).documents[k]? = db.documents[k]?.map fun r =>
      if d = k then { r with deletionStatus := st, updatedAt := now } else r :=
  List.getElem?_modify ..

theorem settle_leads (s : Store) (d : DocId) (st : DeletionStatus) (now : Time) :
    Store.Leads d s { s with db := s.db.setDeletionStatus d st now } := by
  have hget := fun k => s.db.setDeletionStatus_row d k st now
  refine ⟨fun r hr => ?_, fun k hk => ?_, fun hnone => ?_, fun key hk => ?_, fun _ => id⟩
  · refine ⟨{ r with deletionStatus := st, updatedAt := now }, ?_, rfl, rfl, id⟩
    show (s.db.setDeletionStatus d st now).documents[d]? = _
    rw [hget, hr, Option.map_some, if_pos rfl]
  · show (s.db.setDeletionStatus d st now).documents[k]? = _
    rw [hget]
    cases s.db.documents[k]? with
    | none => rfl
    | some r => rw [Option.map_some, if_neg (Ne.symm hk)]
  · show (s.db.setDeletionStatus d st now).documents[d]? = _
    rw [hget, hnone]
    rfl
  · have hrefs : (s.db.setDeletionStatus d st now).stillReferenced key → s.db.stillReferenced key := by
      apply Db.stillReferenced_of
      · intro q' hq' hlive
        obtain ⟨k, hk⟩ := List.mem_iff_getElem?.1 hq'
        obtain ⟨q, hq, hqq⟩ := Option.map_eq_some_iff.1 ((hget k).symm.trans hk)
        have hmem := List.mem_of_getElem? hq
        by_cases hdk : d = k
        · rw [if_pos hdk] at hqq
          rw [← hqq] at hlive ⊢
          exact ⟨q, hmem, rfl, rfl, rfl, hlive⟩
        · rw [if_neg hdk] at hqq
          rw [← hqq] at hlive ⊢
          exact ⟨q, hmem, rfl, rfl, rfl, hlive⟩
      · intro j q' hq'
        exact ⟨q', hq', rfl, id⟩
      · rfl
    exact hrefs hk

end LifeAI.Purge
