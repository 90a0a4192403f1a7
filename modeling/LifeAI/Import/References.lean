import LifeAI.Import.Blobs

/-!
# No dangling storage keys

The locks on the keys keep a blob that somebody is about to refer to.  They do not keep one whose
job was closed and is made resumable again, since the writers of job rows and of document statuses
do not look at the raw blob.

* `Worker.reopens`    the jobs that the next statement of a worker makes resumable;
* `Op.reopensSafely`  the condition of a step;
* `Store.Refers`      where the references after a step come from;
* `Sys.Referenced`    the invariant.
-/

namespace LifeAI.Import

variable {β : Type} {P : Pipeline β} {env : Env} {s t : Store β} {self : ProcId} {p q : Proc β}
  {w : Worker β} {key : String} {j : ImportJobId}

/-! ## the condition -/

/-- the job of a live document -/
def Store.jobOf (s : Store β) (i : DocId) : List ImportJobId :=
  match s.documents[i]? with
  | some d => if d.deleted then [] else [d.importJobId]
  | none => []

/-- the jobs that the next statement makes resumable, or keeps so: the worker's own one, or that of
the document that gets a status from which it is resumed -/
def Worker.reopens (s : Store β) (w : Worker β) : List ImportJobId :=
  match w.pc with
  | .starting _ => if w.held = some .running then [] else [w.job]
  | .handling e => if (s.jobs[w.job]?).any fun r =>
      e.transient ∧ r.attemptCount + 1 < r.maxAttempts then [w.job] else []
  | .rollingUp p => if (s.jobs[w.job]?).any fun r =>
      (rolledUp s.clock (s.stuck w.job) p.outcomes r).stillNeedsRawBlob then [w.job] else []
  | .creating _ _ _ => [w.job]
  | .working _ f => match f.stage with
    | .storing | .linking | .extracting | .extracted | .embedding => s.jobOf f.doc
    | .pausing st | .ending st => if st.resumable then s.jobOf f.doc else []
    | _ => []
  | _ => []

namespace Sys

/-- a deletion of the blob has passed its check -/
def deletes (s : Sys β) (key : String) : Bool :=
  s.procs.any fun p => p.any fun p => match p with
    | .deletion d => d.stage = .deleting ∧ d.key = key
    | _ => false

/-- the job still needs its raw blob, or the blob is there and nobody is deleting it -/
def reopenable (s : Sys β) (j : ImportJobId) : Bool :=
  (s.store.jobs[j]?).all fun r => (r.stillNeedsRawBlob ∨ s.store.stuck j) ∨
    (s.store.disk r.sourceStorageKey).isSome ∧ ¬ s.deletes r.sourceStorageKey

end Sys

def Op.reopensSafely (s : Sys β) : Op β → Bool
  | .step i env => env.dbError || match s.proc i with
    | some (.worker w) => (w.reopens s.store).all s.reopenable
    | some (.reconcile ids) => ids.all s.reopenable
    | _ => true
  | _ => true

/-! ## where references come from -/

theorem Store.stillReferenced_iff : s.stillReferenced key ↔
    (∃ d ∈ s.documents, d.storageKey = some key ∧ ¬ d.deleted) ∨
    (∃ j r, s.jobs[j]? = some r ∧ r.sourceStorageKey = key ∧
      (r.stillNeedsRawBlob ∨ s.stuck j)) ∨ key ∈ s.projectKeys := by
  unfold Store.stillReferenced
  rw [decide_eq_true_iff, List.any_eq_true, List.any_eq_true]
  refine or_congr ?_ (or_congr ?_ Iff.rfl)
  · simp only [decide_eq_true_eq]
  · simp only [List.mem_range, Option.any_eq_true, decide_eq_true_eq]
    constructor
    · rintro ⟨j, -, r, hr, h⟩
      exact ⟨j, r, hr, h⟩
    · rintro ⟨j, r, hr, h⟩
      exact ⟨j, (List.getElem?_eq_some_iff.1 hr).1, r, hr, h⟩

theorem Store.stuck_iff : s.stuck j ↔
    ∃ d ∈ s.documents, d.importJobId = j ∧ ¬ d.deleted ∧ d.status.resumable := by
  unfold Store.stuck
  simp only [List.any_eq_true, decide_eq_true_eq]

/-- the references of `t` are those of `s`, but for the keys `K` and the jobs `J`, and no job is
gone -/
structure Store.Refers (s t : Store β) (K : String → Prop) (J : ImportJobId → Prop) : Prop where
  docs : ∀ (d : Document) (key : String), d ∈ t.documents → d.storageKey = some key → ¬ d.deleted →
    (∃ d₀ ∈ s.documents, d₀.storageKey = some key ∧ ¬ d₀.deleted) ∨ K key
  jobs : ∀ (j : ImportJobId) (r : ImportJob), t.jobs[j]? = some r →
    (∃ r₀ : ImportJob, s.jobs[j]? = some r₀ ∧ r.sourceStorageKey = r₀.sourceStorageKey ∧
      (r.stillNeedsRawBlob → r₀.stillNeedsRawBlob ∨ J j)) ∨
      s.jobs[j]? = none ∧ K r.sourceStorageKey
  rows : s.jobs.length ≤ t.jobs.length
  stuck : ∀ j, t.stuck j → s.stuck j ∨ J j
  keys : ∀ key ∈ t.projectKeys, key ∈ s.projectKeys ∨ K key

namespace Store.Refers

variable {K : String → Prop} {J : ImportJobId → Prop}

theorem cases (h : s.Refers t K J) (hk : t.stillReferenced key) :
    s.stillReferenced key ∨ K key ∨
      ∃ j r, J j ∧ s.jobs[j]? = some r ∧ r.sourceStorageKey = key := by
  rw [Store.stillReferenced_iff] at hk ⊢
  rcases hk with ⟨d, hd, hdk, hlive⟩ | ⟨j, r, hr, rfl, hneed⟩ | hkey
  · rcases h.docs d key hd hdk hlive with hold | hK
    · exact .inl (.inl hold)
    · exact .inr (.inl hK)
  · rcases h.jobs j r hr with ⟨r₀, hr₀, hsame, hneeds⟩ | ⟨-, hK⟩
    · have hdone : (r₀.stillNeedsRawBlob ∨ s.stuck j) ∨ J j := by
        rcases hneed with hneed | hstuck
        · exact (hneeds hneed).imp_left .inl
        · exact (h.stuck j hstuck).imp_left .inr
      rcases hdone with hold | hJ
      · exact .inl (.inr (.inl ⟨j, r₀, hr₀, hsame.symm, hold⟩))
      · exact .inr (.inr ⟨j, r₀, hJ, hr₀, hsame.symm⟩)
    · exact .inr (.inl hK)
  · rcases h.keys key hkey with hold | hK
    · exact .inl (.inr (.inr hold))
    · exact .inr (.inl hK)

/-- nothing but job rows changes, and none of them comes to need its blob -/
theorem ofJobs (hdocs : t.documents = s.documents) (hkeys : t.projectKeys = s.projectKeys)
    {g : ImportJobId → ImportJob → ImportJob}
    (hjobs : ∀ j : ImportJobId, t.jobs[j]? = s.jobs[j]?.map (g j))
    (hg : ∀ (j : ImportJobId) (r : ImportJob), s.jobs[j]? = some r →
      (g j r).sourceStorageKey = r.sourceStorageKey ∧
        ((g j r).stillNeedsRawBlob → r.stillNeedsRawBlob ∨ J j)) : s.Refers t K J := by
  refine ⟨fun d key hd hk hlive => .inl ⟨d, hdocs ▸ hd, hk, hlive⟩, fun j r hr => .inl ?_, ?_,
    fun j hst => .inl ?_, fun key hk => .inl (hkeys ▸ hk)⟩
  · rw [hjobs, Option.map_eq_some_iff] at hr
    obtain ⟨r₀, hr₀, rfl⟩ := hr
    exact ⟨r₀, hr₀, hg j r₀ hr₀⟩
  · have hnone : s.jobs[t.jobs.length]?.map (g t.jobs.length) = none := by
      rw [← hjobs]
      exact List.getElem?_eq_none (Nat.le_refl _)
    exact List.getElem?_eq_none_iff.1 (Option.map_eq_none_iff.1 hnone)
  · unfold Store.stuck at hst ⊢
    rwa [hdocs] at hst

/-- job rows and keys stay, and documents change one by one -/
theorem ofDocs (hjobs : t.jobs = s.jobs) (hkeys : t.projectKeys = s.projectKeys)
    (hdocs : ∀ d ∈ t.documents, ¬ d.deleted →
      (∃ d₀ ∈ s.documents, d.importJobId = d₀.importJobId ∧ ¬ d₀.deleted ∧
        (∀ key, d.storageKey = some key → d₀.storageKey = some key ∨ K key) ∧
        (d.status.resumable → d₀.status.resumable ∨ J d₀.importJobId)) ∨
      d.storageKey = none ∧ J d.importJobId) : s.Refers t K J := by
  refine ⟨fun d key hd hk hlive => ?_, fun j r hr => .inl ⟨r, hjobs ▸ hr, rfl, .inl⟩,
    Nat.le_of_eq (congrArg List.length hjobs.symm), fun j hst => ?_, fun key hk => .inl (hkeys ▸ hk)⟩
  · rcases hdocs d hd hlive with ⟨d₀, hd₀, -, hlive₀, hkey, -⟩ | ⟨hno, -⟩
    · exact (hkey key hk).imp_left fun hk₀ => ⟨d₀, hd₀, hk₀, hlive₀⟩
    · rw [hno] at hk
      cases hk
  · obtain ⟨d, hd, rfl, hlive, hres⟩ := Store.stuck_iff.1 hst
    rcases hdocs d hd hlive with ⟨d₀, hd₀, hjob, hlive₀, -, hres₀⟩ | ⟨-, hJ⟩
    · rw [hjob]
      exact (hres₀ hres).imp_left fun h => Store.stuck_iff.2 ⟨d₀, hd₀, rfl, hlive₀, h⟩
    · exact .inr hJ

theorem refl : s.Refers s K J :=
  ofDocs rfl rfl fun d hd hlive => .inl ⟨d, hd, rfl, hlive, fun _ => .inl, .inl⟩

end Store.Refers

/-! ## a worker -/

theorem Store.mem_jobOf {i : DocId} {d : Document} (hd : s.documents[i]? = some d)
    (hlive : ¬ d.deleted) : d.importJobId ∈ s.jobOf i := by
  unfold Store.jobOf
  rw [hd]
  simp [hlive]

theorem JobWrite.apply_sourceStorageKey (x : JobWrite) (now : Time) (stuck : Bool)
    (r : ImportJob) : (x.apply now stuck r).sourceStorageKey = r.sourceStorageKey := by
  cases x with
  | renew holder seconds =>
    unfold JobWrite.apply
    dsimp only
    split <;> rfl
  | _ => rfl

/-- a job needs its blob by its status and its count of blocked files -/
theorem ImportJob.stillNeedsRawBlob_congr {r q : ImportJob} (hst : r.status = q.status)
    (hn : r.blockedCount = q.blockedCount) : r.stillNeedsRawBlob = q.stillNeedsRawBlob := by
  cases r
  cases q
  cases hst
  cases hn
  rfl

variable {K : String → Prop} {J : ImportJobId → Prop}

/-- an act on a document that links it at most to a key of `K`, and writes a resumable status only
for jobs of `J` -/
theorem Store.Refers.act {a : Act β} (hjobs : (s.apply P a).jobs = s.jobs)
    (hnew : ∀ d ∈ a.newDocs, d.storageKey = none ∧ J d.importJobId)
    (hold : ∀ i d, s.documents[i]? = some d → (a.onDoc i d).importJobId = d.importJobId ∧
      (a.onDoc i d).deleted = d.deleted ∧
      (∀ key, (a.onDoc i d).storageKey = some key → d.storageKey = some key ∨ K key) ∧
      (¬ d.deleted → (a.onDoc i d).status.resumable → d.status.resumable ∨ J d.importJobId)) :
    s.Refers (s.apply P a) K J := by
  refine .ofDocs hjobs (Store.apply_projectKeys a) fun d hd hlive => ?_
  obtain ⟨i, hi⟩ := List.mem_iff_getElem?.1 hd
  rcases Store.of_apply_doc hi with ⟨d₀, hd₀, rfl⟩ | ⟨-, hd⟩
  · obtain ⟨hjob, hdel, hkey, hres⟩ := hold i d₀ hd₀
    rw [hdel] at hlive
    exact .inl ⟨d₀, List.mem_of_getElem? hd₀, hjob, hlive, hkey, hres hlive⟩
  · exact .inr (hnew d hd)

/-- an act that adds no document -/
theorem Store.Refers.edit {a : Act β} (hjobs : (s.apply P a).jobs = s.jobs) (hnew : a.newDocs = [])
    (hold : ∀ i d, s.documents[i]? = some d → (a.onDoc i d).importJobId = d.importJobId ∧
      (a.onDoc i d).deleted = d.deleted ∧
      (∀ key, (a.onDoc i d).storageKey = some key → d.storageKey = some key ∨ K key) ∧
      (¬ d.deleted → (a.onDoc i d).status.resumable → d.status.resumable ∨ J d.importJobId)) :
    s.Refers (s.apply P a) K J := by
  refine .act hjobs (fun d hd => ?_) hold
  rw [hnew] at hd
  exact absurd hd List.not_mem_nil

theorem Store.Refers.status {i : DocId} {held st : IndexStatus} {preview : Option String}
    (hJ : st.resumable → ∀ j ∈ s.jobOf i, J j) :
    s.Refers (s.apply P (.status i held st preview)) K J := by
  refine .edit rfl rfl fun k d hd => ?_
  simp only [Act.onDoc]
  split
  · next hik =>
    refine ⟨rfl, rfl, fun _ => .inl, fun hlive hres => ?_⟩
    unfold dirty at hres
    dsimp only at hres
    split at hres
    · exact .inl hres
    · exact .inr (hJ hres _ (hik ▸ Store.mem_jobOf (hik ▸ hd) hlive))
  · exact ⟨rfl, rfl, fun _ => .inl, fun _ => .inl⟩

theorem FileRun.Goes.refers {f : FileRun β} {job : ImportJobId} {maxBytes : Nat} {a : Act β}
    {x : FileRun β ⊕ FileOutcome ⊕ Exc} (h : f.Goes P env s job maxBytes a x) {pass : Pass β}
    (hpc : w.pc = .working pass f) :
    s.Refers (s.apply P a) (fun key => (Proc.worker w).backs P = some key) (· ∈ w.reopens s) := by
  cases h with
  | store h =>
    refine .status fun _ j hj => ?_
    simpa [Worker.reopens, hpc, h] using hj
  | mark st stage h hst =>
    refine .status fun _ j hj => ?_
    rcases hst with ⟨h, -⟩ | ⟨h, -⟩ | ⟨h, -⟩ <;> simpa [Worker.reopens, hpc, h] using hj
  | pause st h | ends st h =>
    refine .status fun hres j hj => ?_
    simpa [Worker.reopens, hpc, h, hres] using hj
  | finish h =>
    refine .edit rfl rfl fun k d hd => ?_
    simp only [Act.onDoc]
    split
    · exact ⟨rfl, rfl, fun _ => .inl, fun _ hres => absurd hres Bool.false_ne_true⟩
    · exact ⟨rfl, rfl, fun _ => .inl, fun _ => .inl⟩
  | link h =>
    refine .edit rfl rfl fun k d hd => ?_
    simp only [Act.onDoc]
    split
    · next hik =>
      refine ⟨rfl, rfl, fun key hkey => .inr ?_, fun hlive _ => .inr ?_⟩
      · exact backs_worker.2 ⟨pass, f, hpc, h, Option.some.inj hkey⟩
      · have hmem : d.importJobId ∈ s.jobOf f.doc := Store.mem_jobOf (hik ▸ hd) hlive
        simpa [Worker.reopens, hpc, h] using hmem
    · exact ⟨rfl, rfl, fun _ => .inl, fun _ => .inl⟩
  | _ =>
    exact .edit rfl rfl fun k d hd => ⟨rfl, rfl, fun _ => .inl, fun _ => .inl⟩

/-- a write of the worker's row -/
theorem Store.Refers.job {r : ImportJob} {x : JobWrite} (hr : s.jobs[w.job]? = some r)
    (hx : (x.apply s.clock (s.stuck w.job) r).stillNeedsRawBlob → r.stillNeedsRawBlob ∨ J w.job) :
    s.Refers (s.apply P (.job w.job x)) K J := by
  refine .ofJobs rfl rfl (fun j => Store.apply_job _ j) fun j q hq => ?_
  simp only [Act.onJob]
  split
  · next hj =>
    subst hj
    obtain rfl : r = q := Option.some.inj (hr.symm.trans hq)
    exact ⟨JobWrite.apply_sourceStorageKey .., hx⟩
  · exact ⟨rfl, .inl⟩

theorem Worker.Goes.refers {r : ImportJob} {a : Act β} {o : Option (Worker β)}
    (hr : s.jobs[w.job]? = some r) (h : w.Goes P env s self r a o) :
    s.Refers (s.apply P a) (fun key => (Proc.worker w).backs P = some key) (· ∈ w.reopens s) := by
  have hfail : ∀ reason tr, s.Refers (s.apply P (.job w.job (.fail reason tr)))
      (fun key => (Proc.worker w).backs P = some key) (· ∈ w.reopens s) := by
    intro reason tr
    refine .job hr fun h => ?_
    simp [JobWrite.apply, ImportJob.stillNeedsRawBlob, ImportJob.requeueEligible] at h
  have hkeep : ∀ x : JobWrite, (x.apply s.clock (s.stuck w.job) r).status = r.status →
      (x.apply s.clock (s.stuck w.job) r).blockedCount = r.blockedCount →
      s.Refers (s.apply P (.job w.job x))
        (fun key => (Proc.worker w).backs P = some key) (· ∈ w.reopens s) := by
    intro x hst hn
    refine .job hr fun h => .inl ?_
    rwa [ImportJob.stillNeedsRawBlob_congr hst hn] at h
  cases h with
  | refuse | failUnreadable | fail => exact hfail _ _
  | openZip | openFile | record => exact hkeep _ rfl rfl
  | renew p h =>
    refine hkeep _ ?_ ?_ <;> (unfold JobWrite.apply; dsimp only; split <;> rfl)
  | start raw h =>
    by_cases hheld : w.held = some .running
    · exact hkeep _ (by simp [JobWrite.apply, hheld, dirty]) rfl
    · exact .job hr fun _ => .inr (by simp [Worker.reopens, h, hheld])
  | rollUp p h =>
    refine .job hr fun hneed => .inr ?_
    have hneed' : (rolledUp s.clock (s.stuck w.job) p.outcomes r).stillNeedsRawBlob := hneed
    simp [Worker.reopens, h, hr, hneed']
  | retry e h he =>
    refine .job hr fun _ => .inr ?_
    simp [Worker.reopens, h, hr, he]
  | create p filename content title category h =>
    refine .act rfl (fun d hd => ?_) fun k d hd => ⟨rfl, rfl, fun _ => .inl, fun _ => .inl⟩
    rw [List.mem_singleton.1 hd]
    exact ⟨rfl, by simp [Worker.reopens, h]⟩
  | file p f f' a h hf => exact hf.refers h
  | fileDone p f a o h hf => exact hf.refers h
  | fileError p f a e h hf => exact hf.refers h
  | unlock exc a h ha =>
    rcases ha with rfl | rfl
    · exact .refl
    · exact .ofDocs rfl rfl fun d hd hlive => .inl ⟨d, hd, rfl, hlive, fun _ => .inl, .inl⟩
  | lock => exact .ofDocs rfl rfl fun d hd hlive => .inl ⟨d, hd, rfl, hlive, fun _ => .inl, .inl⟩
  | _ => exact .refl

/-! ## the other statements -/

namespace Store.Refers

variable {K : String → Prop} {J : ImportJobId → Prop}

theorem purged (i : DocId) (d : Document) : s.Refers (s.purged i d) K J := by
  -- a live document of the new table is one of the old table
  have hlive : ∀ d' ∈ (s.purged i d).documents, ¬ d'.deleted → d' ∈ s.documents := by
    intro d' hd' hlive
    obtain ⟨k, hk⟩ := List.mem_iff_getElem?.1 hd'
    have hmod : (s.purged i d).documents = s.documents.modify i _ := rfl
    rw [hmod, Store.modify_getElem?, Option.map_eq_some_iff] at hk
    obtain ⟨d₀, hd₀, rfl⟩ := hk
    split at hlive
    · exact absurd rfl hlive
    · next hne =>
      rw [if_neg hne]
      exact List.mem_of_getElem? hd₀
  refine ⟨fun d' key hd' hk hl => .inl ⟨d', hlive d' hd' hl, hk, hl⟩, fun j r hr => .inl ?_,
    Nat.le_of_eq (List.length_modify ..).symm, fun j hst => .inl ?_, fun key hk => .inl hk⟩
  · rw [Store.purged_job, Option.map_eq_some_iff] at hr
    obtain ⟨r₀, hr₀, rfl⟩ := hr
    refine ⟨r₀, hr₀, ?_⟩
    split
    · refine ⟨rfl, fun hneed => ?_⟩
      simp [ImportJob.stillNeedsRawBlob, ImportJob.requeueEligible] at hneed
    · exact ⟨rfl, .inl⟩
  · obtain ⟨d', hd', hj, hl, hres⟩ := Store.stuck_iff.1 hst
    exact Store.stuck_iff.2 ⟨d', hlive d' hd' hl, hj, hl, hres⟩

theorem requeued : s.Refers s.requeued K J := by
  refine .ofJobs rfl rfl (fun j => Store.requeued_job j) fun j r hr => ?_
  split
  · next helig =>
    refine ⟨rfl, fun _ => .inl ?_⟩
    simp [ImportJob.stillNeedsRawBlob, helig]
  · exact ⟨rfl, .inl⟩

theorem claimed {name : String} {n : Nat} {r : ImportJob} (hr : s.jobs[j]? = some r)
    (hc : r.claimable s.clock) : s.Refers (s.claimed name n j) K J := by
  refine .ofJobs rfl rfl (fun k => Store.modify_getElem? ..) fun k q hq => ?_
  split
  · next hjk =>
    subst hjk
    obtain rfl : r = q := Option.some.inj (hr.symm.trans hq)
    refine ⟨rfl, fun _ => .inl ?_⟩
    simp only [ImportJob.claimable, decide_eq_true_eq] at hc
    rcases hc with hst | ⟨hst, -⟩ <;> simp [ImportJob.stillNeedsRawBlob, hst]
  · exact ⟨rfl, .inl⟩

theorem reopened (ids : List ImportJobId) : s.Refers (s.reopened ids) K (· ∈ ids) := by
  refine .ofJobs (by rw [Store.reopened_frame]) (by rw [Store.reopened_frame])
    (fun j => Store.reopened_job ids j) fun j r hr => ?_
  split
  · next hj => exact ⟨rfl, fun _ => .inr hj⟩
  · exact ⟨rfl, .inl⟩

theorem setDeletion (i : DocId) (st : DeletionStatus) :
    s.Refers (s.setDoc i fun d => { d with deletionStatus := st }) K J := by
  refine .ofDocs rfl rfl fun d hd hlive => .inl ?_
  obtain ⟨k, hk⟩ := List.mem_iff_getElem?.1 hd
  have hmod : (s.setDoc i fun d => { d with deletionStatus := st }).documents =
      s.documents.modify i _ := rfl
  rw [hmod, Store.modify_getElem?, Option.map_eq_some_iff] at hk
  obtain ⟨d₀, hd₀, rfl⟩ := hk
  refine ⟨d₀, List.mem_of_getElem? hd₀, ?_⟩
  split at hlive
  · next hik =>
    rw [if_pos hik]
    exact ⟨rfl, hlive, fun _ => .inl, .inl⟩
  · next hik =>
    rw [if_neg hik]
    exact ⟨rfl, hlive, fun _ => .inl, .inl⟩

end Store.Refers

/-! ## one step of the system -/

theorem Sys.deletes_iff {s : Sys β} : s.deletes key ↔
    ∃ i d, s.proc i = some (.deletion d) ∧ d.stage = .deleting ∧ d.key = key := by
  unfold Sys.deletes
  rw [List.any_eq_true]
  constructor
  · rintro ⟨o, ho, hp⟩
    obtain ⟨p, rfl, hd⟩ := (Option.any_eq_true _ _).1 hp
    obtain ⟨i, hi⟩ := List.mem_iff_getElem?.1 ho
    cases p with
    | deletion d =>
      refine ⟨i, d, ?_, of_decide_eq_true hd⟩
      unfold Sys.proc
      rw [hi]
      rfl
    | _ => cases hd
  · rintro ⟨i, d, hi, hd⟩
    have ho : s.procs[i]? = some (some (.deletion d)) := Option.join_eq_some_iff.1 hi
    exact ⟨_, List.mem_of_getElem? ho, decide_eq_true hd⟩

variable (P) in
/-- what somebody refers to is on disk, and is not about to be deleted -/
structure Sys.Referenced (s : Sys β) : Prop where
  stored : s.Stored P
  kept : ∀ key, s.store.stillReferenced key → s.store.disk key ≠ none
  spared : ∀ key, s.store.stillReferenced key → ¬ s.deletes key

namespace Sys.Referenced

variable {s t : Sys β} {o : Op β} {i k : ProcId} {K : String → Prop} {J : ImportJobId → Prop}

/-- new references are to keys of `K` and to the raw blobs of jobs of `J` -/
theorem grow (h : s.Referenced P) (ht : t.Stored P) (href : s.store.Refers t.store K J)
    (hdisk : ∀ key, s.store.disk key ≠ none → t.store.disk key ≠ none)
    (hK : ∀ key, K key → s.store.disk key ≠ none ∧ ¬ s.deletes key)
    (hJ : ∀ j, J j → s.reopenable j) (hdel : ∀ key, t.deletes key → s.deletes key) :
    t.Referenced P := by
  have hall : ∀ key, t.store.stillReferenced key → s.store.disk key ≠ none ∧ ¬ s.deletes key := by
    intro key hk
    rcases href.cases hk with hold | hkey | ⟨j, r, hj, hr, rfl⟩
    · exact ⟨h.kept key hold, h.spared key hold⟩
    · exact hK key hkey
    · have hopen := hJ j hj
      unfold Sys.reopenable at hopen
      rw [hr, Option.all_some, decide_eq_true_eq] at hopen
      rcases hopen with hneed | ⟨hsome, hno⟩
      · have hold : s.store.stillReferenced r.sourceStorageKey :=
          Store.stillReferenced_iff.2 (.inr (.inl ⟨j, r, hr, rfl, hneed⟩))
        exact ⟨h.kept _ hold, h.spared _ hold⟩
      · exact ⟨Option.isSome_iff_ne_none.1 hsome, by simpa using hno⟩
  exact ⟨ht, fun key hk => hdisk key (hall key hk).1,
    fun key hk hd => (hall key hk).2 (hdel key hd)⟩

/-- nothing is referred to that was not before -/
theorem fewer (h : s.Referenced P) (ht : t.Stored P)
    (href : s.store.Refers t.store (fun _ => False) fun _ => False)
    (hdisk : t.store.disk = s.store.disk) (hdel : ∀ key, t.deletes key → s.deletes key) :
    t.Referenced P :=
  h.grow ht href (fun _ hd => hdisk ▸ hd) nofun nofun hdel

/-- the deletions after a start -/
theorem deletes_spawn (hp : ∀ d, p = .deletion d → d.stage ≠ .deleting)
    (hd : (s.spawn p).deletes key) : s.deletes key := by
  obtain ⟨i, d, hi, hst, hkey⟩ := Sys.deletes_iff.1 hd
  rcases Sys.proc_spawn hi with hi | ⟨-, hi⟩
  · exact Sys.deletes_iff.2 ⟨i, d, hi, hst, hkey⟩
  · exact absurd hst (hp d hi.symm)

/-- the deletions after a step -/
theorem deletes_set {st : Store β} {o : Option (Proc β)}
    (hp : ∀ d, o = some (.deletion d) → d.stage ≠ .deleting)
    (hd : (⟨st, s.procs.set i o⟩ : Sys β).deletes key) : s.deletes key := by
  obtain ⟨k, d, hk, hst, hkey⟩ := Sys.deletes_iff.1 hd
  rcases Sys.proc_set hk with ⟨-, hk⟩ | ⟨-, hk⟩
  · exact absurd hst (hp d hk)
  · exact Sys.deletes_iff.2 ⟨k, d, hk, hst, hkey⟩

/-- what a process has found under its lock is there, and nobody deletes it -/
theorem backed (h : s.Referenced P) (hi : s.proc i = some p) (hp : ∀ d, p ≠ .deletion d)
    (hb : p.backs P = some key) : s.store.disk key ≠ none ∧ ¬ s.deletes key := by
  refine ⟨h.stored.backed i p key hi hb, fun hd => ?_⟩
  obtain ⟨k, d, hk, hst, hkey⟩ := Sys.deletes_iff.1 hd
  have hheld : (Proc.deletion d : Proc β).holds P = some key := by simp [Proc.holds, hst, hkey]
  have hik : i = k := h.stored.eq_of_holds hi hk (Proc.holds_of_backs hb) hheld
  rw [hik, hk] at hi
  exact hp d (Option.some.inj hi).symm

theorem stepWorker (h : s.Referenced P) (hi : s.proc i = some (.worker w))
    (hopen : env.dbError ∨ (w.reopens s.store).all s.reopenable) {st : Store β}
    {o : Option (Worker β)} (hstep : w.step P env s.store i = (st, o))
    (ht : (⟨st, s.procs.set i (o.map .worker)⟩ : Sys β).Stored P) :
    (⟨st, s.procs.set i (o.map .worker)⟩ : Sys β).Referenced P := by
  have hdel : ∀ (t : Store β) key, (⟨t, s.procs.set i (o.map .worker)⟩ : Sys β).deletes key →
      s.deletes key := by
    intro t key hd
    refine deletes_set (fun d hd => ?_) hd
    obtain ⟨w', -, hw'⟩ := Option.map_eq_some_iff.1 hd
    cases hw'
  cases Worker.steps hstep with
  | lost | faults => exact h.fewer ht .refl rfl (hdel _)
  | goes r a o hr hg hdb =>
    have hsafe : (w.reopens s.store).all s.reopenable := hopen.resolve_left (by simp [hdb])
    exact h.grow ht (hg.refers hr) (fun key => Store.apply_disk_ne a)
      (fun key => h.backed hi (by simp)) (fun j hj => List.all_eq_true.1 hsafe j hj) (hdel _)

theorem stepUpload (h : s.Referenced P) {u : Upload β} (hi : s.proc i = some (.upload u))
    {st : Store β} {q : Option (Proc β)} (hstep : u.step P env s.store = (st, q))
    (ht : (⟨st, s.procs.set i q⟩ : Sys β).Stored P) :
    (⟨st, s.procs.set i q⟩ : Sys β).Referenced P := by
  cases Upload.goes hstep with
  | ends => exact h.fewer ht .refl rfl fun key => deletes_set (by simp)
  | write hst q hq =>
    refine h.grow ht (K := fun _ => False) (J := fun _ => False) ?_
      (fun key => Store.apply_disk_ne (.publish u.content)) nofun nofun fun key => deletes_set fun d hd => ?_
    · exact .ofDocs rfl rfl fun d hd hlive => .inl ⟨d, hd, rfl, hlive, fun _ => .inl, .inl⟩
    · rcases hq with rfl | rfl
      · cases hd
      · cases hd
        exact nofun
  | lock | found => exact h.fewer ht .refl rfl fun key => deletes_set (by simp)
  | commit hst =>
    refine h.grow ht (K := fun key => (Proc.upload u).backs P = some key) (J := fun _ => False)
      ⟨fun d key hd hk hlive => .inl ⟨d, hd, hk, hlive⟩, fun j r hr => ?_, by simp,
        fun j hs => .inl hs, fun key hk => .inl hk⟩ (fun _ hd => hd)
      (fun key => h.backed hi (by simp)) nofun fun key => deletes_set (by simp)
    rcases getElem?_insert hr with hr | ⟨hj, rfl⟩
    · exact .inl ⟨r, hr, rfl, .inl⟩
    · exact .inr ⟨by simp [hj], by simp [Proc.backs, hst, Upload.row]⟩

theorem stepMemory (h : s.Referenced P) {m : MemoryWrite β} (hi : s.proc i = some (.memory m))
    {st : Store β} {q : Option (Proc β)} (hstep : m.step P env s.store = (st, q))
    (ht : (⟨st, s.procs.set i q⟩ : Sys β).Stored P) :
    (⟨st, s.procs.set i q⟩ : Sys β).Referenced P := by
  cases MemoryWrite.goes hstep with
  | ends | verified | damaged => exact h.fewer ht .refl rfl fun key => deletes_set (by simp)
  | write | republish =>
    refine h.grow ht (K := fun _ => False) (J := fun _ => False) ?_
      (fun key => Store.apply_disk_ne (.publish m.content)) nofun nofun fun key => deletes_set (by simp)
    exact .ofDocs rfl rfl fun d hd hlive => .inl ⟨d, hd, rfl, hlive, fun _ => .inl, .inl⟩
  | link hst =>
    refine h.grow ht (K := fun key => (Proc.memory m).backs P = some key) (J := fun _ => False)
      ⟨fun d key hd hk hlive => .inl ⟨d, hd, hk, hlive⟩, fun j r hr => .inl ⟨r, hr, rfl, .inl⟩,
        Nat.le_refl _, fun j hs => .inl hs, fun key hk => ?_⟩ (fun _ hd => hd) (fun key => h.backed hi (by simp))
      nofun fun key => deletes_set (by simp)
    rcases List.mem_append.1 hk with hk | hk
    · exact .inl hk
    · exact .inr (by simp [Proc.backs, hst, List.mem_singleton.1 hk])

theorem stepDeletion (h : s.Referenced P) {d : Deletion} (hi : s.proc i = some (.deletion d))
    {st : Store β} {q : Option (Proc β)} (hstep : d.step env s.store = (st, q))
    (ht : (⟨st, s.procs.set i q⟩ : Sys β).Stored P) :
    (⟨st, s.procs.set i q⟩ : Sys β).Referenced P := by
  cases Deletion.goes hstep with
  | ends | keep | fails => exact h.fewer ht .refl rfl fun key => deletes_set (by simp)
  | settle => exact h.fewer ht (.setDeletion _ _) rfl fun key => deletes_set (by simp)
  | lock hst hno =>
    refine ⟨ht, h.kept, fun key hk hd => ?_⟩
    obtain ⟨k, d', hk', hst', rfl⟩ := Sys.deletes_iff.1 hd
    rcases Sys.proc_set hk' with ⟨-, hd'⟩ | ⟨-, hk'⟩
    · cases hd'
      exact hno hk
    · exact h.spared _ hk (Sys.deletes_iff.2 ⟨k, d', hk', hst', rfl⟩)
  | delete hst =>
    have hno : ¬ s.store.stillReferenced d.key :=
      fun hk => h.spared _ hk (Sys.deletes_iff.2 ⟨i, d, hi, hst, rfl⟩)
    refine ⟨ht, fun key hk => ?_, fun key hk hd => ?_⟩
    · have hne : key ≠ d.key := by
        rintro rfl
        exact hno hk
      show (if key = d.key then none else s.store.disk key) ≠ none
      rw [if_neg hne]
      exact h.kept key hk
    · exact h.spared key hk (deletes_set (by simp) hd)

theorem exec (h : s.Referenced P) (ho : o.reopensSafely s) : (o.exec P s).Referenced P := by
  have ht : (o.exec P s).Stored P := h.stored.exec
  generalize hexec : o.exec P s = t at ht ⊢
  cases does hexec with
  | stays => exact h
  | tick =>
    refine h.fewer ht ?_ rfl fun key hd => hd
    exact .ofDocs rfl rfl fun d hd hlive => .inl ⟨d, hd, rfl, hlive, fun _ => .inl, .inl⟩
  | upload | memory | delete | retryPurge | reconcile =>
    exact h.fewer ht .refl rfl fun key => deletes_spawn (by simp)
  | purge owner i d hd hlive howner t ht' =>
    rcases ht' with rfl | ⟨key, -, rfl⟩
    · exact h.fewer ht (.purged i d) rfl fun key hd => hd
    · exact h.fewer ht (.purged i d) rfl fun key => deletes_spawn (by simp)
  | settled => exact h.fewer ht (.setDeletion _ _) rfl fun key hd => hd
  | requeue => exact h.fewer ht .requeued rfl fun key hd => hd
  | claim name n j r hj hr hc => exact h.fewer ht (.claimed hr hc) rfl fun key => deletes_spawn (by simp)
  | step i env p hi hfree =>
    cases p with
    | worker w =>
      have hopen : env.dbError ∨ (w.reopens s.store).all s.reopenable := by
        simpa [Op.reopensSafely, hi] using ho
      exact h.stepWorker hi hopen rfl ht
    | upload u => exact h.stepUpload hi rfl ht
    | memory m => exact h.stepMemory hi rfl ht
    | deletion d => exact h.stepDeletion hi rfl ht
    | reconcile ids =>
      have hopen : env.dbError ∨ ids.all s.reopenable := by
        simpa [Op.reopensSafely, hi] using ho
      have hdel : ∀ (st : Store β) key, (⟨st, s.procs.set i none⟩ : Sys β).deletes key →
          s.deletes key := fun st key => deletes_set (by simp)
      by_cases hdb : env.dbError
      · have hst : (Proc.step P env s.store i (.reconcile ids)).1 = s.store := if_pos hdb
        rw [hst] at ht ⊢
        exact h.fewer ht .refl rfl (hdel _)
      · have hst : (Proc.step P env s.store i (.reconcile ids)).1 = s.store.reopened ids :=
          if_neg hdb
        rw [hst] at ht ⊢
        have hids := hopen.resolve_left hdb
        refine h.grow ht (.reopened ids) (K := fun _ => False) (fun key hd => ?_) nofun
          (fun j hj => List.all_eq_true.1 hids j hj) (hdel _)
        show (s.store.reopened ids).disk key ≠ none
        rw [Store.reopened_frame]
        exact hd
  | crash i => exact h.fewer ht .refl rfl fun key => deletes_set (by simp)

end Sys.Referenced

/-! ## every run -/

/-- In every run that makes no job resumable again whose raw blob is gone or being deleted, every
key that is referred to names a blob on disk that hashes to it. -/
theorem references_kept (P : Pipeline β) (ops : List (Op β))
    (hops : Run.Meets (Op.exec P) (fun s o => o.reopensSafely s) {} ops) :
    Run.Always (Op.exec P)
      (fun s => ∀ key, s.store.stillReferenced key → s.store.verify P key) {} ops := by
  have hinit : ({} : Sys β).Referenced P := by
    have hno : ∀ key, ¬ ({} : Sys β).store.stillReferenced key := by
      intro key hk
      simp [Store.stillReferenced] at hk
    exact ⟨Sys.Stored.run P [], fun key hk => absurd hk (hno key), fun key hk => absurd hk (hno key)⟩
  exact Run.always (I := Sys.Referenced P)
    (fun s h key hk => h.stored.intact.verify (h.kept key hk)) (fun s o h ho => h.exec ho) hinit hops

/-- a source that is purged after its import, and a second upload of it -/
theorem references_kept_purged :
    Run.Always (Op.exec plainPipeline)
      (fun s => ∀ key, s.store.stillReferenced key → s.store.verify plainPipeline key) {}
      (uploadedFile ++ turns 1 30 ++ [.purgeSource 0 0, .importPackage 0 "b.txt" "x"] ++ turns 3 3 ++
        turns 2 3 ++ turns 3 1) :=
  references_kept plainPipeline _ (by decide)

/-- The job fails before its document is extracted; a reconcile selects it; the source is purged and
its blob deleted; then the reconcile writes. -/
def reconciledAfterPurge : List (Op String) :=
  uploadedFile ++ turns 1 15 ++ [.step 1 { dbError := true }] ++ turns 1 2 ++
    [.reconcileOrphanedDocuments, .purgeSource 0 0] ++ turns 3 3 ++ turns 2 1

/-- The job is pending again, and its raw blob is gone. -/
theorem reconciledAfterPurge_dangling :
    (importRun plainPipeline reconciledAfterPurge).store.stillReferenced "x" ∧
      (importRun plainPipeline reconciledAfterPurge).store.disk "x" = none := by
  decide

end LifeAI.Import
