import LifeAI.Import.Steps

/-!
# One worker at an import job

A lease is looked at when a job is claimed.  `Sys.Leased` is what the leases guarantee while they
last: every live worker is named by its row, and the row is not up for a claim unless the worker
has put it back itself.

* `Worker.exposed`  the worker has put its job back and is still at it;
* `Op.guarded`      the condition of a step;
* `Sys.OneWorker`   no two workers at one job, and each has the lease of its row.
-/

namespace LifeAI.Import

variable {β : Type} {P : Pipeline β} {env : Env} {s : Store β} {self : ProcId} {w w' : Worker β}

/-- the last status of the job is committed, and the lock not yet released -/
def Pc.rolledUp : Pc β → Bool
  | .unlocking none => true
  | _ => false

/-- from the retry to the next start, and from the roll-up to the end -/
def Worker.exposed (w : Worker β) : Bool := w.held = some .pending ∨ w.pc.rolledUp

namespace Sys

/-- the workers that are at work -/
def workers (s : Sys β) : List (Worker β) :=
  s.procs.filterMap fun p => p.bind fun p => match p with
    | .worker w => some w
    | _ => none

theorem mem_workers {s : Sys β} : w ∈ s.workers ↔ ∃ i, s.proc i = some (.worker w) := by
  unfold workers proc
  rw [List.mem_filterMap]
  constructor
  · rintro ⟨o, ho, hw⟩
    obtain ⟨i, hi⟩ := List.mem_iff_getElem?.1 ho
    obtain ⟨p, rfl, hp⟩ := Option.bind_eq_some_iff.1 hw
    refine ⟨i, ?_⟩
    rw [hi]
    cases p <;> cases hp
    rfl
  · rintro ⟨i, hi⟩
    have ho : s.procs[i]? = some (some (.worker w)) := Option.join_eq_some_iff.1 hi
    exact ⟨_, List.mem_of_getElem? ho, rfl⟩

end Sys

/-- Time goes on within the leases of the workers.  A claim does not take a job that a worker has
put back and is still at, nor does the UPDATE of a reconcile put back a job that is at work. -/
def Op.guarded (s : Sys β) : Op β → Prop
  | .tick n => ∀ w ∈ s.workers, (s.store.jobs[w.job]?).any fun r =>
      r.leaseExpiresAt.any (s.store.clock + n ≤ ·)
  | .claimNextJob _ _ => ∀ w ∈ s.workers, w.exposed →
      s.store.jobs.findIdx? (·.claimable s.store.clock) ≠ some w.job
  | .step i _ => match s.proc i with
    | some (.reconcile ids) => ∀ w ∈ s.workers, w.job ∈ ids → w.exposed
    | _ => True
  | _ => True

instance (s : Sys β) (o : Op β) : Decidable (o.guarded s) := by
  unfold Op.guarded
  cases o with
  | step i env =>
    dsimp only
    cases s.proc i with
    | none => exact inferInstance
    | some p => cases p <;> exact inferInstance
  | _ => exact inferInstance

/-- no two workers at one job, and each of them has the lease of its row -/
structure Sys.OneWorker (s : Sys β) : Prop where
  alone : ∀ (i k : ProcId) (w v : Worker β), s.proc i = some (.worker w) →
    s.proc k = some (.worker v) → w.job = v.job → i = k
  owns : ∀ (i : ProcId) (w : Worker β), s.proc i = some (.worker w) →
    ∃ r, s.store.jobs[w.job]? = some r ∧ r.lockedBy = some w.name

/-! ## what the leases guarantee -/

/-- the lease of the row is the worker's and lasts, and the row is not pending unless the worker
is exposed -/
structure ImportJob.LeasedTo (r : ImportJob) (w : Worker β) (now : Time) : Prop where
  name : r.lockedBy = some w.name
  lasts : r.leaseExpiresAt.any (now ≤ ·)
  busy : ¬ w.exposed → r.status = .running ∨ r.status = .cancelled

structure Sys.Leased (s : Sys β) : Prop where
  names : ∀ (i k : ProcId) (w v : Worker β), s.proc i = some (.worker w) →
    s.proc k = some (.worker v) → w.name = v.name → i = k
  rows : ∀ (i : ProcId) (w : Worker β), s.proc i = some (.worker w) →
    ∃ r, s.store.jobs[w.job]? = some r ∧ r.LeasedTo w s.store.clock

theorem Sys.Leased.oneWorker {s : Sys β} (h : s.Leased) : s.OneWorker := by
  refine ⟨fun i k w v hi hk hj => h.names i k w v hi hk ?_, fun i w hi => ?_⟩
  · obtain ⟨r, hr, hw⟩ := h.rows i w hi
    obtain ⟨q, hq, hv⟩ := h.rows k v hk
    rw [← hj, hr] at hq
    cases hq
    exact Option.some.inj (hw.name.symm.trans hv.name)
  · obtain ⟨r, hr, hw⟩ := h.rows i w hi
    exact ⟨r, hr, hw.name⟩

/-! ## one step of a worker -/

theorem Worker.exposed_iff : w.exposed ↔ w.held = some .pending ∨ w.pc = .unlocking none := by
  have hpc : w.pc.rolledUp ↔ w.pc = .unlocking none := by
    cases w.pc with
    | unlocking exc => cases exc <;> simp [Pc.rolledUp]
    | _ => simp [Pc.rolledUp]
  rw [← hpc]
  exact decide_eq_true_iff

namespace ImportJob.LeasedTo

variable {r : ImportJob} {now : Time}

/-- a worker that goes on is exposed if it was -/
theorem goes (h : r.LeasedTo w now) (hw : w.Same w') (hex : w.exposed → w'.exposed) :
    r.LeasedTo w' now :=
  ⟨hw.1 ▸ h.name, h.lasts, fun hno => h.busy fun hx => hno (hex hx)⟩

theorem throw {e : Exc} (h : r.LeasedTo w now) (hw : w.throw e = some w') :
    r.LeasedTo w' now := by
  refine h.goes (Worker.throw_same hw) fun hex => ?_
  rw [Worker.exposed_iff] at hex ⊢
  rcases Worker.throw_cases hw with ⟨hno, hw'⟩ | ⟨rfl, -⟩
  · refine .inl ?_
    have hheld : w.held = some .pending := hex.resolve_right (hno none)
    rcases hw' with rfl | rfl
    · exact hheld
    · exact hheld
  · exact hex

/-- a row that is written in other columns than the status, or whose status ends -/
theorem goto (h : r.LeasedTo w now) {q : ImportJob} {pc : Pc β} (hname : q.lockedBy = r.lockedBy)
    (hlasts : q.leaseExpiresAt = r.leaseExpiresAt) (hrun : w.pc ≠ .unlocking none)
    (hst : q.status = r.status ∨ pc = .unlocking none) : q.LeasedTo (w.goto pc) now := by
  refine ⟨hname ▸ h.name, hlasts ▸ h.lasts, fun hno => ?_⟩
  rw [Worker.exposed_iff, not_or] at hno
  rw [hst.resolve_right hno.2]
  refine h.busy fun hex => ?_
  rw [Worker.exposed_iff] at hex
  exact hex.elim hno.1 hrun

end ImportJob.LeasedTo

theorem Worker.Goes.leased {r : ImportJob} {a : Act β} {o : Option (Worker β)}
    (h : w.Goes P env s self r a o) (hr : r.LeasedTo w s.clock) (ho : o = some w') :
    (a.onJob s w.job r).LeasedTo w' s.clock := by
  have hself : ∀ x, (Act.job (β := β) w.job x).onJob s w.job r =
      x.apply s.clock (s.stuck w.job) r := fun x => if_pos rfl
  cases h with
  | lockDown | readError | zipError => exact hr.throw ho
  | fileError p f a e h hf =>
    cases hf with
    | osError => exact hr.throw ho
  | refuse | fail => cases ho
  | load h =>
    cases ho
    refine ⟨hr.name, hr.lasts, fun hno => hr.busy fun hex => hno ?_⟩
    have hheld : w.held = some .pending :=
      (Worker.exposed_iff.1 hex).resolve_right (by simp [h])
    exact Worker.exposed_iff.2 (.inl (by simp [hheld]))
  | start raw h =>
    cases ho
    rw [hself]
    refine ⟨hr.name, hr.lasts, fun _ => ?_⟩
    show dirty (w.held.getD r.status) .running r.status = .running ∨
      dirty (w.held.getD r.status) .running r.status = .cancelled
    unfold dirty
    split
    · next hrun =>
      refine hr.busy fun hex => ?_
      have hheld : w.held = some .pending :=
        (Worker.exposed_iff.1 hex).resolve_right (by simp [h])
      rw [hheld] at hrun
      exact absurd hrun (by simp)
    · exact .inl rfl
  | retry e h =>
    cases ho
    rw [hself]
    exact ⟨hr.name, hr.lasts, fun hno => absurd (Worker.exposed_iff.2 (.inl rfl)) hno⟩
  | failUnreadable h | rollUp p h =>
    cases ho
    rw [hself]
    exact hr.goto rfl rfl (by simp [h]) (.inr rfl)
  | openZip raw package h | openFile raw h | record p tried pc h =>
    cases ho
    rw [hself]
    exact hr.goto rfl rfl (by simp [h]) (.inl rfl)
  | renew p h =>
    cases ho
    rw [hself]
    unfold JobWrite.apply
    dsimp only
    split
    · refine ⟨hr.name, ?_, (hr.goto (q := r) rfl rfl (by simp [h]) (.inl rfl)).busy⟩
      simp
    · exact hr.goto rfl rfl (by simp [h]) (.inl rfl)
  | look p filename content w' h hf =>
    cases hf with
    | unhashable => exact hr.throw ho
    | _ =>
      cases ho
      exact hr.goto rfl rfl (by simp [h]) (.inl rfl)
  | enter p e todo w' h ht he =>
    cases he <;> (cases ho; exact hr.goto rfl rfl (by simp [h]) (.inl rfl))
  | unlock exc a h ha =>
    cases exc with
    | none => cases ho
    | some e =>
      cases ho
      rcases ha with rfl | rfl <;> exact hr.goto rfl rfl (by simp [h]) (.inl rfl)
  | file p f f' a h hf | fileDone p f a o h hf =>
    cases ho
    cases hf <;> exact hr.goto rfl rfl (by simp [h]) (.inl rfl)
  | locked h | lock h | cannotRead h | read h | last p h | create p filename content title c h
  | wake h =>
    cases ho
    exact hr.goto rfl rfl (by simp [h]) (.inl rfl)

/-! ## one step of the system -/

section
variable {s t : Sys β} {o : Op β}

/-- no worker comes, and the rows of the workers stay leased to them -/
theorem Sys.Leased.mono (h : s.Leased)
    (hw : ∀ i w, t.proc i = some (.worker w) → s.proc i = some (.worker w))
    (hr : ∀ i w r, s.proc i = some (.worker w) → s.store.jobs[w.job]? = some r →
      r.LeasedTo w s.store.clock →
      ∃ q, t.store.jobs[w.job]? = some q ∧ q.LeasedTo w t.store.clock) : t.Leased := by
  refine ⟨fun i k w v hi hk => h.names i k w v (hw i w hi) (hw k v hk), fun i w hi => ?_⟩
  obtain ⟨r, hrow, hl⟩ := h.rows i w (hw i w hi)
  exact hr i w r (hw i w hi) hrow hl

/-- a process that is no worker starts -/
theorem Sys.Leased.spawn (h : s.Leased) {p : Proc β} (hp : ∀ w, p ≠ .worker w) :
    (s.spawn p).Leased := by
  refine h.mono (fun i w hi => ?_) fun i w r _ hrow hl => ⟨r, hrow, hl⟩
  rcases Sys.proc_spawn hi with hi | ⟨-, hi⟩
  · exact hi
  · exact absurd hi.symm (hp w)

theorem Sys.Leased.purged (h : s.Leased) (i : DocId) (d : Document) :
    ({ s with store := s.store.purged i d } : Sys β).Leased := by
  refine h.mono (fun _ _ hi => hi) fun k w r _ hrow hl => ?_
  refine ⟨_, by rw [Store.purged_job, hrow]; rfl, ?_⟩
  dsimp only
  split
  · exact ⟨hl.name, hl.lasts, fun _ => .inr rfl⟩
  · exact hl

theorem Sys.Leased.requeued (h : s.Leased) :
    ({ s with store := s.store.requeued } : Sys β).Leased := by
  refine h.mono (fun _ _ hi => hi) fun k w r _ hrow hl => ?_
  refine ⟨_, by rw [Store.requeued_job, hrow]; rfl, ?_⟩
  dsimp only
  split
  · next helig =>
    refine ⟨hl.name, hl.lasts, fun hno => ?_⟩
    -- a job that is at work is running or cancelled, which is not requeued
    rcases hl.busy hno with hst | hst <;> simp [ImportJob.requeueEligible, hst] at helig
  · exact hl

/-- a claim takes no job that a worker has -/
theorem Sys.Leased.unclaimed (h : s.Leased) {i : ProcId} {j : ImportJobId} {r : ImportJob}
    (hr : s.store.jobs[j]? = some r) (hc : r.claimable s.store.clock)
    (hex : ∀ w ∈ s.workers, w.exposed → w.job ≠ j) (hi : s.proc i = some (.worker w)) :
    w.job ≠ j := by
  rintro rfl
  obtain ⟨q, hq, hl⟩ := h.rows i w hi
  obtain rfl : r = q := Option.some.inj (hr.symm.trans hq)
  have hno : ¬ w.exposed := fun hx => hex w (Sys.mem_workers.2 ⟨i, hi⟩) hx rfl
  obtain ⟨e, he, hlasts⟩ := (Option.any_eq_true _ _).1 hl.lasts
  have hle : s.store.clock ≤ e := of_decide_eq_true hlasts
  rcases hl.busy hno with hst | hst
  · have hlt : e < s.store.clock := by simpa [ImportJob.claimable, hst, he] using hc
    exact absurd hlt (Nat.not_lt.2 hle)
  · simp [ImportJob.claimable, hst] at hc

theorem Sys.Leased.claim (h : s.Leased) {name : String} {n : Nat} {j : ImportJobId} {r : ImportJob}
    (hr : s.store.jobs[j]? = some r) (hc : r.claimable s.store.clock) (hfree : ¬ s.busy name)
    (hex : ∀ w ∈ s.workers, w.exposed → w.job ≠ j) :
    (({ s with store := s.store.claimed name n j } : Sys β).spawn
      (.worker { name, job := j, owner := r.ownerId })).Leased := by
  have hname : ∀ i w, s.proc i = some (.worker w) → w.name ≠ name := by
    intro i w hi hn
    refine hfree ?_
    have ho : s.procs[i]? = some (some (.worker w)) := Option.join_eq_some_iff.1 hi
    exact List.any_eq_true.2 ⟨_, List.mem_of_getElem? ho, decide_eq_true hn⟩
  have hjob : ∀ k, (s.store.claimed name n j).jobs[k]? = s.store.jobs[k]?.map fun r =>
      if j = k then { r with
        status := .running
        lockedBy := some name
        leaseExpiresAt := some (s.store.clock + n)
        lastHeartbeatAt := some s.store.clock
        startedAt := some (r.startedAt.getD s.store.clock) } else r :=
    fun k => Store.modify_getElem? ..
  refine ⟨fun i k w v hi hk hn => ?_, fun i w hi => ?_⟩
  · rcases Sys.proc_spawn hi with hi | ⟨hi, hw⟩ <;> rcases Sys.proc_spawn hk with hk | ⟨hk, hv⟩
    · exact h.names i k w v hi hk hn
    · cases hv
      exact absurd hn (hname i w hi)
    · cases hw
      exact absurd hn.symm (hname k v hk)
    · rw [hi, hk]
  · rcases Sys.proc_spawn hi with hi | ⟨-, hw⟩
    · obtain ⟨q, hq, hl⟩ := h.rows i w hi
      refine ⟨q, ?_, hl⟩
      show (s.store.claimed name n j).jobs[w.job]? = some q
      rw [hjob, hq, Option.map_some, if_neg (Ne.symm (h.unclaimed hr hc hex hi))]
    · cases hw
      refine ⟨{ r with
        status := .running
        lockedBy := some name
        leaseExpiresAt := some (s.store.clock + n)
        lastHeartbeatAt := some s.store.clock
        startedAt := some (r.startedAt.getD s.store.clock) }, ?_, rfl, ?_, fun _ => .inl rfl⟩
      · show (s.store.claimed name n j).jobs[j]? = _
        rw [hjob, hr, Option.map_some, if_pos rfl]
      · exact decide_eq_true (Nat.le_add_right s.store.clock n)

theorem Sys.Leased.stepWorker (h : s.Leased) {i : ProcId} (hi : s.proc i = some (.worker w))
    {st : Store β} {o : Option (Worker β)} (hstep : w.step P env s.store i = (st, o)) :
    (⟨st, s.procs.set i (o.map .worker)⟩ : Sys β).Leased := by
  obtain ⟨r, hr, hl⟩ := h.rows i w hi
  have hsame : ∀ v, o = some v → w.Same v := by
    intro v hv
    cases Worker.steps hstep with
    | lost => cases hv
    | faults => exact Worker.throw_same hv
    | goes q a o hq hg => exact hg.same hv
  have hproc : ∀ k v, (⟨st, s.procs.set i (o.map .worker)⟩ : Sys β).proc k = some (.worker v) →
      k = i ∧ o = some v ∨ k ≠ i ∧ s.proc k = some (.worker v) := by
    intro k v hk
    rcases Sys.proc_set hk with ⟨hki, hv⟩ | hk
    · obtain ⟨v', hv', hvv⟩ := Option.map_eq_some_iff.1 hv
      cases hvv
      exact .inl ⟨hki, hv'⟩
    · exact .inr hk
  refine ⟨fun k l v u hk hl' hn => ?_, fun k v hk => ?_⟩
  · rcases hproc k v hk with ⟨hki, hv⟩ | ⟨-, hk'⟩ <;>
      rcases hproc l u hl' with ⟨hli, hu⟩ | ⟨-, hl'⟩
    · rw [hki, hli]
    · exact hki ▸ h.names i l w u hi hl' ((hsame v hv).1.symm.trans hn)
    · exact hli ▸ h.names k i v w hk' hi (hn.trans (hsame u hu).1)
    · exact h.names k l v u hk' hl' hn
  · rcases hproc k v hk with ⟨rfl, hv⟩ | ⟨hki, hk⟩
    · have hjob : v.job = w.job := (hsame v hv).2.1
      rw [hjob]
      cases Worker.steps hstep with
      | lost hno => exact absurd hno (by simp [hr])
      | faults => exact ⟨r, hr, hl.throw hv⟩
      | goes q a o hq hg =>
        obtain rfl : r = q := Option.some.inj (hr.symm.trans hq)
        refine ⟨a.onJob s.store w.job r, ?_, ?_⟩
        · rw [Store.apply_job, hr, Option.map_some]
        · rw [Store.apply_clock]
          exact hg.leased hl hv
    · have hjob : v.job ≠ w.job := fun hj => hki (h.oneWorker.alone k i v w hk hi hj)
      obtain ⟨q, hq, hlq⟩ := h.rows k v hk
      cases Worker.steps hstep with
      | lost hno => exact absurd hno (by simp [hr])
      | faults => exact ⟨q, hq, hlq⟩
      | goes r' a o hr' hg =>
        refine ⟨q, ?_, ?_⟩
        · rw [Store.apply_job, hq, Option.map_some, hg.job_ne hjob]
        · rw [Store.apply_clock]
          exact hlq

/-- a step of a process that is no worker -/
theorem Sys.Leased.stepOther (h : s.Leased) {i : ProcId} {st : Store β} {q : Option (Proc β)} (hq : ∀ w, q ≠ some (.worker w))
    (hclock : st.clock = s.store.clock)
    (hr : ∀ k w r, s.proc k = some (.worker w) → s.store.jobs[w.job]? = some r →
      r.LeasedTo w s.store.clock → ∃ r', st.jobs[w.job]? = some r' ∧
        r'.LeasedTo w s.store.clock) : (⟨st, s.procs.set i q⟩ : Sys β).Leased := by
  refine h.mono (fun k w hk => ?_) fun k w r hk hrow hl => ?_
  · rcases Sys.proc_set hk with ⟨-, hk⟩ | ⟨-, hk⟩
    · exact absurd hk (hq w)
    · exact hk
  · obtain ⟨r', hr', hl'⟩ := hr k w r hk hrow hl
    exact ⟨r', hr', hclock.symm ▸ hl'⟩

theorem Op.exec_leased (h : s.Leased) (ho : o.guarded s) : (o.exec P s).Leased := by
  generalize hexec : o.exec P s = t
  cases does hexec with
  | stays => exact h
  | tick n =>
    refine h.mono (fun _ _ hi => hi) fun i w r hi hrow hl => ⟨r, hrow, hl.name, ?_, hl.busy⟩
    have hlasts := ho w (Sys.mem_workers.2 ⟨i, hi⟩)
    rw [hrow] at hlasts
    exact hlasts
  | upload | memory | delete | retryPurge | reconcile => exact h.spawn (by simp)
  | purge owner i d hd hlive howner t ht =>
    rcases ht with rfl | ⟨key, -, rfl⟩
    · exact h.purged i d
    · exact (h.purged i d).spawn (by simp)
  | settled => exact h.mono (fun _ _ hi => hi) fun i w r _ hrow hl => ⟨r, hrow, hl⟩
  | requeue => exact h.requeued
  | claim name n j r hj hr hc hfree =>
    exact h.claim hr hc hfree fun w hw hex hwj => ho w hw hex (hwj ▸ hj)
  | step i env p hp hfree =>
    cases p with
    | worker w => exact h.stepWorker hp rfl
    | reconcile ids =>
      obtain ⟨hno, hclock⟩ :
          (∀ w, (Proc.step P env s.store i (.reconcile ids)).2 ≠ some (.worker w)) ∧
            (Proc.step P env s.store i (.reconcile ids)).1.clock = s.store.clock :=
        Proc.step_other (by simp)
      refine h.stepOther hno hclock fun k w r hk hrow hl => ?_
      show ∃ r', (if env.dbError then s.store else s.store.reopened ids).jobs[w.job]? = some r' ∧ _
      split
      · exact ⟨r, hrow, hl⟩
      · refine ⟨_, by rw [Store.reopened_job, hrow]; rfl, ?_⟩
        dsimp only
        split
        · next hids =>
          have hex : w.exposed := by
            simp only [Op.guarded, hp] at ho
            exact ho w (Sys.mem_workers.2 ⟨k, hk⟩) hids
          exact ⟨hl.name, hl.lasts, fun hno => absurd hex hno⟩
        · exact hl
    | upload u | memory m | deletion d =>
      refine h.stepOther (Proc.step_other (by simp)).1 (Proc.step_other (by simp)).2 ?_
      exact fun k w r _ hrow hl => ⟨r, Proc.step_jobs (by simp) (by simp) hrow, hl⟩
  | crash i =>
    refine h.mono (fun k w hk => ?_) fun k w r _ hrow hl => ⟨r, hrow, hl⟩
    rcases Sys.proc_set hk with ⟨-, hk⟩ | ⟨-, hk⟩
    · cases hk
    · exact hk

end

/-! ## every run -/

/-- While the leases of the workers last, every run whose claims leave alone the jobs that a worker
has put back and is still at, and whose reconciles reopen no job at work, has one worker at a job. -/
theorem one_worker (P : Pipeline β) (ops : List (Op β))
    (hops : Run.Meets (Op.exec P) Op.guarded {} ops) :
    Run.Always (Op.exec P) Sys.OneWorker {} ops := by
  have hinit : ({} : Sys β).Leased :=
    ⟨fun i k w v hi => absurd hi (by simp [Sys.proc]),
      fun i w hi => absurd hi (by simp [Sys.proc])⟩
  exact Run.always (I := Sys.Leased) (fun _ => Sys.Leased.oneWorker)
    (fun _ _ => Op.exec_leased) hinit hops

/-- a file that is claimed again after a crash in the middle, once the lease has run out -/
theorem one_worker_reclaimed :
    Run.Always (Op.exec plainPipeline) Sys.OneWorker {} (uploadedFile ++ turns 1 10 ++
      [.crash 1, .tick 130, .claimNextJob "w" 120] ++ turns 2 20) :=
  one_worker plainPipeline _ (by decide)

/-- the worker puts the job back after a read error, and another one claims it -/
def claimedAfterRetry : List (Op String) :=
  uploadedFile ++ turns 1 2 ++ [.step 1 { osError := true }] ++ turns 1 2 ++ [.claimNextJob "v" 120]

/-- Both are at the job, and the first one, refused the lock by the second, fails it. -/
theorem claimedAfterRetry_two_workers :
    (importRun plainPipeline claimedAfterRetry).workers.map (fun w => (w.name, w.job)) =
        [("w", 0), ("v", 0)] ∧
      ((importRun plainPipeline (claimedAfterRetry ++ turns 2 2 ++ turns 1 4)).store.jobs[0]?).any
        fun r => r.status = .failed ∧ r.lockedBy = some "v" := by
  decide

end LifeAI.Import
