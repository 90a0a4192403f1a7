import LifeAI.Tasks.Endings

/-!
# One live job for a task

Job rows and task rows have state machines of their own.  What keeps them in step is `JobInv`:
no two live jobs run one task, and the task of a live job is in hand (running, waiting for CI or
finished), so that no dispatch can take it.

* `quietGuard K`  operations that create and revive no job of a task, and leave the tasks in `K`
                  in hand;
* `JobInv.quiet`  these keep `JobInv`;
* `JobInv.dispatch`, `JobInv.takeover`, `JobInv.retryJob`  the three that bring a job to life;
* `Op.keepsOneJob` what is asked of an operation.
-/

namespace LifeAI

variable {db db' : Db}

/-! ## live jobs -/

/-- a job that executes the task -/
def Job.executes (r : Job) (i : TaskId) : Bool :=
  r.jobType = .taskExecution ∧ ⟨.mainaiTask, i⟩ ∈ r.inputRefs

/-- `j` is a live job of the task `i` -/
def Db.liveFor (db : Db) (i : TaskId) (j : JobId) : Bool :=
  db.jobs[j]?.any fun r => r.executes i ∧ r.status.live

/-- some live job executes the task -/
def Db.busy (db : Db) (i : TaskId) : Bool := (List.range db.jobs.length).any (db.liveFor i)

theorem Db.liveFor_iff {i : TaskId} {j : JobId} :
    db.liveFor i j ↔ ∃ r, db.jobs[j]? = some r ∧ r.executes i ∧ r.status.live := by
  simp only [liveFor, Option.any_eq_true, decide_eq_true_eq]

theorem Db.busy_iff {i : TaskId} : db.busy i ↔ ∃ j, db.liveFor i j := by
  simp only [busy, List.any_eq_true, List.mem_range]
  constructor
  · rintro ⟨j, -, h⟩
    exact ⟨j, h⟩
  · rintro ⟨j, h⟩
    obtain ⟨r, hr, -⟩ := Db.liveFor_iff.1 h
    exact ⟨j, (List.getElem?_eq_some_iff.1 hr).1, h⟩

/-- the statuses in which a task may have a live job -/
def TaskStatus.inHand (s : TaskStatus) : Bool := s = running ∨ s = waitingCi ∨ s.terminal

/-- the tasks in `K` exist and are in hand -/
def Db.handled (db : Db) (K : TaskId → Prop) : Prop :=
  ∀ i, K i → ∃ t, db.tasks[i]? = some t ∧ t.status.inHand

structure JobInv (db : Db) : Prop where
  one : ∀ i j k, db.liveFor i j → db.liveFor i k → j = k
  hand : db.handled fun i => db.busy i

/-! ## quiet operations -/

/-- no job of a task is created or revived, and a task in `K` is left in hand -/
def quietGuard (K : TaskId → Prop) : Guard where
  insert _ _ _ := True
  row i _ _ t' := K i → t'.status.inHand
  resume _ _ := True
  create r := r.jobType ≠ .taskExecution
  revive _ := False

variable {K : TaskId → Prop}

theorem Turn.changes_inHand {i : TaskId} {t t' : Task} {k : Turn} (hk : k.changes db i t t')
    (hG : k.guarded → (quietGuard K).row i k t t') (hi : K i) (hs : t.status.inHand) :
    t'.status.inHand := by
  cases k with
  | touch => exact hk.1 ▸ hs
  | dispatch => simp [hk.2, TaskStatus.inHand]
  | retry | wake => simp [hk.1, TaskStatus.inHand, TaskStatus.terminal] at hs
  | cancel => simp [hk.2, TaskStatus.inHand, TaskStatus.terminal]
  | reset | park | repairPark | resume | outcome => exact hG rfl hi

theorem Move.handled (h : db.handled K) (hm : Move (quietGuard K) db db') : db'.handled K := by
  intro j hj
  obtain ⟨r, hr, hs⟩ := h j hj
  cases hm with
  | notes es hes => exact ⟨r, hr, hs⟩
  | insert ts ds es hts hes hG =>
    exact ⟨r, by rw [Db.addEvents_tasks, List.getElem?_append_left (List.getElem?_eq_some_iff.1 hr).1, hr], hs⟩
  | recompute g =>
    refine ⟨r, recompute_not_pending hr ?_, hs⟩
    intro hp
    simp [hp, TaskStatus.inHand, TaskStatus.terminal] at hs
  | @row i t t' k es ht hc hmax hplan hatt hk hes hG hres =>
    rw [Db.addEvents_tasks, getElem?_set_row ht]
    split
    · next hij =>
      subst hij
      rw [ht] at hr
      cases hr
      exact ⟨t', rfl, Turn.changes_inHand hk hG hj hs⟩
    · exact ⟨r, hr, hs⟩
  | jobs hkept => exact ⟨r, hr, hs⟩
  | newJob q hq _ => exact ⟨r, hr, hs⟩
  | aux ht hd he hjobs => exact ⟨r, ht ▸ hr, hs⟩

theorem Move.live (hm : Move (quietGuard K) db db') {i : TaskId} {j : JobId}
    (h : db'.liveFor i j) : db.liveFor i j := by
  rw [Db.liveFor_iff] at h ⊢
  obtain ⟨r', hr', hex, hlive⟩ := h
  cases hm with
  | notes es hes => exact ⟨r', hr', hex, hlive⟩
  | insert ts ds es hts hes hG => exact ⟨r', hr', hex, hlive⟩
  | recompute g => exact ⟨r', hr', hex, hlive⟩
  | row k es ht hc hmax hplan hatt hk hes hG hres => exact ⟨r', hr', hex, hlive⟩
  | jobs hkept =>
    obtain ⟨r, hr, hty, hrefs, hl⟩ := hkept j r' hr'
    refine ⟨r, hr, ?_, (hl hlive).elim id False.elim⟩
    simpa [Job.executes, hty, hrefs] using hex
  | newJob q hq hcreate =>
    rcases getElem?_insert hr' with hold | ⟨-, rfl⟩
    · exact ⟨r', hold, hex, hlive⟩
    · simp only [Job.executes, decide_eq_true_eq] at hex
      exact absurd hex.1 hcreate
  | aux ht hd he hjobs => exact ⟨r', hjobs ▸ hr', hex, hlive⟩

theorem Moves.live (hm : Moves (quietGuard K) db db') {i : TaskId} {j : JobId}
    (h : db'.liveFor i j) : db.liveFor i j := by
  induction hm with
  | refl => exact h
  | tail _ hstep ih => exact ih (hstep.live h)

/-- quiet moves that keep the tasks in hand whose jobs they leave alive -/
theorem JobInv.quiet (h : JobInv db) (hm : Moves (quietGuard K) db db')
    (hK : ∀ i, K i → db.busy i) (hK' : ∀ i, db'.busy i → K i) : JobInv db' where
  one i j k hj hk := h.one i j k (hm.live hj) (hm.live hk)
  hand := by
    intro i hi
    have hall : db'.handled K :=
      hm.inv (I := fun db => db.handled K) (fun _ _ hh hm => hm.handled hh)
        fun i hi => h.hand i (hK i hi)
    exact hall i (hK' i hi)

/-- quiet moves that keep every busy task in hand -/
theorem JobInv.moves (h : JobInv db) (hm : Moves (quietGuard fun i => db.busy i) db db') :
    JobInv db' := by
  refine h.quiet hm (fun _ => id) fun i hi => ?_
  obtain ⟨j, hj⟩ := Db.busy_iff.1 hi
  exact Db.busy_iff.2 ⟨j, hm.live hj⟩

/-! ## the ends of a run -/

/-- no live job stands at `j` -/
def Db.jobEnded (db : Db) (j : JobId) : Prop := ∀ r, db.jobs[j]? = some r → ¬ r.status.live

/-- the live jobs of other runners -/
def Db.busyBut (db : Db) (j : JobId) (i : TaskId) : Prop := ∃ k, k ≠ j ∧ db.liveFor i k

theorem Job.mainaiTask_executes {r : Job} {i : TaskId} (ht : r.jobType = .taskExecution)
    (h : r.mainaiTask = some i) : r.executes i := by
  unfold mainaiTask at h
  split at h
  · next ref hrefs =>
    cases h
    have hmem : ref ∈ r.inputRefs.filter (·.type = .mainaiTask) := by
      rw [hrefs]
      exact List.mem_singleton_self _
    obtain ⟨hin, hty⟩ := List.mem_filter.1 hmem
    obtain ⟨ty, id⟩ := ref
    simp only [decide_eq_true_eq] at hty
    subst hty
    simp [executes, ht, hin]
  · exact absurd h (by simp)

/-- the runner's own job is live -/
theorem heldTask_liveFor {w : Runner} {i : TaskId} (h : db.heldTask w = some i) :
    db.liveFor i w.job := by
  unfold Db.heldTask Db.holds at h
  split at h
  · next hheld =>
    obtain ⟨r, hr, hw⟩ := (Option.any_eq_true _ _).1 hheld
    refine Db.liveFor_iff.2 ⟨r, hr, ?_, by simp [(Job.heldBy_iff.1 hw).2.2, JobStatus.live]⟩
    cases hrun : db.runTask w with
    | error e => simp [hrun, Except.toOption] at h
    | ok i' =>
      simp only [hrun, Except.toOption, Option.some.injEq] at h
      subst h
      obtain ⟨ht, hi⟩ := runTask_row hr hrun
      exact Job.mainaiTask_executes ht hi
  · exact absurd h (by simp)

/-- no other job runs the runner's task -/
theorem JobInv.not_busyBut (h : JobInv db) {w : Runner} {i : TaskId}
    (hi : db.heldTask w = some i) : ¬ db.busyBut w.job i := by
  rintro ⟨k, hne, hk⟩
  exact hne (h.one i k w.job hk (heldTask_liveFor hi))

/-- quiet moves that end the runner's job -/
theorem JobInv.ended (h : JobInv db) (j : JobId) (hm : Moves (quietGuard (db.busyBut j)) db db')
    (hend : db'.jobEnded j) : JobInv db' := by
  refine h.quiet hm (fun i hi => ?_) fun i hi => ?_
  · obtain ⟨k, -, hk⟩ := hi
    exact Db.busy_iff.2 ⟨k, hk⟩
  · obtain ⟨k, hk⟩ := Db.busy_iff.1 hi
    refine ⟨k, ?_, hm.live hk⟩
    rintro rfl
    obtain ⟨r, hr, -, hlive⟩ := Db.liveFor_iff.1 hk
    exact hend r hr hlive

theorem guardedJobWrite_ended {jobs jobs' : List Job} {j : JobId} {worker : String} {g : Nat}
    {set : Job → Job} (h : guardedJobWrite jobs j worker g set = .ok jobs')
    (hset : ∀ r, ¬ (set r).status.live) :
    ∀ r, jobs'[j]? = some r → ¬ r.status.live := by
  obtain ⟨r, hr, -, rfl⟩ := guardedJobWrite_ok h
  intro q hq
  rw [getElem?_set_row hr, if_pos rfl] at hq
  cases hq
  exact hset r

theorem endJob_ended {w : Runner} {set : Job → Job}
    (h : db.endJob (guardedJobWrite db.jobs w.job w.worker w.generation set) = .ok db')
    (hset : ∀ r, ¬ (set r).status.live) : db'.jobEnded w.job := by
  unfold Db.endJob at h
  rw [bind_eq_ok] at h
  obtain ⟨jobs, h1, h2⟩ := h
  cases h2
  exact guardedJobWrite_ended h1 hset

theorem JobInv.completeRun (h : JobInv db) {now : Time} {w : Runner} {loaded : Task}
    {passed : Bool} {retryIn : Nat} (hx : completeRun now db w loaded passed retryIn = .ok db') :
    JobInv db' := by
  refine h.ended w.job (completeRun_moves (fun i new hi _ t _ _ hK => ?_) hx) ?_
  · exact absurd hK (h.not_busyBut hi)
  · unfold LifeAI.completeRun at hx
    simp only [bind_eq_ok] at hx
    obtain ⟨i, -, db1, -, hend⟩ := hx
    exact endJob_ended hend fun r => by simp [JobStatus.live]

theorem JobInv.failRun (h : JobInv db) {now : Time} {w : Runner} {retryIn : Nat}
    (hx : failRun now db w retryIn = .ok db') : JobInv db' := by
  refine h.ended w.job (failRun_moves (fun i t hi _ t' _ _ hK => ?_) hx) ?_
  · exact absurd hK (h.not_busyBut hi)
  · unfold LifeAI.failRun at hx
    simp only [bind_eq_ok] at hx
    obtain ⟨i, -, t, -, db1, -, hend⟩ := hx
    exact endJob_ended hend fun r => by simp [JobStatus.live]

theorem JobInv.cancelRun (h : JobInv db) {now : Time} {w : Runner}
    (hx : cancelRun now db w = .ok db') : JobInv db' := by
  refine h.ended w.job (cancelRun_moves (fun i t hi _ t' _ _ hK => ?_) hx) ?_
  · exact absurd hK (h.not_busyBut hi)
  · unfold LifeAI.cancelRun at hx
    simp only [bind_eq_ok] at hx
    obtain ⟨i, -, t, -, db1, -, hend⟩ := hx
    exact endJob_ended hend fun r => by simp [JobStatus.live]

/-- a worker with its claim does not lose the write to the fence -/
theorem guardedJobWrite_not_lost {w : Runner} {set : Job → Job} (h : db.holds w) :
    guardedJobWrite db.jobs w.job w.worker w.generation set ≠
      .error (.jobLeaseLost w.job w.worker w.generation) := by
  intro hx
  unfold Db.holds at h
  unfold guardedJobWrite at hx
  split at hx
  · next hnone => simp [hnone] at h
  · next r hr =>
    have hheld : r.heldBy w.worker w.generation := by simpa [hr] using h
    rw [if_pos hheld] at hx
    obtain ⟨c, hc⟩ := setRow_error hx
    exact absurd hc (by simp)

theorem guardedJobWrite_error {jobs : List Job} {j : JobId} {worker : String} {g : Nat}
    {set : Job → Job} {e : Err} (h : guardedJobWrite jobs j worker g set = .error e) :
    e = .jobLeaseLost j worker g ∨ ∃ c, e = .integrityError c := by
  unfold guardedJobWrite at h
  split at h
  · exact .inl (by simpa using h.symm)
  split at h
  · exact .inr (setRow_error h)
  · exact .inl (by simpa using h.symm)

theorem releaseMidflight_ended {now : Time} {w : Runner} {i : TaskId}
    {eventReason blockerReason : String} (hheld : db.holds w)
    (h : releaseMidflight now db w i eventReason blockerReason = .ok db') :
    db'.jobEnded w.job := by
  unfold releaseMidflight at h
  split at h
  · next j worker g hx =>
    rcases guardedJobWrite_error hx with he | ⟨c, hc⟩
    · cases he
      exact absurd hx (guardedJobWrite_not_lost hheld)
    · exact absurd hc (by simp)
  · exact absurd h (by simp)
  next jobs hj =>
  have hend := guardedJobWrite_ended hj fun r => by simp [JobStatus.live]
  simp only [bind_eq_ok] at h
  obtain ⟨t, -, h⟩ := h
  split at h
  · cases h
    exact hend
  · rw [bind_eq_ok] at h
    obtain ⟨db1, h1, h2⟩ := h
    cases h2
    obtain ⟨-, rfl⟩ := Db.setTask_ok.1 h1
    exact hend

/-- a park by a worker that may have lost its claim -/
theorem JobInv.park (h : JobInv db) {w : Runner}
    (hmoves : ∀ K : TaskId → Prop,
      (∀ i, db.heldTask w = some i → (quietGuard K).admitsTurn db i .park (· = .running) .blocked) →
      Moves (quietGuard K) db db')
    (hend : db.holds w → db'.jobEnded w.job) : JobInv db' := by
  by_cases hheld : db.holds w
  · refine h.ended w.job (hmoves _ fun i hi t t' _ _ _ _ _ hK => ?_) (hend hheld)
    exact absurd hK (h.not_busyBut hi)
  · refine h.moves (hmoves _ fun i hi => ?_)
    simp [Db.heldTask, hheld] at hi

theorem JobInv.parkProviderSpendDefer (h : JobInv db) {now : Time} {w : Runner}
    (hx : parkProviderSpendDefer now db w = .ok db') : JobInv db' := by
  refine h.park (fun K hG => parkProviderSpendDefer_moves hG hx) fun hheld => ?_
  unfold LifeAI.parkProviderSpendDefer at hx
  rw [bind_eq_ok] at hx
  obtain ⟨i, -, hrel⟩ := hx
  exact releaseMidflight_ended hheld hrel

theorem JobInv.releaseProviderWait (h : JobInv db) {now : Time} {w : Runner} {delay : Nat}
    (hx : releaseProviderWait now db w delay = .ok db') : JobInv db' := by
  refine h.park (fun K hG => releaseProviderWait_moves hG hx) fun hheld => ?_
  unfold LifeAI.releaseProviderWait at hx
  simp only [bind_eq_ok] at hx
  obtain ⟨i, -, db1, hrel, t, -, hx⟩ := hx
  have hend := releaseMidflight_ended hheld hrel
  split at hx
  · obtain ⟨-, rfl⟩ := Db.setTask_ok.1 hx
    exact hend
  · cases hx
    exact hend

/-! ## jobs that come to life -/

/-- a first job of a task in hand -/
theorem JobInv.newJob (h : JobInv db) {i : TaskId} {t : Task} {r : Job}
    (hr : ∀ i', r.executes i' → i' = i) (hfree : ¬ db.busy i) (ht : db.tasks[i]? = some t)
    (hs : t.status.inHand) : JobInv { db with jobs := db.jobs ++ [r] } := by
  have hlive : ∀ i' j, Db.liveFor { db with jobs := db.jobs ++ [r] } i' j →
      db.liveFor i' j ∨ (j = db.jobs.length ∧ i' = i) := by
    intro i' j hj
    obtain ⟨r', hr', hex, hl⟩ := Db.liveFor_iff.1 hj
    rcases getElem?_insert hr' with hold | ⟨hlen, rfl⟩
    · exact .inl (Db.liveFor_iff.2 ⟨r', hold, hex, hl⟩)
    · exact .inr ⟨hlen, hr i' hex⟩
  constructor
  · intro i' j k hj hk
    rcases hlive i' j hj with hj | ⟨hj, rfl⟩
    · rcases hlive i' k hk with hk | ⟨-, rfl⟩
      · exact h.one i' j k hj hk
      · exact absurd (Db.busy_iff.2 ⟨j, hj⟩) hfree
    · rcases hlive i' k hk with hk | ⟨hk, -⟩
      · exact absurd (Db.busy_iff.2 ⟨k, hk⟩) hfree
      · exact hj.trans hk.symm
  · intro i' hi'
    obtain ⟨j, hj⟩ := Db.busy_iff.1 hi'
    rcases hlive i' j hj with hj | ⟨-, rfl⟩
    · exact h.hand i' (Db.busy_iff.2 ⟨j, hj⟩)
    · exact ⟨t, ht, hs⟩

theorem dispatchRequest_executes {i i' : TaskId} {t : Task}
    (h : (dispatchRequest i t).row.executes i') : i' = i := by
  simpa [Job.executes, dispatchRequest, JobRequest.row] using h

theorem JobInv.dispatch (env : Env) (i : TaskId) :
    Tx.Keeps JobInv (dispatchReadyTask env i) := by
  intro s hd hw
  rcases dispatch_cases env i s with ⟨e, -, h⟩ | ⟨t, hb, h⟩
  · rw [h]
    exact ⟨hd, hw⟩
  have hbegun : JobInv (s.work.begun env.now i t) := hw.moves (beginDispatch_moves hb)
  obtain ⟨ht, hs, -, hc, -⟩ := beginDispatch_ok.1 hb
  have hassigned : ∀ (w : Db) (j : JobId), JobInv w →
      w.tasks[i]? = some (t.dispatched env.now) → JobInv (w.assigned env.now i t j) :=
    fun w j hj hrow => hj.moves (assignJob_moves (assignJob_dispatched hrow hc))
  have hrow : (s.work.begun env.now i t).tasks[i]? = some (t.dispatched env.now) := begun_row _ ht
  rcases h with ⟨-, h⟩ | ⟨-, ⟨e, h⟩ | ⟨j, h⟩⟩
  · have hfree : ¬ (s.work.begun env.now i t).busy i := by
      intro hbusy
      obtain ⟨t', ht', hs'⟩ := hw.hand i hbusy
      rw [ht] at ht'
      cases ht'
      simp [hs, TaskStatus.inHand, TaskStatus.terminal] at hs'
    have hjob : JobInv { s.work.begun env.now i t with
        jobs := s.work.jobs ++ [(dispatchRequest i t).row] } :=
      hbegun.newJob (fun _ => dispatchRequest_executes) hfree hrow
        (by simp [Task.dispatched, TaskStatus.inHand])
    rw [h]
    exact ⟨hjob, hassigned _ _ hjob hrow⟩
  · rw [h]
    exact ⟨hd, hbegun⟩
  · rw [h]
    exact ⟨hd, hassigned _ _ hbegun hrow⟩

theorem jobInv_closed : JobsClosed JobInv where
  recoveries _ _ h := h.moves (aux_moves rfl rfl rfl rfl)
  jobs _ _ hk h := h.moves (Move.jobs hk).moves

/-- the takeover of a task that no live job executes any more -/
theorem JobInv.takeover (h : JobInv db) {env : TakeoverEnv} {k : RecoveryId}
    (hfree : ∀ r t, db.recoveries[k]? = some r → r.refusal = none →
      db.tasks[r.taskId]? = some t → t.status = .running → ¬ db.busy r.taskId) :
    JobInv (Tx.settle (executeTakeover env k (Tx.opened db))) := by
  refine (executeTakeover_keeps jobInv_closed h (fun r db1 hr ha hreset => ?_)
    fun r _ _ => JobInv.dispatch _ _).settle
  refine h.moves (resetTaskForTakeover_moves (fun t t' ht hs _ _ _ hK => ?_) hreset)
  exact absurd hK (hfree r t hr ha ht (by simpa using hs))

/-- a finished job is queued again, for a task in hand that has no live job -/
theorem JobInv.retryJob (h : JobInv db) {j : JobId} {loaded : Job} {jobs : List Job}
    (hx : retryJob db.jobs j loaded = .ok jobs)
    (hfree : ∀ r i, db.jobs[j]? = some r → r.executes i → ¬ r.status.live →
      ¬ db.busy i ∧ ∃ t, db.tasks[i]? = some t ∧ t.status.inHand) :
    JobInv { db with jobs } := by
  have hlive : ∀ i k, Db.liveFor { db with jobs } i k → db.liveFor i k ∨
      (k = j ∧ ¬ db.busy i ∧ ∃ t, db.tasks[i]? = some t ∧ t.status.inHand) := by
    intro i k hk
    obtain ⟨r', hr', hex, hl⟩ := Db.liveFor_iff.1 hk
    obtain ⟨r, hr, hty, hrefs, hl'⟩ := retryJob_keeps hx k r' hr'
    have hex' : r.executes i := by simpa [Job.executes, hty, hrefs] using hex
    by_cases hlr : r.status.live
    · exact .inl (Db.liveFor_iff.2 ⟨r, hr, hex', hlr⟩)
    · obtain rfl : k = j := (hl' hl).elim (fun hlr' => absurd hlr' hlr) id
      exact .inr ⟨rfl, hfree r i hr hex' hlr⟩
  constructor
  · intro i k k' hk hk'
    rcases hlive i k hk with hk | ⟨rfl, hnot, -⟩
    · rcases hlive i k' hk' with hk' | ⟨-, hnot, -⟩
      · exact h.one i k k' hk hk'
      · exact absurd (Db.busy_iff.2 ⟨k, hk⟩) hnot
    · rcases hlive i k' hk' with hk' | ⟨hk', -⟩
      · exact absurd (Db.busy_iff.2 ⟨k', hk'⟩) hnot
      · exact hk'.symm
  · intro i hi
    obtain ⟨k, hk⟩ := Db.busy_iff.1 hi
    rcases hlive i k hk with hk | ⟨-, -, hhand⟩
    · exact h.hand i (Db.busy_iff.2 ⟨k, hk⟩)
    · exact hhand

/-! ## the operations -/

/-- the operations that neither bring a job of a task to life nor end one with its task -/
def Op.quiet : Op → Bool
  | .dispatchReadyTask .. | .dispatchCrash .. | .executeTakeover .. | .retryJob ..
  | .completeRun .. | .failRun .. | .cancelRun .. | .parkProviderSpendDefer ..
  | .releaseProviderWait .. => false
  | _ => true

theorem commit_keeps {P : Db → Prop} {s : Sys} {x : Except Err Db} (h : P s.db)
    (hx : ∀ db', x = .ok db' → P db') : P (s.commit x).db := by
  cases x with
  | ok db' => exact hx db' rfl
  | error e => exact h

end LifeAI
