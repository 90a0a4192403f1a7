import LifeAI.Recovery.TakeoverCases
import LifeAI.Tasks.Moves

/-!
# The moves of each operation

One lemma for each function of the loop, and from them `Op.moves`.
-/

namespace LifeAI

variable {G : Guard} {db db' : Db}

/-! ## dispatch -/

theorem createJob_keeps {db0 : Db} (env : Env) (c : JobRequest) (hG : G.create c.row) :
    Tx.Keeps (Moves G db0) (createJob env c) := by
  unfold createJob
  refine .bind (.flush ?_) (fun replay => ?_)
  · intro w a w' hw h
    cases h
    exact hw
  · cases replay with
    | some p =>
      obtain ⟨j, r⟩ := p
      dsimp only
      split
      · exact .pure j
      · exact .raise _
    | none =>
      refine .bind (.flush ?_) (fun r => ?_)
      · intro w a w' hw h
        rw [bind_eq_ok] at h
        obtain ⟨_, hv, hi⟩ := h
        rcases insertJob_ok hi with ⟨-, rfl⟩ | ⟨-, rfl, -⟩
        · refine hw.trans (Move.newJob c.row (fun ht => ?_) hG).moves
          obtain ⟨i, t, hrefs, hti, hs⟩ := validate_taskExecution hv ht
          refine ⟨i, t, ?_, hti, ?_⟩
          · simp [Job.mainaiTask, JobRequest.row, hrefs]
          · split at hs
            · exact .inr hs
            · exact .inl hs
        · exact hw
      · obtain ⟨j, created⟩ := r
        dsimp only
        split
        · exact .bind .commit fun _ => .pure j
        · exact .pure j

theorem beginDispatch_moves {now : Time} {i : TaskId} {t : Task}
    (h : beginDispatch now i db = .ok (t, db')) : Moves G db db' := by
  unfold beginDispatch at h
  simp only [bind_eq_ok, Db.lockTask_ok] at h
  obtain ⟨t', ht, h⟩ := h
  rw [guard_eq_ok] at h
  simp only [bind_eq_ok] at h
  obtain ⟨hs, goal, -, -, -, db1, h1, h2⟩ := h
  cases h2
  exact Db.setTask_moves .dispatch _ ht h1 rfl rfl rfl ⟨by simpa using hs, rfl⟩
    (by simp [Turn.records, TaskEvent.note, TaskEvent.marks]) (by simp [Turn.guarded]) (by simp)

theorem assignJob_moves {i : TaskId} {j : JobId} {u : Unit}
    (h : assignJob i j db = .ok (u, db')) : Moves G db db' := by
  unfold assignJob at h
  simp only [bind_eq_ok, Db.lockTask_ok] at h
  obtain ⟨t, ht, db1, h1, h2⟩ := h
  cases h2
  have := Db.setTask_moves (G := G) .touch [] ht h1 rfl rfl (by simp [Turn.attempts]) ⟨rfl, rfl⟩
    (by simp [Turn.records]) (by simp [Turn.guarded]) (by simp)
  simpa using this

theorem dispatch_keeps {db0 : Db} (env : Env) (i : TaskId)
    (hG : ∀ t, G.create (dispatchRequest i t).row) :
    Tx.Keeps (Moves G db0) (dispatchReadyTask env i) := by
  unfold dispatchReadyTask
  refine .bind (.flush fun w t w' hw h => hw.trans (beginDispatch_moves h)) fun t => ?_
  refine .bind (createJob_keeps env _ (hG t)) fun j => ?_
  exact .bind (.flush fun w u w' hw h => hw.trans (assignJob_moves h)) fun _ => .pure j

/-- a turn back to `ready` that only records itself -/
theorem retryTask_moves {i : TaskId} (h : retryTask db i = .ok db') : Moves G db db' := by
  unfold retryTask at h
  simp only [bind_eq_ok, Db.lockTask_ok] at h
  obtain ⟨t, ht, h⟩ := h
  rw [guard_eq_ok] at h
  simp only [bind_eq_ok] at h
  obtain ⟨hs, db1, h1, h2⟩ := h
  cases h2
  refine Db.setTask_moves .retry _ ht h1 rfl rfl (by simp [Turn.attempts]) ⟨?_, rfl⟩
    ⟨none, rfl⟩ (by simp [Turn.guarded]) (by simp)
  simpa [TaskStatus.retryable] using hs

theorem resetTaskForTakeover_moves {i : TaskId}
    (hG : G.admitsTurn db i .reset (· = .running) .ready)
    (h : resetTaskForTakeover db i = .ok db') : Moves G db db' := by
  unfold resetTaskForTakeover at h
  simp only [bind_eq_ok, Db.lockTask_ok] at h
  obtain ⟨t, ht, h⟩ := h
  rw [guard_eq_ok] at h
  simp only [bind_eq_ok] at h
  obtain ⟨hs, db1, h1, h2⟩ := h
  cases h2
  have hrun : t.status = .running := by simpa using hs
  exact Db.setTask_moves .reset _ ht h1 rfl rfl (by simp [Turn.attempts]) ⟨hrun, rfl⟩ ⟨_, rfl⟩
    (fun _ => hG t _ ht (by simp [hrun]) rfl rfl rfl) (by simp)

/-! ## takeover -/

theorem movesClosed {db0 : Db} : JobsClosed (Moves G db0) where
  recoveries _ _ h := h.trans (aux_moves rfl rfl rfl rfl)
  jobs _ _ hk h := h.trans (Move.jobs (hk.mono fun _ => False.elim)).moves

theorem executeTakeover_moves {env : TakeoverEnv} {k : RecoveryId}
    (hG : ∀ r, db.recoveries[k]? = some r → r.refusal = none →
      G.admitsTurn db r.taskId .reset (· = .running) .ready ∧
      ∀ t, G.create (dispatchRequest r.taskId t).row) :
    Moves G db (Tx.settle (executeTakeover env k (Tx.opened db))) :=
  (executeTakeover_keeps movesClosed .refl
    (fun r _ hr ha hreset => resetTaskForTakeover_moves (hG r hr ha).1 hreset)
    fun r hr ha => dispatch_keeps _ _ (hG r hr ha).2).settle

/-! ## cancellation -/

/-- the row is blocked -/
def Db.isBlocked (i : TaskId) (db : Db) : Prop :=
  ∀ t, db.tasks[i]? = some t → t.status = .blocked

theorem Db.mem_doomed {g : GoalId} {i : TaskId} (h : i ∈ db.doomed g) : db.isBlocked i := by
  intro t ht
  have hp := (List.mem_filter.1 h).2
  simp only [ht, Option.any_some, doomedRow, decide_eq_true_eq] at hp
  exact hp.2.1

theorem cascadeTask_moves {now : Time} {reason : String} {i : TaskId} (hb : db.isBlocked i)
    (h : cascadeTask now reason db i = .ok db') :
    Moves G db db' ∧ ∀ j, j ≠ i → db.isBlocked j → db'.isBlocked j := by
  unfold cascadeTask at h
  simp only [bind_eq_ok, Db.lockTask_ok] at h
  obtain ⟨t, ht, db1, h1, h2⟩ := h
  cases h2
  have hs := hb t ht
  refine ⟨Db.setTask_moves .cancel _ ht h1 rfl rfl (by simp [Turn.attempts, Task.cascaded])
    ⟨by simp [hs, TaskStatus.terminal], rfl⟩ (by simp [Turn.records, TaskEvent.note, TaskEvent.marks])
    (by simp [Turn.guarded]) (by simp), ?_⟩
  obtain ⟨-, rfl⟩ := Db.setTask_ok.1 h1
  intro j hj hu t' ht'
  rw [Db.addEvents_tasks, List.getElem?_set_ne hj.symm] at ht'
  exact hu t' ht'

theorem cascade_moves {now : Time} {reason : String} {g : GoalId} {fuel : Nat}
    (h : cascade now reason g fuel db = .ok db') : Moves G db db' := by
  induction fuel generalizing db with
  | zero =>
    cases h
    exact .refl
  | succ fuel ih =>
    unfold cascade at h
    split at h
    · cases h
      exact .refl
    · rw [bind_eq_ok] at h
      obtain ⟨db1, h1, h2⟩ := h
      have hpass : Moves G db db1 := by
        refine foldlM_each (Q := Db.isBlocked) (fun s i s' hm hb hs => ?_)
          (List.nodup_range.filter _) .refl (fun i hi => Db.mem_doomed hi) h1
        obtain ⟨h3, h4⟩ := cascadeTask_moves (G := G) hb hs
        exact ⟨hm.trans h3, h4⟩
      exact hpass.trans ((Move.recompute g).moves.trans (ih h2))

theorem cancelNow_moves {now : Time} {reason : String} {i : TaskId} {t : Task}
    (ht : db.tasks[i]? = some t) (hs : ¬ t.status.terminal)
    (h : cancelNow now reason db i t = .ok db') : Moves G db db' := by
  unfold cancelNow at h
  rw [bind_eq_ok] at h
  obtain ⟨db1, h1, h2⟩ := h
  have hrow : Moves G db (db1.addEvents
      [{ task := i, kind := .cancelled, reason := some reason }]) :=
    Db.setTask_moves .cancel _ ht h1 rfl rfl (by simp [Turn.attempts, Task.cancelled]) ⟨hs, rfl⟩
      (by simp [Turn.records, TaskEvent.note, TaskEvent.marks]) (by simp [Turn.guarded]) (by simp)
  exact hrow.trans ((Move.recompute _).moves.trans (cascade_moves h2))

theorem cancelCiWait_moves {i : TaskId} (h : cancelCiWait db i = .ok db') :
    Moves G db db' ∧ db'.tasks = db.tasks := by
  unfold cancelCiWait at h
  split at h
  · cases h
    exact ⟨.refl, rfl⟩
  · cases h
    exact ⟨aux_moves rfl rfl rfl rfl, rfl⟩
  · exact absurd h (by simp)

theorem requestTaskCancel_moves {i : TaskId} {t : Task} {b : Bool}
    (h : requestTaskCancel db i t b = .ok db') : Moves G db db' := by
  unfold requestTaskCancel at h
  split at h
  · exact absurd h (by simp)
  rw [guard_eq_ok] at h
  obtain ⟨-, h⟩ := h
  split at h
  · exact absurd h (by simp)
  rw [bind_eq_ok] at h
  obtain ⟨jobs, h1, h2⟩ := h
  cases h2
  have hjobs : Moves G db { db with jobs } :=
    (Move.jobs (requestCancel_keeps h1)).moves
  exact hjobs.trans (notes_moves _ (by simp [TaskEvent.note, TaskEvent.marks]))

/-- a status that `cancel_task` ends at once -/
theorem TaskStatus.not_terminal_of_cancellable {s : TaskStatus} (h : s.cancellable) :
    ¬ s.terminal := by
  cases s <;> simp [cancellable, terminal] at *

theorem cancelTask_moves {now : Time} {i : TaskId} {b : Bool} {reason : String}
    (h : cancelTask now db i b reason = .ok db') : Moves G db db' := by
  unfold cancelTask at h
  simp only [bind_eq_ok, Db.lockTask_ok] at h
  obtain ⟨t, ht, h⟩ := h
  split at h
  · exact requestTaskCancel_moves h
  split at h
  · next hci =>
    rw [bind_eq_ok] at h
    obtain ⟨db1, h1, h2⟩ := h
    obtain ⟨hm, htasks⟩ := cancelCiWait_moves (G := G) h1
    exact hm.trans (cancelNow_moves (htasks ▸ ht) (by simp [hci, TaskStatus.terminal]) h2)
  · rw [guard_eq_ok] at h
    obtain ⟨hc, h⟩ := h
    exact cancelNow_moves ht (TaskStatus.not_terminal_of_cancellable (by simpa using hc)) h

/-! ## outcomes -/

/-- a copy that an outcome flushes -/
structure IsOutcome (loaded new : Task) : Prop where
  attempts : new.attempts = loaded.attempts
  blockerReason : new.blockerReason = loaded.blockerReason
  status : new.status = .completed ∨ new.status = .retryableFailed ∨ new.status = .failed ∨
    new.status = .cancelled ∨ new.status = .waitingCi

theorem Task.finishedCancelled_isOutcome (now : Time) (t : Task) :
    IsOutcome t (t.finishedCancelled now) := ⟨rfl, rfl, by simp [finishedCancelled]⟩

theorem Task.finishedCompleted_isOutcome (now : Time) (t : Task) :
    IsOutcome t (t.finishedCompleted now) := ⟨rfl, rfl, by simp [finishedCompleted]⟩

theorem Task.waitingCi_isOutcome (t : Task) :
    IsOutcome t { t with status := .waitingCi } := ⟨rfl, rfl, by simp⟩

theorem Task.finishedFailed_isOutcome (now : Time) (retryIn : Nat) (t : Task) :
    IsOutcome t (t.finishedFailed now retryIn) := by
  unfold finishedFailed
  split
  · exact ⟨rfl, rfl, by simp⟩
  · exact ⟨rfl, rfl, by simp⟩

/-- an outcome can be written: a job works on the task, or the task waits for CI -/
def Db.outcomeDue (db : Db) (i : TaskId) : Prop :=
  db.worksOn i ∨ ∀ t, db.tasks[i]? = some t → t.status = .waitingCi

/-- the guard of one outcome write -/
def Guard.admitsCopy (G : Guard) (db : Db) (i : TaskId) (loaded new : Task) : Prop :=
  ∀ t, db.tasks[i]? = some t → (Task.flushed loaded new t).checks →
    G.row i .outcome t (Task.flushed loaded new t)

/-- the row of an outcome -/
theorem outcomeRow_moves {i : TaskId} {loaded new t : Task} (hnew : IsOutcome loaded new)
    (hdue : db.outcomeDue i) (hG : G.admitsCopy db i loaded new) (ht : db.tasks[i]? = some t)
    (hc : (Task.flushed loaded new t).checks) :
    Moves G db { db with tasks := db.tasks.set i (Task.flushed loaded new t) } := by
  have hatt : (Task.flushed loaded new t).attempts = t.attempts := by
    simp [Task.flushed, dirty, hnew.attempts]
  have hblk : (Task.flushed loaded new t).blockerReason = t.blockerReason := by
    simp [Task.flushed, dirty, hnew.blockerReason]
  have hst : (Task.flushed loaded new t).status = t.status ∨
      (Task.flushed loaded new t).status = new.status :=
    (Task.flushed_status loaded new t).symm
  have hk : Turn.outcome.changes db i t (Task.flushed loaded new t) := by
    refine ⟨hdue.imp_right fun hw => hw t ht, hblk, ?_⟩
    rcases hst with hst | hst
    · exact .inl hst
    · rw [hst]
      exact .inr hnew.status
  have hrow := (Move.row .outcome [] ht hc rfl rfl (by simp [hatt, Turn.attempts]) hk
    (by simp [Turn.records]) (fun _ => hG t ht hc) (by simp)).moves
  rwa [Db.addEvents_nil] at hrow

/-- the flush of an outcome, after its events -/
theorem flushOutcome_moves {i : TaskId} {loaded new : Task} {es : List TaskEvent}
    (hes : ∀ e ∈ es, e.note) (hnew : IsOutcome loaded new) (hdue : db.outcomeDue i)
    (hG : G.admitsCopy db i loaded new)
    (h : (db.addEvents es).flushTask i loaded new = .ok db') : Moves G db db' := by
  obtain ⟨t, ht, hc, rfl⟩ := Db.flushTask_ok.1 h
  have hrow : Moves G (db.addEvents es) _ := outcomeRow_moves hnew hdue hG ht hc
  exact (notes_moves es hes).trans hrow

theorem recordFinalReport_moves {now : Time} {g : GoalId}
    (h : recordFinalReport now db g = .ok db') : Moves G db db' := by
  unfold recordFinalReport at h
  rw [bind_eq_ok] at h
  obtain ⟨goal, -, h⟩ := h
  rw [guard_eq_ok] at h
  obtain ⟨-, h⟩ := h
  split at h
  · cases h
    exact .refl
  · exact setGoal_moves h

theorem rollup_moves {now : Time} {t : Task} {s : TaskStatus}
    (h : rollupGoalAfterTaskBoundary now db t s = .ok db') : Moves G db db' := by
  unfold rollupGoalAfterTaskBoundary at h
  refine (Move.recompute t.goalId).moves.trans ?_
  dsimp only at h
  split at h
  · cases h
    exact .refl
  split at h
  · exact recordFinalReport_moves h
  · cases h
    exact .refl

theorem finalizeCancelledTask_moves {now : Time} {i : TaskId} {loaded : Task} {reason : String}
    (hdue : db.outcomeDue i) (hG : G.admitsCopy db i loaded (loaded.finishedCancelled now))
    (h : finalizeCancelledTask now db i loaded reason = .ok db') : Moves G db db' := by
  unfold finalizeCancelledTask at h
  rw [bind_eq_ok] at h
  obtain ⟨db1, h1, h2⟩ := h
  exact (flushOutcome_moves (by simp [TaskEvent.note, TaskEvent.marks])
    (loaded.finishedCancelled_isOutcome now) hdue hG h1).trans (rollup_moves h2)

theorem finalizePassed_moves {now : Time} {i : TaskId} {loaded : Task} (retryIn : Nat)
    (hdue : db.outcomeDue i)
    (hG : ∀ new, outcomeOf now db loaded true retryIn = some new → G.admitsCopy db i loaded new)
    (h : finalizePassed now db i loaded = .ok db') : Moves G db db' := by
  unfold finalizePassed at h
  simp only [outcomeOf, not_true_eq_false, if_false] at hG
  have hnote : Moves G db (db.addEvents [{ task := i, kind := .verificationPassed }]) :=
    notes_moves _ (by simp [TaskEvent.note, TaskEvent.marks])
  refine hnote.trans ?_
  dsimp only at h
  split at h
  · cases h
    exact .refl
  next hc =>
  rw [if_neg hc] at hG
  split at h
  · next hreq =>
    have hreq' : db.cancelRequested loaded := hreq
    rw [if_pos hreq'] at hG
    exact finalizeCancelledTask_moves hdue (hG _ rfl) h
  · next hreq =>
    have hreq' : ¬ db.cancelRequested loaded := hreq
    rw [if_neg hreq'] at hG
    rw [bind_eq_ok] at h
    obtain ⟨db1, h1, h2⟩ := h
    refine .trans (flushOutcome_moves ?_ (loaded.finishedCompleted_isOutcome now) hdue
      (hG _ rfl) h1) (rollup_moves h2)
    simp [TaskEvent.note, TaskEvent.marks]

theorem finalizeFailed_moves {now : Time} {i : TaskId} {loaded : Task} {retryIn : Nat}
    (hdue : db.outcomeDue i) (hG : G.admitsCopy db i loaded (loaded.finishedFailed now retryIn))
    (h : finalizeFailed now db i loaded retryIn = .ok db') : Moves G db db' := by
  unfold finalizeFailed at h
  rw [bind_eq_ok] at h
  obtain ⟨db1, h1, h2⟩ := h
  exact (flushOutcome_moves (by simp [TaskEvent.note, TaskEvent.marks])
    (loaded.finishedFailed_isOutcome now retryIn) hdue hG h1).trans (rollup_moves h2)

/-! ## no outcome touches the jobs -/

theorem flushTask_jobs {i : TaskId} {loaded new : Task}
    (h : db.flushTask i loaded new = .ok db') : db'.jobs = db.jobs := by
  obtain ⟨t, -, -, rfl⟩ := Db.flushTask_ok.1 h
  rfl

theorem recordFinalReport_jobs {now : Time} {g : GoalId}
    (h : recordFinalReport now db g = .ok db') : db'.jobs = db.jobs := by
  unfold recordFinalReport at h
  rw [bind_eq_ok] at h
  obtain ⟨goal, -, h⟩ := h
  rw [guard_eq_ok] at h
  obtain ⟨-, h⟩ := h
  split at h
  · cases h
    rfl
  · obtain ⟨-, rfl⟩ := Db.setGoal_ok.1 h
    rfl

theorem rollup_jobs {now : Time} {t : Task} {s : TaskStatus}
    (h : rollupGoalAfterTaskBoundary now db t s = .ok db') : db'.jobs = db.jobs := by
  unfold rollupGoalAfterTaskBoundary at h
  dsimp only at h
  split at h
  · cases h
    rfl
  split at h
  · have hjobs := recordFinalReport_jobs h
    exact hjobs
  · cases h
    rfl

theorem finalizeCancelledTask_jobs {now : Time} {i : TaskId} {loaded : Task} {reason : String}
    (h : finalizeCancelledTask now db i loaded reason = .ok db') : db'.jobs = db.jobs := by
  unfold finalizeCancelledTask at h
  rw [bind_eq_ok] at h
  obtain ⟨db1, h1, h2⟩ := h
  have hflush := flushTask_jobs h1
  exact (rollup_jobs h2).trans hflush

theorem finalizeFailed_jobs {now : Time} {i : TaskId} {loaded : Task} {retryIn : Nat}
    (h : finalizeFailed now db i loaded retryIn = .ok db') : db'.jobs = db.jobs := by
  unfold finalizeFailed at h
  rw [bind_eq_ok] at h
  obtain ⟨db1, h1, h2⟩ := h
  have hflush := flushTask_jobs h1
  exact (rollup_jobs h2).trans hflush

theorem finalizePassed_jobs {now : Time} {i : TaskId} {loaded : Task}
    (h : finalizePassed now db i loaded = .ok db') : db'.jobs = db.jobs := by
  unfold finalizePassed at h
  dsimp only at h
  split at h
  · cases h
    rfl
  split at h
  · have hjobs := finalizeCancelledTask_jobs h
    exact hjobs
  · rw [bind_eq_ok] at h
    obtain ⟨db1, h1, h2⟩ := h
    have hflush := flushTask_jobs h1
    exact (rollup_jobs h2).trans hflush

theorem finalizeTaskOutcome_jobs {now : Time} {i : TaskId} {loaded : Task} {passed : Bool}
    {retryIn : Nat} (h : finalizeTaskOutcome now db i loaded passed retryIn = .ok db') :
    db'.jobs = db.jobs := by
  unfold finalizeTaskOutcome at h
  cases passed with
  | true => exact finalizePassed_jobs h
  | false => exact finalizeFailed_jobs h

/-! ## the ends of a run -/

/-- the job that a run is about -/
theorem runTask_row {w : Runner} {i : TaskId} {r : Job} (hr : db.jobs[w.job]? = some r)
    (h : db.runTask w = .ok i) : r.jobType = .taskExecution ∧ r.mainaiTask = some i := by
  unfold Db.runTask at h
  rw [hr] at h
  dsimp only at h
  rw [guard_eq_ok] at h
  obtain ⟨ht, h⟩ := h
  split at h
  · exact absurd h (by simp)
  · next i' hi =>
    cases h
    exact ⟨by simpa using ht, hi⟩

/-- the task that a run is about has its job -/
theorem runTask_ok {w : Runner} {i : TaskId} (h : db.runTask w = .ok i) : db.worksOn i := by
  cases hr : db.jobs[w.job]? with
  | none => simp [Db.runTask, hr] at h
  | some r => exact ⟨w.job, r, hr, runTask_row hr h⟩

theorem endJob_moves {x : Except Err (List Job)}
    (hx : ∀ jobs, x = .ok jobs → JobsKept G.revive db.jobs jobs)
    (h : db.endJob x = .ok db') : Moves G db db' := by
  unfold Db.endJob at h
  rw [bind_eq_ok] at h
  obtain ⟨jobs, h1, h2⟩ := h
  cases h2
  exact (Move.jobs (hx jobs h1)).moves

/-- a guarded write at the end of a run needs the claim of its worker -/
theorem heldTask_of_guardedWrite {w : Runner} {i : TaskId} {set : Job → Job} {jobs : List Job}
    (hi : db.runTask w = .ok i)
    (h : guardedJobWrite db.jobs w.job w.worker w.generation set = .ok jobs) :
    db.heldTask w = some i := by
  obtain ⟨r, hr, hheld, -⟩ := guardedJobWrite_ok h
  simp [Db.heldTask, Db.holds, hr, hheld, hi, Except.toOption]

theorem heldTask_of_endJob {w : Runner} {i : TaskId} {set : Job → Job} {db1 : Db}
    (hi : db.runTask w = .ok i) (hjobs : db1.jobs = db.jobs)
    (h : db1.endJob (guardedJobWrite db1.jobs w.job w.worker w.generation set) = .ok db') :
    db.heldTask w = some i := by
  unfold Db.endJob at h
  rw [bind_eq_ok] at h
  obtain ⟨jobs, h1, -⟩ := h
  exact heldTask_of_guardedWrite hi (hjobs ▸ h1)

theorem completeRun_moves {now : Time} {w : Runner} {loaded : Task} {passed : Bool}
    {retryIn : Nat}
    (hG : ∀ i new, db.heldTask w = some i →
      outcomeOf now db loaded passed retryIn = some new → G.admitsCopy db i loaded new)
    (h : completeRun now db w loaded passed retryIn = .ok db') : Moves G db db' := by
  unfold completeRun at h
  simp only [bind_eq_ok] at h
  obtain ⟨i, hi, db1, h1, h2⟩ := h
  have hheld := heldTask_of_endJob hi (finalizeTaskOutcome_jobs h1) h2
  have hdue : db.outcomeDue i := .inl (runTask_ok hi)
  have hfin : Moves G db db1 := by
    unfold finalizeTaskOutcome at h1
    cases passed with
    | true => exact finalizePassed_moves retryIn hdue (fun new => hG i new hheld) h1
    | false => exact finalizeFailed_moves hdue (hG i _ hheld rfl) h1
  refine hfin.trans (endJob_moves (fun jobs hj => ?_) h2)
  exact guardedJobWrite_keeps hj (fun _ => rfl) (fun _ => rfl)

theorem failRun_moves {now : Time} {w : Runner} {retryIn : Nat}
    (hG : ∀ i t, db.heldTask w = some i → db.tasks[i]? = some t →
      G.admitsCopy db i t (t.finishedFailed now retryIn))
    (h : failRun now db w retryIn = .ok db') : Moves G db db' := by
  unfold failRun at h
  simp only [bind_eq_ok, Db.lockTask_ok] at h
  obtain ⟨i, hi, t, ht, db1, h1, h2⟩ := h
  have hheld := heldTask_of_endJob hi (finalizeFailed_jobs h1) h2
  refine (finalizeFailed_moves (.inl (runTask_ok hi)) (hG i t hheld ht) h1).trans
    (endJob_moves (fun jobs hj => ?_) h2)
  exact guardedJobWrite_keeps hj (fun _ => rfl) (fun _ => rfl)

theorem cancelRun_moves {now : Time} {w : Runner}
    (hG : ∀ i t, db.heldTask w = some i → db.tasks[i]? = some t →
      G.admitsCopy db i t (t.finishedCancelled now))
    (h : cancelRun now db w = .ok db') : Moves G db db' := by
  unfold cancelRun at h
  simp only [bind_eq_ok, Db.lockTask_ok] at h
  obtain ⟨i, hi, t, ht, db1, h1, h2⟩ := h
  have hheld := heldTask_of_endJob hi (finalizeCancelledTask_jobs h1) h2
  refine (finalizeCancelledTask_moves (.inl (runTask_ok hi)) (hG i t hheld ht) h1).trans
    (endJob_moves (fun jobs hj => ?_) h2)
  exact guardedJobWrite_keeps hj (fun _ => rfl) (fun _ => rfl)

theorem failUnavailable_moves {now : Time} {w : Runner} {retryIn : Nat}
    (hG : ∀ i t, db.runTask w = .ok i → db.tasks[i]? = some t → t.status = .running →
      G.admitsCopy db i t (t.finishedFailed now retryIn))
    (h : failUnavailable now db w retryIn = .ok db') : Moves G db db' := by
  unfold failUnavailable at h
  simp only [bind_eq_ok, Db.lockTask_ok] at h
  obtain ⟨i, hi, t, ht, h⟩ := h
  split at h
  · next hrun => exact finalizeFailed_moves (.inl (runTask_ok hi)) (hG i t hi ht hrun) h
  · cases h
    exact .refl

theorem enterCiWait_moves {now : Time} {w : Runner} {secs : Nat} {loaded : Task}
    (hG : ∀ i, db.heldTask w = some i →
      G.admitsCopy db i loaded { loaded with status := .waitingCi })
    (h : enterCiWait now db w secs loaded = .ok db') : Moves G db db' := by
  unfold enterCiWait at h
  simp only [bind_eq_ok] at h
  obtain ⟨i, hi, jobs, hj, h⟩ := h
  rw [guard_eq_ok] at h
  obtain ⟨-, h⟩ := h
  obtain ⟨t, ht, hc, rfl⟩ := Db.flushTask_ok.1 h
  -- the row first, then the event, the wait and the renewed lease
  have hrow := outcomeRow_moves loaded.waitingCi_isOutcome (.inl (runTask_ok hi))
    (hG i (heldTask_of_guardedWrite hi hj)) ht hc
  have hkept : JobsKept G.revive db.jobs jobs :=
    guardedJobWrite_keeps hj (fun _ => rfl) (fun _ => rfl)
  refine hrow.trans ((notes_moves [{ task := i, kind := .waitStarted }] ?_).trans
    (jobs_moves hkept rfl rfl rfl rfl))
  simp [TaskEvent.note, TaskEvent.marks]

theorem resumeWaitingCiTask_moves {now : Time} {w : Nat} {polled : WaitStatus} {retryIn : Nat}
    (hG : ∀ wait t, db.waits[w]? = some wait → db.tasks[wait.taskId]? = some t →
      t.status = .waitingCi →
      (∀ new, (if wait.status = .pending then polled else wait.status) = .satisfied →
        outcomeOf now db t true retryIn = some new → G.admitsCopy db wait.taskId t new) ∧
      ((if wait.status = .pending then polled else wait.status) ≠ .satisfied →
        (if wait.status = .pending then polled else wait.status) ≠ .pending →
        G.admitsCopy db wait.taskId t (t.finishedFailed now retryIn)))
    (h : resumeWaitingCiTask now db w polled retryIn = .ok db') : Moves G db db' := by
  unfold resumeWaitingCiTask at h
  split at h
  · exact absurd h (by simp)
  next wait hw =>
  simp only [bind_eq_ok, Db.lockTask_ok] at h
  obtain ⟨t, ht, h⟩ := h
  split at h
  · cases h
    exact .refl
  next hci =>
  have hs : t.status = .waitingCi := by simpa using hci
  obtain ⟨hpass, hfail⟩ := hG wait t hw ht hs
  generalize (if wait.status = .pending then polled else wait.status) = s at h hpass hfail
  have hset : Moves G db { db with waits := db.waits.set w { wait with status := s } } :=
    aux_moves rfl rfl rfl rfl
  have hdue : db.outcomeDue wait.taskId := .inr fun t' ht' => by
    rw [ht] at ht'
    cases ht'
    exact hs
  refine hset.trans ?_
  cases s with
  | pending =>
    cases h
    exact .refl
  | satisfied =>
    refine (notes_moves _ ?_).trans (finalizePassed_moves retryIn hdue
      (fun new hnew => hpass new rfl hnew) h)
    simp [TaskEvent.note, TaskEvent.marks]
  | timedOut | failed | cancelled =>
    refine (notes_moves _ ?_).trans (finalizeFailed_moves hdue (hfail (by simp) (by simp)) h)
    simp [TaskEvent.note, TaskEvent.marks]

/-! ## parks and wakes -/

theorem releaseMidflight_moves {now : Time} {w : Runner} {i : TaskId}
    {eventReason blockerReason : String} (hi : db.runTask w = .ok i)
    (hG : ∀ i, db.heldTask w = some i → G.admitsTurn db i .park (· = .running) .blocked)
    (h : releaseMidflight now db w i eventReason blockerReason = .ok db') : Moves G db db' := by
  unfold releaseMidflight at h
  split at h
  · cases h
    exact .refl
  · exact absurd h (by simp)
  next jobs hj =>
  have hkept : JobsKept G.revive db.jobs jobs :=
    guardedJobWrite_keeps hj (fun _ => rfl) (fun _ => rfl)
  have hjobs : Moves G db { db with jobs } := (Move.jobs hkept).moves
  simp only [bind_eq_ok, Db.lockTask_ok] at h
  obtain ⟨t, ht, h⟩ := h
  split at h
  · cases h
    exact hjobs
  next hs =>
  have hrun : t.status = .running := by simpa using hs
  rw [bind_eq_ok] at h
  obtain ⟨db1, h1, h2⟩ := h
  cases h2
  exact hjobs.trans (Db.setTask_moves .park _ ht h1 rfl rfl (by simp [Turn.attempts]) ⟨hrun, rfl⟩
    ⟨_, rfl⟩ (fun _ => hG i (heldTask_of_guardedWrite hi hj) t _ ht (by simp [hrun]) rfl rfl rfl)
    (by simp))

theorem parkProviderSpendDefer_moves {now : Time} {w : Runner}
    (hG : ∀ i, db.heldTask w = some i → G.admitsTurn db i .park (· = .running) .blocked)
    (h : parkProviderSpendDefer now db w = .ok db') : Moves G db db' := by
  unfold parkProviderSpendDefer at h
  rw [bind_eq_ok] at h
  obtain ⟨i, hi, h⟩ := h
  exact releaseMidflight_moves hi hG h

theorem releaseProviderWait_moves {now : Time} {w : Runner} {delay : Nat}
    (hG : ∀ i, db.heldTask w = some i → G.admitsTurn db i .park (· = .running) .blocked)
    (h : releaseProviderWait now db w delay = .ok db') : Moves G db db' := by
  unfold releaseProviderWait at h
  simp only [bind_eq_ok, Db.lockTask_ok] at h
  obtain ⟨i, hi, db1, h1, t, ht, h⟩ := h
  refine (releaseMidflight_moves hi hG h1).trans ?_
  split at h
  · have := Db.setTask_moves (G := G) .touch [] ht h rfl rfl (by simp [Turn.attempts]) ⟨rfl, rfl⟩
      (by simp [Turn.records]) (by simp [Turn.guarded]) (by simp)
    simpa using this
  · cases h
    exact .refl

theorem wakeTask_ok {reason : String} {i : TaskId} (h : wakeTask reason db i = .ok db') :
    ∃ t db1, db.tasks[i]? = some t ∧ db.setTask i
        { t with status := .ready, blockerReason := none, nextRetryAt := none } = .ok db1 ∧
      db' = db1.addEvents [{ task := i, kind := .retryScheduled, reason := some reason }] := by
  unfold wakeTask at h
  simp only [bind_eq_ok, Db.lockTask_ok] at h
  obtain ⟨t, ht, db1, h1, h2⟩ := h
  cases h2
  exact ⟨t, db1, ht, h1, rfl⟩

/-- a recogniser of parks looks for a blocked row and one of the three marks -/
def recognises (parked : Db → TaskId → Task → Bool) : Prop :=
  ∀ db i t, parked db i t → t.status = .blocked ∧
    (t.blockerReason = some providerSpendParkBlocker ∨
      db.latestBlockOrRetryReason i = some providerSpendParkReason ∨
      db.latestBlockOrRetryReason i = some waitingProviderBackoffReason)

theorem wakeIf_moves {parked : Db → TaskId → Task → Bool} {reason : String} {i : TaskId}
    (hp : recognises parked) (h : wakeIf parked reason db i = .ok db') : Moves G db db' := by
  unfold wakeIf at h
  simp only [bind_eq_ok, Db.lockTask_ok] at h
  obtain ⟨t, ht, h⟩ := h
  split at h
  · next hpark =>
    obtain ⟨t1, db1, ht1, h1, rfl⟩ := wakeTask_ok h
    rw [ht] at ht1
    cases ht1
    obtain ⟨hs, hmark⟩ := hp db i t hpark
    exact Db.setTask_moves .wake _ ht h1 rfl rfl (by simp [Turn.attempts]) ⟨hs, rfl, hmark⟩
      ⟨_, rfl⟩ (by simp [Turn.guarded]) (by simp)
  · cases h
    exact .refl

theorem isProviderSpendPark_recognises : recognises Db.isProviderSpendPark := by
  intro db i t h
  simp only [Db.isProviderSpendPark, decide_eq_true_eq] at h
  exact ⟨h.1, h.2.elim (fun hr => .inr (.inl hr)) .inl⟩

theorem isDueBackoffPark_recognises (now : Time) : recognises (Db.isDueBackoffPark now) := by
  intro db i t h
  simp only [Db.isDueBackoffPark, decide_eq_true_eq] at h
  exact ⟨h.1, .inr (.inr h.2.2)⟩

theorem wakeForProviderSpend_moves {now : Time} {owner : OwnerId} {g : GoalId}
    {envelope : EnvelopeId}
    (h : wakeTasksBlockedForProviderSpend now db owner g envelope = .ok db') :
    Moves G db db' := by
  unfold wakeTasksBlockedForProviderSpend at h
  split at h
  · cases h
    exact .refl
  · exact foldlM_ok (P := fun s => Moves G db s)
      (fun _ _ _ _ hm hs => hm.trans (wakeIf_moves isProviderSpendPark_recognises hs)) .refl h

theorem wakeDueBackoff_moves {now : Time} {limit : Nat}
    (h : wakeDueWaitingProviderBackoffTasks now db limit = .ok db') : Moves G db db' :=
  foldlM_ok (P := fun s => Moves G db s)
    (fun _ _ _ _ hm hs => hm.trans (wakeIf_moves (isDueBackoffPark_recognises now) hs)) .refl h

/-! ## repair children -/

theorem parkSourceTaskForRepair_moves {i child : TaskId} {reason : String}
    (hG : G.admitsTurn db i .repairPark (fun st => ¬ st.terminal) .blocked)
    (h : parkSourceTaskForRepair db i child reason = .ok db') : Moves G db db' := by
  unfold parkSourceTaskForRepair at h
  simp only [bind_eq_ok, Db.lockTask_ok] at h
  obtain ⟨t, ht, h⟩ := h
  split at h
  · cases h
    exact .refl
  next hs =>
  rw [bind_eq_ok] at h
  obtain ⟨db1, h1, h2⟩ := h
  cases h2
  exact Db.setTask_moves .repairPark _ ht h1 rfl rfl (by simp [Turn.attempts])
    ⟨hs, rfl, reason, child, rfl⟩ rfl
    (fun _ => hG t _ ht (by simpa using hs) rfl rfl rfl) (by simp)

theorem resumeSourceAfterRepair_moves {i : TaskId}
    (hG : G.admitsTurn db i .resume TaskStatus.resumable .ready)
    (hr : ∀ t, db.tasks[i]? = some t → t.status.resumable → G.resume db i)
    (h : resumeSourceAfterRepair db i = .ok db') : Moves G db db' := by
  unfold resumeSourceAfterRepair at h
  simp only [bind_eq_ok, Db.lockTask_ok] at h
  obtain ⟨t, ht, h⟩ := h
  split at h
  · cases h
    exact .refl
  next hs =>
  have hres : t.status.resumable := by simpa using hs
  obtain ⟨t1, db1, ht1, h1, rfl⟩ := wakeTask_ok h
  rw [ht] at ht1
  cases ht1
  exact Db.setTask_moves .resume _ ht h1 rfl rfl (by simp [Turn.attempts]) ⟨hres, rfl⟩ ⟨_, rfl⟩
    (fun _ => hG t _ ht hres rfl rfl rfl) (fun _ => hr t ht hres)

/-! ## every operation -/

theorem commit_moves {s : Sys} {x : Except Err Db}
    (h : ∀ db', x = .ok db' → Moves G s.db db') : Moves G s.db (s.commit x).db := by
  cases x with
  | ok db' => exact h db' rfl
  | error e => exact .refl

theorem commitHeld_moves {s : Sys} {j : JobId} {f : Task → Except Err Db}
    (h : ∀ loaded db', s.held j = some loaded → f loaded = .ok db' → Moves G s.db db') :
    Moves G s.db (s.commitHeld j f).db := by
  unfold Sys.commitHeld
  split
  · exact .refl
  · next loaded hl => exact commit_moves fun db' hx => h loaded db' hl hx

theorem commitJobs_moves {s : Sys} {x : Except Err (List Job)}
    (h : ∀ jobs, x = .ok jobs → JobsKept G.revive s.db.jobs jobs) :
    Moves G s.db (s.commitJobs x).db :=
  (Move.jobs (JobsKept.transact h)).moves

/-- what `Except.map Prod.snd` leaves of a result -/
theorem map_snd_eq_ok {α : Type} {x : Except Err (α × Db)}
    (h : x.map Prod.snd = .ok db') : ∃ a, x = .ok (a, db') := by
  cases x with
  | ok p =>
    cases h
    exact ⟨p.1, rfl⟩
  | error e => exact absurd h (by simp [Except.map])

theorem startRun_moves {s : Sys} {now : Time} {w : Runner} {secs : Nat} :
    Moves G s.db (s.startRun now w secs).db := by
  unfold Sys.startRun
  split
  · exact .refl
  next t jobs h =>
  unfold Sys.beginRun at h
  simp only [bind_eq_ok] at h
  obtain ⟨i, -, t', -, jobs1, h1, jobs2, h2, h3⟩ := h
  cases h3
  have hrenew : JobsKept G.revive s.db.jobs jobs1 :=
    guardedJobWrite_keeps h1 (fun _ => rfl) (fun _ => rfl)
  unfold updateProgress at h2
  rw [if_neg (by simp)] at h2
  have hprogress : JobsKept G.revive jobs1 jobs :=
    guardedJobWrite_keeps h2 (fun _ => rfl) (fun _ => rfl)
  exact (Move.jobs (hrenew.trans hprogress)).moves

/-- the outcome write of a run, by the copy that the operation flushes -/
theorem Guard.admitsOutcome.copy {o : Option (TaskId × Task × Task)} {i : TaskId}
    {loaded new : Task} (h : G.admitsOutcome db o) (ho : o = some (i, loaded, new)) :
    G.admitsCopy db i loaded new := fun t ht hc => h i loaded new t ho ht hc

/-- **the moves of an operation**: every operation whose guarded moves pass the guard is a
sequence of moves -/
theorem Op.moves {s : Sys} {op : Op} (h : G.admits s op) : Moves G s.db (op.step s).db := by
  cases op with
  | createGoal owner instruction policy => exact aux_moves rfl rfl rfl rfl
  | createPlan now g specs =>
    refine commit_moves fun db' hx => ?_
    obtain ⟨p, hp⟩ := map_snd_eq_ok hx
    exact createPlan_moves h hp
  | insertPlanTasks c =>
    refine commit_moves fun db' hx => ?_
    obtain ⟨ids, hc⟩ := map_snd_eq_ok hx
    exact insertPlanTasks_moves h hc
  | recomputeTaskReadiness g => exact (Move.recompute g).moves
  | grantTaskApproval i =>
    refine commit_moves fun db' hx => ?_
    unfold LifeAI.grantTaskApproval at hx
    rw [bind_eq_ok] at hx
    obtain ⟨t, -, hx⟩ := hx
    cases hx
    exact notes_moves _ (by simp [TaskEvent.note, TaskEvent.marks])
  | recordFinalReport now g => exact commit_moves fun db' hx => recordFinalReport_moves hx
  | createJob env c =>
    exact (createJob_keeps env { c with claimed := false } h).settle .refl
  | dispatchReadyTask env i => exact (dispatch_keeps env i h).settle .refl
  | dispatchCrash env i => exact (dispatch_keeps env i h (Tx.opened s.db) .refl .refl).1
  | retryTask i => exact commit_moves fun db' hx => retryTask_moves hx
  | resetTaskForTakeover i => exact commit_moves fun db' hx => resetTaskForTakeover_moves h hx
  | recordClassification r => exact aux_moves rfl rfl rfl rfl
  | executeTakeover env k => exact executeTakeover_moves h
  | cancelTask now i byFounder reason => exact commit_moves fun db' hx => cancelTask_moves hx
  | claimNext now worker secs locked =>
    refine commitJobs_moves fun jobs hx => ?_
    cases hc : claimNextMainaiJob now s.db.jobs worker secs locked with
    | error e => simp [hc, Except.map] at hx
    | ok p =>
      simp only [hc, Except.map, Except.ok.injEq] at hx
      exact claimNext_keeps (c := p.1) (by rw [hc, ← hx])
  | claimSpecific now j worker secs =>
    refine commitJobs_moves fun jobs hx => ?_
    cases hc : claimSpecificMainaiJob now s.db.jobs j worker secs with
    | error e => simp [hc, Except.map] at hx
    | ok p =>
      simp only [hc, Except.map, Except.ok.injEq] at hx
      exact claimSpecific_keeps (c := p.1) (by rw [hc, ← hx])
  | guarded now write w =>
    exact commitJobs_moves fun jobs hx => GuardedWrite.exec_keeps hx
  | retryJob j loaded =>
    exact commitJobs_moves fun jobs hx => (retryJob_keeps hx).mono fun k hk => hk ▸ h
  | requestCancel j loaded =>
    exact commitJobs_moves fun jobs hx => requestCancel_keeps hx
  | startRun now w secs => exact startRun_moves
  | completeRun now w passed retryIn =>
    refine commitHeld_moves fun loaded db' hl hx =>
      completeRun_moves (fun i new hi hnew => ?_) hx
    exact Guard.admitsOutcome.copy h (by simp [Op.outcome, hi, hl, hnew])
  | failRun now w retryIn =>
    refine commit_moves fun db' hx => failRun_moves (fun i t hi ht => ?_) hx
    exact Guard.admitsOutcome.copy h (by simp [Op.outcome, hi, ht])
  | cancelRun now w =>
    refine commit_moves fun db' hx => cancelRun_moves (fun i t hi ht => ?_) hx
    exact Guard.admitsOutcome.copy h (by simp [Op.outcome, hi, ht])
  | failUnavailable now w retryIn =>
    refine commit_moves fun db' hx => failUnavailable_moves (fun i t hi ht hrun => ?_) hx
    exact Guard.admitsOutcome.copy h (by simp [Op.outcome, hi, ht, hrun, Except.toOption])
  | enterCiWait now w secs =>
    refine commitHeld_moves fun loaded db' hl hx => enterCiWait_moves (fun i hi => ?_) hx
    exact Guard.admitsOutcome.copy h (by simp [Op.outcome, hi, hl])
  | resumeWaitingCiTask now w polled retryIn =>
    refine commit_moves fun db' hx =>
      resumeWaitingCiTask_moves (fun wait t hw ht hs => ⟨fun new hsat hnew => ?_, ?_⟩) hx
    · exact Guard.admitsOutcome.copy h (by simp [Op.outcome, hw, ht, hs, hsat, hnew])
    · intro hsat hpend
      refine Guard.admitsOutcome.copy h ?_
      simp only [Op.outcome, hw, ht, Option.bind_eq_bind, Option.bind_some, hs]
      revert hsat hpend
      generalize (if wait.status = .pending then polled else wait.status) = st
      cases st <;> simp
  | parkProviderSpendDefer now w =>
    exact commit_moves fun db' hx => parkProviderSpendDefer_moves h hx
  | releaseProviderWait now w delay =>
    exact commit_moves fun db' hx => releaseProviderWait_moves h hx
  | wakeForProviderSpend now owner g envelope =>
    exact commit_moves fun db' hx => wakeForProviderSpend_moves hx
  | wakeDueBackoff now limit => exact commit_moves fun db' hx => wakeDueBackoff_moves hx
  | parkSourceTaskForRepair i child reason =>
    exact commit_moves fun db' hx => parkSourceTaskForRepair_moves h hx
  | resumeSourceAfterRepair i =>
    exact commit_moves fun db' hx => resumeSourceAfterRepair_moves h.1 h.2 hx
  | spend o => exact aux_moves rfl rfl rfl rfl

end LifeAI
