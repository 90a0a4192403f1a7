import LifeAI.Jobs.Kept
import LifeAI.Recovery.Takeover
import LifeAI.Tasks.DispatchCases

/-!
# What a takeover does besides the dispatch

Apart from the reset of the task and its dispatch, a takeover writes recovery records, fences the
dead job, and sees what the old worker commits in between: none of it brings a job to life
(`JobsClosed`).
-/

namespace LifeAI

variable {P : Db → Prop} {db db' : Db}

/-- the task put back to `ready`, with its event -/
def Db.reset (i : TaskId) (t : Task) (db : Db) : Db :=
  Db.addEvents { db with tasks := db.tasks.set i { t with status := .ready } }
    [{ task := i, kind := .retryScheduled, reason := some "recovery_takeover" }]

theorem resetTaskForTakeover_ok {i : TaskId} : resetTaskForTakeover db i = .ok db' ↔
    ∃ t, db.tasks[i]? = some t ∧ t.status = .running ∧
      ({ t with status := .ready } : Task).checks ∧ db' = db.reset i t := by
  unfold resetTaskForTakeover
  simp only [bind_eq_ok, Db.lockTask_ok, guard_eq_ok, Db.setTask_ok, not_not]
  constructor
  · rintro ⟨t, ht, hs, db1, ⟨hc, rfl⟩, h⟩
    cases h
    exact ⟨t, ht, hs, hc, rfl⟩
  · rintro ⟨t, ht, hs, hc, rfl⟩
    exact ⟨t, ht, hs, _, ⟨hc, rfl⟩, rfl⟩

/-- what survives writes to the recovery records, and writes to the jobs that bring none to
life -/
structure JobsClosed (P : Db → Prop) : Prop where
  recoveries : ∀ db rs, P db → P { db with recoveries := rs }
  jobs : ∀ db js, JobsKept (fun _ => False) db.jobs js → P db → P { db with jobs := js }

theorem setRecovery_keeps (hP : JobsClosed P) (k : RecoveryId) (r : Recovery) :
    Tx.Keeps (P) (setRecovery k r) :=
  .flush fun _ _ _ hw h => by
    cases h
    exact hP.recoveries _ _ hw

theorem pass_keeps (env : TakeoverEnv) (s : TakeoverStep) :
    Tx.Keeps (P) (env.pass s) := by
  unfold TakeoverEnv.pass
  split
  · exact .pure ()
  · exact .raise _

theorem oldWorkerWrites_keeps (revived : JobId → Prop) (now : Time) (j : JobId)
    (ws : List OldWorkerWrite) (jobs : List Job) :
    JobsKept revived jobs (oldWorkerWrites now j ws jobs) := by
  unfold oldWorkerWrites
  induction ws generalizing jobs with
  | nil => exact .refl jobs
  | cons w ws ih =>
    exact (JobsKept.transact fun jobs' h => GuardedWrite.exec_keeps h).trans (ih _)

theorem othersCommit_keeps (hP : JobsClosed P) {f : List Job → List Job}
    (hf : ∀ jobs, JobsKept (fun _ => False) jobs (f jobs)) :
    Tx.Keeps (P) (othersCommit f) :=
  fun _ hd hw => ⟨hP.jobs _ _ (hf _) hd, hP.jobs _ _ (hf _) hw⟩

/-- a statement that writes the jobs -/
theorem flushJobs_keeps (hP : JobsClosed P) {f : Db → Except Err (List Job)}
    (hf : ∀ db jobs, f db = .ok jobs → JobsKept (fun _ => False) db.jobs jobs) :
    Tx.Keeps (P) (Tx.flush fun db => do
      let jobs ← f db
      return ((), { db with jobs })) :=
  .flush fun w _ w' hw h => by
    rw [bind_eq_ok] at h
    obtain ⟨jobs, h1, h2⟩ := h
    cases h2
    exact hP.jobs _ _ (hf w jobs h1) hw

theorem finishTakeover_keeps (hP : JobsClosed P) (env : TakeoverEnv) (k : RecoveryId) (r : Recovery)
    (j : JobId) : Tx.Keeps (P) (finishTakeover env k r j) := by
  unfold finishTakeover
  refine .bind (setRecovery_keeps hP _ _) fun _ => .bind (pass_keeps _ _) fun _ =>
    .bind (setRecovery_keeps hP _ _) fun _ => .bind (setRecovery_keeps hP _ _) fun _ =>
    .bind (othersCommit_keeps hP (oldWorkerWrites_keeps _ _ _ _)) fun _ =>
    .bind (pass_keeps _ _) fun _ => .bind (flushJobs_keeps hP ?_) fun _ =>
    .bind (pass_keeps _ _) fun _ => .bind (setRecovery_keeps hP _ _) fun _ =>
    .bind (setRecovery_keeps hP _ _) fun _ => .pure _
  exact fun _ _ h => markJobSuperseded_keeps h

/-- the decline, after the reset -/
theorem decline_keeps (hP : JobsClosed P) (env : TakeoverEnv) (k : RecoveryId) (r : Recovery) :
    Tx.Keeps (P) (do
      setRecovery k { r with status := .takingOver }
      othersCommit (oldWorkerWrites env.now r.jobId env.meanwhile)
      env.pass .fence
      Tx.flush fun db => do
        let jobs ← markJobFailedAfterGovernedRecoveryDecline env.now (db.takingOver r.jobId)
          db.jobs r.jobId
        return ((), { db with jobs })
      env.pass .finish
      setRecovery k { r with status := .completed }
      return (none : Option JobId)) := by
  refine .bind (setRecovery_keeps hP _ _) fun _ =>
    .bind (othersCommit_keeps hP (oldWorkerWrites_keeps _ _ _ _)) fun _ =>
    .bind (pass_keeps _ _) fun _ => .bind (flushJobs_keeps hP ?_) fun _ =>
    .bind (pass_keeps _ _) fun _ => .bind (setRecovery_keeps hP _ _) fun _ => .pure _
  exact fun _ _ h => markJobFailedAfterDecline_keeps h

theorem beginTakeover_ok {k : RecoveryId} {r : Recovery}
    (h : beginTakeover k db = .ok (r, db')) :
    db' = db ∧ db.recoveries[k]? = some r ∧ r.refusal = none := by
  unfold beginTakeover at h
  split at h
  · exact absurd h (by simp)
  · next r' hr =>
    split at h
    · exact absurd h (by simp)
    · next hrefuse =>
      simp only [bind_eq_ok] at h
      obtain ⟨t, -, g, -, h⟩ := h
      cases h
      exact ⟨rfl, hr, hrefuse⟩

/-- `P` holds of what a program leaves that starts on `db`, in the view and in what is durable -/
def Ends (P : Db → Prop) (db : Db) {α : Type} (m : Tx Db Err α) : Prop :=
  P (m (Tx.opened db)).2.durable ∧ P (m (Tx.opened db)).2.work

theorem Ends.settle {α : Type} {m : Tx Db Err α} (h : Ends P db m) :
    P (Tx.settle (m (Tx.opened db))) := by
  unfold Tx.settle
  split
  · exact h.2
  · exact h.1

/-- the reset of a task, and what follows -/
theorem resetThen_ends {α : Type} {i : TaskId} {rest : Unit → Tx Db Err α} (h : P db)
    (hreset : ∀ db1, resetTaskForTakeover db i = .ok db1 → P db1)
    (hrest : ∀ u, Tx.Keeps P (rest u)) :
    Ends P db (do
      let u ← Tx.flush fun db => (resetTaskForTakeover db i).map fun db => ((), db)
      rest u) := by
  have hmap : ∀ x, resetTaskForTakeover db i = x →
      (resetTaskForTakeover (Tx.opened db).work i).map (fun db => ((), db)) =
        x.map fun db => ((), db) := fun x hx => by rw [← hx]; rfl
  unfold Ends
  cases hr : resetTaskForTakeover db i with
  | error e =>
    rw [Tx.bind_error (Tx.flush_error (hmap _ hr))]
    exact ⟨h, h⟩
  | ok db1 =>
    rw [Tx.bind_ok (Tx.flush_ok (hmap _ hr))]
    exact hrest () _ h (hreset db1 hr)

/-- what the reset and the dispatch keep, the takeover keeps -/
theorem executeTakeover_keeps (hP : JobsClosed P) (h : P db) {env : TakeoverEnv}
    {k : RecoveryId}
    (hreset : ∀ r db1, db.recoveries[k]? = some r → r.refusal = none →
      resetTaskForTakeover db r.taskId = .ok db1 → P db1)
    (hdispatch : ∀ r, db.recoveries[k]? = some r → r.refusal = none →
      Tx.Keeps P (dispatchReadyTask env.toEnv r.taskId)) :
    Ends P db (executeTakeover env k) := by
  unfold executeTakeover
  cases hb : beginTakeover k db with
  | error e =>
    unfold Ends
    rw [Tx.bind_error (Tx.flush_error hb)]
    exact ⟨h, h⟩
  | ok p =>
    obtain ⟨r, db1⟩ := p
    obtain ⟨rfl, hr, ha⟩ := beginTakeover_ok hb
    unfold Ends
    rw [Tx.bind_ok (Tx.flush_ok hb)]
    unfold TakeoverEnv.pass
    cases env.fault .start with
    | some e => exact ⟨h, h⟩
    | none =>
      dsimp only
      split
      · exact resetThen_ends h (fun db1 => hreset r db1 hr ha) fun _ => decline_keeps hP env k r
      · refine resetThen_ends h (fun db1 => hreset r db1 hr ha) fun _ =>
          .bind (pass_keeps _ _) fun _ => ?_
        exact .bind (hdispatch r hr ha) fun j => finishTakeover_keeps hP env k r j

end LifeAI
