import LifeAI.Recovery.TakeoverCases
import LifeAI.Tasks.System

/-!
# What a takeover leaves when it raises

The dispatch inside `executeTakeover` commits, so what raises after it comes too late: the new
job, the running task and its attempt are durable.

* `Db.Untouched`      what the caller of a takeover that raised should find;
* `Db.createsNewJob`  the takeover gets as far as the commit inside `createJob`;
* `Db.finishes`       nothing after that commit raises;
* `executeTakeover_uncreated`, `executeTakeover_created`  the two ways through a takeover.
-/

namespace LifeAI

variable {env : TakeoverEnv} {db db' : Db} {k : RecoveryId} {r : Recovery}

/-- the attempt that the task has in hand -/
def Task.attempt (t : Task) : TaskStatus × Int × Option JobId := (t.status, t.attempts, t.mainaiJobId)

/-- `db'` has no new job of the task, the task as in `db`, and the old job as in `db` or as its
own worker has left it -/
structure Db.Untouched (env : TakeoverEnv) (r : Recovery) (db db' : Db) : Prop where
  noNewJob : ∀ (j : JobId) (q : Job), db'.jobs[j]? = some q →
    ⟨.mainaiTask, r.taskId⟩ ∈ q.inputRefs → j < db.jobs.length
  task : db'.tasks[r.taskId]?.map Task.attempt = db.tasks[r.taskId]?.map Task.attempt
  oldJob : db'.jobs[r.jobId]? = db.jobs[r.jobId]? ∨
    db'.jobs[r.jobId]? = (oldWorkerWrites env.now r.jobId env.meanwhile db.jobs)[r.jobId]?

/-- a takeover that raises, and is rolled back by its caller, leaves everything untouched -/
def AllOrNothing (env : TakeoverEnv) (db : Db) (k : RecoveryId) : Prop :=
  ∀ r e, db.recoveries[k]? = some r → (executeTakeover env k (Tx.opened db)).1 = .error e →
    db.Untouched env r (Tx.settle (executeTakeover env k (Tx.opened db)))

/-! ## the condition -/

/-- the takeover gets as far as the commit inside `create_job` -/
def Db.createsNewJob (env : TakeoverEnv) (db : Db) (r : Recovery) : Bool :=
  r.refusal = none ∧ env.fault .start = none ∧ env.governed = false ∧ env.fault .dispatch = none ∧
    db.tasks[r.taskId]?.any fun t =>
      t.status = .running ∧ t.checks ∧ t.attempts < t.maxAttempts ∧
        db.goals[t.goalId]?.any fun g =>
          g.ownerId = t.ownerId ∧ requireTaskApproval db r.taskId t g.approvalPolicy = .ok () ∧
            env.capable .taskExecution ∧ db.keyedJob (dispatchRequest r.taskId t) = none

/-- the row that `mark_job_superseded` writes -/
def Job.superseded (now : Time) (by_ : JobId) (q : Job) : Job :=
  { q with
    status := .superseded
    completedAt := some (q.completedAt.getD now)
    supersededByJobId := some by_ }

/-- nothing raises after the commit: no fault, and the old job is still dead, after the last write
of its worker, when the fence is reached -/
def Db.finishes (env : TakeoverEnv) (db : Db) (r : Recovery) : Bool :=
  env.fault .salvage = none ∧ env.fault .fence = none ∧ env.fault .finish = none ∧
    (oldWorkerWrites env.now r.jobId env.meanwhile db.jobs)[r.jobId]?.any fun q =>
      deadJob env.now true q ∧ (q.superseded env.now db.jobs.length).checks

/-! ## the old worker's writes, row by row -/

/-- what a guarded write does to the row of its job; it leaves a job that is not running alone -/
theorem guardedJobWrite_row (j : JobId) (w : String) (g : Nat) (set : Job → Job) :
    ∃ f : Job → Job, (∀ q, q.status ≠ .running → f q = q) ∧
      ∀ jobs, (transact jobs (guardedJobWrite jobs j w g set))[j]? = jobs[j]?.map f := by
  refine ⟨fun q => if q.heldBy w g ∧ (set q).checks ∧ progressKept q (set q) then set q else q,
    fun q hq => ?_, fun jobs => ?_⟩
  · have hn : ¬ q.heldBy w g := fun h => hq (Job.heldBy_iff.1 h).2.2
    simp [hn]
  · unfold guardedJobWrite setRow
    cases hr : jobs[j]? with
    | none => simp [hr]
    | some q =>
      by_cases hh : q.heldBy w g
      · by_cases hc : (set q).checks
        · by_cases hp : progressKept q (set q)
          · simp [hh, hc, hp, getElem?_set_row hr]
          · simp [hh, hc, hp, hr]
        · simp [hh, hc, hr]
      · simp [hh, hr]

theorem GuardedWrite.row (gw : GuardedWrite) (now : Time) (j : JobId) (w : String) (g : Nat) :
    ∃ f : Job → Job, (∀ q, q.status ≠ .running → f q = q) ∧
      ∀ jobs, (transact jobs (gw.exec now jobs j w g))[j]? = jobs[j]?.map f := by
  cases hv : gw.vacuous with
  | false =>
    obtain ⟨set, hset⟩ := GuardedWrite.exec_fence hv now
    obtain ⟨f, hf, h⟩ := guardedJobWrite_row j w g set
    exact ⟨f, hf, fun jobs => by rw [hset, h]⟩
  | true =>
    obtain rfl := GuardedWrite.eq_of_vacuous hv
    refine ⟨id, fun _ _ => rfl, fun jobs => ?_⟩
    rw [Option.map_id_fun, id]
    rfl

theorem oldWorkerWrites_row (now : Time) (j : JobId) (ws : List OldWorkerWrite) :
    ∃ f : Job → Job, (∀ q, q.status ≠ .running → f q = q) ∧
      ∀ jobs, (oldWorkerWrites now j ws jobs)[j]? = jobs[j]?.map f := by
  induction ws with
  | nil =>
    refine ⟨id, fun _ _ => rfl, fun jobs => ?_⟩
    rw [Option.map_id_fun, id]
    rfl
  | cons w ws ih =>
    obtain ⟨f, hf, h⟩ := w.write.row now j w.worker w.generation
    obtain ⟨g, hg, h'⟩ := ih
    refine ⟨g ∘ f, fun q hq => ?_, fun jobs => ?_⟩
    · rw [Function.comp_apply, hf q hq, hg q hq]
    · rw [oldWorkerWrites, List.foldl_cons, ← oldWorkerWrites, h', h, Option.map_map]

theorem GuardedWrite.length {gw : GuardedWrite} {now : Time} {j : JobId} {w : String} {g : Nat}
    (jobs : List Job) : (transact jobs (gw.exec now jobs j w g)).length = jobs.length := by
  cases hv : gw.vacuous with
  | false =>
    obtain ⟨set, hset⟩ := GuardedWrite.exec_fence hv now
    rw [hset]
    cases h : guardedJobWrite jobs j w g set with
    | error e => rfl
    | ok jobs' =>
      obtain ⟨q, -, -, rfl⟩ := guardedJobWrite_ok h
      simp
  | true =>
    obtain rfl := GuardedWrite.eq_of_vacuous hv
    rfl

theorem oldWorkerWrites_length (now : Time) (j : JobId) (ws : List OldWorkerWrite)
    (jobs : List Job) : (oldWorkerWrites now j ws jobs).length = jobs.length := by
  unfold oldWorkerWrites
  induction ws generalizing jobs with
  | nil => rfl
  | cons w ws ih => rw [List.foldl_cons, ih, GuardedWrite.length]

/-- a row is still there after the old worker's writes, with its references -/
theorem oldWorkerWrites_refs {now : Time} {j i : JobId} {ws : List OldWorkerWrite}
    {jobs : List Job} {q : Job} (h : jobs[i]? = some q) :
    ∃ q', (oldWorkerWrites now j ws jobs)[i]? = some q' ∧ q'.inputRefs = q.inputRefs := by
  have hi : i < (oldWorkerWrites now j ws jobs).length := by
    rw [oldWorkerWrites_length]
    exact (List.getElem?_eq_some_iff.1 h).1
  have hq' := List.getElem?_eq_getElem hi
  obtain ⟨q1, hq1, -, href, -⟩ :=
    oldWorkerWrites_keeps (fun _ => False) now j ws jobs i _ hq'
  rw [h, Option.some.injEq] at hq1
  exact ⟨_, hq', by rw [href, hq1]⟩

/-- a queued row more does not change what the fence finds -/
theorem oldWorkerWrites_append {now now' : Time} {j : JobId} {ws : List OldWorkerWrite}
    {jobs : List Job} {q : Job} {b : Bool} {p : Job → Bool} (hq : q.status = .queued) :
    (oldWorkerWrites now j ws (jobs ++ [q]))[j]?.any (fun r => deadJob now' b r ∧ p r) =
      (oldWorkerWrites now j ws jobs)[j]?.any fun r => deadJob now' b r ∧ p r := by
  obtain ⟨f, hf, h⟩ := oldWorkerWrites_row now j ws
  rw [h, h, List.getElem?_append]
  split
  · rfl
  · next hj =>
    rw [List.getElem?_eq_none (not_lt.1 hj)]
    cases hl : [q][j - jobs.length]? with
    | none => rfl
    | some q' =>
      obtain rfl := List.mem_singleton.1 (List.mem_of_getElem? hl)
      rw [Option.map_some, hf _ (by simp [hq])]
      simp [deadJob, hq]

/-! ## the steps after the dispatch -/

theorem setRecovery_silent (k : RecoveryId) (r : Recovery) : Tx.Silent (setRecovery k r) :=
  .flush _

theorem pass_ok {st : TakeoverStep} {s : Session Db} (h : env.fault st = none) :
    env.pass st s = (.ok (), s) := by
  rw [TakeoverEnv.pass, h]
  rfl

theorem pass_error {st : TakeoverStep} {s : Session Db} {e : Err} (h : env.fault st = some e) :
    env.pass st s = (.error e, s) := by
  rw [TakeoverEnv.pass, h]
  rfl

theorem pass_silent (env : TakeoverEnv) (s : TakeoverStep) : Tx.Silent (env.pass s) := by
  unfold TakeoverEnv.pass
  split
  · exact .pure ()
  · exact .raise _

/-- the old worker's writes, as other sessions see them -/
def Db.meanwhile (env : TakeoverEnv) (r : Recovery) (db : Db) : Db :=
  { db with jobs := oldWorkerWrites env.now r.jobId env.meanwhile db.jobs }

theorem othersCommit_publishes (env : TakeoverEnv) (r : Recovery) :
    Tx.Publishes (Db.meanwhile env r)
      (othersCommit (oldWorkerWrites env.now r.jobId env.meanwhile)) :=
  fun _ => .inr rfl

theorem finishTakeover_publishes (env : TakeoverEnv) (k : RecoveryId) (r : Recovery) (j : JobId) :
    Tx.Publishes (Db.meanwhile env r) (finishTakeover env k r j) := by
  unfold finishTakeover
  refine (setRecovery_silent _ _).before fun _ => (pass_silent _ _).before fun _ =>
    (setRecovery_silent _ _).before fun _ => (setRecovery_silent _ _).before fun _ =>
    (othersCommit_publishes env r).bind fun _ => (pass_silent _ _).bind fun _ => .bind (.flush _) ?_
  exact fun _ => (pass_silent _ _).bind fun _ => (setRecovery_silent _ _).bind fun _ =>
    (setRecovery_silent _ _).bind fun _ => .pure _

theorem decline_publishes (env : TakeoverEnv) (k : RecoveryId) (r : Recovery) :
    Tx.Publishes (Db.meanwhile env r) (declineTakeoverForGovernedGoal env k r) := by
  unfold declineTakeoverForGovernedGoal
  refine (Tx.Silent.flush _).before fun _ => (setRecovery_silent _ _).before fun _ =>
    (othersCommit_publishes env r).bind fun _ => (pass_silent _ _).bind fun _ => .bind (.flush _) ?_
  exact fun _ => (pass_silent _ _).bind fun _ => (setRecovery_silent _ _).bind fun _ => .pure _

/-- the UPDATE of one row is accepted -/
theorem setRow_accepts (jobs : List Job) (j : JobId) {q q' : Job} (hp : progressKept q q') :
    (∃ jobs', setRow jobs j q q' = .ok jobs') ↔ q'.checks := by
  constructor
  · rintro ⟨jobs', h⟩
    exact (setRow_ok h).1
  · intro hc
    exact ⟨jobs.set j q', by simp [setRow, hc, hp]⟩

/-- the fence accepts a dead job whose superseded row is well formed -/
theorem markJobSuperseded_accepts {now : Time} {b : Bool} {jobs : List Job} {j by_ : JobId} :
    (∃ jobs', markJobSuperseded now b jobs j by_ = .ok jobs') ↔
      jobs[j]?.any fun q => deadJob now b q ∧ (q.superseded now by_).checks := by
  unfold markJobSuperseded
  cases jobs[j]? with
  | none => simp
  | some q =>
    by_cases hd : deadJob now b q
    · have hp : progressKept q (q.superseded now by_) := by simp [progressKept, Job.superseded]
      have hrow := setRow_accepts jobs j hp
      simpa [hd, Job.superseded] using hrow
    · simp [hd]

/-- the record is at `taking_over` when the fence reads it -/
theorem takingOver_set {rs : List Recovery} (hk : k < rs.length)
    (hdb : db.recoveries = rs.set k { r with status := .takingOver }) :
    db.takingOver r.jobId := by
  unfold Db.takingOver
  rw [hdb, List.any_eq_true]
  exact ⟨_, List.mem_set hk _, by simp⟩

variable {α : Type} {s : Session Db}

theorem returns_pass {st : TakeoverStep} {m : Unit → Tx Db Err α} :
    Tx.Returns (env.pass st >>= m) s ↔ env.fault st = none ∧ Tx.Returns (m ()) s := by
  unfold TakeoverEnv.pass
  cases hf : env.fault st with
  | none => simp only [true_and]; exact Iff.rfl
  | some e =>
    simp only [reduceCtorEq, false_and, iff_false]
    rintro ⟨a, h⟩
    exact absurd h (by simp [Tx.bind_apply, Tx.raise])

theorem returns_setRecovery {m : Unit → Tx Db Err α} :
    Tx.Returns (setRecovery k r >>= m) s ↔ Tx.Returns (m ())
      { s with work := { s.work with recoveries := s.work.recoveries.set k r } } := Iff.rfl

theorem returns_othersCommit {f : List Job → List Job} {m : Unit → Tx Db Err α} :
    Tx.Returns (othersCommit f >>= m) s ↔ Tx.Returns (m ())
      { durable := { s.durable with jobs := f s.durable.jobs }
        work := { s.work with jobs := f s.work.jobs } } := Iff.rfl

/-- the steps after the dispatch return exactly if none has a fault and the fence accepts -/
theorem finishTakeover_returns {j : JobId} (hk : k < s.work.recoveries.length) :
    Tx.Returns (finishTakeover env k r j) s ↔
      env.fault .salvage = none ∧ env.fault .fence = none ∧ env.fault .finish = none ∧
        (oldWorkerWrites env.now r.jobId env.meanwhile s.work.jobs)[r.jobId]?.any fun q =>
          deadJob env.now true q ∧ (q.superseded env.now j).checks := by
  unfold finishTakeover
  rw [returns_setRecovery, returns_pass, returns_setRecovery, returns_setRecovery,
    returns_othersCommit, returns_pass, Tx.returns_flush]
  simp only [returns_pass, returns_setRecovery, Tx.returns_pure, and_true]
  rw [takingOver_set (k := k) (r := r) (by simpa using hk) rfl, ← markJobSuperseded_accepts]
  simp only [bind_eq_ok, pure, Except.pure, Except.ok.injEq]
  refine and_congr_right fun _ => and_congr_right fun _ => ?_
  constructor
  · rintro ⟨a, w, ⟨jobs', hj, -⟩, hf⟩
    exact ⟨hf, jobs', hj⟩
  · rintro ⟨hf, jobs', hj⟩
    exact ⟨(), _, ⟨jobs', hj, rfl⟩, hf⟩

/-! ## the steps up to the dispatch -/

variable {i : TaskId} {t : Task}

theorem reset_run (h : resetTaskForTakeover db i = .ok db') (d : Db) :
    Tx.flush (fun db => (resetTaskForTakeover db i).map fun db => ((), db)) ⟨d, db⟩ =
      (.ok (), ⟨d, db'⟩) := by
  simp [Tx.flush, h, Except.map]

theorem reset_raises {e : Err} (h : resetTaskForTakeover db i = .error e) (d : Db) :
    Tx.flush (fun db => (resetTaskForTakeover db i).map fun db => ((), db)) ⟨d, db⟩ =
      (.error e, ⟨d, db⟩) := by
  simp [Tx.flush, h, Except.map]

theorem beginTakeover_run (h : beginTakeover k db = .ok (r, db)) :
    Tx.flush (beginTakeover k) (Tx.opened db) = (.ok r, ⟨db, db⟩) :=
  Tx.flush_ok h

theorem dispatchKey_ne (i : TaskId) (attempts : Int) : dispatchKey i attempts ≠ "" := by
  intro h
  have h1 := congrArg String.length h
  unfold dispatchKey at h1
  simp only [String.length_append] at h1
  have h2 : "mainai_task_execution:".length = 22 := rfl
  rw [h2] at h1
  exact absurd h1 (by simp)

/-- a dispatch creates its job if its key is new and the contract of the job type accepts it -/
theorem dispatchRequest_creates {env : Env} : (dispatchRequest i t).creates env db ↔
    db.keyedJob (dispatchRequest i t) = none ∧ (dispatchRequest i t).validate env db = .ok () := by
  have hkey : (dispatchRequest i t).idempotencyKey = some (dispatchKey i t.attempts) := rfl
  have hlook : db.replayedJob (dispatchRequest i t) = db.keyedJob (dispatchRequest i t) := by
    unfold Db.replayedJob
    rw [hkey, if_neg (by simp [dispatchKey_ne])]
  unfold JobRequest.creates
  rw [hlook, hkey]
  simp only [reduceCtorEq, false_or]
  constructor
  · rintro ⟨h1, h2, -⟩
    exact ⟨h1, h2⟩
  · rintro ⟨h1, h2⟩
    exact ⟨h1, h2, h1⟩

/-- what approval reads of a task and of the events -/
theorem requireTaskApproval_congr {t' : Task} {policy : String}
    (hty : t'.taskType = t.taskType) (hreq : t'.approvalRequired = t.approvalRequired)
    (hev : db'.approvalGranted i = db.approvalGranted i) :
    requireTaskApproval db' i t' policy = requireTaskApproval db i t policy := by
  unfold requireTaskApproval
  rw [hty, hreq, hev]

theorem reset_approvalGranted : (db.reset i t).approvalGranted i = db.approvalGranted i := by
  simp [Db.approvalGranted, Db.reset]

theorem begun_approvalGranted {now : Time} :
    (db.begun now i t).approvalGranted i = db.approvalGranted i := by
  simp [Db.approvalGranted, Db.begun]

/-- the contract of a dispatched job, read after the task was marked running -/
theorem begun_validate (env : Env) (ht : db.tasks[i]? = some t) :
    (dispatchRequest i t).validate env (db.begun env.now i t) = .ok () ↔
      env.capable .taskExecution ∧ ∃ g, db.goals[t.goalId]? = some g ∧ g.ownerId = t.ownerId ∧
        requireTaskApproval db i t g.approvalPolicy = .ok () := by
  have hrow := begun_row env.now ht
  have happ : ∀ policy, requireTaskApproval (db.begun env.now i t) i (t.dispatched env.now) policy
      = requireTaskApproval db i t policy :=
    fun policy => requireTaskApproval_congr rfl rfl begun_approvalGranted
  unfold JobRequest.validate
  simp only [guard_eq_ok, not_not, dispatchRequest, validateTaskExecutionInputRefs, hrow]
  refine and_congr_right fun _ => ?_
  have hown : (t.dispatched env.now).ownerId = t.ownerId := rfl
  have hst : (t.dispatched env.now).status = .running := rfl
  have hgoal : (db.begun env.now i t).goals[(t.dispatched env.now).goalId]? =
      db.goals[t.goalId]? := rfl
  simp only [hown, hst, hgoal, if_true, true_and]
  cases db.goals[t.goalId]? with
  | none => simp
  | some g =>
    simp only [Option.some.injEq, exists_eq_left', happ, guard_eq_ok, not_not]
    refine and_congr_right fun _ => ?_
    cases requireTaskApproval db i t g.approvalPolicy <;> simp

/-- the task of a dead job, reset and dispatched again -/
theorem reset_dispatches (env : TakeoverEnv) (ht : db.tasks[i]? = some t) (hs : t.status = .running) :
    (({ t with status := .ready } : Task).checks ∧
      ∃ t', beginDispatch env.now i (db.reset i t) =
          .ok (t', (db.reset i t).begun env.now i t') ∧
        (dispatchRequest i t').creates env.toEnv ((db.reset i t).begun env.now i t')) ↔
      t.checks ∧ t.attempts < t.maxAttempts ∧ db.goals[t.goalId]?.any fun g =>
        g.ownerId = t.ownerId ∧ requireTaskApproval db i t g.approvalPolicy = .ok () ∧
          env.capable .taskExecution ∧ db.keyedJob (dispatchRequest i t) = none := by
  have hrow : (db.reset i t).tasks[i]? = some { t with status := .ready } := by
    rw [Db.reset, Db.addEvents_tasks, getElem?_set_row ht, if_pos rfl]
  have happ : ∀ policy, requireTaskApproval (db.reset i t) i { t with status := .ready } policy
      = requireTaskApproval db i t policy :=
    fun policy => requireTaskApproval_congr rfl rfl reset_approvalGranted
  have hgoal : ∀ g, (db.reset i t).goal g = db.goal g := fun g => rfl
  have hready : ({ t with status := .ready } : Task).checks ↔ t.checks := by
    simp [Task.checks, TaskStatus.terminal, hs]
  have hnext : (Task.dispatched env.now { t with status := .ready }).checks ∧ t.checks ↔
      t.checks ∧ t.attempts < t.maxAttempts := by
    simp only [Task.checks_iff, Task.dispatched, TaskStatus.terminal, hs]
    constructor
    · rintro ⟨⟨h1, h2, h3, h4⟩, h5, h6, h7, h8⟩
      exact ⟨⟨h5, h6, h7, h8⟩, by omega⟩
    · rintro ⟨⟨h5, h6, h7, h8⟩, h9⟩
      exact ⟨⟨by omega, h6, by omega, by simpa using h8⟩, h5, h6, h7, h8⟩
  have hcreate : (dispatchRequest i { t with status := .ready }).creates env.toEnv
      ((db.reset i t).begun env.now i { t with status := .ready }) ↔
      db.keyedJob (dispatchRequest i t) = none ∧ env.capable .taskExecution ∧
        ∃ g, db.goals[t.goalId]? = some g ∧ g.ownerId = t.ownerId ∧
          requireTaskApproval db i t g.approvalPolicy = .ok () := by
    rw [dispatchRequest_creates, begun_validate env.toEnv hrow]
    simp only [happ]
    exact Iff.rfl
  have hfound : ∀ g, db.goal t.goalId = .ok g ↔ db.goals[t.goalId]? = some g := by
    intro g
    unfold Db.goal
    cases db.goals[t.goalId]? <;> simp
  simp only [Option.any_eq_true, decide_eq_true_eq]
  constructor
  · rintro ⟨hc, t', hb, hcr⟩
    obtain ⟨ht', -, -, hd, -⟩ := beginDispatch_ok.1 hb
    rw [hrow, Option.some.injEq] at ht'
    subst ht'
    obtain ⟨hkey, hcap, g, hg, hown, hap⟩ := hcreate.1 hcr
    obtain ⟨hc', hlt⟩ := hnext.1 ⟨hd, hready.1 hc⟩
    exact ⟨hc', hlt, g, hg, hown, hap, hcap, hkey⟩
  · rintro ⟨hc, hlt, g, hg, hown, hap, hcap, hkey⟩
    have hd := (hnext.2 ⟨hc, hlt⟩).1
    refine ⟨hready.2 hc, _, beginDispatch_ok.2 ⟨hrow, rfl, ⟨g, ?_, ?_⟩, hd, rfl⟩,
      hcreate.2 ⟨hkey, hcap, g, hg, hown, hap⟩⟩
    · rw [hgoal, hfound, hg]
    · rw [happ, hap]

/-! ## the two ways through a takeover -/

/-- the session after a dispatch that has created a job -/
structure DispatchedSession (db : Db) (r : Recovery) (s : Session Db) : Prop where
  created : ∃ q : Job, s.durable.jobs = db.jobs ++ [q] ∧ q.status = .queued ∧
    ⟨.mainaiTask, r.taskId⟩ ∈ q.inputRefs
  jobs : s.work.jobs = s.durable.jobs
  recoveries : s.work.recoveries = db.recoveries

theorem beginTakeover_eq (hr : db.recoveries[k]? = some r) :
    beginTakeover k db = .ok (r, db) ↔ r.refusal = none ∧
      ∃ t, db.tasks[r.taskId]? = some t ∧ (db.goals[t.goalId]?).isSome := by
  unfold beginTakeover
  simp only [hr]
  cases r.refusal with
  | some e => simp
  | none =>
    simp only [bind_eq_ok, Db.lockTask_ok, true_and, Db.goal]
    constructor
    · rintro ⟨t, ht, g, hg, -⟩
      refine ⟨t, ht, ?_⟩
      cases hx : db.goals[t.goalId]? with
      | none => simp [hx] at hg
      | some g => rfl
    · rintro ⟨t, ht, hg⟩
      obtain ⟨g, hg⟩ := Option.isSome_iff_exists.1 hg
      exact ⟨t, ht, g, by rw [hg], rfl⟩

/-- a takeover that creates its job is the steps after the dispatch, on what has been committed -/
theorem executeTakeover_created (hr : db.recoveries[k]? = some r) (h : db.createsNewJob env r) :
    ∃ s, executeTakeover env k (Tx.opened db) = finishTakeover env k r db.jobs.length s ∧
      DispatchedSession db r s := by
  simp only [Db.createsNewJob, decide_eq_true_eq, Option.any_eq_true] at h
  obtain ⟨href, hstart, hgov, hfault, t, ht, hs, hcond⟩ := h
  have hgoal : (db.goals[t.goalId]?).isSome := by
    obtain ⟨-, -, g, hg, -⟩ := hcond
    rw [hg]
    rfl
  have hb := (beginTakeover_eq hr).2 ⟨href, t, ht, hgoal⟩
  obtain ⟨hc, t', hbegin, hcr⟩ := (reset_dispatches _ ht hs).2
    (by simpa only [Option.any_eq_true, decide_eq_true_eq] using hcond)
  have hreset : resetTaskForTakeover db r.taskId = .ok (db.reset r.taskId t) :=
    resetTaskForTakeover_ok.2 ⟨t, ht, hs, hc, rfl⟩
  unfold executeTakeover
  rw [Tx.bind_ok (beginTakeover_run hb), Tx.bind_ok (pass_ok hstart), if_neg (by simp [hgov]),
    Tx.bind_ok (reset_run hreset db), Tx.bind_ok (pass_ok hfault)]
  rcases dispatch_cases env.toEnv r.taskId ⟨db, db.reset r.taskId t⟩ with
    ⟨e, he, -⟩ | ⟨t1, hbegin1, ⟨hcr1, hrun⟩ | ⟨hcr1, -⟩⟩
  · exact absurd (hbegin.symm.trans he) (by simp)
  · rw [Tx.bind_ok hrun]
    exact ⟨_, rfl, ⟨_, rfl, rfl, by simp [JobRequest.row, dispatchRequest]⟩, rfl, rfl⟩
  · have heq := hbegin.symm.trans hbegin1
    rw [Except.ok.injEq, Prod.mk.injEq] at heq
    rw [heq.1] at hcr
    exact absurd hcr hcr1

/-- a takeover that creates no job makes nothing durable but the old worker's own writes -/
theorem executeTakeover_uncreated (hr : db.recoveries[k]? = some r)
    (h : ¬ db.createsNewJob env r) :
    (executeTakeover env k (Tx.opened db)).2.durable = db ∨
      (executeTakeover env k (Tx.opened db)).2.durable = db.meanwhile env r := by
  unfold executeTakeover
  cases hb : beginTakeover k db with
  | error e =>
    rw [Tx.bind_error (Tx.flush_error hb)]
    exact .inl rfl
  | ok p =>
    obtain ⟨r', db1⟩ := p
    obtain ⟨rfl, hr', href⟩ := beginTakeover_ok hb
    rw [hr, Option.some.injEq] at hr'
    subst hr'
    rw [Tx.bind_ok (beginTakeover_run hb)]
    cases hstart : env.fault .start with
    | some e =>
      rw [Tx.bind_error (pass_error hstart)]
      exact .inl rfl
    | none =>
      rw [Tx.bind_ok (pass_ok hstart)]
      cases hgov : env.governed with
      | true =>
        rw [if_pos rfl]
        exact decline_publishes env k r _
      | false =>
        rw [if_neg (by simp)]
        cases hreset : resetTaskForTakeover db1 r.taskId with
        | error e =>
          rw [Tx.bind_error (reset_raises hreset _)]
          exact .inl rfl
        | ok db2 =>
          obtain ⟨t, ht, hs, hc, rfl⟩ := resetTaskForTakeover_ok.1 hreset
          rw [Tx.bind_ok (reset_run hreset _)]
          cases hfault : env.fault .dispatch with
          | some e =>
            rw [Tx.bind_error (pass_error hfault)]
            exact .inl rfl
          | none =>
            rw [Tx.bind_ok (pass_ok hfault)]
            rcases dispatch_cases env.toEnv r.taskId ⟨db1, db1.reset r.taskId t⟩ with
              ⟨e, -, hrun⟩ | ⟨t1, hbegin, ⟨hcr, -⟩ | ⟨-, ⟨e, hrun⟩ | ⟨j, hrun⟩⟩⟩
            · rw [Tx.bind_error hrun]
              exact .inl rfl
            · refine absurd ?_ h
              have hd := (reset_dispatches env ht hs).1 ⟨hc, t1, hbegin, hcr⟩
              simp only [Db.createsNewJob, href, hstart, hgov, hfault, ht, Option.any_some, hs,
                true_and, decide_eq_true_eq]
              exact hd
            · rw [Tx.bind_error hrun]
              exact .inl rfl
            · rw [Tx.bind_ok hrun]
              exact finishTakeover_publishes env k r j _

theorem Db.Untouched.refl : db.Untouched env r db where
  noNewJob _ _ hj _ := (List.getElem?_eq_some_iff.1 hj).1
  task := rfl
  oldJob := .inl rfl

theorem Db.untouched_meanwhile : db.Untouched env r (db.meanwhile env r) where
  noNewJob j q hj _ := by
    -- a row after the old worker's writes is a row before them
    obtain ⟨q', hq', -⟩ := oldWorkerWrites_keeps (fun _ => False) _ _ _ _ j q hj
    exact (List.getElem?_eq_some_iff.1 hq').1
  task := rfl
  oldJob := .inr rfl

/-- **When a takeover is all or nothing**: whenever it creates a job, nothing after that commit
raises, neither a step of its own nor the fence on the old job. -/
theorem takeover_all_or_nothing (env : TakeoverEnv) (db : Db) (k : RecoveryId) :
    AllOrNothing env db k ↔
      ∀ r, db.recoveries[k]? = some r → db.createsNewJob env r → db.finishes env r := by
  have hfin : ∀ {r s}, db.recoveries[k]? = some r → DispatchedSession db r s →
      (Tx.Returns (finishTakeover env k r db.jobs.length) s ↔ db.finishes env r) := by
    intro r s hr hs
    obtain ⟨q, hjobs, hq, -⟩ := hs.created
    rw [finishTakeover_returns (by rw [hs.recoveries]; exact (List.getElem?_eq_some_iff.1 hr).1),
      hs.jobs, hjobs, oldWorkerWrites_append hq]
    simp only [Db.finishes, decide_eq_true_eq]
  constructor
  · intro h r hr hc
    obtain ⟨s, hrun, hs⟩ := executeTakeover_created hr hc
    by_contra hn
    obtain ⟨e, he⟩ := Tx.raises_of_not_returns (mt (hfin hr hs).1 hn)
    have hu := h r e hr (by rw [hrun, he])
    rw [hrun, Tx.settle_error he] at hu
    obtain ⟨q, hjobs, -, href⟩ := hs.created
    have hnew : s.durable.jobs[db.jobs.length]? = some q := by
      rw [hjobs, List.getElem?_concat_length]
    -- the new job is among the durable jobs
    obtain ⟨q', hq', href'⟩ : ∃ q', (finishTakeover env k r db.jobs.length s).2.durable.jobs[
        db.jobs.length]? = some q' ∧ q'.inputRefs = q.inputRefs := by
      rcases finishTakeover_publishes env k r db.jobs.length s with hd | hd
      · rw [hd]
        exact ⟨q, hnew, rfl⟩
      · rw [hd]
        exact oldWorkerWrites_refs hnew
    exact absurd (hu.noNewJob _ q' hq' (href' ▸ href)) (lt_irrefl _)
  · intro h r e hr he
    rw [Tx.settle_error he]
    by_cases hc : db.createsNewJob env r
    · obtain ⟨s, hrun, hs⟩ := executeTakeover_created hr hc
      obtain ⟨a, ha⟩ := (hfin hr hs).2 (h r hr hc)
      rw [hrun, ha] at he
      exact absurd he (by simp)
    · rcases executeTakeover_uncreated hr hc with hd | hd
      · rw [hd]
        exact .refl
      · rw [hd]
        exact db.untouched_meanwhile

/-- the lease of a job runs out, the job is classified, and then its worker renews the lease -/
def renewedRun : List Op :=
  begunRun [sampleSpec [] 3] ++
    [.recordClassification ⟨0, 0, .classified, some .nothingDone, none, false⟩,
      .guarded 70 (.renew 60) firstRunner]

set_option maxRecDepth 8000 in
/-- the fence refuses, and the second attempt of the task and its job stay -/
theorem renewed_lease_keeps_attempt : ¬ AllOrNothing { now := 71 } (sysRun renewedRun).db 0 := by
  intro h
  have hu := h ⟨0, 0, .classified, some .nothingDone, none, false⟩ (.jobNotSupersedable 0)
    (by decide) (by decide)
  exact absurd hu.task (by decide)

end LifeAI
