import LifeAI.Tasks.Dispatch

/-!
# What a dispatch leaves behind

`createJob` either raises, or answers with a job that was there, or inserts one row and commits
(`createJob_cases`).  `dispatch_cases` follows the four ways through `dispatchReadyTask`, with
what is durable and what the session sees at the end of each.
-/

namespace LifeAI

variable {db db' : Db}

/-! ## job creation -/

/-- what `_validate_task_execution_input_refs` has seen -/
theorem validateTaskExecution_ok {c : JobRequest}
    (h : validateTaskExecutionInputRefs db c = .ok ()) :
    ∃ i t, c.inputRefs = [⟨.mainaiTask, i⟩] ∧ db.tasks[i]? = some t ∧
      t.status = if c.claimed then .running else .ready := by
  unfold validateTaskExecutionInputRefs at h
  split at h
  · next i hrefs =>
    split at h
    · exact absurd h (by simp)
    · next t ht =>
      rw [guard_eq_ok, guard_eq_ok] at h
      exact ⟨i, t, hrefs, ht, by simpa using h.2.1⟩
  · exact absurd h (by simp)

theorem validate_taskExecution {env : Env} {c : JobRequest} (h : c.validate env db = .ok ())
    (ht : c.jobType = .taskExecution) :
    ∃ i t, c.inputRefs = [⟨.mainaiTask, i⟩] ∧ db.tasks[i]? = some t ∧
      t.status = if c.claimed then .running else .ready := by
  unfold JobRequest.validate at h
  rw [guard_eq_ok, ht] at h
  exact validateTaskExecution_ok h.2

/-- an INSERT that took place, or none -/
theorem insertJob_ok {c : JobRequest} {r : JobId × Bool} (h : insertJob db c = .ok (r, db')) :
    (r = (db.jobs.length, true) ∧ db' = { db with jobs := db.jobs ++ [c.row] }) ∨
      (r.2 = false ∧ db' = db ∧ c.claimed = false) := by
  unfold insertJob at h
  split at h
  · rw [guard_eq_ok] at h
    obtain ⟨hc, h⟩ := h
    cases h
    refine .inr ⟨rfl, rfl, ?_⟩
    simp only [not_or, Bool.not_eq_true] at hc
    exact hc.2
  · cases h
    exact .inl ⟨rfl, rfl⟩

/-- the request ends in an INSERT -/
def JobRequest.creates (env : Env) (db : Db) (c : JobRequest) : Prop :=
  db.replayedJob c = none ∧ c.validate env db = .ok () ∧
    (c.idempotencyKey = none ∨ db.keyedJob c = none)

theorem insertJob_fresh {c : JobRequest} (h : c.idempotencyKey = none ∨ db.keyedJob c = none) :
    insertJob db c =
      .ok ((db.jobs.length, true), { db with jobs := db.jobs ++ [c.row] }) := by
  unfold insertJob
  rcases h with h | h <;> simp [h]

theorem insertJob_found {c : JobRequest} {j : JobId} {r : Job} (hkey : c.idempotencyKey ≠ none)
    (h : db.keyedJob c = some (j, r)) :
    insertJob db c = .error .idempotencyConflict ∨ insertJob db c = .ok ((j, false), db) := by
  unfold insertJob
  rw [if_neg hkey, h]
  dsimp only
  split
  · exact .inl rfl
  · exact .inr rfl

/-- `create_job` inserts one row and commits, or raises or answers with a job that was there and
leaves everything as it is -/
theorem createJob_cases (env : Env) (c : JobRequest) (s : Session Db) :
    (c.creates env s.work ∧ createJob env c s = (.ok s.work.jobs.length,
        ⟨{ s.work with jobs := s.work.jobs ++ [c.row] },
          { s.work with jobs := s.work.jobs ++ [c.row] }⟩)) ∨
      (¬ c.creates env s.work ∧
        ((∃ e, createJob env c s = (.error e, s)) ∨ ∃ j, createJob env c s = (.ok j, s))) := by
  unfold createJob
  rw [Tx.bind_ok (Tx.flush_ok (w := s.work) rfl)]
  cases hr : s.work.replayedJob c with
  | some p =>
    obtain ⟨j, r⟩ := p
    refine .inr ⟨fun h => absurd h.1 (by simp [hr]), ?_⟩
    dsimp only
    split
    · exact .inr ⟨j, rfl⟩
    · exact .inl ⟨_, rfl⟩
  | none =>
    dsimp only
    cases hv : c.validate env s.work with
    | error e =>
      have hx : (do c.validate env s.work; insertJob s.work c) = .error e := by
        rw [hv]
        rfl
      refine .inr ⟨fun h => absurd h.2.1 (by simp [hv]), .inl ⟨e, ?_⟩⟩
      rw [Tx.bind_error (Tx.flush_error hx)]
    | ok u =>
      have hx : ∀ x, insertJob s.work c = x →
          (do c.validate env s.work; insertJob s.work c) = x := by
        intro x hi
        rw [hv]
        exact hi
      by_cases hk : c.idempotencyKey = none ∨ s.work.keyedJob c = none
      · refine .inl ⟨⟨hr, hv, hk⟩, ?_⟩
        rw [Tx.bind_ok (Tx.flush_ok (hx _ (insertJob_fresh hk)))]
        rfl
      · rw [not_or] at hk
        refine .inr ⟨fun h => ?_, ?_⟩
        · rcases h.2.2 with h | h
          · exact hk.1 h
          · exact hk.2 h
        · obtain ⟨⟨j, r⟩, hj⟩ := Option.ne_none_iff_exists'.1 hk.2
          rcases insertJob_found hk.1 hj with hi | hi
          · rw [Tx.bind_error (Tx.flush_error (hx _ hi))]
            exact .inl ⟨_, rfl⟩
          · rw [Tx.bind_ok (Tx.flush_ok (hx _ hi))]
            exact .inr ⟨j, rfl⟩

/-! ## dispatch -/

/-- the task marked running, with its event -/
def Db.begun (now : Time) (i : TaskId) (t : Task) (db : Db) : Db :=
  Db.addEvents { db with tasks := db.tasks.set i (t.dispatched now) }
    [{ task := i, kind := .dispatched, mainaiJobId := some db.jobs.length }]

/-- the task marked running, with its job -/
def Db.assigned (now : Time) (i : TaskId) (t : Task) (j : JobId) (db : Db) : Db :=
  { db with tasks := db.tasks.set i { t.dispatched now with mainaiJobId := some j } }

/-- what `beginDispatch` has seen and done -/
theorem beginDispatch_ok {now : Time} {i : TaskId} {t : Task} :
    beginDispatch now i db = .ok (t, db') ↔ db.tasks[i]? = some t ∧ t.status = .ready ∧
      (∃ goal, db.goal t.goalId = .ok goal ∧
        requireTaskApproval db i t goal.approvalPolicy = .ok ()) ∧
      (t.dispatched now).checks ∧ db' = db.begun now i t := by
  unfold beginDispatch
  simp only [bind_eq_ok, Db.lockTask_ok, guard_eq_ok, Db.setTask_ok]
  constructor
  · rintro ⟨t', ht, hs, goal, hg, _, happ, db1, ⟨hc, rfl⟩, h⟩
    cases h
    exact ⟨ht, by simpa using hs, ⟨goal, hg, happ⟩, hc, rfl⟩
  · rintro ⟨ht, hs, ⟨goal, hg, happ⟩, hc, rfl⟩
    exact ⟨t, ht, by simp [hs], goal, hg, (), happ, _, ⟨hc, rfl⟩, rfl⟩

theorem begun_row (now : Time) {i : TaskId} {t : Task} (ht : db.tasks[i]? = some t) :
    (db.begun now i t).tasks[i]? = some (t.dispatched now) := by
  rw [Db.begun, Db.addEvents_tasks, getElem?_set_row ht, if_pos rfl]

/-- the second write finds the row that the first one has left -/
theorem assignJob_dispatched {now : Time} {i : TaskId} {t : Task} {j : JobId}
    (ht : db.tasks[i]? = some (t.dispatched now)) (hc : (t.dispatched now).checks) :
    assignJob i j db = .ok ((), db.assigned now i t j) := by
  unfold assignJob
  simp only [bind_eq_ok, Db.lockTask_ok, Db.setTask_ok]
  exact ⟨_, ht, _, ⟨hc, rfl⟩, rfl⟩

/-- the ways through `dispatch_ready_task`: it raises before or after the task was marked, it
answers with a job that was there, or it creates one and commits -/
theorem dispatch_cases (env : Env) (i : TaskId) (s : Session Db) :
    (∃ e, beginDispatch env.now i s.work = .error e ∧
        dispatchReadyTask env i s = (.error e, s)) ∨
      ∃ t, beginDispatch env.now i s.work = .ok (t, s.work.begun env.now i t) ∧
        (((dispatchRequest i t).creates env (s.work.begun env.now i t) ∧
            dispatchReadyTask env i s = (.ok s.work.jobs.length,
              { durable := { s.work.begun env.now i t with
                  jobs := s.work.jobs ++ [(dispatchRequest i t).row] }
                work := Db.assigned env.now i t s.work.jobs.length
                  { s.work.begun env.now i t with
                    jobs := s.work.jobs ++ [(dispatchRequest i t).row] } })) ∨
          (¬ (dispatchRequest i t).creates env (s.work.begun env.now i t) ∧
            ((∃ e, dispatchReadyTask env i s =
                (.error e, ⟨s.durable, s.work.begun env.now i t⟩)) ∨
              ∃ j, dispatchReadyTask env i s =
                (.ok j, ⟨s.durable, (s.work.begun env.now i t).assigned env.now i t j⟩)))) := by
  unfold dispatchReadyTask
  cases hb : beginDispatch env.now i s.work with
  | error e =>
    rw [Tx.bind_error (Tx.flush_error hb)]
    exact .inl ⟨e, rfl, rfl⟩
  | ok p =>
    obtain ⟨t, w⟩ := p
    obtain ⟨ht, -, -, hc, rfl⟩ := beginDispatch_ok.1 hb
    refine .inr ⟨t, rfl, ?_⟩
    rw [Tx.bind_ok (Tx.flush_ok hb)]
    have hassign : ∀ (w : Db) (j : JobId), w.tasks[i]? = some (t.dispatched env.now) →
        assignJob i j w = .ok ((), w.assigned env.now i t j) :=
      fun w j hw => assignJob_dispatched hw hc
    have hrow : (s.work.begun env.now i t).tasks[i]? = some (t.dispatched env.now) := begun_row _ ht
    rcases createJob_cases env (dispatchRequest i t) ⟨s.durable, s.work.begun env.now i t⟩ with
      ⟨hcr, h⟩ | ⟨hcr, ⟨e, h⟩ | ⟨j, h⟩⟩
    · refine .inl ⟨hcr, ?_⟩
      rw [Tx.bind_ok h, Tx.bind_ok (Tx.flush_ok (hassign _ _ hrow))]
      rfl
    · refine .inr ⟨hcr, .inl ⟨e, ?_⟩⟩
      rw [Tx.bind_error h]
    · refine .inr ⟨hcr, .inr ⟨j, ?_⟩⟩
      rw [Tx.bind_ok h, Tx.bind_ok (Tx.flush_ok (hassign _ _ hrow))]
      rfl

end LifeAI
