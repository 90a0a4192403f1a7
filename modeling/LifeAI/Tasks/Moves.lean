import LifeAI.Jobs.Kept
import LifeAI.Tasks.System

/-!
# Moves of the task graph

Every operation is a sequence of moves, each of which inserts pending tasks, recomputes the
readiness of a goal, takes one row through a `Turn`, or touches nothing that the task graph is
made of.  A `Guard` is what a theorem asks of the moves that the code lets through unchecked;
`Guard.admits` is the same question put to an operation before it runs, and `Op.moves` is the
one lemma about operations that the invariants of the task graph rest on.
-/

namespace LifeAI

/-- the events that say where a task stands -/
def TaskEvent.marks (e : TaskEvent) : Bool :=
  e.kind = .ready ∨ e.kind = .retryScheduled ∨ e.kind = .blocked

/-- an event that neither says where a task stands nor records a creation -/
def TaskEvent.note (e : TaskEvent) : Prop := ¬ e.marks ∧ e.insertion = none ∧ e.kind ≠ .created

/-- a job that runs the task exists -/
def Db.worksOn (db : Db) (i : TaskId) : Prop :=
  ∃ (j : JobId) (r : Job), db.jobs[j]? = some r ∧ r.jobType = .taskExecution ∧
    r.mainaiTask = some i

/-- the changes of one task row, but for those that `recompute_task_readiness` makes -/
inductive Turn where
  /-- `mainai_job_id` or `next_retry_at` -/
  | touch
  | dispatch | retry | reset | park | wake | repairPark | resume | cancel | outcome
  deriving DecidableEq

namespace Turn

/-- the turns that a guard is asked about -/
def guarded (k : Turn) : Bool :=
  k = reset ∨ k = park ∨ k = repairPark ∨ k = resume ∨ k = outcome

/-- what the turn does to the row `t` of the task `i` -/
def changes (db : Db) (i : TaskId) (t t' : Task) : Turn → Prop
  | touch => t'.status = t.status ∧ t'.blockerReason = t.blockerReason
  | dispatch => t.status = .ready ∧ t'.status = .running
  | retry => t.status = .retryableFailed ∧ t'.status = .ready
  | reset => t.status = .running ∧ t'.status = .ready
  | park => t.status = .running ∧ t'.status = .blocked
  | wake => t.status = .blocked ∧ t'.status = .ready ∧
      (t.blockerReason = some providerSpendParkBlocker ∨
        db.latestBlockOrRetryReason i = some providerSpendParkReason ∨
        db.latestBlockOrRetryReason i = some waitingProviderBackoffReason)
  | repairPark => ¬ t.status.terminal ∧ t'.status = .blocked ∧ ∃ reason child,
      t'.blockerReason = some (reason ++ "; waiting on repair child " ++ toString (child : TaskId))
  | resume => t.status.resumable ∧ t'.status = .ready
  | cancel => ¬ t.status.terminal ∧ t'.status = .cancelled
  | outcome => (db.worksOn i ∨ t.status = .waitingCi) ∧ t'.blockerReason = t.blockerReason ∧
      (t'.status = t.status ∨ t'.status = .completed ∨ t'.status = .retryableFailed ∨
        t'.status = .failed ∨ t'.status = .cancelled ∨ t'.status = .waitingCi)

/-- what the turn adds to the count of attempts -/
def attempts (k : Turn) : Int := if k = dispatch then 1 else 0

/-- the events that come with the turn -/
def records (i : TaskId) (es : List TaskEvent) : Turn → Prop
  | retry | reset | wake | resume => ∃ r, es = [{ task := i, kind := .retryScheduled, reason := r }]
  | park => ∃ r, es = [{ task := i, kind := .blocked, reason := some r }]
  | repairPark => es = [{ task := i, kind := .blocked, reason := some repairParkReason }]
  | _ => ∀ e ∈ es, e.note

end Turn

/-- what a theorem asks of the moves that the code does not check -/
structure Guard where
  insert : Db → List Task → List Dep → Prop
  row : TaskId → Turn → Task → Task → Prop
  resume : Db → TaskId → Prop
  /-- the job may be created -/
  create : Job → Prop := fun _ => True
  /-- the finished job may be queued again -/
  revive : JobId → Prop := fun _ => True

/-- a task as `create_plan` and `insert_plan_tasks` insert it -/
def Task.isNew (t : Task) : Prop := t.status = .pending ∧ t.attempts = 0 ∧ t.checks

inductive Move (G : Guard) (db : Db) : Db → Prop where
  | notes (es : List TaskEvent) (hes : ∀ e ∈ es, e.note) : Move G db (db.addEvents es)
  | insert (ts : List Task) (ds : List Dep) (es : List TaskEvent) (hts : ∀ t ∈ ts, t.isNew)
      (hes : ∀ e ∈ es, ¬ e.marks) (hG : G.insert db ts ds) :
      Move G db (Db.addEvents { db with tasks := db.tasks ++ ts, deps := db.deps ++ ds } es)
  | recompute (g : GoalId) : Move G db (recomputeTaskReadiness db g)
  | row {i : TaskId} {t t' : Task} (k : Turn) (es : List TaskEvent)
      (ht : db.tasks[i]? = some t) (hc : t'.checks) (hmax : t'.maxAttempts = t.maxAttempts)
      (hplan : t'.planId = t.planId) (hatt : t'.attempts = t.attempts + k.attempts)
      (hk : k.changes db i t t') (hes : k.records i es) (hG : k.guarded → G.row i k t t')
      (hr : k = .resume → G.resume db i) :
      Move G db (Db.addEvents { db with tasks := db.tasks.set i t' } es)
  | jobs {js : List Job} (h : JobsKept G.revive db.jobs js) : Move G db { db with jobs := js }
  | newJob (r : Job) (h : r.jobType = .taskExecution → ∃ i t, r.mainaiTask = some i ∧
      db.tasks[i]? = some t ∧ (t.status = .ready ∨ t.status = .running)) (hG : G.create r) :
      Move G db { db with jobs := db.jobs ++ [r] }
  | aux {db' : Db} (ht : db'.tasks = db.tasks) (hd : db'.deps = db.deps)
      (he : db'.events = db.events) (hj : db'.jobs = db.jobs) : Move G db db'

abbrev Moves (G : Guard) : Db → Db → Prop := Relation.ReflTransGen (Move G)

/-! ## conditions on operations -/

/-- the copy that `_finalize_task_outcome` makes of `loaded`, if it changes it -/
def outcomeOf (now : Time) (db : Db) (loaded : Task) (passed : Bool) (retryIn : Nat) :
    Option Task :=
  if ¬ passed then some (loaded.finishedFailed now retryIn)
  else if loaded.status = .cancelled then none
  else if db.cancelRequested loaded then some (loaded.finishedCancelled now)
  else some (loaded.finishedCompleted now)

/-- the worker still has the claim that its guarded writes ask for -/
def Db.holds (db : Db) (w : Runner) : Bool := db.jobs[w.job]?.any (·.heldBy w.worker w.generation)

/-- the task of a run whose worker still has its claim -/
def Db.heldTask (db : Db) (w : Runner) : Option TaskId :=
  if db.holds w then (db.runTask w).toOption else none

/-- the outcome write of an operation: the task, the copy that the session holds and the copy
as it flushes it -/
def Op.outcome (s : Sys) : Op → Option (TaskId × Task × Task)
  | .completeRun now w passed retryIn => do
    let i ← s.db.heldTask w
    let loaded ← s.held w.job
    let new ← outcomeOf now s.db loaded passed retryIn
    return (i, loaded, new)
  | .failRun now w retryIn => do
    let i ← s.db.heldTask w
    let t ← s.db.tasks[i]?
    return (i, t, t.finishedFailed now retryIn)
  | .cancelRun now w => do
    let i ← s.db.heldTask w
    let t ← s.db.tasks[i]?
    return (i, t, t.finishedCancelled now)
  | .failUnavailable now w retryIn => do
    let i ← (s.db.runTask w).toOption
    let t ← s.db.tasks[i]?
    if t.status = .running then return (i, t, t.finishedFailed now retryIn) else none
  | .enterCiWait _ w _ => do
    let i ← s.db.heldTask w
    let loaded ← s.held w.job
    return (i, loaded, { loaded with status := .waitingCi })
  | .resumeWaitingCiTask now w polled retryIn => do
    let wait ← s.db.waits[w]?
    let t ← s.db.tasks[wait.taskId]?
    if t.status ≠ .waitingCi then none
    else match if wait.status = .pending then polled else wait.status with
      | .pending => none
      | .satisfied => (outcomeOf now s.db t true retryIn).map fun new => (wait.taskId, t, new)
      | _ => return (wait.taskId, t, t.finishedFailed now retryIn)
  | _ => none

namespace Guard

/-- the outcome write of the operation passes the guard -/
def admitsOutcome (G : Guard) (db : Db) (o : Option (TaskId × Task × Task)) : Prop :=
  ∀ i loaded new t, o = some (i, loaded, new) → db.tasks[i]? = some t →
    (Task.flushed loaded new t).checks → G.row i .outcome t (Task.flushed loaded new t)

/-- the turn `k` of a row that is `prior` to one that is `next` passes the guard -/
def admitsTurn (G : Guard) (db : Db) (i : TaskId) (k : Turn) (prior : TaskStatus → Bool)
    (next : TaskStatus) : Prop :=
  ∀ t t', db.tasks[i]? = some t → prior t.status → t'.status = next →
    t'.attempts = t.attempts → t'.maxAttempts = t.maxAttempts → G.row i k t t'

/-- the guarded moves of the operation pass the guard -/
def admits (G : Guard) (s : Sys) : Op → Prop
  | .createPlan _ _ specs => ∀ db ts ds,
      (∀ t ∈ ts, ∃ spec ∈ specs, t.maxAttempts = spec.maxAttempts) →
      (∀ d ∈ ds, db.tasks.length ≤ d.task) → G.insert db ts ds
  | .insertPlanTasks c => s.db.findReplay c.plan c.idempotencyKey = [] →
      c.validate s.db = .ok () → ∀ ts ds,
      (∀ t ∈ ts, ∃ spec ∈ c.tasks, t.maxAttempts = spec.maxAttempts) →
      (∀ d ∈ ds, s.db.tasks.length ≤ d.task ∨
        ∃ e ∈ c.existingTaskDependencies, e.existingTaskId = d.task) → G.insert s.db ts ds
  | .createJob _ c => G.create c.row
  | .dispatchReadyTask _ i | .dispatchCrash _ i => ∀ t, G.create (dispatchRequest i t).row
  | .retryJob j _ => G.revive j
  | .resetTaskForTakeover i => G.admitsTurn s.db i .reset (· = .running) .ready
  | .executeTakeover _ k => ∀ r, s.db.recoveries[k]? = some r → r.refusal = none →
      G.admitsTurn s.db r.taskId .reset (· = .running) .ready ∧
      ∀ t, G.create (dispatchRequest r.taskId t).row
  | .parkProviderSpendDefer _ w | .releaseProviderWait _ w _ => ∀ i, s.db.heldTask w = some i →
      G.admitsTurn s.db i .park (· = .running) .blocked
  | .parkSourceTaskForRepair i _ _ =>
      G.admitsTurn s.db i .repairPark (fun st => ¬ st.terminal) .blocked
  | .resumeSourceAfterRepair i => G.admitsTurn s.db i .resume TaskStatus.resumable .ready ∧
      ∀ t, s.db.tasks[i]? = some t → t.status.resumable → G.resume s.db i
  | op => G.admitsOutcome s.db (op.outcome s)

end Guard

/-! ## single writes -/

variable {G : Guard} {db db' : Db}

theorem Move.moves (h : Move G db db') : Moves G db db' := .single h

@[simp] theorem Db.addEvents_nil (db : Db) : db.addEvents [] = db := by
  simp [addEvents]

/-- a flush of one locked row, with its events -/
theorem Db.setTask_moves {i : TaskId} {t t' : Task} (k : Turn) (es : List TaskEvent)
    (ht : db.tasks[i]? = some t) (h : db.setTask i t' = .ok db')
    (hmax : t'.maxAttempts = t.maxAttempts) (hplan : t'.planId = t.planId)
    (hatt : t'.attempts = t.attempts + k.attempts) (hk : k.changes db i t t')
    (hes : k.records i es) (hG : k.guarded → G.row i k t t')
    (hr : k = .resume → G.resume db i) : Moves G db (db'.addEvents es) := by
  obtain ⟨hc, rfl⟩ := setTask_ok.1 h
  exact (Move.row k es ht hc hmax hplan hatt hk hes hG hr).moves

theorem notes_moves (es : List TaskEvent) (hes : ∀ e ∈ es, e.note) :
    Moves G db (db.addEvents es) := (Move.notes es hes).moves

theorem aux_moves (ht : db'.tasks = db.tasks) (hd : db'.deps = db.deps)
    (he : db'.events = db.events) (hj : db'.jobs = db.jobs) : Moves G db db' :=
  (Move.aux ht hd he hj).moves

/-- a write to the jobs, and to what is not part of the task graph -/
theorem jobs_moves {js : List Job} (h : JobsKept G.revive db.jobs js)
    (ht : db'.tasks = db.tasks) (hd : db'.deps = db.deps) (he : db'.events = db.events)
    (hj : db'.jobs = js) : Moves G db db' :=
  (Move.jobs h).moves.trans (aux_moves ht hd he hj)

theorem setGoal_moves {g : GoalId} {r : Goal} (h : db.setGoal g r = .ok db') : Moves G db db' := by
  obtain ⟨-, rfl⟩ := Db.setGoal_ok.1 h
  exact aux_moves rfl rfl rfl rfl

/-! ## plans -/

/-- the row is not finished -/
def Db.unfinished (i : TaskId) (db : Db) : Prop :=
  ∀ t, db.tasks[i]? = some t → ¬ t.status.terminal

theorem Db.mem_staleTasks {p : PlanId} {i : TaskId} (h : i ∈ db.staleTasks p) :
    db.unfinished i := by
  intro t ht
  have hp := (List.mem_filter.1 h).2
  simp only [ht, Option.any_some, decide_eq_true_eq] at hp
  exact hp.2

/-- a write to one row leaves the others unfinished -/
theorem Db.unfinished.set {i j : TaskId} {t' : Task} (h : db.unfinished j) (hij : j ≠ i) :
    Db.unfinished j { db with tasks := db.tasks.set i t' } := by
  intro t ht
  rw [List.getElem?_set_ne hij.symm] at ht
  exact h t ht

theorem supersedeTask_moves {now : Time} {v : Nat} {i : TaskId} (hs : db.unfinished i)
    (h : supersedeTask now v db i = .ok db') :
    Moves G db db' ∧ ∀ j, j ≠ i → db.unfinished j → db'.unfinished j := by
  unfold supersedeTask at h
  simp only [bind_eq_ok, Db.lockTask_ok] at h
  obtain ⟨t, ht, db1, h1, h2⟩ := h
  cases h2
  refine ⟨Db.setTask_moves .cancel _ ht h1 rfl rfl (by simp [Turn.attempts]) ⟨hs t ht, rfl⟩
    (by simp [Turn.records, TaskEvent.note, TaskEvent.marks]) (by simp [Turn.guarded]) (by simp), ?_⟩
  obtain ⟨-, rfl⟩ := Db.setTask_ok.1 h1
  intro j hj hu
  exact hu.set hj

theorem supersede_moves {now : Time} {v : Nat} {g : GoalId}
    (h : supersede now v db g = .ok db') : Moves G db db' := by
  unfold supersede at h
  split at h
  · cases h
    exact .refl
  · next p _ =>
    have h0 : Moves G db { db with plans := db.plans.modify p fun r =>
        { r with status := .superseded } } := aux_moves rfl rfl rfl rfl
    refine foldlM_each (Q := Db.unfinished) (fun s i s' hm hu hs => ?_)
      (List.nodup_range.filter _) h0 (fun i hi => Db.mem_staleTasks hi) h
    obtain ⟨h1, h2⟩ := supersedeTask_moves (G := G) hu hs
    exact ⟨hm.trans h1, h2⟩
  · exact absurd h (by simp)

theorem createPlan_moves {now : Time} {g : GoalId} {specs : List PlannedTaskSpec} {p : PlanId}
    (hG : ∀ db ts ds, (∀ t ∈ ts, ∃ spec ∈ specs, t.maxAttempts = spec.maxAttempts) →
      (∀ d ∈ ds, db.tasks.length ≤ d.task) → G.insert db ts ds)
    (h : createPlan now db g specs = .ok (p, db')) : Moves G db db' := by
  obtain ⟨goal, r, version, db1, -, hs, rfl, hc, rfl⟩ := createPlan_ok h
  have hrow : ∀ t ∈ specs.map (·.row g db1.plans.length goal.ownerId),
      t.isNew ∧ ∃ spec ∈ specs, t.maxAttempts = spec.maxAttempts := by
    intro t ht
    have hchecks := hc t ht
    obtain ⟨spec, hspec, rfl⟩ := List.mem_map.1 ht
    exact ⟨⟨rfl, rfl, hchecks⟩, spec, hspec, rfl⟩
  have hdep : ∀ d ∈ planDeps db1.tasks.length specs, db1.tasks.length ≤ d.task := by
    intro d hd
    obtain ⟨e, -, rfl⟩ := List.mem_map.1 hd
    exact Nat.le_add_right _ _
  let base : Db := { db1 with
    goals := db1.goals.set g r
    plans := db1.plans ++ [{ goalId := g, ownerId := goal.ownerId, version, status := .active }] }
  have hplan : Moves G db1 base := aux_moves rfl rfl rfl rfl
  have hins : Move G base (db1.withPlan g goal r version specs) :=
    .insert _ _ _ (fun t ht => (hrow t ht).1) (by simp [createdEvents, TaskEvent.marks])
      (hG _ _ _ (fun t ht => (hrow t ht).2) hdep)
  exact (supersede_moves hs).trans (hplan.trans (hins.moves.trans (Move.recompute g).moves))

theorem insertPlanTasks_moves {c : PlanInsertion} {ids : List TaskId}
    (hG : db.findReplay c.plan c.idempotencyKey = [] → c.validate db = .ok () → ∀ ts ds,
      (∀ t ∈ ts, ∃ spec ∈ c.tasks, t.maxAttempts = spec.maxAttempts) →
      (∀ d ∈ ds, db.tasks.length ≤ d.task ∨
        ∃ e ∈ c.existingTaskDependencies, e.existingTaskId = d.task) → G.insert db ts ds)
    (h : insertPlanTasks db c = .ok (ids, db')) : Moves G db db' := by
  obtain ⟨goal, plan, -, -, -, -, ⟨_, _, -, -, rfl⟩ | ⟨hnew, hvalid, hpersist⟩⟩ :=
    insertPlanTasks_ok h
  · exact .refl
  obtain ⟨hc, -, rfl⟩ := persistInsertion_ok hpersist
  have hrow : ∀ t ∈ c.tasks.map (·.row c.goal c.plan goal.ownerId),
      t.isNew ∧ ∃ spec ∈ c.tasks, t.maxAttempts = spec.maxAttempts := by
    intro t ht
    have hchecks := hc t ht
    obtain ⟨spec, hspec, rfl⟩ := List.mem_map.1 ht
    exact ⟨⟨rfl, rfl, hchecks⟩, spec, hspec, rfl⟩
  have hdep : ∀ d ∈ c.newDeps db.tasks.length ++ c.gainedDeps db.tasks.length,
      db.tasks.length ≤ d.task ∨ ∃ e ∈ c.existingTaskDependencies, e.existingTaskId = d.task := by
    intro d hd
    rcases List.mem_append.1 hd with hd | hd
    · obtain ⟨⟨spec, i⟩, -, hd⟩ := List.mem_flatMap.1 hd
      obtain ⟨dep, -, rfl⟩ := List.mem_map.1 hd
      exact .inl (Nat.le_add_right _ _)
    · obtain ⟨e, he, rfl⟩ := List.mem_map.1 hd
      exact .inr ⟨e, he, rfl⟩
  refine (Move.insert _ _ _ (fun t ht => (hrow t ht).1) ?_
    (hG hnew hvalid _ _ (fun t ht => (hrow t ht).2) hdep)).moves.trans (Move.recompute _).moves
  intro e he
  rcases List.mem_append.1 he with he | he
  · obtain ⟨i, -, rfl⟩ := List.mem_map.1 he
    simp [PlanInsertion.createdEvent, TaskEvent.marks]
  · obtain ⟨edge, -, rfl⟩ := List.mem_map.1 he
    simp [prerequisiteEvent, TaskEvent.marks]

end LifeAI
