import LifeAI.Tasks.Dag

/-!
# Plan insertion is all or nothing

* `Err.refusal`          the errors with which `create_plan` and `insert_plan_tasks` refuse;
* `PlanInsertion.resolve`  the part of `insert_plan_tasks` before its first write, which raises
                         every refusal;
* `PlanInsertion.Adds`   what a call that inserts does to the tables;
* `plan_graphs_acyclic`  plans stay acyclic, refusals come before the first write, and a
                         successful insertion adds what was asked for, or is a replay.
-/

namespace LifeAI

open Digraph

variable {db db' : Db}

/-! ## refusals -/

/-- `PlanValidationError`, `PlanCycleError` and the kinds of `PlanInsertionError` -/
def Err.refusal : Err → Bool
  | .planValidation _ | .planCycle _ | .planInsertionAuthority _ | .planInsertionValidation _
  | .planInsertionConflict _ => true
  | _ => false

/-- the computation raises no refusal -/
def NoRefusal {α : Type} (x : Except Err α) : Prop := ∀ e, x = .error e → ¬ e.refusal

namespace NoRefusal

variable {α β : Type}

theorem ok (a : α) : NoRefusal (.ok a : Except Err α) := fun _ h => absurd h (by simp)

theorem error {e : Err} (he : e.refusal = false) : NoRefusal (.error e : Except Err α) := by
  intro e' h
  cases h
  exact Bool.not_eq_true _ ▸ he

theorem bind {x : Except Err α} {f : α → Except Err β} (hx : NoRefusal x)
    (hf : ∀ a, NoRefusal (f a)) : NoRefusal (x >>= f) := by
  cases x with
  | error e => exact error (Bool.not_eq_true _ ▸ hx e rfl)
  | ok a => exact hf a

theorem foldlM {f : α → β → Except Err α} (hf : ∀ a b, NoRefusal (f a b)) (bs : List β) (a : α) :
    NoRefusal (bs.foldlM f a) := by
  induction bs generalizing a with
  | nil => exact ok a
  | cons b bs ih =>
    rw [List.foldlM_cons]
    exact (hf a b).bind fun a => ih a

/-- a flush that a constraint may refuse -/
theorem flush {c : Prop} [Decidable c] {a : α} {constraint : String} :
    NoRefusal (if c then .ok a else .error (.integrityError constraint) : Except Err α) := by
  split
  · exact ok a
  · exact error rfl

end NoRefusal

theorem Db.lockTask_noRefusal (i : TaskId) : NoRefusal (db.lockTask i) := by
  unfold lockTask
  split
  · exact .error rfl
  · exact .ok _

theorem Db.goal_noRefusal (g : GoalId) : NoRefusal (db.goal g) := by
  unfold goal
  split
  · exact .error rfl
  · exact .ok _

theorem Db.insertDeps_noRefusal (ds : List Dep) : NoRefusal (db.insertDeps ds) := by
  unfold insertDeps
  split
  · exact .error rfl
  · split
    · exact .error rfl
    · exact .ok _

theorem supersede_noRefusal (now : Time) (v : Nat) (g : GoalId) :
    NoRefusal (supersede now v db g) := by
  unfold supersede
  split
  · exact .ok db
  · refine .foldlM (fun db i => ?_) _ _
    exact (Db.lockTask_noRefusal i).bind fun t => NoRefusal.flush.bind fun db => .ok _
  · exact .error rfl

/-- `create_plan` refuses before its first write -/
theorem createPlan_refusal {now : Time} {g : GoalId} {specs : List PlannedTaskSpec} {e : Err}
    (h : createPlan now db g specs = .error e) (he : e.refusal) :
    validatePlan specs = .error e := by
  unfold createPlan at h
  cases hv : validatePlan specs with
  | error e' =>
    rw [hv] at h
    rw [Except.error.inj h]
  | ok u =>
    rw [hv] at h
    refine absurd he (NoRefusal.bind (Db.goal_noRefusal g) (fun goal => ?_) e h)
    refine (supersede_noRefusal now _ g).bind fun db1 => ?_
    split
    · exact .error rfl
    refine NoRefusal.flush.bind fun db2 => (Db.insertDeps_noRefusal _).bind fun db3 => ?_
    exact NoRefusal.flush.bind fun db4 => .ok _

/-! ## the part of `insert_plan_tasks` before its first write -/

/-- What is decided before the first write: the ids of a replay, or the owner and the plan
version of the rows to be written. -/
def PlanInsertion.resolve (db : Db) (c : PlanInsertion) :
    Except Err (List TaskId ⊕ OwnerId × Nat) := do
  c.validateRequest
  let goal ← db.goal c.goal
  match db.plans[c.plan]? with
  | none => .error .noResultFound
  | some plan =>
    c.validatePlanRow goal plan
    match db.findReplay c.plan c.idempotencyKey with
    | r :: rs =>
      let ids ← replayed db c r rs
      return .inl ids
    | [] =>
      c.validate db
      return .inr (goal.ownerId, plan.version)

/-- the rest of the call; only the second case writes -/
def PlanInsertion.perform (db : Db) (c : PlanInsertion) :
    List TaskId ⊕ OwnerId × Nat → Except Err (List TaskId × Db)
  | .inl ids => .ok (ids, db)
  | .inr (owner, version) => persistInsertion db c owner version

theorem insertPlanTasks_eq (db : Db) (c : PlanInsertion) :
    insertPlanTasks db c = c.resolve db >>= c.perform db := by
  unfold insertPlanTasks PlanInsertion.resolve
  cases c.validateRequest with
  | error e => rfl
  | ok u =>
    cases db.goal c.goal with
    | error e => rfl
    | ok goal =>
      show (match db.plans[c.plan]? with | none => _ | some plan => _) =
        (match db.plans[c.plan]? with | none => _ | some plan => _) >>= _
      cases db.plans[c.plan]? with
      | none => rfl
      | some plan =>
        dsimp only
        cases c.validatePlanRow goal plan with
        | error e => rfl
        | ok u =>
          cases db.findReplay c.plan c.idempotencyKey with
          | cons r rs =>
            dsimp only
            cases replayed db c r rs <;> rfl
          | nil =>
            dsimp only
            cases c.validate db <;> rfl

theorem persistInsertion_noRefusal (c : PlanInsertion) (owner : OwnerId) (version : Nat) :
    NoRefusal (persistInsertion db c owner version) :=
  NoRefusal.flush.bind fun _ => (Db.insertDeps_noRefusal _).bind fun _ => .ok _

/-- `insert_plan_tasks` refuses before its first write -/
theorem insertPlanTasks_refusal {c : PlanInsertion} {e : Err}
    (h : insertPlanTasks db c = .error e) (he : e.refusal) : c.resolve db = .error e := by
  rw [insertPlanTasks_eq] at h
  cases ha : c.resolve db with
  | error e' =>
    rw [ha] at h
    rw [Except.error.inj h]
  | ok x =>
    rw [ha] at h
    cases x with
    | inl ids => exact absurd h (by simp [bind, Except.bind, PlanInsertion.perform])
    | inr x => exact absurd he (persistInsertion_noRefusal c _ _ e h)

/-! ## what an insertion adds -/

/-- The call added the requested tasks, edges and events, changed no row but by the readiness
pass, and removed nothing. -/
structure PlanInsertion.Adds (db : Db) (c : PlanInsertion) (db' : Db) (ids : List TaskId) :
    Prop where
  ids_eq : ids = c.newIds db.tasks.length
  writes : ∃ goal plan mid, db.goals[c.goal]? = some goal ∧ db.plans[c.plan]? = some plan ∧
    mid.tasks = db.tasks ++ c.tasks.map (·.row c.goal c.plan goal.ownerId) ∧
    mid.deps = db.deps ++ (c.newDeps db.tasks.length ++ c.gainedDeps db.tasks.length) ∧
    mid.events = db.events ++
      ((List.range c.tasks.length).map (c.createdEvent db.tasks.length plan.version) ++
        c.existingTaskDependencies.map prerequisiteEvent) ∧
    mid.goals = db.goals ∧ mid.plans = db.plans ∧ mid.jobs = db.jobs ∧
    db' = recomputeTaskReadiness mid c.goal
  rows : ∀ (i : TaskId) (t : Task), db.tasks[i]? = some t → ∃ t', db'.tasks[i]? = some t' ∧
    (t' = t ∨ t.status = .pending ∧ (t' = { t with status := .ready } ∨
      ∃ reason, t' = { t with status := .blocked, blockerReason := some reason }))

theorem persistInsertion_adds {c : PlanInsertion} {goal : Goal} {plan : Plan}
    {ids : List TaskId} (hg : db.goals[c.goal]? = some goal) (hp : db.plans[c.plan]? = some plan)
    (h : persistInsertion db c goal.ownerId plan.version = .ok (ids, db')) :
    c.Adds db db' ids := by
  obtain ⟨-, hids, rfl⟩ := persistInsertion_ok h
  refine ⟨hids, ⟨goal, plan, c.inserted db goal.ownerId plan.version, hg, hp, rfl, rfl, rfl, rfl,
    rfl, rfl, rfl⟩, fun i t ht => ?_⟩
  have hmid : (c.inserted db goal.ownerId plan.version).tasks[i]? = some t := by
    rw [PlanInsertion.inserted, List.getElem?_append_left (List.getElem?_eq_some_iff.1 ht).1, ht]
  rcases recompute_cases (g := c.goal) hmid with h1 | ⟨hpend, -, h1⟩ | ⟨hpend, d, s, -, h1⟩
  · exact ⟨t, h1, .inl rfl⟩
  · exact ⟨_, h1, .inr ⟨(Task.pendingIn_iff.1 hpend).2, .inl rfl⟩⟩
  · exact ⟨_, h1, .inr ⟨(Task.pendingIn_iff.1 hpend).2, .inr ⟨_, rfl⟩⟩⟩

/-- a call with a key that the plan does not know adds what it asks for; another one is a replay
and writes nothing -/
theorem insertPlanTasks_adds {c : PlanInsertion} {ids : List TaskId}
    (h : insertPlanTasks db c = .ok (ids, db')) :
    if db.findReplay c.plan c.idempotencyKey = [] then c.Adds db db' ids else db' = db := by
  obtain ⟨goal, plan, hg, hp, -, -, ⟨r, rs, hr, -, rfl⟩ | ⟨hnew, -, hpersist⟩⟩ :=
    insertPlanTasks_ok h
  · rw [if_neg (by simp [hr])]
  · rw [if_pos hnew]
    exact persistInsertion_adds hg hp hpersist

/-- the call raised a refusal: it wrote nothing, and its caller's transaction is left as it was -/
def Op.refusedWith (s : Sys) (op : Op) {α : Type} (checks : Except Err α) (e : Err) : Prop :=
  checks = .error e ∧ op.step s = s

/-- **Plan graphs** in every reachable state: the edges of every plan form a DAG; a call of
`create_plan` or `insert_plan_tasks` that refuses does so before its first write; and a successful
insertion adds exactly what was asked for, unless it is a replay, which writes nothing. -/
theorem plan_graphs_acyclic (os : List Op) :
    (Acyclic (sysRun os).db.dependsOn ∧ ∀ i d, (sysRun os).db.dependsOn i d →
      ∃ p, (sysRun os).db.planOf i = some p ∧ (sysRun os).db.planOf d = some p) ∧
    (∀ now g specs e, createPlan now (sysRun os).db g specs = .error e → e.refusal →
      (Op.createPlan now g specs).refusedWith (sysRun os) (validatePlan specs) e) ∧
    (∀ c e, insertPlanTasks (sysRun os).db c = .error e → e.refusal →
      (Op.insertPlanTasks c).refusedWith (sysRun os) (c.resolve (sysRun os).db) e) ∧
    ∀ c ids db', insertPlanTasks (sysRun os).db c = .ok (ids, db') →
      if (sysRun os).db.findReplay c.plan c.idempotencyKey = [] then
        c.Adds (sysRun os).db db' ids
      else db' = (sysRun os).db := by
  have hdag := sysRun_planDags os
  refine ⟨⟨hdag.acyclic, hdag.wired⟩, fun now g specs e h he => ⟨createPlan_refusal h he, ?_⟩,
    fun c e h he => ⟨insertPlanTasks_refusal h he, ?_⟩, fun c ids db' h => insertPlanTasks_adds h⟩
  · simp [Op.step, h, Except.map, Sys.commit]
  · simp [Op.step, h, Except.map, Sys.commit]

/-! ## a replay -/

/-- one new task of a plan -/
def oneMore : PlanInsertion where
  goal := 0
  plan := 0
  authorityKind := "founder_decision"
  authorizedInstruction := "build it"
  idempotencyKey := "insertion-1"
  tasks := [{ description := "one more", taskType := "repo_edit", dependsOn := [.existing 0] }]
  sourceType := "founder"
  sourceRef := "note-1"
  reason := "a task was missed"

/-- a plan of one task, to which `oneMore` is added -/
def insertedRun : List Op :=
  [.createGoal 0 "build it" "standard_repo_work", .createPlan 1 0 [sampleSpec [] 3],
    .insertPlanTasks oneMore]

set_option maxRecDepth 8000 in
/-- the same call succeeds again and adds neither a task nor an edge -/
theorem replay_adds_nothing :
    ∃ ids db', insertPlanTasks (sysRun insertedRun).db oneMore = .ok (ids, db') ∧
      oneMore.tasks ≠ [] ∧ db'.tasks.length = (sysRun insertedRun).db.tasks.length ∧
      db'.deps = (sysRun insertedRun).db.deps :=
  ⟨[1], (sysRun insertedRun).db, by decide, by decide, rfl, rfl⟩

end LifeAI
