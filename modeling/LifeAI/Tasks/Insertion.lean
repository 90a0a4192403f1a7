import LifeAI.Tasks.Planner
import Mathlib.Data.List.Sort

/-!
# Partial plan insertion

`insertPlanTasks` adds tasks and dependency edges to an active plan.  Everything is validated
before the first write.  The instruction hash and the semantic hash of the source are compared
for equality only, so they are modelled by what is hashed.
-/

namespace LifeAI

/-- `AUTHORIZED_KINDS` -/
def authorizedKinds : List String :=
  ["founder_requirement", "founder_decision", "founder_correction", "authorized_goal"]

/-- `NON_AUTHORITATIVE_KINDS` -/
def nonAuthoritativeKinds : List String :=
  ["founder_preference", "idea", "suggestion", "hypothesis", "ai_interpretation", "unknown"]

/-- `MAX_NEW_TASKS_PER_INSERTION` -/
def maxNewTasksPerInsertion : Nat := 20
/-- `MAX_EXISTING_TASK_DEPENDENCIES_PER_INSERTION` -/
def maxExistingTaskDependenciesPerInsertion : Nat := 20

/-- a call of `insert_plan_tasks` -/
structure PlanInsertion where
  goal : GoalId
  plan : PlanId
  authorityKind : String
  authorizedInstruction : String
  idempotencyKey : String
  tasks : List InsertedTaskSpec
  existingTaskDependencies : List ExistingTaskDependencyEdge := []
  sourceType : String
  sourceRef : String
  reason : String
  deriving DecidableEq

namespace PlanInsertion

/-- what `_semantic_hash` covers -/
def content (c : PlanInsertion) : InsertionContent where
  authorityKind := c.authorityKind
  sourceType := c.sourceType
  sourceRef := c.sourceRef
  tasks := c.tasks
  existingTaskDependencies := c.existingTaskDependencies

/-- the checks made before the per-plan lock is taken -/
def validateRequest (c : PlanInsertion) : Except Err Unit :=
  if c.tasks = [] then
    .error (.planInsertionValidation "An insertion must contain at least one task.")
  else if c.tasks.length > maxNewTasksPerInsertion then
    .error (.planInsertionValidation ("An insertion may create at most " ++
      toString maxNewTasksPerInsertion ++ " tasks."))
  else if c.existingTaskDependencies.length > maxExistingTaskDependenciesPerInsertion then
    .error (.planInsertionValidation ("An insertion may add at most " ++
      toString maxExistingTaskDependenciesPerInsertion ++ " existing-task dependency edges."))
  else if blank c.idempotencyKey then
    .error (.planInsertionValidation "idempotency_key is required.")
  else if blank c.reason then .error (.planInsertionValidation "reason is required.")
  else if c.sourceType = "" ∨ c.sourceRef = "" then
    .error (.planInsertionValidation
      "source_type and source_ref are required (provenance is mandatory).")
  else if c.authorityKind ∈ nonAuthoritativeKinds ∨ c.authorityKind ∉ authorizedKinds then
    .error (.planInsertionAuthority ("authority_kind '" ++ c.authorityKind ++
      "' is not sufficient execution authority for a plan insertion."))
  else .ok ()

/-- the checks of the goal and plan rows, re-read under the lock -/
def validatePlanRow (c : PlanInsertion) (goal : Goal) (plan : Plan) : Except Err Unit :=
  if plan.goalId ≠ c.goal then
    .error (.planInsertionValidation "plan does not belong to goal.")
  else if plan.ownerId ≠ goal.ownerId then
    .error (.planInsertionValidation "plan/goal owner mismatch.")
  else if plan.status ≠ .active then
    .error (.planInsertionValidation "plan is not 'active' -- insertion is not allowed.")
  else if goal.originalInstruction ≠ c.authorizedInstruction then
    .error (.planInsertionAuthority
      ("goal.original_instruction no longer matches the authorized instruction hash -- " ++
        "a founder correction superseded this authority; refusing a stale insertion."))
  else .ok ()

end PlanInsertion

/-! ## replay -/

/-- the record of a `created` event of the insertion `key` into plan `p` -/
def Db.replayRecord (db : Db) (p : PlanId) (key : String) (e : TaskEvent) :
    Option (InsertionRecord InsertionContent) :=
  if e.kind = .created ∧ (db.tasks[e.task]?.any fun t => t.planId = p) then
    e.insertion.filter (·.idempotencyKey = key)
  else none

/-- `_find_replay` -/
def Db.findReplay (db : Db) (p : PlanId) (key : String) :
    List (InsertionRecord InsertionContent) :=
  db.events.filterMap (db.replayRecord p key)

/-- the answer to a repeated key -/
def replayed (db : Db) (c : PlanInsertion) (r : InsertionRecord InsertionContent)
    (rs : List (InsertionRecord InsertionContent)) : Except Err (List TaskId) :=
  if r.semanticHash ≠ c.content then
    .error (.planInsertionConflict ("idempotency_key '" ++ c.idempotencyKey ++
      "' was already used for plan " ++ toString c.plan ++ " with different content."))
  else
    let ids := ((r :: rs).insertionSort fun a b => a.taskIndex ≤ b.taskIndex).map (·.taskId)
    if ids.all (· < db.tasks.length) then .ok ids
    else .error (.planInsertionConflict ("idempotency_key '" ++ c.idempotencyKey ++
      "' replay could not resolve all originally-inserted tasks."))

/-! ## validation -/

/-- `existing_by_id`: the tasks of the plan -/
def Db.planTasks (db : Db) (p : PlanId) : List TaskId :=
  (List.range db.tasks.length).filter fun i => db.tasks[i]?.any fun t => t.planId = p

def invalidTask (i : Nat) (message : String) : Err :=
  .planInsertionValidation ("tasks[" ++ toString i ++ "]" ++ message)

/-- one `depends_on` entry of the new task `i` of `n` -/
def DepRef.validate (db : Db) (existing : List TaskId) (n i : Nat) : DepRef → Except Err Unit
  | .sibling dep =>
    if ¬ inRange n dep then
      .error (invalidTask i (".depends_on index " ++ toString dep ++ " is out of range."))
    else if dep = i then .error (invalidTask i " cannot depend on itself.")
    else .ok ()
  | .existing d =>
    if d ∉ existing then
      .error (invalidTask i (".depends_on references task " ++ toString d ++
        ", which is not an existing task in this plan " ++
        "(unknown, cross-owner, or belongs to a different plan)."))
    else if db.tasks[d]?.any fun t => t.status.neverCompletes then
      .error (invalidTask i (".depends_on references existing task " ++ toString d ++
        ", which can never complete."))
    else .ok ()

/-- the checks of the new task `i` of `n` -/
def InsertedTaskSpec.validate (db : Db) (existing : List TaskId) (n i : Nat)
    (spec : InsertedTaskSpec) : Except Err Unit :=
  if blank spec.description then .error (invalidTask i " has an empty description.")
  else if spec.taskType ∉ knownTaskTypes then
    .error (invalidTask i (": unknown task_type '" ++ spec.taskType ++ "'."))
  else if ¬ (0 ≤ spec.maxAttempts ∧ spec.maxAttempts ≤ 20) then
    .error (invalidTask i ".max_attempts is out of bounds.")
  else
    match spec.verificationPlan.forM
        (·.validate ("tasks[" ++ toString i ++ "]: malformed verification_plan entry")) with
    | .error message => .error (.planInsertionValidation message)
    | .ok _ => spec.dependsOn.forM (·.validate db existing n i)

def invalidEdge (j : Nat) (message : String) : Err :=
  .planInsertionValidation ("existing_task_dependencies[" ++ toString j ++ "]" ++ message)

/-- the checks of edge `j`; the row of the existing task is locked before its status is read -/
def ExistingTaskDependencyEdge.validate (db : Db) (existing : List TaskId) (n j : Nat)
    (edge : ExistingTaskDependencyEdge) : Except Err Unit := do
  if ¬ inRange n edge.dependsOnNewTaskIndex then
    .error (invalidEdge j ".depends_on_new_task_index is out of range.")
  else if edge.existingTaskId ∉ existing then
    .error (invalidEdge j (" references task " ++ toString edge.existingTaskId ++
      ", which is not an existing task in this plan " ++
      "(unknown, cross-owner, or belongs to a different plan)."))
  else
    let locked ← db.lockTask edge.existingTaskId
    if ¬ locked.status.safeToAddPrerequisite then
      .error (invalidEdge j (": task " ++ toString edge.existingTaskId ++ " is '" ++
        locked.status.value ++ "' -- a new prerequisite can only be added to a 'pending' or " ++
        "'blocked' task, never one already 'ready' (a dispatcher could claim it at any " ++
        "moment), 'running', a wait state, or terminal."))
    else .ok ()

/-! ## the combined graph -/

/-- Existing tasks are the first nodes, in `existing` order; new task `i` is node
`existing.length + i`. -/
def newNode (existing : List TaskId) (i : Nat) : Nat := existing.length + i

def DepRef.node (existing : List TaskId) : DepRef → Nat
  | .sibling dep => newNode existing dep.toNat
  | .existing d => existing.idxOf d

/-- the edges that the plan already has -/
def Db.existingEdges (db : Db) (existing : List TaskId) : List (Nat × Nat) :=
  (db.deps.filter fun d => d.task ∈ existing ∧ d.dependsOn ∈ existing).map fun d =>
    (existing.idxOf d.task, existing.idxOf d.dependsOn)

/-- the edges of the plan after the insertion -/
def combinedEdges (db : Db) (existing : List TaskId) (c : PlanInsertion) : List (Nat × Nat) :=
  db.existingEdges existing ++
    (c.tasks.zipIdx.flatMap fun (spec, i) =>
      spec.dependsOn.map fun dep => (newNode existing i, dep.node existing)) ++
    c.existingTaskDependencies.map fun edge =>
      (existing.idxOf edge.existingTaskId, newNode existing edge.dependsOnNewTaskIndex.toNat)

/-- everything that is validated before the first write -/
def PlanInsertion.validate (db : Db) (c : PlanInsertion) : Except Err Unit := do
  let existing := db.planTasks c.plan
  let n := c.tasks.length
  c.tasks.zipIdx.forM fun (spec, i) => spec.validate db existing n i
  c.existingTaskDependencies.zipIdx.forM fun (edge, j) => edge.validate db existing n j
  match detectCycle (existing.length + n) (combinedEdges db existing c) with
  | some _ => .error (.planInsertionValidation "Insertion would create a dependency cycle")
  | none => .ok ()

/-! ## the writes -/

def InsertedTaskSpec.row (g : GoalId) (p : PlanId) (owner : OwnerId) (spec : InsertedTaskSpec) :
    Task where
  goalId := g
  planId := p
  ownerId := owner
  description := spec.description
  taskType := spec.taskType
  priority := spec.priority
  riskLevel := spec.riskLevel
  approvalRequired := spec.approvalRequired
  maxAttempts := spec.maxAttempts

/-- the task that an entry of `depends_on` names, when the new tasks start at `base` -/
def DepRef.resolve (base : TaskId) : DepRef → TaskId
  | .sibling dep => base + dep.toNat
  | .existing d => d

/-- the dependency rows of the new tasks -/
def PlanInsertion.newDeps (base : TaskId) (c : PlanInsertion) : List Dep :=
  c.tasks.zipIdx.flatMap fun (spec, i) =>
    spec.dependsOn.map fun dep => { task := base + i, dependsOn := dep.resolve base }

/-- the dependency rows that existing tasks gain -/
def PlanInsertion.gainedDeps (base : TaskId) (c : PlanInsertion) : List Dep :=
  c.existingTaskDependencies.map fun edge =>
    { task := edge.existingTaskId, dependsOn := base + edge.dependsOnNewTaskIndex.toNat }

/-- the `created` event of the new task `i` -/
def PlanInsertion.createdEvent (base : TaskId) (version : Nat) (c : PlanInsertion) (i : Nat) :
    TaskEvent where
  task := base + i
  kind := .created
  reason := some c.reason
  planVersion := some version
  insertion := some
    { idempotencyKey := c.idempotencyKey, semanticHash := c.content, taskId := base + i,
      taskIndex := i }

/-- the event on a task that gained a prerequisite -/
def prerequisiteEvent (edge : ExistingTaskDependencyEdge) : TaskEvent where
  task := edge.existingTaskId
  kind := .progressUpdated
  reason := some "partial_plan_insertion_new_prerequisite"

/-- the part of `insert_plan_tasks` that writes -/
def persistInsertion (db : Db) (c : PlanInsertion) (owner : OwnerId) (version : Nat) :
    Except Err (List TaskId × Db) := do
  let base := db.tasks.length
  let n := c.tasks.length
  let db ← db.insertTasks (c.tasks.map (·.row c.goal c.plan owner))
  let db ← db.insertDeps (c.newDeps base ++ c.gainedDeps base)
  let db := db.addEvents ((List.range n).map (c.createdEvent base version) ++
    c.existingTaskDependencies.map prerequisiteEvent)
  return ((List.range n).map (base + ·), recomputeTaskReadiness db c.goal)

/-- `insert_plan_tasks` -/
def insertPlanTasks (db : Db) (c : PlanInsertion) : Except Err (List TaskId × Db) := do
  c.validateRequest
  let goal ← db.goal c.goal
  match db.plans[c.plan]? with
  | none => .error .noResultFound
  | some plan =>
    c.validatePlanRow goal plan
    match db.findReplay c.plan c.idempotencyKey with
    | r :: rs =>
      let ids ← replayed db c r rs
      return (ids, db)
    | [] =>
      c.validate db
      persistInsertion db c goal.ownerId plan.version

/-- the tables after the writes, before the readiness pass -/
def PlanInsertion.inserted (db : Db) (c : PlanInsertion) (owner : OwnerId) (version : Nat) : Db :=
  let base := db.tasks.length
  { db with
    tasks := db.tasks ++ c.tasks.map (·.row c.goal c.plan owner)
    deps := db.deps ++ (c.newDeps base ++ c.gainedDeps base)
    events := db.events ++ ((List.range c.tasks.length).map (c.createdEvent base version) ++
      c.existingTaskDependencies.map prerequisiteEvent) }

/-- the ids of the new tasks, in the order of the request -/
def PlanInsertion.newIds (base : TaskId) (c : PlanInsertion) : List TaskId :=
  (List.range c.tasks.length).map (base + ·)

theorem persistInsertion_ok {db db' : Db} {c : PlanInsertion} {owner : OwnerId} {version : Nat}
    {ids : List TaskId} (h : persistInsertion db c owner version = .ok (ids, db')) :
    (∀ t ∈ c.tasks.map (·.row c.goal c.plan owner), t.checks) ∧
      ids = c.newIds db.tasks.length ∧
      db' = recomputeTaskReadiness (c.inserted db owner version) c.goal := by
  unfold persistInsertion at h
  simp only [bind_eq_ok] at h
  obtain ⟨db1, h1, db2, h2, h3⟩ := h
  cases h3
  obtain ⟨hc, rfl⟩ := Db.insertTasks_ok.1 h1
  obtain ⟨-, rfl⟩ := Db.insertDeps_ok h2
  exact ⟨List.all_eq_true.1 hc, rfl, rfl⟩

/-- a successful call is a replay, or has validated what it inserts -/
theorem insertPlanTasks_ok {db db' : Db} {c : PlanInsertion} {ids : List TaskId}
    (h : insertPlanTasks db c = .ok (ids, db')) :
    ∃ goal plan, db.goals[c.goal]? = some goal ∧ db.plans[c.plan]? = some plan ∧
      c.validateRequest = .ok () ∧ c.validatePlanRow goal plan = .ok () ∧
      ((∃ r rs, db.findReplay c.plan c.idempotencyKey = r :: rs ∧
          replayed db c r rs = .ok ids ∧ db' = db) ∨
        (db.findReplay c.plan c.idempotencyKey = [] ∧ c.validate db = .ok () ∧
          persistInsertion db c goal.ownerId plan.version = .ok (ids, db'))) := by
  unfold insertPlanTasks at h
  simp only [bind_eq_ok] at h
  obtain ⟨_, hreq, goal, hgoal, h⟩ := h
  have hg : db.goals[c.goal]? = some goal := by
    unfold Db.goal at hgoal
    split at hgoal
    · exact absurd hgoal (by simp)
    · next r hr =>
      cases hgoal
      exact hr
  split at h
  · exact absurd h (by simp)
  next plan hp =>
  rw [bind_eq_ok] at h
  obtain ⟨_, hrow, h⟩ := h
  refine ⟨goal, plan, hg, hp, hreq, hrow, ?_⟩
  split at h
  · next r rs hr =>
    rw [bind_eq_ok] at h
    obtain ⟨ids', hids, h⟩ := h
    cases h
    exact .inl ⟨r, rs, hr, hids, rfl⟩
  · next hnew =>
    rw [bind_eq_ok] at h
    obtain ⟨_, hvalid, h⟩ := h
    exact .inr ⟨hnew, hvalid, h⟩

/-! ## what a validated insertion has seen -/

theorem ExistingTaskDependencyEdge.validate_ok {db : Db} {existing : List TaskId} {n j : Nat}
    {edge : ExistingTaskDependencyEdge} (h : edge.validate db existing n j = .ok ()) :
    ∃ t, db.tasks[edge.existingTaskId]? = some t ∧ t.status.safeToAddPrerequisite := by
  unfold validate at h
  rw [guard_eq_ok, guard_eq_ok, bind_eq_ok] at h
  obtain ⟨-, -, t, ht, h⟩ := h
  rw [guard_eq_ok] at h
  exact ⟨t, Db.lockTask_ok.1 ht, by simpa using h.1⟩

/-- an existing task gains a prerequisite only when it is pending or blocked -/
theorem PlanInsertion.validate_edges {db : Db} {c : PlanInsertion} (h : c.validate db = .ok ()) :
    ∀ e ∈ c.existingTaskDependencies,
      ∃ t, db.tasks[e.existingTaskId]? = some t ∧ t.status.safeToAddPrerequisite := by
  unfold validate at h
  simp only [bind_eq_ok] at h
  obtain ⟨_, -, _, hedges, -⟩ := h
  intro e he
  obtain ⟨j, hj⟩ : ∃ j, (e, j) ∈ c.existingTaskDependencies.zipIdx := by
    obtain ⟨j, hj, rfl⟩ := List.getElem_of_mem he
    exact ⟨j, List.mk_mem_zipIdx_iff_getElem?.2 (List.getElem?_eq_getElem hj)⟩
  exact ExistingTaskDependencyEdge.validate_ok (forM_ok hedges _ hj)

end LifeAI
