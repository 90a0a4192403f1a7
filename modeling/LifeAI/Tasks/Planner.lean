import LifeAI.Lib.Text
import LifeAI.Tasks.Graph

/-!
# Goals and plans

* `detectCycle`   the three-color depth-first search of `_detect_cycle`; the recursion of `visit`
                  is on a count of the nodes that may still be entered;
* `validatePlan`  what `create_plan` checks before it writes anything;
* `supersede`     the previous active plan and its unfinished tasks;
* `createPlan`    a new active plan version.
-/

namespace LifeAI

/-! ## cycle detection -/

inductive Color where
  | white | gray | black
  deriving DecidableEq

/-- `color` and `path` of `_detect_cycle` -/
structure Dfs where
  color : List Color
  path : List Nat := []
  deriving DecidableEq

/-- `visit`; a cycle that is found is raised -/
def visit (adjacency : List (List Nat)) : Nat → Dfs → Nat → Except (List Nat) Dfs
  | 0, s, _ => .ok s
  | fuel + 1, s, node => do
    let entered : Dfs := { color := s.color.set node .gray, path := s.path ++ [node] }
    let s ← (adjacency.getD node []).foldlM (fun s neighbor =>
      match s.color.getD neighbor .black with
      | .gray => .error (s.path.drop (s.path.idxOf neighbor) ++ [neighbor])
      | .white => visit adjacency fuel s neighbor
      | .black => .ok s) entered
    return { color := s.color.set node .black, path := s.path.dropLast }

/-- the neighbours of each node, in the order of `edges` -/
def adjacencyOf (taskCount : Nat) (edges : List (Nat × Nat)) : List (List Nat) :=
  (List.range taskCount).map fun i => (edges.filter (·.1 = i)).map Prod.snd

/-- `_detect_cycle` -/
def detectCycle (taskCount : Nat) (edges : List (Nat × Nat)) : Option (List Nat) :=
  let adjacency := adjacencyOf taskCount edges
  let start : Dfs := { color := List.replicate taskCount .white }
  match (List.range taskCount).foldlM (fun s node =>
      if s.color.getD node .black = .white then visit adjacency taskCount s node else .ok s)
      start with
  | .ok _ => none
  | .error cycle => some cycle

/-! ## validation -/

/-- `KNOWN_TASK_TYPES` -/
def knownTaskTypes : List String := ["read_only_audit", "repo_edit", "run_tests", "open_pr"]

/-- `validate_targeted_tests_target` -/
def validateTargetedTestsTarget (target : Option String) : Except String Unit :=
  match target with
  | none => .error ("verification_plan entry of kind 'targeted_tests' requires a non-empty " ++
      "string 'target', got None.")
  | some p =>
    if p = "" then
      .error ("verification_plan entry of kind 'targeted_tests' requires a non-empty " ++
        "string 'target', got ''.")
    else if p.toList.head? = some '/' ∨ ['.', '.'] ∈ p.toList.splitOn '/' then
      .error ("verification_plan 'target' must be a relative path with no '..' segments and " ++
        "no leading '/': '" ++ p ++ "'.")
    else .ok ()

/-- the check of one `verification_plan` entry, made by `create_plan` and `insert_plan_tasks` -/
def VerificationStep.validate (malformed : String) (s : VerificationStep) : Except String Unit :=
  match s.kind with
  | none => .error malformed
  | some kind =>
    if kind = "targeted_tests" then validateTargetedTestsTarget s.target else .ok ()

/-- `dep` is an index of a list of `n` tasks -/
def inRange (n : Nat) (dep : Int) : Bool := 0 ≤ dep ∧ dep < n

structure PlannedTaskSpec where
  description : String
  taskType : String
  dependsOn : List Int := []
  riskLevel : RiskLevel := .low
  approvalRequired : Bool := false
  verificationPlan : List VerificationStep := []
  priority : Int := 0
  maxAttempts : Int := 3
  deriving DecidableEq

/-- the checks of one spec of a plan of `n` tasks -/
def PlannedTaskSpec.validate (n : Nat) (spec : PlannedTaskSpec) : Except Err Unit := do
  if spec.taskType ∉ knownTaskTypes then
    .error (.planValidation
      ("Unknown task_type '" ++ spec.taskType ++ "' -- the executor has no handler for it."))
  else match spec.dependsOn.find? (fun dep => ¬ inRange n dep) with
  | some dep => .error (.planValidation
      ("depends_on index " ++ toString dep ++ " is out of range for a " ++ toString n ++
        "-task plan."))
  | none =>
    match spec.verificationPlan.forM (·.validate "Malformed verification_plan entry") with
    | .error message => .error (.planValidation message)
    | .ok _ => .ok ()

/-- `(task index, depends-on index)` of every edge of a plan -/
def planEdges (specs : List PlannedTaskSpec) : List (Nat × Nat) :=
  specs.zipIdx.flatMap fun (spec, i) => spec.dependsOn.map fun dep => (i, dep.toNat)

/-- everything that `create_plan` checks before its first write -/
def validatePlan (specs : List PlannedTaskSpec) : Except Err Unit := do
  if specs = [] then .error (.planValidation "A plan must contain at least one task.")
  else
    specs.forM (·.validate specs.length)
    match detectCycle specs.length (planEdges specs) with
    | some cycle => .error (.planCycle cycle)
    | none => .ok ()

/-! ## goals and plans -/

/-- `create_goal` -/
def createGoal (db : Db) (owner : OwnerId) (instruction approvalPolicy : String) : Db :=
  { db with goals := db.goals ++
      [{ ownerId := owner, originalInstruction := instruction, approvalPolicy }] }

/-- the active plans of a goal; `create_plan` expects at most one -/
def Db.activePlans (db : Db) (g : GoalId) : List PlanId :=
  (List.range db.plans.length).filter fun p =>
    db.plans[p]?.any fun r => r.goalId = g ∧ r.status = .active

/-- the unfinished tasks of a plan -/
def Db.staleTasks (db : Db) (p : PlanId) : List TaskId :=
  (List.range db.tasks.length).filter fun i =>
    db.tasks[i]?.any fun t => t.planId = p ∧ ¬ t.status.terminal

/-- one unfinished task of a superseded plan -/
def supersedeTask (now : Time) (version : Nat) (db : Db) (i : TaskId) : Except Err Db := do
  let t ← db.lockTask i
  let db ← db.setTask i
    { t with
      status := .cancelled
      completedAt := some now
      blockerReason := some ("Superseded by plan version " ++ toString version ++ ".") }
  return db.addEvents [{ task := i, kind := .cancelled, reason := some "superseded_by_replan" }]

/-- the supersession of the previous active plan -/
def supersede (now : Time) (version : Nat) (db : Db) (g : GoalId) : Except Err Db :=
  match db.activePlans g with
  | [] => .ok db
  | [p] =>
    let plans := db.plans.modify p fun r => { r with status := .superseded }
    (db.staleTasks p).foldlM (supersedeTask now version) { db with plans := plans }
  | _ => .error .multipleResultsFound

def PlannedTaskSpec.row (g : GoalId) (p : PlanId) (owner : OwnerId) (spec : PlannedTaskSpec) :
    Task where
  goalId := g
  planId := p
  ownerId := owner
  description := spec.description
  taskType := spec.taskType
  priority := spec.priority
  riskLevel := spec.riskLevel
  approvalRequired := spec.approvalRequired
  maxAttempts := spec.maxAttempts

/-- the dependency rows of a plan whose tasks got the ids from `base` on -/
def planDeps (base : TaskId) (specs : List PlannedTaskSpec) : List Dep :=
  (planEdges specs).map fun (i, dep) => { task := base + i, dependsOn := base + dep }

/-- the `created` events of `n` new tasks -/
def createdEvents (base : TaskId) (n : Nat) (version : Nat) : List TaskEvent :=
  (List.range n).map fun i => { task := base + i, kind := .created, planVersion := some version }

/-- `create_plan` -/
def createPlan (now : Time) (db : Db) (g : GoalId) (specs : List PlannedTaskSpec) :
    Except Err (PlanId × Db) := do
  validatePlan specs
  let goal ← db.goal g
  let version := goal.currentPlanVersion.getD 0 + 1
  let db ← supersede now version db g
  if db.plans.any (fun r => r.goalId = g ∧ r.version = version) then
    .error (.integrityError "uq_mainai_plans_goal_version")
  else
    let p := db.plans.length
    let base := db.tasks.length
    let plan : Plan := { goalId := g, ownerId := goal.ownerId, version, status := .active }
    let db ← Db.insertTasks { db with plans := db.plans ++ [plan] }
      (specs.map (·.row g p goal.ownerId))
    let db ← db.insertDeps (planDeps base specs)
    let db := db.addEvents (createdEvents base specs.length version)
    let db ← db.setGoal g
      { goal with
        currentPlanVersion := some version
        status := .running
        startedAt := some (goal.startedAt.getD now) }
    return (p, recomputeTaskReadiness db g)

/-- the tables of a new plan `p` of version `version`, before the readiness pass -/
def Db.withPlan (db : Db) (g : GoalId) (goal r : Goal) (version : Nat)
    (specs : List PlannedTaskSpec) : Db :=
  let p := db.plans.length
  { db with
    goals := db.goals.set g r
    plans := db.plans ++ [{ goalId := g, ownerId := goal.ownerId, version, status := .active }]
    tasks := db.tasks ++ specs.map (·.row g p goal.ownerId)
    deps := db.deps ++ planDeps db.tasks.length specs
    events := db.events ++ createdEvents db.tasks.length specs.length version }

/-- a new plan, and what was checked on the way to it -/
theorem createPlan_ok {now : Time} {db db' : Db} {g : GoalId} {specs : List PlannedTaskSpec}
    {p : PlanId} (h : createPlan now db g specs = .ok (p, db')) :
    ∃ goal r version db1, validatePlan specs = .ok () ∧ supersede now version db g = .ok db1 ∧
      p = db1.plans.length ∧ (∀ t ∈ specs.map (·.row g p goal.ownerId), t.checks) ∧
      db' = recomputeTaskReadiness (db1.withPlan g goal r version specs) g := by
  unfold createPlan at h
  simp only [bind_eq_ok] at h
  obtain ⟨_, hvalid, goal, -, db1, hs, h⟩ := h
  rw [guard_eq_ok] at h
  simp only [bind_eq_ok] at h
  obtain ⟨-, db2, h2, db3, h3, db4, h4, h5⟩ := h
  cases h5
  obtain ⟨hc, rfl⟩ := Db.insertTasks_ok.1 h2
  obtain ⟨-, rfl⟩ := Db.insertDeps_ok h3
  obtain ⟨-, rfl⟩ := Db.setGoal_ok.1 h4
  exact ⟨goal, _, _, db1, hvalid, hs, rfl, List.all_eq_true.1 hc, rfl⟩

end LifeAI
