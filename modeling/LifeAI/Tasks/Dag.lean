import LifeAI.Tasks.Cycle
import LifeAI.Tasks.Frame

/-!
# Plans are acyclic

* `Db.PlanDags`  every edge joins two tasks of one plan, and no task depends on itself through
                 other tasks;
* `nodeOf`       the numbering that carries the edges of a plan, after an insertion, to the
                 combined graph that `insert_plan_tasks` searches for a cycle.
-/

namespace LifeAI

open Digraph

variable {db db' : Db}

/-- every edge joins two tasks of one plan, and the edges form no cycle -/
structure Db.PlanDags (db : Db) : Prop where
  wired : ∀ i d, db.dependsOn i d → ∃ p, db.planOf i = some p ∧ db.planOf d = some p
  acyclic : Acyclic db.dependsOn

theorem Db.PlanDags.framed (h : db.PlanDags) (hf : db.Framed db') : db'.PlanDags := by
  have hdep : db'.dependsOn = db.dependsOn := by
    funext i d
    rw [Db.dependsOn, Db.dependsOn, hf.deps]
  refine ⟨fun i d hid => ?_, hdep ▸ h.acyclic⟩
  rw [hf.planOf, hf.planOf]
  exact h.wired i d (hdep ▸ hid)

/-- the plans of the tasks when tasks of plan `p` have been inserted -/
theorem Db.planOf_insert {ts : List Task} {p : PlanId} (ht : db'.tasks = db.tasks ++ ts)
    (hp : ∀ t ∈ ts, t.planId = p) (i : Nat) :
    db'.planOf i = if i < db.tasks.length then db.planOf i
      else if i < db.tasks.length + ts.length then some p else none := by
  rw [planOf, ht, List.getElem?_append]
  split
  · rfl
  · next hi =>
    split
    · next hlt =>
      have hlt' : i - db.tasks.length < ts.length := by omega
      rw [List.getElem?_eq_getElem hlt', Option.map_some, hp _ (List.getElem_mem hlt')]
    · next hge => rw [List.getElem?_eq_none (by omega), Option.map_none]

theorem Db.withPlan_planOf {g : GoalId} {goal r : Goal} {version : Nat}
    {specs : List PlannedTaskSpec} (i : Nat) :
    (db.withPlan g goal r version specs).planOf i = if i < db.tasks.length then db.planOf i
      else if i < db.tasks.length + specs.length then some db.plans.length else none := by
  have := @planOf_insert db (db.withPlan g goal r version specs)
    (specs.map (·.row g db.plans.length goal.ownerId)) db.plans.length rfl
    (by simp [PlannedTaskSpec.row]) i
  rwa [List.length_map] at this

theorem PlanInsertion.inserted_planOf {c : PlanInsertion} {owner : OwnerId} {version : Nat}
    (i : Nat) : (c.inserted db owner version).planOf i =
      if i < db.tasks.length then db.planOf i
      else if i < db.tasks.length + c.tasks.length then some c.plan else none := by
  have := @Db.planOf_insert db (c.inserted db owner version)
    (c.tasks.map (·.row c.goal c.plan owner)) c.plan rfl (by simp [InsertedTaskSpec.row]) i
  rwa [List.length_map] at this

theorem Db.planOf_lt {i : TaskId} {p : PlanId} (h : db.planOf i = some p) :
    i < db.tasks.length := by
  obtain ⟨t, ht, -⟩ := planOf_eq_some.1 h
  exact (List.getElem?_eq_some_iff.1 ht).1

theorem Db.mem_planTasks {p : PlanId} {i : TaskId} : i ∈ db.planTasks p ↔ db.planOf i = some p := by
  rw [planTasks, List.mem_filter, List.mem_range, planOf_eq_some]
  constructor
  · rintro ⟨hi, hany⟩
    rw [List.getElem?_eq_getElem hi, Option.any_some] at hany
    exact ⟨_, List.getElem?_eq_getElem hi, by simpa using hany⟩
  · rintro ⟨t, ht, hp⟩
    exact ⟨(List.getElem?_eq_some_iff.1 ht).1, by simp [ht, hp]⟩

/-- new edges between tasks of plan `p` keep plans acyclic when the edges of `p` are acyclic -/
theorem Db.PlanDags.insert (h : db.PlanDags) (p : PlanId) {ds : List Dep}
    (hd : db'.deps = db.deps ++ ds)
    (hold : ∀ i q, db.planOf i = some q → db'.planOf i = some q)
    (hnew : ∀ d ∈ ds, db'.planOf d.task = some p ∧ db'.planOf d.dependsOn = some p)
    (hp : Acyclic fun i d => db'.planOf i = some p ∧ db'.dependsOn i d) : db'.PlanDags := by
  have hedge : ∀ i d, db'.dependsOn i d → db.dependsOn i d ∨
      (db'.planOf i = some p ∧ db'.planOf d = some p) := by
    intro i d hid
    rw [Db.dependsOn, hd] at hid
    exact (List.mem_append.1 hid).imp_right fun hm => hnew _ hm
  have hwired : ∀ i d, db'.dependsOn i d → ∃ q, db'.planOf i = some q ∧ db'.planOf d = some q := by
    intro i d hid
    rcases hedge i d hid with hid | hid
    · obtain ⟨q, hi, hd⟩ := h.wired i d hid
      exact ⟨q, hold i q hi, hold d q hd⟩
    · exact ⟨p, hid⟩
  refine ⟨hwired, Acyclic.of_classes db'.planOf (fun i d hid => ?_) fun q => ?_⟩
  · obtain ⟨q, hi, hd⟩ := hwired i d hid
    rw [hi, hd]
  · by_cases hq : q = some p
    · exact hq ▸ hp
    · -- the edges of another plan are old
      refine h.acyclic.of_map id fun i d hid => ?_
      refine (hedge i d hid.2).elim id fun hnew => ?_
      exact absurd (hid.1.symm.trans hnew.1) hq

/-! ## `create_plan` -/

theorem inRange_iff {n : Nat} {dep : Int} : inRange n dep ↔ 0 ≤ dep ∧ dep < n := by
  simp [inRange]

theorem inRange_toNat {n : Nat} {dep : Int} (h : inRange n dep) : dep.toNat < n := by
  rw [inRange_iff] at h
  omega

theorem PlannedTaskSpec.validate_ok {n : Nat} {spec : PlannedTaskSpec}
    (h : spec.validate n = .ok ()) : ∀ dep ∈ spec.dependsOn, inRange n dep := by
  unfold validate at h
  rw [guard_eq_ok] at h
  obtain ⟨-, h⟩ := h
  split at h
  · exact absurd h (by simp)
  · next hnone =>
    intro dep hdep
    simpa using List.find?_eq_none.1 hnone dep hdep

theorem mem_planEdges {specs : List PlannedTaskSpec} {a b : Nat} :
    edgeRel (planEdges specs) a b ↔
      ∃ spec, specs[a]? = some spec ∧ ∃ dep ∈ spec.dependsOn, dep.toNat = b := by
  simp only [edgeRel, planEdges, List.mem_flatMap, List.mem_map, Prod.exists,
    List.mk_mem_zipIdx_iff_getElem?, Prod.mk.injEq]
  constructor
  · rintro ⟨spec, i, hspec, dep, hdep, rfl, rfl⟩
    exact ⟨spec, hspec, dep, hdep, rfl⟩
  · rintro ⟨spec, hspec, dep, hdep, rfl⟩
    exact ⟨spec, a, hspec, dep, hdep, rfl, rfl⟩

/-- a validated plan refers to its own tasks and has no cycle -/
theorem validatePlan_ok {specs : List PlannedTaskSpec} (h : validatePlan specs = .ok ()) :
    (∀ a b, edgeRel (planEdges specs) a b → a < specs.length ∧ b < specs.length) ∧
      Acyclic (edgeRel (planEdges specs)) := by
  unfold validatePlan at h
  rw [guard_eq_ok, bind_eq_ok] at h
  obtain ⟨-, _, hspecs, h⟩ := h
  have hrange : ∀ a b, edgeRel (planEdges specs) a b → a < specs.length ∧ b < specs.length := by
    intro a b hab
    obtain ⟨spec, hspec, dep, hdep, rfl⟩ := mem_planEdges.1 hab
    refine ⟨(List.getElem?_eq_some_iff.1 hspec).1, inRange_toNat ?_⟩
    exact PlannedTaskSpec.validate_ok (forM_ok hspecs spec (List.mem_of_getElem? hspec)) dep hdep
  refine ⟨hrange, ?_⟩
  split at h
  · exact absurd h (by simp)
  · next hnone => exact acyclic_of_detectCycle hrange hnone

theorem mem_planDeps {base : TaskId} {specs : List PlannedTaskSpec} {i d : TaskId} :
    ⟨i, d⟩ ∈ planDeps base specs ↔
      ∃ a b, edgeRel (planEdges specs) a b ∧ base + a = i ∧ base + b = d := by
  simp only [planDeps, List.mem_map, Prod.exists, edgeRel, Dep.mk.injEq]

theorem createPlan_planDags {now : Time} {g : GoalId} {specs : List PlannedTaskSpec} {p : PlanId}
    (h : db.PlanDags) (hc : createPlan now db g specs = .ok (p, db')) : db'.PlanDags := by
  obtain ⟨goal, r, version, db1, hvalid, hs, rfl, -, rfl⟩ := createPlan_ok hc
  obtain ⟨hrange, hacyclic⟩ := validatePlan_ok hvalid
  have h1 := h.framed (supersede_framed hs)
  refine Db.PlanDags.framed ?_ (recompute_framed g)
  set db2 := db1.withPlan g goal r version specs with hdb2
  have hplan : ∀ i, db2.planOf i = if i < db1.tasks.length then db1.planOf i
      else if i < db1.tasks.length + specs.length then some db1.plans.length else none :=
    Db.withPlan_planOf
  have hdeps : ∀ i d, ⟨i, d⟩ ∈ planDeps db1.tasks.length specs →
      db2.planOf i = some db1.plans.length ∧ db2.planOf d = some db1.plans.length := by
    intro i d hid
    obtain ⟨a, b, hab, rfl, rfl⟩ := mem_planDeps.1 hid
    obtain ⟨ha, hb⟩ := hrange a b hab
    rw [hplan, hplan]
    simp [ha, hb]
  refine h1.insert _ rfl (fun i q hi => ?_) (fun d hd => hdeps d.task d.dependsOn hd) ?_
  · rw [hplan, if_pos (Db.planOf_lt hi), hi]
  · -- an edge joins old tasks or new ones
    have hedge : ∀ i d, db2.dependsOn i d →
        (db1.dependsOn i d ∧ i < db1.tasks.length ∧ d < db1.tasks.length) ∨
        ∃ a b, edgeRel (planEdges specs) a b ∧ db1.tasks.length + a = i ∧
          db1.tasks.length + b = d := by
      intro i d hid
      refine (List.mem_append.1 hid).imp (fun hold => ?_) fun hnew => mem_planDeps.1 hnew
      obtain ⟨q, hi, hd⟩ := h1.wired i d hold
      exact ⟨hold, Db.planOf_lt hi, Db.planOf_lt hd⟩
    refine Acyclic.of_classes (fun i => decide (i < db1.tasks.length)) ?_ fun k => ?_
    · rintro i d ⟨-, hid⟩
      rcases hedge i d hid with ⟨-, hi, hd⟩ | ⟨a, b, -, rfl, rfl⟩
      · simp [hi, hd]
      · simp
    · cases k with
      | true =>
        refine h1.acyclic.of_map id ?_
        rintro i d ⟨hk, -, hid⟩
        rcases hedge i d hid with ⟨hold, -, -⟩ | ⟨a, b, -, rfl, rfl⟩
        · exact hold
        · simp at hk
      | false =>
        refine hacyclic.of_map (· - db1.tasks.length) ?_
        rintro i d ⟨hk, -, hid⟩
        rcases hedge i d hid with ⟨-, hi, -⟩ | ⟨a, b, hab, rfl, rfl⟩
        · simp [hi] at hk
        · simpa using hab

/-! ## `insert_plan_tasks` -/

/-- what a validated insertion has seen -/
structure PlanInsertion.Valid (db : Db) (c : PlanInsertion) : Prop where
  sibling : ∀ (i : Nat) (spec : InsertedTaskSpec) (dep : Int), c.tasks[i]? = some spec →
    .sibling dep ∈ spec.dependsOn → inRange c.tasks.length dep
  existing : ∀ (i : Nat) (spec : InsertedTaskSpec) (d : TaskId), c.tasks[i]? = some spec →
    .existing d ∈ spec.dependsOn → d ∈ db.planTasks c.plan
  edge : ∀ e ∈ c.existingTaskDependencies, inRange c.tasks.length e.dependsOnNewTaskIndex ∧
    e.existingTaskId ∈ db.planTasks c.plan
  cycle : detectCycle ((db.planTasks c.plan).length + c.tasks.length)
    (combinedEdges db (db.planTasks c.plan) c) = none

theorem InsertedTaskSpec.validate_ok {existing : List TaskId} {n i : Nat}
    {spec : InsertedTaskSpec} (h : spec.validate db existing n i = .ok ()) :
    ∀ dep ∈ spec.dependsOn, dep.validate db existing n i = .ok () := by
  unfold validate at h
  rw [guard_eq_ok, guard_eq_ok, guard_eq_ok] at h
  obtain ⟨-, -, -, h⟩ := h
  split at h
  · exact absurd h (by simp)
  · exact forM_ok h

theorem PlanInsertion.validate_ok {c : PlanInsertion} (h : c.validate db = .ok ()) :
    c.Valid db := by
  unfold validate at h
  simp only [bind_eq_ok] at h
  obtain ⟨_, hspecs, _, hedges, hcycle⟩ := h
  have hdep : ∀ (i : Nat) (spec : InsertedTaskSpec) (dep : DepRef), c.tasks[i]? = some spec →
      dep ∈ spec.dependsOn →
      dep.validate db (db.planTasks c.plan) c.tasks.length i = .ok () := fun i spec dep hi hmem =>
    InsertedTaskSpec.validate_ok
      (forM_ok hspecs (spec, i) (List.mk_mem_zipIdx_iff_getElem?.2 hi)) dep hmem
  refine ⟨fun i spec dep hi hmem => ?_, fun i spec d hi hmem => ?_, fun e he => ?_, ?_⟩
  · have := hdep i spec _ hi hmem
    unfold DepRef.validate at this
    rw [guard_eq_ok] at this
    simpa using this.1
  · have := hdep i spec _ hi hmem
    unfold DepRef.validate at this
    rw [guard_eq_ok] at this
    simpa using this.1
  · obtain ⟨j, hj⟩ := List.mem_iff_getElem?.1 he
    have := forM_ok hedges (e, j) (List.mk_mem_zipIdx_iff_getElem?.2 hj)
    unfold ExistingTaskDependencyEdge.validate at this
    rw [guard_eq_ok, guard_eq_ok] at this
    exact ⟨by simpa using this.1, by simpa using this.2.1⟩
  · split at hcycle
    · exact absurd hcycle (by simp)
    · assumption

theorem PlanInsertion.mem_newDeps {c : PlanInsertion} {base i d : TaskId} :
    ⟨i, d⟩ ∈ c.newDeps base ↔ ∃ k spec dep, c.tasks[k]? = some spec ∧ dep ∈ spec.dependsOn ∧
      base + k = i ∧ dep.resolve base = d := by
  simp only [newDeps, List.mem_flatMap, List.mem_map, Prod.exists,
    List.mk_mem_zipIdx_iff_getElem?, Dep.mk.injEq]
  constructor
  · rintro ⟨spec, k, hspec, dep, hdep, rfl, rfl⟩
    exact ⟨k, spec, dep, hspec, hdep, rfl, rfl⟩
  · rintro ⟨k, spec, dep, hspec, hdep, rfl, rfl⟩
    exact ⟨spec, k, hspec, dep, hdep, rfl, rfl⟩

theorem PlanInsertion.mem_gainedDeps {c : PlanInsertion} {base i d : TaskId} :
    ⟨i, d⟩ ∈ c.gainedDeps base ↔ ∃ e ∈ c.existingTaskDependencies, e.existingTaskId = i ∧
      base + e.dependsOnNewTaskIndex.toNat = d := by
  simp only [gainedDeps, List.mem_map, Dep.mk.injEq]

/-- the combined graph: the edges of the plan, those of the new tasks, those gained -/
theorem mem_combinedEdges {c : PlanInsertion} {existing : List TaskId} {a b : Nat} :
    edgeRel (combinedEdges db existing c) a b ↔
      (∃ i d, db.dependsOn i d ∧ i ∈ existing ∧ d ∈ existing ∧ existing.idxOf i = a ∧
        existing.idxOf d = b) ∨
      (∃ k spec dep, c.tasks[k]? = some spec ∧ dep ∈ spec.dependsOn ∧ newNode existing k = a ∧
        dep.node existing = b) ∨
      ∃ e ∈ c.existingTaskDependencies, existing.idxOf e.existingTaskId = a ∧
        newNode existing e.dependsOnNewTaskIndex.toNat = b := by
  simp only [edgeRel, combinedEdges, List.mem_append, or_assoc]
  refine or_congr ?_ (or_congr ?_ ?_)
  · simp only [Db.existingEdges, List.mem_map, List.mem_filter, decide_eq_true_eq, Prod.mk.injEq]
    constructor
    · rintro ⟨⟨i, d⟩, ⟨hm, hi, hd⟩, ha, hb⟩
      exact ⟨i, d, hm, hi, hd, ha, hb⟩
    · rintro ⟨i, d, hm, hi, hd, ha, hb⟩
      exact ⟨⟨i, d⟩, ⟨hm, hi, hd⟩, ha, hb⟩
  · simp only [List.mem_flatMap, List.mem_map, Prod.exists, List.mk_mem_zipIdx_iff_getElem?,
      Prod.mk.injEq]
    constructor
    · rintro ⟨spec, k, hspec, dep, hdep, ha, hb⟩
      exact ⟨k, spec, dep, hspec, hdep, ha, hb⟩
    · rintro ⟨k, spec, dep, hspec, hdep, ha, hb⟩
      exact ⟨spec, k, hspec, dep, hdep, ha, hb⟩
  · simp only [List.mem_map, Prod.mk.injEq]

theorem PlanInsertion.Valid.range {c : PlanInsertion} (h : c.Valid db) (a b : Nat)
    (hab : edgeRel (combinedEdges db (db.planTasks c.plan) c) a b) :
    a < (db.planTasks c.plan).length + c.tasks.length ∧
      b < (db.planTasks c.plan).length + c.tasks.length := by
  have hold : ∀ i ∈ db.planTasks c.plan,
      (db.planTasks c.plan).idxOf i < (db.planTasks c.plan).length + c.tasks.length :=
    fun i hi => Nat.lt_add_right _ (List.idxOf_lt_length_of_mem hi)
  have hnew : ∀ k, k < c.tasks.length →
      newNode (db.planTasks c.plan) k < (db.planTasks c.plan).length + c.tasks.length :=
    fun k hk => Nat.add_lt_add_left hk _
  rcases mem_combinedEdges.1 hab with ⟨i, d, -, hi, hd, rfl, rfl⟩ | ⟨k, spec, dep, hk, hdep, rfl, rfl⟩ |
    ⟨e, he, rfl, rfl⟩
  · exact ⟨hold i hi, hold d hd⟩
  · refine ⟨hnew k (List.getElem?_eq_some_iff.1 hk).1, ?_⟩
    cases dep with
    | sibling dep => exact hnew _ (inRange_toNat (h.sibling k spec dep hk hdep))
    | existing d => exact hold d (h.existing k spec d hk hdep)
  · exact ⟨hold _ (h.edge e he).2, hnew _ (inRange_toNat (h.edge e he).1)⟩

/-- the node of a task of the plan in the combined graph -/
def nodeOf (base : Nat) (existing : List TaskId) (i : Nat) : Nat :=
  if i < base then existing.idxOf i else newNode existing (i - base)

theorem nodeOf_old {base i : Nat} {existing : List TaskId} (hi : i < base) :
    nodeOf base existing i = existing.idxOf i := if_pos hi

@[simp] theorem nodeOf_new {base k : Nat} {existing : List TaskId} :
    nodeOf base existing (base + k) = newNode existing k := by
  simp [nodeOf]

theorem inserted_planDags {c : PlanInsertion} {owner : OwnerId} {version : Nat}
    (h : db.PlanDags) (hv : c.Valid db) : (c.inserted db owner version).PlanDags := by
  set db' := c.inserted db owner version with hdb'
  have hplan : ∀ i, db'.planOf i = if i < db.tasks.length then db.planOf i
      else if i < db.tasks.length + c.tasks.length then some c.plan else none :=
    PlanInsertion.inserted_planOf
  have hold : ∀ i q, db.planOf i = some q → db'.planOf i = some q := fun i q hi => by
    rw [hplan, if_pos (Db.planOf_lt hi), hi]
  have hnew : ∀ k, k < c.tasks.length → db'.planOf (db.tasks.length + k) = some c.plan :=
    fun k hk => by
      rw [hplan]
      simp [hk]
  have hmember : ∀ i, i ∈ db.planTasks c.plan → db'.planOf i = some c.plan :=
    fun i hi => hold i _ (Db.mem_planTasks.1 hi)
  have hresolve : ∀ (k : Nat) (spec : InsertedTaskSpec) (dep : DepRef), c.tasks[k]? = some spec →
      dep ∈ spec.dependsOn → db'.planOf (DepRef.resolve db.tasks.length dep) = some c.plan := by
    intro k spec dep hk hdep
    cases dep with
    | sibling dep => exact hnew _ (inRange_toNat (hv.sibling k spec dep hk hdep))
    | existing d => exact hmember d (hv.existing k spec d hk hdep)
  refine h.insert c.plan rfl hold (fun d hd => ?_) ?_
  · rcases List.mem_append.1 hd with hd | hd
    · obtain ⟨k, spec, dep, hk, hdep, hi, hr⟩ := PlanInsertion.mem_newDeps.1 hd
      rw [← hi, ← hr]
      exact ⟨hnew k (List.getElem?_eq_some_iff.1 hk).1, hresolve k spec dep hk hdep⟩
    · obtain ⟨e, he, hi, hr⟩ := PlanInsertion.mem_gainedDeps.1 hd
      rw [← hi, ← hr]
      exact ⟨hmember _ (hv.edge e he).2, hnew _ (inRange_toNat (hv.edge e he).1)⟩
  · refine (acyclic_of_detectCycle hv.range hv.cycle).of_map
      (nodeOf db.tasks.length (db.planTasks c.plan)) ?_
    have hnode : ∀ i ∈ db.planTasks c.plan, nodeOf db.tasks.length (db.planTasks c.plan) i =
        (db.planTasks c.plan).idxOf i :=
      fun i hi => nodeOf_old (Db.planOf_lt (Db.mem_planTasks.1 hi))
    rintro i d ⟨hi, hid⟩
    rw [mem_combinedEdges]
    rcases List.mem_append.1 hid with hid | hid
    · obtain ⟨q, hq, hd⟩ := h.wired i d hid
      rw [hold i q hq] at hi
      cases hi
      have him := Db.mem_planTasks.2 hq
      have hdm := Db.mem_planTasks.2 hd
      exact .inl ⟨i, d, hid, him, hdm, (hnode i him).symm, (hnode d hdm).symm⟩
    · rcases List.mem_append.1 hid with hid | hid
      · obtain ⟨k, spec, dep, hk, hdep, rfl, rfl⟩ := PlanInsertion.mem_newDeps.1 hid
        refine .inr (.inl ⟨k, spec, dep, hk, hdep, nodeOf_new.symm, ?_⟩)
        cases dep with
        | sibling dep => exact nodeOf_new.symm
        | existing d => exact (hnode d (hv.existing k spec d hk hdep)).symm
      · obtain ⟨e, he, rfl, rfl⟩ := PlanInsertion.mem_gainedDeps.1 hid
        exact .inr (.inr ⟨e, he, (hnode _ (hv.edge e he).2).symm, nodeOf_new.symm⟩)

theorem insertPlanTasks_planDags {c : PlanInsertion} {ids : List TaskId}
    (h : db.PlanDags) (hc : insertPlanTasks db c = .ok (ids, db')) : db'.PlanDags := by
  obtain ⟨goal, plan, -, -, -, -, ⟨_, _, -, -, rfl⟩ | ⟨-, hvalid, hpersist⟩⟩ :=
    insertPlanTasks_ok hc
  · exact h
  · obtain ⟨-, -, rfl⟩ := persistInsertion_ok hpersist
    exact (inserted_planDags h (PlanInsertion.validate_ok hvalid)).framed (recompute_framed _)

/-! ## every run -/

theorem Op.planDags {s : Sys} {op : Op} (h : s.db.PlanDags) : (op.step s).db.PlanDags := by
  have hcommit : ∀ x : Except Err Db, (∀ db', x = .ok db' → db'.PlanDags) →
      (s.commit x).db.PlanDags := by
    intro x hx
    cases x with
    | ok db' => exact hx db' rfl
    | error e => exact h
  cases op with
  | createPlan now g specs =>
    refine hcommit _ fun db' hx => ?_
    obtain ⟨p, hp⟩ := map_snd_eq_ok hx
    exact createPlan_planDags h hp
  | insertPlanTasks c =>
    refine hcommit _ fun db' hx => ?_
    obtain ⟨ids, hi⟩ := map_snd_eq_ok hx
    exact insertPlanTasks_planDags h hi
  | _ => exact h.framed (Op.framed (by simp [inserts]))

theorem sysRun_planDags (os : List Op) : (sysRun os).db.PlanDags :=
  Run.inv_all (I := fun s : Sys => s.db.PlanDags) (fun _ _ h => Op.planDags h)
    ⟨fun i d hid => absurd hid (by simp [Db.dependsOn]), fun i hi => by
      obtain ⟨d, hd, -⟩ := Relation.TransGen.head'_iff.1 hi
      exact absurd hd (by simp [Db.dependsOn])⟩ os

end LifeAI
