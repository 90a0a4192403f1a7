import LifeAI.Tasks.Model

/-!
# Readiness of pending tasks

`recomputeTaskReadiness` reads the dependency rows of every pending task of a goal and promotes
or blocks it.  The pass reads the statuses as they stood before it, so the order in which it
visits the tasks does not matter and it is one `mapIdx`.
-/

namespace LifeAI

/-- `c` depends on `d` -/
def Db.dependsOn (db : Db) (c d : TaskId) : Prop := ⟨c, d⟩ ∈ db.deps

/-- `_DEPENDENCY`: the ids that a task depends on -/
def Db.depIds (db : Db) (i : TaskId) : List TaskId :=
  (db.deps.filter (·.task = i)).map (·.dependsOn)

/-- the id and status of the tasks with an id in `ids`, in table order -/
def Db.statusRows (db : Db) (ids : List TaskId) : List (TaskId × TaskStatus) :=
  (List.range db.tasks.length).filterMap fun j =>
    if j ∈ ids then (db.tasks[j]?).map fun t => (j, t.status) else none

inductive Readiness where
  | stay
  | ready
  | blocked (dep : TaskId) (status : TaskStatus)
  deriving DecidableEq

/-- the verdict of `recompute_task_readiness` on one pending task -/
def Db.readiness (db : Db) (i : TaskId) : Readiness :=
  let ids := db.depIds i
  if ids = [] then .ready
  else
    let rows := db.statusRows ids
    match rows.find? (fun r => r.2.neverCompletes) with
    | some (d, s) => .blocked d s
    | none =>
      if rows.length = ids.length ∧ rows.all (fun r => r.2 = .completed) then .ready else .stay

/-- `f"Depends on task {id}, which is {status}."` -/
def blockerText (d : TaskId) (s : TaskStatus) : String :=
  "Depends on task " ++ toString d ++ ", which is " ++ s.value ++ "."

def Readiness.apply (r : Readiness) (t : Task) : Task :=
  match r with
  | .stay => t
  | .ready => { t with status := .ready }
  | .blocked d s => { t with status := .blocked, blockerReason := some (blockerText d s) }

/-- the event of a move; a dependency block carries no `reason` -/
def Readiness.event (r : Readiness) (i : TaskId) : Option TaskEvent :=
  match r with
  | .stay => none
  | .ready => some { task := i, kind := .ready }
  | .blocked _ _ => some { task := i, kind := .blocked }

/-- the row is one that the pass looks at -/
def Task.pendingIn (g : GoalId) (t : Task) : Bool := t.goalId = g ∧ t.status = .pending

theorem Task.pendingIn_iff {g : GoalId} {t : Task} :
    t.pendingIn g ↔ t.goalId = g ∧ t.status = .pending := by
  simp [pendingIn]

/-- the pending tasks of a goal -/
def Db.pendingTasks (db : Db) (g : GoalId) : List TaskId :=
  (List.range db.tasks.length).filter fun i => db.tasks[i]?.any (Task.pendingIn g)

/-- `recompute_task_readiness` -/
def recomputeTaskReadiness (db : Db) (g : GoalId) : Db :=
  { db with
    tasks := db.tasks.mapIdx fun i t =>
      if t.pendingIn g then (db.readiness i).apply t else t
    events := db.events ++ (db.pendingTasks g).filterMap fun i => (db.readiness i).event i }

/-- what `recompute_task_readiness` returns: the tasks it promoted -/
def newlyReady (db : Db) (g : GoalId) : List TaskId :=
  (db.pendingTasks g).filter fun i => db.readiness i = .ready

/-! ## what the verdict says -/

theorem Db.mem_depIds {db : Db} {i d : TaskId} : d ∈ db.depIds i ↔ ⟨i, d⟩ ∈ db.deps := by
  simp only [depIds, List.mem_map, List.mem_filter, decide_eq_true_eq]
  constructor
  · rintro ⟨⟨i', d'⟩, ⟨hm, rfl⟩, rfl⟩
    exact hm
  · intro h
    exact ⟨⟨i, d⟩, ⟨h, rfl⟩, rfl⟩

theorem Db.mem_statusRows {db : Db} {ids : List TaskId} {d : TaskId} {s : TaskStatus} :
    (d, s) ∈ db.statusRows ids ↔ d ∈ ids ∧ ∃ t, db.tasks[d]? = some t ∧ t.status = s := by
  simp only [statusRows, List.mem_filterMap, List.mem_range]
  constructor
  · rintro ⟨j, hj, h⟩
    split at h
    · next hmem =>
      obtain ⟨t, ht, heq⟩ := Option.map_eq_some_iff.1 h
      cases heq
      exact ⟨hmem, t, ht, rfl⟩
    · exact absurd h (by simp)
  · rintro ⟨hmem, t, ht, rfl⟩
    exact ⟨d, (List.getElem?_eq_some_iff.1 ht).1, by simp [hmem, ht]⟩

/-- every dependency of the task is a completed task -/
def Db.depsCompleted (db : Db) (i : TaskId) : Prop :=
  ∀ d, ⟨i, d⟩ ∈ db.deps → ∃ t, db.tasks[d]? = some t ∧ t.status = .completed

/-- the ids of the rows found, each once -/
theorem Db.statusRows_ids (db : Db) (ids : List TaskId) :
    (db.statusRows ids).map Prod.fst = (List.range db.tasks.length).filter (· ∈ ids) := by
  unfold statusRows
  rw [List.map_filterMap]
  have hcongr : ∀ l : List Nat, (∀ j ∈ l, j < db.tasks.length) →
      l.filterMap (fun j => (if j ∈ ids then (db.tasks[j]?).map fun t => (j, t.status)
        else none).map Prod.fst) = l.filter (· ∈ ids) := by
    intro l hl
    induction l with
    | nil => rfl
    | cons j l ih =>
      have hj := hl j (by simp)
      rw [List.filterMap_cons, List.filter_cons, ih fun x hx => hl x (by simp [hx])]
      by_cases hm : j ∈ ids <;> simp [hm, List.getElem?_eq_getElem hj]
  exact hcongr _ fun j hj => List.mem_range.1 hj

/-- as many rows as ids means that every id was found -/
theorem Db.statusRows_all {db : Db} {ids : List TaskId}
    (h : (db.statusRows ids).length = ids.length) :
    ∀ d ∈ ids, ∃ s, (d, s) ∈ db.statusRows ids := by
  have hnd : ((db.statusRows ids).map Prod.fst).Nodup := by
    rw [statusRows_ids]
    exact List.nodup_range.filter _
  have hsub : (db.statusRows ids).map Prod.fst ⊆ ids := by
    rw [statusRows_ids]
    intro d hd
    simpa using (List.mem_filter.1 hd).2
  have hperm : ((db.statusRows ids).map Prod.fst).Perm ids :=
    (hnd.subperm hsub).perm_of_length_le (by rw [List.length_map, h])
  intro d hd
  obtain ⟨⟨d', s⟩, hmem, rfl⟩ := List.mem_map.1 (hperm.mem_iff.2 hd)
  exact ⟨s, hmem⟩

theorem Db.readiness_ready {db : Db} {i : TaskId} (h : db.readiness i = .ready) :
    db.depsCompleted i := by
  intro d hd
  have hmem := Db.mem_depIds.2 hd
  unfold readiness at h
  dsimp only at h
  split at h
  · next hnil =>
    rw [hnil] at hmem
    exact absurd hmem (by simp)
  · split at h
    · exact absurd h (by simp)
    · split at h
      · next hall =>
        obtain ⟨s, hs⟩ := Db.statusRows_all hall.1 d hmem
        obtain ⟨-, t, ht, hst⟩ := Db.mem_statusRows.1 hs
        have hc := List.all_eq_true.1 hall.2 (d, s) hs
        exact ⟨t, ht, by simpa [hst] using hc⟩
      · exact absurd h (by simp)

theorem Db.readiness_blocked {db : Db} {i d : TaskId} {s : TaskStatus}
    (h : db.readiness i = .blocked d s) :
    ⟨i, d⟩ ∈ db.deps ∧ s.neverCompletes ∧ ∃ t, db.tasks[d]? = some t ∧ t.status = s := by
  unfold readiness at h
  dsimp only at h
  split at h
  · exact absurd h (by simp)
  · split at h
    · next r d' s' hf =>
      simp only [Readiness.blocked.injEq] at h
      obtain ⟨rfl, rfl⟩ := h
      obtain ⟨hmem, t, ht, hs⟩ := Db.mem_statusRows.1 (List.mem_of_find?_eq_some hf)
      have hfail := List.find?_some hf
      exact ⟨Db.mem_depIds.1 hmem, by simpa using hfail, t, ht, hs⟩
    · split at h <;> exact absurd h (by simp)

/-- a dependency that will never complete blocks -/
theorem Db.readiness_of_failure {db : Db} {i d : TaskId} {t : Task} (hd : ⟨i, d⟩ ∈ db.deps)
    (ht : db.tasks[d]? = some t) (hs : t.status.neverCompletes) :
    ∃ d' s, db.readiness i = .blocked d' s := by
  have hmem := Db.mem_depIds.2 hd
  unfold readiness
  dsimp only
  rw [if_neg (by intro hnil; rw [hnil] at hmem; exact absurd hmem (by simp))]
  cases hf : (db.statusRows (db.depIds i)).find? (fun r => r.2.neverCompletes) with
  | some r => exact ⟨r.1, r.2, rfl⟩
  | none =>
    have := List.find?_eq_none.1 hf (d, t.status) (Db.mem_statusRows.2 ⟨hmem, t, ht, rfl⟩)
    exact absurd hs (by simpa using this)

/-! ## what the pass does to a row -/

theorem Db.mem_pendingTasks {db : Db} {g : GoalId} {i : TaskId} :
    i ∈ db.pendingTasks g ↔ ∃ t, db.tasks[i]? = some t ∧ t.pendingIn g := by
  unfold pendingTasks
  rw [List.mem_filter, List.mem_range]
  constructor
  · rintro ⟨hi, hp⟩
    rw [List.getElem?_eq_getElem hi, Option.any_some] at hp
    exact ⟨_, List.getElem?_eq_getElem hi, hp⟩
  · rintro ⟨t, ht, hp⟩
    exact ⟨(List.getElem?_eq_some_iff.1 ht).1, by rw [ht, Option.any_some]; exact hp⟩

/-- the events of the pass -/
def recomputeEvents (db : Db) (g : GoalId) : List TaskEvent :=
  (db.pendingTasks g).filterMap fun i => (db.readiness i).event i

theorem recompute_events (db : Db) (g : GoalId) :
    (recomputeTaskReadiness db g).events = db.events ++ recomputeEvents db g := rfl

theorem mem_recomputeEvents {db : Db} {g : GoalId} {e : TaskEvent} :
    e ∈ recomputeEvents db g ↔ ∃ t, db.tasks[e.task]? = some t ∧ t.pendingIn g ∧
      (db.readiness e.task).event e.task = some e := by
  simp only [recomputeEvents, List.mem_filterMap, Db.mem_pendingTasks]
  constructor
  · rintro ⟨i, ⟨t, ht, hp⟩, he⟩
    have hi : e.task = i := by
      unfold Readiness.event at he
      split at he <;> simp at he <;> rw [← he]
    subst hi
    exact ⟨t, ht, hp, he⟩
  · rintro ⟨t, ht, hp, he⟩
    exact ⟨e.task, ⟨t, ht, hp⟩, he⟩

theorem recompute_getElem? (db : Db) (g : GoalId) (i : TaskId) :
    (recomputeTaskReadiness db g).tasks[i]? = (db.tasks[i]?).map fun t =>
      if t.pendingIn g then (db.readiness i).apply t else t := by
  simp [recomputeTaskReadiness, List.getElem?_mapIdx]

@[simp] theorem recompute_deps (db : Db) (g : GoalId) :
    (recomputeTaskReadiness db g).deps = db.deps := rfl
@[simp] theorem recompute_goals (db : Db) (g : GoalId) :
    (recomputeTaskReadiness db g).goals = db.goals := rfl
@[simp] theorem recompute_plans (db : Db) (g : GoalId) :
    (recomputeTaskReadiness db g).plans = db.plans := rfl
@[simp] theorem recompute_jobs (db : Db) (g : GoalId) :
    (recomputeTaskReadiness db g).jobs = db.jobs := rfl
@[simp] theorem recompute_length (db : Db) (g : GoalId) :
    (recomputeTaskReadiness db g).tasks.length = db.tasks.length := by
  simp [recomputeTaskReadiness]

theorem recompute_not_pending {db : Db} {g : GoalId} {i : TaskId} {t : Task}
    (ht : db.tasks[i]? = some t) (hs : t.status ≠ .pending) :
    (recomputeTaskReadiness db g).tasks[i]? = some t := by
  simp [recompute_getElem?, ht, Task.pendingIn, hs]

/-- the three things that can become of a row -/
theorem recompute_cases {db : Db} {g : GoalId} {i : TaskId} {t : Task}
    (ht : db.tasks[i]? = some t) :
    (recomputeTaskReadiness db g).tasks[i]? = some t ∨
      (t.pendingIn g ∧ db.readiness i = .ready ∧
        (recomputeTaskReadiness db g).tasks[i]? = some { t with status := .ready }) ∨
      (t.pendingIn g ∧ ∃ d s, db.readiness i = .blocked d s ∧
        (recomputeTaskReadiness db g).tasks[i]?
          = some { t with status := .blocked, blockerReason := some (blockerText d s) }) := by
  rw [recompute_getElem?, ht, Option.map_some]
  by_cases hp : t.pendingIn g
  · rw [if_pos hp]
    cases hr : db.readiness i with
    | stay => exact .inl rfl
    | ready => exact .inr (.inl ⟨hp, rfl, rfl⟩)
    | blocked d s => exact .inr (.inr ⟨hp, d, s, rfl, rfl⟩)
  · exact .inl (by rw [if_neg hp])

/-- a status that the pass neither takes away nor gives -/
theorem recompute_status {db : Db} {g : GoalId} {i : TaskId} (p : TaskStatus → Prop) (hpending : ¬ p .pending)
    (hready : ¬ p .ready) (hblocked : ¬ p .blocked) :
    (∃ t, (recomputeTaskReadiness db g).tasks[i]? = some t ∧ p t.status) ↔
      ∃ t, db.tasks[i]? = some t ∧ p t.status := by
  constructor
  · intro ⟨t', ht', hp⟩
    have hmap := ht'
    rw [recompute_getElem?] at hmap
    obtain ⟨t, ht, -⟩ := Option.map_eq_some_iff.1 hmap
    rcases recompute_cases (g := g) ht with h | ⟨-, -, h⟩ | ⟨-, d, s, -, h⟩
    · obtain rfl := Option.some.inj (ht'.symm.trans h)
      exact ⟨t', ht, hp⟩
    · obtain rfl := Option.some.inj (ht'.symm.trans h)
      exact absurd hp hready
    · obtain rfl := Option.some.inj (ht'.symm.trans h)
      exact absurd hp hblocked
  · intro ⟨t, ht, hp⟩
    refine ⟨t, recompute_not_pending ht fun hs => ?_, hp⟩
    rw [hs] at hp
    exact hpending hp

/-- a completed task stays completed, and nothing becomes completed -/
theorem recompute_completed {db : Db} {g : GoalId} {i : TaskId} :
    (∃ t, (recomputeTaskReadiness db g).tasks[i]? = some t ∧ t.status = .completed) ↔
      ∃ t, db.tasks[i]? = some t ∧ t.status = .completed :=
  recompute_status (fun s => s = .completed) (by decide) (by decide) (by decide)

end LifeAI
