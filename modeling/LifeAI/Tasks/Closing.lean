import LifeAI.Tasks.System

/-!
# When the roll-up closes a goal as completed

`recordFinalReport` reads the statuses of all tasks that the goal ever had, those of superseded
plans included.  `reportCompletes_iff` says when it closes the goal as completed;
`active_plan_completes_goal` compares that with the active plan alone.
-/

namespace LifeAI

variable {now : Time} {db : Db} {g : GoalId} {ss : List TaskStatus}

/-- `record_final_report` leaves the goal `completed` -/
def reportCompletes (now : Time) (db : Db) (g : GoalId) : Prop :=
  ∃ db', recordFinalReport now db g = .ok db' ∧ db'.goals[g]?.any (·.status = .completed)

theorem rolledUp_completed {s : GoalStatus} (hs : ¬ s.terminal) :
    rolledUp ss s = .completed ↔ ss ≠ [] ∧ ss.all (· = .completed) := by
  have hnc : s ≠ .completed := fun h => hs (by simp [h, GoalStatus.terminal])
  have hterm : ss.all (· = .completed) → ss.all TaskStatus.terminal := fun h => by
    rw [List.all_eq_true] at h ⊢
    intro t ht
    have := h t ht
    rw [decide_eq_true_eq] at this
    simp [this, TaskStatus.terminal]
  unfold rolledUp
  split
  · next h =>
    split
    · next hc => exact iff_of_true rfl ⟨h.1, hc⟩
    · next hc => exact iff_of_false (by simp) fun hx => hc hx.2
  · next h =>
    refine iff_of_false ?_ fun hx => h ⟨hx.1, hterm hx.2⟩
    dsimp only
    split
    · simp
    · split
      · simp
      · exact hnc

/-- the roll-up closes an unfinished goal as completed exactly if it has a task and all its tasks
are completed -/
theorem reportCompletes_iff : reportCompletes now db g ↔ ∃ goal, db.goals[g]? = some goal ∧
    (db.activePlans g).length ≤ 1 ∧ (goal.status = .completed ∨ (¬ goal.status.terminal ∧
      db.taskStatuses g ≠ [] ∧ (db.taskStatuses g).all (· = .completed))) := by
  unfold reportCompletes
  constructor
  · rintro ⟨db', h, hc⟩
    obtain ⟨goal, hg, hp, ⟨-, rfl⟩ | ⟨ht, -, rfl⟩⟩ := recordFinalReport_ok.1 h
    · rw [hg, Option.any_some, decide_eq_true_eq] at hc
      exact ⟨goal, hg, hp, .inl hc⟩
    · rw [getElem?_set_row hg, if_pos rfl, Option.any_some, decide_eq_true_eq] at hc
      exact ⟨goal, hg, hp, .inr ⟨ht, (rolledUp_completed ht).1 hc⟩⟩
  · rintro ⟨goal, hg, hp, hc | ⟨ht, hall⟩⟩
    · refine ⟨db, recordFinalReport_ok.2 ⟨goal, hg, hp, .inl ⟨?_, rfl⟩⟩, by simp [hg, hc]⟩
      simp [hc, GoalStatus.terminal]
    · have hs : db.rolledStatus g goal = .completed := (rolledUp_completed ht).2 hall
      refine ⟨_, recordFinalReport_ok.2 ⟨goal, hg, hp, .inr ⟨ht, ?_, rfl⟩⟩, ?_⟩
      · simp [Goal.checks, Db.rolledGoal, hs, GoalStatus.terminal]
      · rw [getElem?_set_row hg, if_pos rfl]
        simp [Db.rolledGoal, hs]

theorem mem_taskStatuses {s : TaskStatus} : s ∈ db.taskStatuses g ↔
    ∃ (i : TaskId) (t : Task), db.tasks[i]? = some t ∧ t.goalId = g ∧ t.status = s := by
  simp only [Db.taskStatuses, List.mem_map, List.mem_filter, decide_eq_true_eq]
  constructor
  · rintro ⟨t, ⟨hm, hg⟩, hs⟩
    obtain ⟨i, hi⟩ := List.mem_iff_getElem?.1 hm
    exact ⟨i, t, hi, hg, hs⟩
  · rintro ⟨i, t, ht, hg, hs⟩
    exact ⟨t, ⟨List.mem_of_getElem? ht, hg⟩, hs⟩

/-- the tasks of the goal for which `p` holds are completed -/
def Db.completedWhere (db : Db) (g : GoalId) (p : Task → Prop) : Prop :=
  ∀ (i : TaskId) (t : Task), db.tasks[i]? = some t → t.goalId = g → p t → t.status = .completed

/-- **When a completed plan completes its goal**: an unfinished goal whose only active plan is
done is closed as completed exactly if it has a task at all and the tasks of its other plans are
completed too. -/
theorem active_plan_completes_goal (now : Time) {db : Db} {g : GoalId} {goal : Goal} {p : PlanId}
    (hg : db.goals[g]? = some goal) (hopen : ¬ goal.status.terminal)
    (hactive : db.activePlans g = [p]) (hdone : db.completedWhere g (·.planId = p)) :
    reportCompletes now db g ↔ (∃ (i : TaskId) (t : Task), db.tasks[i]? = some t ∧ t.goalId = g) ∧
      db.completedWhere g (·.planId ≠ p) := by
  have hall : (db.taskStatuses g).all (· = .completed) ↔ db.completedWhere g (·.planId ≠ p) := by
    rw [List.all_eq_true]
    constructor
    · intro h i t ht hgoal _
      simpa using h t.status (mem_taskStatuses.2 ⟨i, t, ht, hgoal, rfl⟩)
    · intro h s hs
      obtain ⟨i, t, ht, hgoal, rfl⟩ := mem_taskStatuses.1 hs
      by_cases hp : t.planId = p
      · simpa using hdone i t ht hgoal hp
      · simpa using h i t ht hgoal hp
  have hne : db.taskStatuses g ≠ [] ↔ ∃ (i : TaskId) (t : Task), db.tasks[i]? = some t ∧ t.goalId = g := by
    constructor
    · intro hnil
      obtain ⟨s, hs⟩ := List.exists_mem_of_ne_nil _ hnil
      obtain ⟨i, t, ht, hgoal, -⟩ := mem_taskStatuses.1 hs
      exact ⟨i, t, ht, hgoal⟩
    · rintro ⟨i, t, ht, hgoal⟩
      exact List.ne_nil_of_mem (mem_taskStatuses.2 ⟨i, t, ht, hgoal, rfl⟩)
  have hnc : goal.status ≠ .completed := fun h => hopen (by simp [h, GoalStatus.terminal])
  rw [reportCompletes_iff, ← hne, ← hall]
  constructor
  · rintro ⟨goal', hg', -, hc | ⟨-, h⟩⟩
    · rw [hg, Option.some.injEq] at hg'
      exact absurd (hg' ▸ hc) hnc
    · exact h
  · exact fun h => ⟨goal, hg, by simp [hactive], .inr ⟨hopen, h⟩⟩

/-! ## a plan at its end, and a second plan -/

/-- the last task of a plan has just been marked completed -/
def finishedDb : Db where
  goals := [{ ownerId := 0, status := .running, currentPlanVersion := some 1 }]
  plans := [{ goalId := 0, ownerId := 0, version := 1, status := .active }]
  tasks := [(sampleSpec [] 3 |>.row 0 0 0).finishedCompleted 5]

theorem active_plan_completes_goal_finished : reportCompletes 6 finishedDb 0 := by
  have htask : ∀ (i : TaskId) (t : Task), finishedDb.tasks[i]? = some t →
      t.status = .completed ∧ t.planId = 0 := by
    intro i t ht
    obtain rfl := List.mem_singleton.1 (List.mem_of_getElem? ht)
    exact ⟨rfl, rfl⟩
  refine (active_plan_completes_goal 6 (p := 0) rfl (by decide) (by decide)
    fun i t ht _ _ => (htask i t ht).1).2 ⟨⟨0, _, rfl, rfl⟩, fun i t ht _ hp => ?_⟩
  exact absurd (htask i t ht).2 hp

/-- the only task of the first plan fails for good, and that of the second plan is under way -/
def replannedRun : List Op :=
  begunRun [sampleSpec [] 1] ++ [.failRun 5 firstRunner 30, .createPlan 6 0 [sampleSpec [] 3],
    .dispatchReadyTask { now := 7 } 1, .claimNext 8 "worker-1" 60 [],
    .startRun 9 ⟨1, "worker-1", 1⟩ 60]

set_option maxRecDepth 8000 in
/-- when it completes, the roll-up closes the running goal as failed -/
theorem replanned_goal_fails :
    (sysRun replannedRun).db.goals.map (·.status) = [.running] ∧
      (Op.step (sysRun replannedRun) (.completeRun 10 ⟨1, "worker-1", 1⟩ true 30)).db.activePlans 0
        = [1] ∧
      (Op.step (sysRun replannedRun) (.completeRun 10 ⟨1, "worker-1", 1⟩ true 30)).db.tasks.map
        (fun t => (t.planId, t.status)) = [(0, .failed), (1, .completed)] ∧
      (Op.step (sysRun replannedRun) (.completeRun 10 ⟨1, "worker-1", 1⟩ true 30)).db.goals.map
        (·.status) = [.failed] := by
  decide

end LifeAI
