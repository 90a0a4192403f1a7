import LifeAI.Tasks.Drain

/-!
# What a readiness pass leaves pending

* `Readied`          what one pass should leave;
* `Db.failuresNear`  the condition: a failure upstream of a pending task is a dependency of it;
* `pass_readies`     every table of tasks and dependencies.
-/

namespace LifeAI

variable {db : Db} {g : GoalId} {i : TaskId}

/-- the task is `failed` or `cancelled` -/
def Db.isDead (db : Db) (d : TaskId) : Prop :=
  ∃ t, db.tasks[d]? = some t ∧ t.status.neverCompletes = true

/-- what one pass of `recompute_task_readiness` should leave -/
structure Readied (db : Db) (g : GoalId) : Prop where
  /-- a task that is still pending waits for no dead one, at any distance -/
  alive : ∀ (i : TaskId) t, (recomputeTaskReadiness db g).tasks[i]? = some t → t.pendingIn g →
    ∀ d, Relation.TransGen (recomputeTaskReadiness db g).dependsOn i d →
      ¬ (recomputeTaskReadiness db g).isDead d
  promoted : ∀ i ∈ newlyReady db g, (recomputeTaskReadiness db g).depsCompleted i
  /-- a second pass changes nothing and adds no event -/
  again : recomputeTaskReadiness (recomputeTaskReadiness db g) g = recomputeTaskReadiness db g

/-- A pending task with a dead one upstream depends on a dead one itself, or all its dependencies
are completed. -/
def Db.failuresNear (db : Db) (g : GoalId) : Prop :=
  ∀ (i : TaskId) t, db.tasks[i]? = some t → t.pendingIn g →
    (∃ d, Relation.TransGen db.dependsOn i d ∧ db.isDead d) →
      (∃ d, db.dependsOn i d ∧ db.isDead d) ∨ db.depsCompleted i

/-! ## what the pass keeps -/

theorem recompute_isDead {d : TaskId} : (recomputeTaskReadiness db g).isDead d ↔ db.isDead d :=
  recompute_status (fun s => s.neverCompletes = true) (by decide) (by decide) (by decide)

theorem recompute_depsCompleted :
    (recomputeTaskReadiness db g).depsCompleted i ↔ db.depsCompleted i := by
  constructor
  · intro h d hd
    exact recompute_completed.1 (h d hd)
  · intro h d hd
    exact recompute_completed.2 (h d hd)

/-- the dependency table has no pair twice, so every id is found once -/
theorem Db.readiness_of_completed (hdeps : db.deps.Nodup) (h : db.depsCompleted i) :
    db.readiness i = .ready := by
  have hids : (db.depIds i).Nodup := by
    refine List.Nodup.map_on (fun x hx y hy hxy => ?_) (hdeps.filter _)
    have hxi : x.task = i := of_decide_eq_true (List.mem_filter.1 hx).2
    have hyi : y.task = i := of_decide_eq_true (List.mem_filter.1 hy).2
    cases x
    cases y
    exact congrArg₂ Dep.mk (hxi.trans hyi.symm) hxy
  have hperm : ((db.statusRows (db.depIds i)).map Prod.fst).Perm (db.depIds i) := by
    rw [statusRows_ids]
    refine (List.perm_ext_iff_of_nodup (List.nodup_range.filter _) hids).2 fun d => ?_
    rw [List.mem_filter, List.mem_range, decide_eq_true_iff]
    constructor
    · exact fun hd => hd.2
    · intro hd
      obtain ⟨t, ht, -⟩ := h d (mem_depIds.1 hd)
      exact ⟨(List.getElem?_eq_some_iff.1 ht).1, hd⟩
  refine readiness_eq_ready.2 (.inr ⟨?_, fun d hd t ht => ?_⟩)
  · have hlen := hperm.length_eq
    rw [List.length_map] at hlen
    exact hlen
  · obtain ⟨q, hq, hs⟩ := h d (mem_depIds.1 hd)
    obtain rfl := Option.some.inj (ht.symm.trans hq)
    exact hs

/-- the verdict `stay`, read from the rows -/
theorem Db.readiness_stay_iff (hdeps : db.deps.Nodup) :
    db.readiness i = .stay ↔ (∀ d, db.dependsOn i d → ¬ db.isDead d) ∧ ¬ db.depsCompleted i := by
  constructor
  · intro h
    refine ⟨fun d hd ⟨t, ht, hs⟩ => ?_, fun hall => ?_⟩
    · obtain ⟨d', s, hblocked⟩ := readiness_of_failure hd ht hs
      rw [h] at hblocked
      cases hblocked
    · have hready := readiness_of_completed hdeps hall
      rw [h] at hready
      cases hready
  · intro ⟨halive, hno⟩
    cases hr : db.readiness i with
    | stay => rfl
    | ready => exact absurd (readiness_ready hr) hno
    | blocked d s =>
      obtain ⟨hd, hs, t, ht, rfl⟩ := readiness_blocked hr
      exact absurd ⟨t, ht, hs⟩ (halive d hd)

/-- what is pending after the pass was left so by its verdict -/
theorem recompute_pending_iff {t : Task} : (recomputeTaskReadiness db g).tasks[i]? = some t ∧ t.pendingIn g ↔
    db.tasks[i]? = some t ∧ t.pendingIn g ∧ db.readiness i = .stay := by
  constructor
  · intro ⟨ht', hp⟩
    obtain ⟨hg, hs⟩ := Task.pendingIn_iff.1 hp
    have hmap := ht'
    rw [recompute_getElem?] at hmap
    obtain ⟨q, hq, -⟩ := Option.map_eq_some_iff.1 hmap
    have hpass := recompute_getElem? db g i
    rw [hq, ht', Option.map_some, Option.some.injEq] at hpass
    by_cases hqp : q.pendingIn g
    · rw [if_pos hqp] at hpass
      cases hr : db.readiness i with
      | stay =>
        rw [hr] at hpass
        exact ⟨hpass ▸ hq, hp, rfl⟩
      | ready | blocked d s =>
        rw [hr] at hpass
        rw [hpass] at hs
        cases hs
    · rw [if_neg hqp] at hpass
      exact absurd (hpass ▸ hp) hqp
  · intro ⟨ht, hp, hr⟩
    refine ⟨?_, hp⟩
    rw [recompute_getElem?, ht, Option.map_some, if_pos hp, hr]
    rfl

/-! ## the second pass -/

/-- what the first pass left pending, the second one leaves too -/
theorem recompute_stays {t : Task} (hdeps : db.deps.Nodup)
    (ht : (recomputeTaskReadiness db g).tasks[i]? = some t) (hp : t.pendingIn g) :
    (recomputeTaskReadiness db g).readiness i = .stay := by
  obtain ⟨-, -, hstay⟩ := recompute_pending_iff.1 ⟨ht, hp⟩
  obtain ⟨halive, hno⟩ := (Db.readiness_stay_iff hdeps).1 hstay
  have hdeps' : (recomputeTaskReadiness db g).deps.Nodup := hdeps
  refine (Db.readiness_stay_iff hdeps').2 ⟨fun d hd hdead => ?_, fun hall => ?_⟩
  · exact halive d hd (recompute_isDead.1 hdead)
  · exact hno (recompute_depsCompleted.1 hall)

theorem recompute_again (hdeps : db.deps.Nodup) :
    recomputeTaskReadiness (recomputeTaskReadiness db g) g = recomputeTaskReadiness db g := by
  have htasks : (recomputeTaskReadiness (recomputeTaskReadiness db g) g).tasks =
      (recomputeTaskReadiness db g).tasks := by
    refine List.ext_getElem? fun i => ?_
    rw [recompute_getElem?]
    cases ht : (recomputeTaskReadiness db g).tasks[i]? with
    | none => rfl
    | some t =>
      rw [Option.map_some]
      by_cases hp : t.pendingIn g
      · rw [if_pos hp, recompute_stays hdeps ht hp]
        rfl
      · rw [if_neg hp]
  have hevents : recomputeEvents (recomputeTaskReadiness db g) g = [] := by
    refine List.filterMap_eq_nil_iff.2 fun i hi => ?_
    obtain ⟨t, ht, hp⟩ := Db.mem_pendingTasks.1 hi
    rw [recompute_stays hdeps ht hp]
    rfl
  have hadd : (recomputeTaskReadiness (recomputeTaskReadiness db g) g).events =
      (recomputeTaskReadiness db g).events := by
    rw [recompute_events, hevents, List.append_nil]
  calc recomputeTaskReadiness (recomputeTaskReadiness db g) g
      = { recomputeTaskReadiness db g with
          tasks := (recomputeTaskReadiness (recomputeTaskReadiness db g) g).tasks
          events := (recomputeTaskReadiness (recomputeTaskReadiness db g) g).events } := rfl
    _ = recomputeTaskReadiness db g := by rw [htasks, hadd]

/-! ## one pass -/

/-- **One pass leaves no task pending behind a dead one, exactly when every failure upstream of a
pending task is next to it or no longer matters; what the pass promotes has its dependencies
completed, and a second pass does nothing.** -/
theorem pass_readies (db : Db) (g : GoalId) (hdeps : db.deps.Nodup) :
    Readied db g ↔ db.failuresNear g := by
  constructor
  · intro h i t ht hp ⟨d, hd, hdead⟩
    by_contra hfar
    obtain ⟨hnone, hno⟩ := not_or.1 hfar
    have hstay := (Db.readiness_stay_iff hdeps).2 ⟨fun d hd hdead => hnone ⟨d, hd, hdead⟩, hno⟩
    obtain ⟨hafter, -⟩ := recompute_pending_iff.2 ⟨ht, hp, hstay⟩
    exact h.alive i t hafter hp d hd (recompute_isDead.2 hdead)
  · intro hnear
    refine ⟨fun i t ht hp d hd hdead => ?_, fun i hi => ?_, recompute_again hdeps⟩
    · obtain ⟨ht', -, hstay⟩ := recompute_pending_iff.1 ⟨ht, hp⟩
      obtain ⟨halive, hno⟩ := (Db.readiness_stay_iff hdeps).1 hstay
      rcases hnear i t ht' hp ⟨d, hd, recompute_isDead.1 hdead⟩ with ⟨d', hd', hdead'⟩ | hall
      · exact halive d' hd' hdead'
      · exact hno hall
    · have hready := (List.mem_filter.1 hi).2
      exact recompute_depsCompleted.2 (Db.readiness_ready (of_decide_eq_true hready))

/-- a task of the goal 0 that waits -/
def waitingTask : Task where
  goalId := 0
  planId := 0
  ownerId := 1
  description := "step"
  taskType := "code_change"
  maxAttempts := 3

/-- a failed task and one that depends on it -/
def oneFailure : Db where
  tasks := [{ waitingTask with status := .failed, completedAt := some 5 }, waitingTask]
  deps := [⟨1, 0⟩]

theorem pass_readies_oneFailure : Readied oneFailure 0 := by
  refine (pass_readies oneFailure 0 (by decide)).2 fun i t ht hp _ => ?_
  match i, ht with
  | 0, ht =>
    obtain rfl := Option.some.inj ht
    exact absurd hp (by decide)
  | 1, _ => exact .inl ⟨0, List.mem_cons_self, _, rfl, rfl⟩

/-- a third task that depends on the second one -/
def failureChain : Db where
  tasks := oneFailure.tasks ++ [waitingTask]
  deps := oneFailure.deps ++ [⟨2, 1⟩]

/-- The pass blocks the second task and leaves the third one pending. -/
theorem failureChain_pending : ¬ ∀ (db : Db) (g : GoalId), db.deps.Nodup → Readied db g := by
  intro h
  have hchain := h failureChain 0 (by decide)
  have hpending : (recomputeTaskReadiness failureChain 0).tasks[2]? = some waitingTask := by decide
  have hup : Relation.TransGen (recomputeTaskReadiness failureChain 0).dependsOn 2 0 := by
    refine .tail (.single (b := 1) ?_) ?_
    · exact List.mem_cons_of_mem _ List.mem_cons_self
    · exact List.mem_cons_self
  exact hchain.alive 2 waitingTask hpending (by decide) 0 hup ⟨_, rfl, rfl⟩

end LifeAI
