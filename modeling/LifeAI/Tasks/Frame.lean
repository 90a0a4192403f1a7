import LifeAI.Tasks.Endings

/-!
# What only insertions change

* `Db.planOf`  the plan that a task belongs to;
* `Db.Framed`  the edges, the plans of the tasks and the records of insertions are kept;
* `Op.framed`  every operation but `create_plan` and `insert_plan_tasks` keeps them.
-/

namespace LifeAI

variable {db db' : Db}

/-- the plan that a task belongs to -/
def Db.planOf (db : Db) (i : TaskId) : Option PlanId := (db.tasks[i]?).map (·.planId)

theorem Db.planOf_eq_some {i : TaskId} {p : PlanId} :
    db.planOf i = some p ↔ ∃ t, db.tasks[i]? = some t ∧ t.planId = p := by
  simp [planOf, Option.map_eq_some_iff]

theorem Db.planOf_eq_none {i : TaskId} : db.planOf i = none ↔ db.tasks.length ≤ i := by
  simp [planOf]

/-- an event that records no creation -/
def TaskEvent.Plain (e : TaskEvent) : Prop := e.insertion = none ∧ e.kind ≠ .created

/-- the edges and the plans of the tasks are the same, and the new events record no creation -/
structure Db.Framed (db db' : Db) : Prop where
  deps : db'.deps = db.deps
  planOf : ∀ i, db'.planOf i = db.planOf i
  events : ∃ es, db'.events = db.events ++ es ∧ ∀ e ∈ es, e.Plain

namespace Db.Framed

theorem refl (db : Db) : Framed db db := ⟨rfl, fun _ => rfl, [], by simp, by simp⟩

theorem trans {a b c : Db} (h : Framed a b) (h' : Framed b c) : Framed a c := by
  obtain ⟨es, hes, hnone⟩ := h.events
  obtain ⟨es', hes', hnone'⟩ := h'.events
  refine ⟨h'.deps.trans h.deps, fun i => (h'.planOf i).trans (h.planOf i), es ++ es', ?_, ?_⟩
  · rw [hes', hes, List.append_assoc]
  · intro e he
    exact (List.mem_append.1 he).elim (hnone e) (hnone' e)

/-- no task is added -/
theorem length (h : Framed db db') : db'.tasks.length = db.tasks.length := by
  have hnone : ∀ i, db'.tasks.length ≤ i ↔ db.tasks.length ≤ i := fun i => by
    rw [← planOf_eq_none, ← planOf_eq_none, h.planOf]
  exact le_antisymm ((hnone _).2 le_rfl) ((hnone _).1 le_rfl)

end Db.Framed

/-! ## the moves -/

/-- the guard that lets no insertion pass -/
def frozenGuard : Guard where
  insert _ _ _ := False
  row _ _ _ _ := True
  resume _ _ := True

/-- the events of a turn record no creation -/
theorem Turn.records_plain {k : Turn} {i : TaskId} {es : List TaskEvent}
    (h : k.records i es) : ∀ e ∈ es, e.Plain := by
  intro e he
  cases k with
  | retry | reset | wake | resume | park =>
    obtain ⟨r, rfl⟩ := h
    rw [List.mem_singleton.1 he]
    exact ⟨rfl, by simp⟩
  | repairPark =>
    cases h
    rw [List.mem_singleton.1 he]
    exact ⟨rfl, by simp⟩
  | touch | dispatch | cancel | outcome => exact (h e he).2

theorem recompute_framed (g : GoalId) : db.Framed (recomputeTaskReadiness db g) := by
  refine ⟨rfl, fun i => ?_, recomputeEvents db g, rfl, fun e he => ?_⟩
  · cases ht : db.tasks[i]? with
    | none => simp [Db.planOf, recompute_getElem?, ht]
    | some t =>
      rcases recompute_cases (g := g) ht with h | ⟨-, -, h⟩ | ⟨-, d, s, -, h⟩ <;>
        simp [Db.planOf, h, ht]
  · obtain ⟨t, -, -, hev⟩ := mem_recomputeEvents.1 he
    unfold Readiness.event at hev
    split at hev <;> simp at hev <;> rw [← hev] <;> exact ⟨rfl, by simp⟩

theorem Move.framed (h : Move frozenGuard db db') : db.Framed db' := by
  cases h with
  | notes es hes => exact ⟨rfl, fun _ => rfl, es, rfl, fun e he => (hes e he).2⟩
  | insert ts ds es hts hes hG => exact hG.elim
  | recompute g => exact recompute_framed g
  | @row i t t' k es ht hc hmax hplan hatt hk hes hG hr =>
    refine ⟨rfl, fun j => ?_, es, rfl, Turn.records_plain hes⟩
    rw [Db.planOf, Db.addEvents_tasks, getElem?_set_row ht]
    split
    · next hij => simp [Db.planOf, ← hij, ht, hplan]
    · rfl
  | jobs hj | newJob r hr _ => exact ⟨rfl, fun _ => rfl, [], by simp, by simp⟩
  | aux ht hd he hj =>
    refine ⟨hd, fun i => ?_, [], by simp [he], by simp⟩
    rw [Db.planOf, Db.planOf, ht]

theorem Moves.framed (h : Moves frozenGuard db db') : db.Framed db' := by
  induction h with
  | refl => exact .refl db
  | tail _ hm ih => exact ih.trans hm.framed

/-! ## the operations -/

/-- the operations that insert tasks -/
def Op.inserts : Op → Bool
  | .createPlan .. | .insertPlanTasks .. => true
  | _ => false

theorem Op.admits_frozenGuard {s : Sys} {op : Op} (h : ¬ op.inserts) :
    frozenGuard.admits s op := by
  have hturn {i : TaskId} {k : Turn} {prior : TaskStatus → Bool} {next : TaskStatus} :
      frozenGuard.admitsTurn s.db i k prior next := fun _ _ _ _ _ _ _ => trivial
  cases op with
  | createPlan now g specs => exact absurd rfl h
  | insertPlanTasks c => exact absurd rfl h
  | createJob env c => trivial
  | dispatchReadyTask env i | dispatchCrash env i => exact fun _ => trivial
  | retryJob j loaded => trivial
  | executeTakeover env k => exact fun _ _ _ => ⟨hturn, fun _ => trivial⟩
  | parkProviderSpendDefer now w => exact fun _ _ => hturn
  | releaseProviderWait now w delay => exact fun _ _ => hturn
  | resumeSourceAfterRepair i => exact ⟨hturn, fun _ _ _ => trivial⟩
  | _ => exact fun _ _ _ _ _ _ _ => trivial

/-- only `create_plan` and `insert_plan_tasks` change edges, plans of tasks and records -/
theorem Op.framed {s : Sys} {op : Op} (h : ¬ op.inserts) : s.db.Framed (op.step s).db :=
  (Op.moves (Op.admits_frozenGuard h)).framed

theorem supersede_framed {now : Time} {v : Nat} {g : GoalId}
    (h : supersede now v db g = .ok db') : db.Framed db' := (supersede_moves h).framed

end LifeAI
