import LifeAI.Tasks.Replay

/-!
# Tasks are created once

* `Db.Created`  each `created` event is of a task that is there, and there is one for each task;
* `Db.Creates`  a step adds such events for the tasks that it adds, and no others;
* `Op.creates`  every operation does so;
* `Db.Creates.creation`  the `created` event of a task stays the one it is.
-/

namespace LifeAI

variable {db db' : Db}

/-- the tasks of the `created` events -/
def createdTasks (es : List TaskEvent) : List TaskId :=
  (es.filter (·.kind = .created)).map (·.task)

/-- the `created` event of a task -/
def Db.creation (db : Db) (i : TaskId) : Option TaskEvent :=
  db.events.find? fun e => e.task = i ∧ e.kind = .created

structure Db.Created (db : Db) : Prop where
  nodup : (createdTasks db.events).Nodup
  bound : ∀ i ∈ createdTasks db.events, i < db.tasks.length
  /-- the record of an insertion is a detail of the `created` event of its task -/
  records : ∀ e ∈ db.events, ∀ r, e.insertion = some r → e.kind = .created ∧ r.taskId = e.task

structure Db.Creates (db db' : Db) : Prop where
  grown : db.tasks.length ≤ db'.tasks.length
  events : ∃ es, db'.events = db.events ++ es ∧ (createdTasks es).Nodup ∧
    (∀ i ∈ createdTasks es, db.tasks.length ≤ i ∧ i < db'.tasks.length) ∧
    ∀ e ∈ es, ∀ r, e.insertion = some r → e.kind = .created ∧ r.taskId = e.task

theorem mem_createdTasks {es : List TaskEvent} {i : TaskId} :
    i ∈ createdTasks es ↔ ∃ e ∈ es, e.kind = .created ∧ e.task = i := by
  simp [createdTasks, and_assoc]

theorem createdTasks_append (es es' : List TaskEvent) :
    createdTasks (es ++ es') = createdTasks es ++ createdTasks es' := by
  simp [createdTasks]

theorem createdTasks_plain {es : List TaskEvent} (h : ∀ e ∈ es, e.kind ≠ .created) :
    createdTasks es = [] := by
  simp [createdTasks, List.filter_eq_nil_iff]
  exact h

namespace Db.Creates

theorem refl (db : Db) : Creates db db := ⟨le_rfl, [], by simp, by simp [createdTasks],
  by simp [createdTasks], by simp⟩

theorem trans {a b c : Db} (h : Creates a b) (h' : Creates b c) : Creates a c := by
  obtain ⟨es, hes, hnodup, hnew, hrec⟩ := h.events
  obtain ⟨es', hes', hnodup', hnew', hrec'⟩ := h'.events
  refine ⟨h.grown.trans h'.grown, es ++ es', by rw [hes', hes, List.append_assoc], ?_, ?_, ?_⟩
  · rw [createdTasks_append, List.nodup_append]
    refine ⟨hnodup, hnodup', fun i hi j hj hij => ?_⟩
    have hlt : i < b.tasks.length := (hnew i hi).2
    have hge : b.tasks.length ≤ j := (hnew' j hj).1
    exact absurd (hij ▸ hlt) (Nat.not_lt.2 hge)
  · intro i hi
    rw [createdTasks_append, List.mem_append] at hi
    rcases hi with hi | hi
    · exact ⟨(hnew i hi).1, (hnew i hi).2.trans_le h'.grown⟩
    · exact ⟨h.grown.trans (hnew' i hi).1, (hnew' i hi).2⟩
  · intro e he
    exact (List.mem_append.1 he).elim (hrec e) (hrec' e)

theorem framed (hf : db.Framed db') : Creates db db' := by
  obtain ⟨es, hes, hplain⟩ := hf.events
  have hnone : createdTasks es = [] := createdTasks_plain fun e he => (hplain e he).2
  refine ⟨hf.length.ge, es, hes, by simp [hnone], by simp [hnone], fun e he r hr => ?_⟩
  exact absurd hr (by simp [(hplain e he).1])

theorem created (h : Creates db db') (hc : db.Created) : db'.Created := by
  obtain ⟨es, hes, hnodup, hnew, hrec⟩ := h.events
  refine ⟨?_, fun i hi => ?_, fun e he => ?_⟩
  · rw [hes, createdTasks_append, List.nodup_append]
    refine ⟨hc.nodup, hnodup, fun i hi j hj hij => ?_⟩
    have hlt : i < db.tasks.length := hc.bound i hi
    have hge : db.tasks.length ≤ j := (hnew j hj).1
    exact absurd (hij ▸ hlt) (Nat.not_lt.2 hge)
  · rw [hes, createdTasks_append, List.mem_append] at hi
    exact hi.elim (fun hi => (hc.bound i hi).trans_le h.grown) fun hi => (hnew i hi).2
  · rw [hes] at he
    exact (List.mem_append.1 he).elim (hc.records e) (hrec e)

/-- the `created` event of a task that is there -/
theorem creation (h : Creates db db') {i : TaskId} (hi : i < db.tasks.length) :
    db'.creation i = db.creation i := by
  obtain ⟨es, hes, -, hnew, -⟩ := h.events
  have hnone : es.find? (fun e => e.task = i ∧ e.kind = .created) = none := by
    rw [List.find?_eq_none]
    intro e he hcreated
    obtain ⟨htask, hkind⟩ : e.task = i ∧ e.kind = .created := by simpa using hcreated
    have hge := (hnew i (mem_createdTasks.2 ⟨e, he, hkind, htask⟩)).1
    exact Nat.not_lt.2 hge hi
  unfold Db.creation
  rw [hes, List.find?_append, hnone, Option.or_none]

end Db.Creates

/-- a `created` event is the one of its task -/
theorem Db.Created.creation (h : db.Created) {e : TaskEvent} (he : e ∈ db.events)
    (hk : e.kind = .created) : db.creation e.task = some e := by
  obtain ⟨a, b, hab⟩ := List.append_of_mem he
  have hfresh : e.task ∉ createdTasks a := by
    have hnodup := h.nodup
    rw [hab, createdTasks_append, List.nodup_append] at hnodup
    intro hmem
    exact hnodup.2.2 e.task hmem e.task (mem_createdTasks.2 ⟨e, by simp, hk, rfl⟩) rfl
  have hnone : a.find? (fun x => x.task = e.task ∧ x.kind = .created) = none := by
    rw [List.find?_eq_none]
    intro x hx hcreated
    obtain ⟨htask, hkind⟩ : x.task = e.task ∧ x.kind = .created := by simpa using hcreated
    exact hfresh (mem_createdTasks.2 ⟨x, hx, hkind, htask⟩)
  unfold Db.creation
  rw [hab, List.find?_append, hnone]
  simp [hk]

/-! ## the operations -/

/-- the new tasks of a step, which created them with one event each -/
theorem creates_append {es : List TaskEvent} {n : ℕ} (hlen : db'.tasks.length = db.tasks.length + n)
    (he : db'.events = db.events ++ es)
    (hes : createdTasks es = (List.range n).map (db.tasks.length + ·))
    (hrec : ∀ e ∈ es, ∀ r, e.insertion = some r → e.kind = .created ∧ r.taskId = e.task) :
    db.Creates db' := by
  refine ⟨by omega, es, he, ?_, fun i hi => ?_, hrec⟩
  · rw [hes]
    exact (List.nodup_range).map fun a b hab => Nat.add_left_cancel hab
  · rw [hes] at hi
    obtain ⟨k, hk, rfl⟩ := List.mem_map.1 hi
    have hlt := List.mem_range.1 hk
    exact ⟨Nat.le_add_right _ _, hlen ▸ Nat.add_lt_add_left hlt _⟩

theorem createPlan_creates {now : Time} {g : GoalId} {specs : List PlannedTaskSpec} {p : PlanId}
    (hc : createPlan now db g specs = .ok (p, db')) : db.Creates db' := by
  obtain ⟨goal, r, version, db1, -, hs, rfl, -, rfl⟩ := createPlan_ok hc
  have hplan : db1.Creates (db1.withPlan g goal r version specs) := by
    refine creates_append (n := specs.length) (by simp [Db.withPlan]) rfl ?_ ?_
    · simp [createdTasks, createdEvents, List.filter_map, Function.comp_def]
    · simp [createdEvents]
  exact ((Db.Creates.framed (supersede_framed hs)).trans hplan).trans
    (Db.Creates.framed (recompute_framed g))

theorem insertPlanTasks_creates {c : PlanInsertion} {ids : List TaskId}
    (h : insertPlanTasks db c = .ok (ids, db')) : db.Creates db' := by
  obtain ⟨goal, plan, -, -, -, -, ⟨_, _, -, -, rfl⟩ | ⟨-, -, hpersist⟩⟩ := insertPlanTasks_ok h
  · exact .refl _
  obtain ⟨-, -, rfl⟩ := persistInsertion_ok hpersist
  have hrows : db.Creates (c.inserted db goal.ownerId plan.version) := by
    refine creates_append (n := c.tasks.length) (by simp [PlanInsertion.inserted]) rfl ?_ ?_
    · have hnotes : createdTasks (c.existingTaskDependencies.map prerequisiteEvent) = [] :=
        createdTasks_plain (by simp [prerequisiteEvent])
      rw [createdTasks_append, hnotes, List.append_nil]
      simp [createdTasks, PlanInsertion.createdEvent, List.filter_map, Function.comp_def]
    · intro e he r hr
      rcases List.mem_append.1 he with he | he
      · obtain ⟨i, -, rfl⟩ := List.mem_map.1 he
        obtain rfl := Option.some.inj hr
        exact ⟨rfl, rfl⟩
      · obtain ⟨edge, -, rfl⟩ := List.mem_map.1 he
        cases hr
  exact hrows.trans (Db.Creates.framed (recompute_framed c.goal))

theorem Op.creates {s : Sys} (op : Op) : s.db.Creates (op.step s).db := by
  have hcommit : ∀ x : Except Err Db, (∀ db', x = .ok db' → s.db.Creates db') →
      s.db.Creates (s.commit x).db := by
    intro x hx
    cases x with
    | ok db' => exact hx db' rfl
    | error e => exact .refl _
  cases op with
  | createPlan now g specs =>
    refine hcommit _ fun db' hx => ?_
    obtain ⟨p, hp⟩ := map_snd_eq_ok hx
    exact createPlan_creates hp
  | insertPlanTasks c =>
    refine hcommit _ fun db' hx => ?_
    obtain ⟨ids, hi⟩ := map_snd_eq_ok hx
    exact insertPlanTasks_creates hi
  | _ => exact .framed (Op.framed (by simp [inserts]))

/-- the inserted tasks were created by the insertion under its key -/
theorem insertPlanTasks_creation {c : PlanInsertion} {ids : List TaskId} {i : TaskId}
    (hrec : db.Recorded) (hc : db.Created) (h : insertPlanTasks db c = .ok (ids, db'))
    (hi : i ∈ ids) : ∃ e r, db'.creation i = some e ∧ e.insertion = some r ∧
      r.idempotencyKey = c.idempotencyKey := by
  obtain ⟨base, -, hrecords, rfl⟩ := insertPlanTasks_records hrec h
  have hc' := (insertPlanTasks_creates h).created hc
  obtain ⟨k, hk, rfl⟩ := List.mem_map.1 hi
  have hmem : (⟨c.idempotencyKey, c.content, base + k, k⟩ : InsertionRecord InsertionContent) ∈
      db'.findReplay c.plan c.idempotencyKey := by
    rw [hrecords]
    exact List.mem_map.2 ⟨k, hk, rfl⟩
  obtain ⟨e, he, hrecord⟩ := List.mem_filterMap.1 hmem
  rw [Db.replayRecord_eq] at hrecord
  split at hrecord
  · next hkind =>
    obtain ⟨hins, -⟩ := Option.filter_eq_some_iff.1 hrecord
    have htask := (hc'.records e he _ hins).2
    refine ⟨e, _, ?_, hins, rfl⟩
    rw [← hc'.creation he hkind.1, ← htask]
  · cases hrecord

end LifeAI
