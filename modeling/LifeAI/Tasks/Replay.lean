import LifeAI.Tasks.Refusals

/-!
# A repeated insertion

The records of an insertion are details of the `created` events of its tasks.

* `insertionRecords`  the records that one call writes;
* `Db.Recorded`       the records of a plan under a key are those of one call, or there are none;
* `Op.records_kept`   records that are there are never joined by others.
-/

namespace LifeAI

variable {db db' : Db}

/-- the records of a call that found `base` tasks -/
def insertionRecords (key : String) (content : InsertionContent) (base : TaskId) :
    List (InsertionRecord InsertionContent) :=
  (List.range content.tasks.length).map fun i =>
    { idempotencyKey := key, semanticHash := content, taskId := base + i, taskIndex := i }

/-- the ids of the tasks that it inserted, in the order of the request -/
def insertedIds (content : InsertionContent) (base : TaskId) : List TaskId :=
  (List.range content.tasks.length).map (base + ·)

/-- the records under a key are those of one call that inserted tasks of the plan -/
structure Db.Recorded (db : Db) : Prop where
  /-- an event with a record is about a task that exists -/
  tasks : ∀ e ∈ db.events, e.insertion ≠ none → db.planOf e.task ≠ none
  one : ∀ p key, db.findReplay p key = [] ∨ ∃ content base, content.tasks ≠ [] ∧
    base + content.tasks.length ≤ db.tasks.length ∧
    db.findReplay p key = insertionRecords key content base

/-! ## the records of more events -/

theorem Db.replayRecord_eq (p : PlanId) (key : String) (e : TaskEvent) :
    db.replayRecord p key e = if e.kind = .created ∧ db.planOf e.task = some p then
      e.insertion.filter (·.idempotencyKey = key) else none := by
  have hplan : (db.tasks[e.task]?.any fun t => t.planId = p) ↔ db.planOf e.task = some p := by
    rw [planOf, Option.any_eq_true, Option.map_eq_some_iff]
    simp
  unfold replayRecord
  simp only [hplan]

theorem Db.replayRecord_none (p : PlanId) (key : String) {e : TaskEvent}
    (h : e.insertion = none) : db.replayRecord p key e = none := by
  simp [replayRecord_eq, h]

/-- the old events keep their records, as long as their tasks keep their plans -/
theorem Db.Recorded.findReplay_append (h : db.Recorded) {es : List TaskEvent}
    (he : db'.events = db.events ++ es)
    (hplan : ∀ i, db.planOf i ≠ none → db'.planOf i = db.planOf i) (p : PlanId) (key : String) :
    db'.findReplay p key = db.findReplay p key ++ es.filterMap (db'.replayRecord p key) := by
  have hold : db.events.filterMap (db'.replayRecord p key) =
      db.events.filterMap (db.replayRecord p key) := by
    refine List.filterMap_congr fun e hmem => ?_
    by_cases hi : e.insertion = none
    · rw [Db.replayRecord_none p key hi, Db.replayRecord_none p key hi]
    · rw [Db.replayRecord_eq, Db.replayRecord_eq, hplan e.task (h.tasks e hmem hi)]
  rw [Db.findReplay, Db.findReplay, he, List.filterMap_append, hold]

/-- events without records change no replay -/
theorem Db.Recorded.findReplay_plain (h : db.Recorded) {es : List TaskEvent}
    (he : db'.events = db.events ++ es) (hes : ∀ e ∈ es, e.insertion = none)
    (hplan : ∀ i, db.planOf i ≠ none → db'.planOf i = db.planOf i) (p : PlanId) (key : String) :
    db'.findReplay p key = db.findReplay p key := by
  rw [h.findReplay_append he hplan, List.filterMap_eq_nil_iff.2 fun e hmem =>
    Db.replayRecord_none p key (hes e hmem), List.append_nil]

/-! ## one step -/

/-- what one step keeps: the records and tasks that are there, and that each key has one call -/
structure Db.Replays (db db' : Db) : Prop where
  recorded : db'.Recorded
  kept : ∀ p key, db.findReplay p key ≠ [] → db'.findReplay p key = db.findReplay p key
  grown : db.tasks.length ≤ db'.tasks.length

theorem Db.Recorded.plain (h : db.Recorded) {es : List TaskEvent}
    (he : db'.events = db.events ++ es) (hes : ∀ e ∈ es, e.insertion = none)
    (hplan : ∀ i, db.planOf i ≠ none → db'.planOf i = db.planOf i)
    (hlen : db.tasks.length ≤ db'.tasks.length) : db.Replays db' := by
  refine ⟨⟨fun e hmem hi => ?_, fun p key => ?_⟩, fun p key _ =>
    h.findReplay_plain he hes hplan p key, hlen⟩
  · rcases List.mem_append.1 (he ▸ hmem) with hmem | hmem
    · rw [hplan e.task (h.tasks e hmem hi)]
      exact h.tasks e hmem hi
    · exact absurd (hes e hmem) hi
  · rw [h.findReplay_plain he hes hplan]
    refine (h.one p key).imp_right ?_
    rintro ⟨content, base, hne, hbase, hr⟩
    exact ⟨content, base, hne, hbase.trans hlen, hr⟩

theorem Db.Recorded.framed (h : db.Recorded) (hf : db.Framed db') : db.Replays db' := by
  obtain ⟨es, he, hes⟩ := hf.events
  exact h.plain he (fun e hmem => (hes e hmem).1) (fun i _ => hf.planOf i) hf.length.ge

theorem Db.Replays.trans {a b c : Db} (h : a.Replays b) (h' : b.Replays c) : a.Replays c := by
  refine ⟨h'.recorded, fun p key hne => ?_, h.grown.trans h'.grown⟩
  have hb := h.kept p key hne
  rw [h'.kept p key (hb ▸ hne), hb]

theorem createPlan_replays {now : Time} {g : GoalId} {specs : List PlannedTaskSpec} {p : PlanId}
    (h : db.Recorded) (hc : createPlan now db g specs = .ok (p, db')) : db.Replays db' := by
  obtain ⟨goal, r, version, db1, -, hs, rfl, -, rfl⟩ := createPlan_ok hc
  have h1 := h.framed (supersede_framed hs)
  have h2 : db1.Replays (db1.withPlan g goal r version specs) := by
    refine h1.recorded.plain rfl (by simp [createdEvents]) (fun i hi => ?_) ?_
    · rw [Db.withPlan_planOf, if_pos]
      rw [Ne, Db.planOf_eq_none] at hi
      exact not_le.1 hi
    · simp [Db.withPlan]
  exact h1.trans (h2.trans (h2.recorded.framed (recompute_framed g)))

/-- the records of the events that a call writes -/
theorem filterMap_createdEvents {c : PlanInsertion} {base : TaskId} {version : Nat}
    (hplan : ∀ i, i < c.tasks.length → db.planOf (base + i) = some c.plan) (p : PlanId)
    (key : String) :
    ((List.range c.tasks.length).map (c.createdEvent base version) ++
      c.existingTaskDependencies.map prerequisiteEvent).filterMap (db.replayRecord p key) =
      if p = c.plan ∧ key = c.idempotencyKey then
        insertionRecords c.idempotencyKey c.content base else [] := by
  have hnotes : (c.existingTaskDependencies.map prerequisiteEvent).filterMap
      (db.replayRecord p key) = [] := by
    refine List.filterMap_eq_nil_iff.2 fun e he => Db.replayRecord_none p key ?_
    obtain ⟨edge, -, rfl⟩ := List.mem_map.1 he
    rfl
  have hrecord : ∀ i ∈ List.range c.tasks.length,
      db.replayRecord p key (c.createdEvent base version i) =
        if p = c.plan ∧ key = c.idempotencyKey then
          some { idempotencyKey := c.idempotencyKey, semanticHash := c.content,
                 taskId := base + i, taskIndex := i }
        else none := by
    intro i hi
    rw [Db.replayRecord_eq]
    simp only [PlanInsertion.createdEvent, hplan i (List.mem_range.1 hi), Option.some.injEq,
      true_and, Option.filter_some, decide_eq_true_eq]
    by_cases hp : c.plan = p
    · by_cases hk : c.idempotencyKey = key
      · simp [hp, hk]
      · simp [hk, Ne.symm hk]
    · simp [hp, Ne.symm hp]
  rw [List.filterMap_append, hnotes, List.append_nil, List.filterMap_map]
  refine (List.filterMap_congr hrecord).trans ?_
  split
  · rw [List.filterMap_eq_map']
    rfl
  · simp

theorem inserted_planOf_old {c : PlanInsertion} {owner : OwnerId} {version : Nat} {i : TaskId}
    (hi : db.planOf i ≠ none) : (c.inserted db owner version).planOf i = db.planOf i := by
  rw [Ne, Db.planOf_eq_none] at hi
  rw [PlanInsertion.inserted_planOf, if_pos (not_le.1 hi)]

theorem inserted_planOf_new {c : PlanInsertion} {owner : OwnerId} {version : Nat} {i : Nat}
    (hi : i < c.tasks.length) :
    (c.inserted db owner version).planOf (db.tasks.length + i) = some c.plan := by
  rw [PlanInsertion.inserted_planOf]
  simp [hi]

/-- the records after the writes of a call -/
theorem inserted_findReplay {c : PlanInsertion} {owner : OwnerId} {version : Nat}
    (h : db.Recorded) (p : PlanId) (key : String) :
    (c.inserted db owner version).findReplay p key = db.findReplay p key ++
      if p = c.plan ∧ key = c.idempotencyKey then
        insertionRecords c.idempotencyKey c.content db.tasks.length else [] := by
  rw [h.findReplay_append rfl fun i hi => inserted_planOf_old hi,
    filterMap_createdEvents fun i hi => inserted_planOf_new hi]

theorem inserted_replays {c : PlanInsertion} {owner : OwnerId} {version : Nat} (h : db.Recorded)
    (hne : c.tasks ≠ []) (hnew : db.findReplay c.plan c.idempotencyKey = []) :
    db.Replays (c.inserted db owner version) := by
  refine ⟨⟨fun e hmem hi => ?_, fun p key => ?_⟩, fun p key hsome => ?_,
    by simp [PlanInsertion.inserted]⟩
  · rcases List.mem_append.1 hmem with hmem | hmem
    · rw [inserted_planOf_old (h.tasks e hmem hi)]
      exact h.tasks e hmem hi
    · rcases List.mem_append.1 hmem with hmem | hmem
      · obtain ⟨i, hi', rfl⟩ := List.mem_map.1 hmem
        rw [PlanInsertion.createdEvent, inserted_planOf_new (List.mem_range.1 hi')]
        simp
      · obtain ⟨edge, -, rfl⟩ := List.mem_map.1 hmem
        exact absurd rfl hi
  · rw [inserted_findReplay h]
    by_cases hpk : p = c.plan ∧ key = c.idempotencyKey
    · obtain ⟨rfl, rfl⟩ := hpk
      rw [hnew, if_pos ⟨rfl, rfl⟩, List.nil_append]
      exact .inr ⟨c.content, db.tasks.length, hne, by simp [PlanInsertion.inserted,
        PlanInsertion.content], rfl⟩
    · rw [if_neg hpk, List.append_nil]
      refine (h.one p key).imp_right ?_
      rintro ⟨content, base, hne, hbase, hr⟩
      exact ⟨content, base, hne, hbase.trans (by simp [PlanInsertion.inserted]), hr⟩
  · have hpk : ¬ (p = c.plan ∧ key = c.idempotencyKey) := by
      rintro ⟨rfl, rfl⟩
      exact hsome hnew
    rw [inserted_findReplay h, if_neg hpk, List.append_nil]

/-- an accepted request asks for a task -/
theorem PlanInsertion.validateRequest_tasks {c : PlanInsertion}
    (h : c.validateRequest = .ok ()) : c.tasks ≠ [] := by
  intro hnil
  simp [validateRequest, hnil] at h

theorem insertPlanTasks_replays {c : PlanInsertion} {ids : List TaskId} (h : db.Recorded)
    (hc : insertPlanTasks db c = .ok (ids, db')) : db.Replays db' := by
  obtain ⟨goal, plan, -, -, hreq, -, ⟨_, _, -, -, rfl⟩ | ⟨hnew, -, hpersist⟩⟩ :=
    insertPlanTasks_ok hc
  · exact ⟨h, fun _ _ _ => rfl, le_rfl⟩
  · obtain ⟨-, -, rfl⟩ := persistInsertion_ok hpersist
    have hmid := @inserted_replays db c goal.ownerId plan.version h
      (PlanInsertion.validateRequest_tasks hreq) hnew
    exact hmid.trans (hmid.recorded.framed (recompute_framed c.goal))

theorem Op.replays {s : Sys} (op : Op) (h : s.db.Recorded) : s.db.Replays (op.step s).db := by
  have hcommit : ∀ x : Except Err Db, (∀ db', x = .ok db' → s.db.Replays db') →
      s.db.Replays (s.commit x).db := by
    intro x hx
    cases x with
    | ok db' => exact hx db' rfl
    | error e => exact ⟨h, fun _ _ _ => rfl, le_rfl⟩
  cases op with
  | createPlan now g specs =>
    refine hcommit _ fun db' hx => ?_
    obtain ⟨p, hp⟩ := map_snd_eq_ok hx
    exact createPlan_replays h hp
  | insertPlanTasks c =>
    refine hcommit _ fun db' hx => ?_
    obtain ⟨ids, hi⟩ := map_snd_eq_ok hx
    exact insertPlanTasks_replays h hi
  | _ => exact h.framed (Op.framed (by simp [inserts]))

theorem sysRun_recorded (os : List Op) : (sysRun os).db.Recorded :=
  Run.inv_all (I := fun s : Sys => s.db.Recorded) (fun _ _ h => (Op.replays _ h).recorded)
    ⟨by simp, fun _ _ => .inl rfl⟩ os

/-- the records that are there stay as they are in every run -/
theorem run_replays {s : Sys} (h : s.db.Recorded) (os : List Op) :
    s.db.Replays (Run.run Op.step s os).db := by
  induction os generalizing s with
  | nil => exact ⟨h, fun _ _ _ => rfl, le_rfl⟩
  | cons op os ih =>
    have h1 := Op.replays op h
    exact h1.trans (ih h1.recorded)

/-! ## the answer to a repeated key -/

/-- the records are read back in the order of the request -/
theorem insertionRecords_sorted (key : String) (content : InsertionContent) (base : TaskId) :
    ((insertionRecords key content base).insertionSort fun a b => a.taskIndex ≤ b.taskIndex) =
      insertionRecords key content base := by
  refine List.Pairwise.insertionSort_eq ?_
  rw [insertionRecords, List.pairwise_map]
  exact List.pairwise_lt_range.imp fun h => h.le

theorem insertionRecords_ids (key : String) (content : InsertionContent) (base : TaskId) :
    (insertionRecords key content base).map (·.taskId) = insertedIds content base := by
  simp [insertionRecords, insertedIds]

theorem replayed_records {c : PlanInsertion} {r : InsertionRecord InsertionContent}
    {rs : List (InsertionRecord InsertionContent)} {key : String} {content : InsertionContent}
    {base : TaskId} (hr : r :: rs = insertionRecords key content base)
    (hbase : base + content.tasks.length ≤ db.tasks.length) :
    if c.content = content then replayed db c r rs = .ok (insertedIds content base)
    else ∃ message, replayed db c r rs = .error (.planInsertionConflict message) := by
  have hhash : r.semanticHash = content := by
    have hmem : r ∈ insertionRecords key content base := hr ▸ List.mem_cons_self ..
    obtain ⟨i, -, rfl⟩ := List.mem_map.1 hmem
    rfl
  unfold replayed
  rw [hhash, hr, insertionRecords_sorted, insertionRecords_ids]
  split
  · next heq =>
    rw [if_neg (by simp [heq]), if_pos]
    rw [List.all_eq_true]
    intro i hi
    obtain ⟨k, hk, rfl⟩ := List.mem_map.1 hi
    have hlt : base + k < db.tasks.length :=
      (Nat.add_lt_add_left (List.mem_range.1 hk) base).trans_le hbase
    simpa using hlt
  · next hne => exact ⟨_, if_pos (Ne.symm hne)⟩

/-- the checks that come before the replay: those of the request, and of the goal and plan rows -/
def PlanInsertion.authorized (db : Db) (c : PlanInsertion) : Prop :=
  c.validateRequest = .ok () ∧ ∃ goal plan, db.goals[c.goal]? = some goal ∧
    db.plans[c.plan]? = some plan ∧ c.validatePlanRow goal plan = .ok ()

/-- a call that passes these checks and finds records is answered from them -/
theorem insertPlanTasks_replayed {c : PlanInsertion} {r : InsertionRecord InsertionContent}
    {rs : List (InsertionRecord InsertionContent)} (hc : c.authorized db)
    (hr : db.findReplay c.plan c.idempotencyKey = r :: rs) :
    insertPlanTasks db c = (replayed db c r rs).map fun ids => (ids, db) := by
  obtain ⟨hreq, goal, plan, hg, hp, hrow⟩ := hc
  unfold insertPlanTasks
  simp only [hreq, Db.goal, hg, hp, hrow, hr, bind, Except.bind]
  cases replayed db c r rs <;> rfl

/-- a call that does not pass them raises -/
theorem insertPlanTasks_unauthorized {c : PlanInsertion} (hc : ¬ c.authorized db) :
    ∃ e, insertPlanTasks db c = .error e := by
  cases h : insertPlanTasks db c with
  | error e => exact ⟨e, rfl⟩
  | ok x =>
    obtain ⟨goal, plan, hg, hp, hreq, hrow, -⟩ := insertPlanTasks_ok h
    exact absurd ⟨hreq, goal, plan, hg, hp, hrow⟩ hc

/-- the records that a successful call leaves under its key -/
theorem insertPlanTasks_records {c : PlanInsertion} {ids : List TaskId} (h : db.Recorded)
    (hc : insertPlanTasks db c = .ok (ids, db')) :
    ∃ base, base + c.content.tasks.length ≤ db'.tasks.length ∧
      db'.findReplay c.plan c.idempotencyKey =
        insertionRecords c.idempotencyKey c.content base ∧ ids = insertedIds c.content base := by
  obtain ⟨goal, plan, hg, hp, hreq, hrow, hcase⟩ := insertPlanTasks_ok hc
  have hne := PlanInsertion.validateRequest_tasks hreq
  rcases hcase with ⟨r, rs, hr, hids, rfl⟩ | ⟨hnew, -, hpersist⟩
  · rcases h.one c.plan c.idempotencyKey with hnil | ⟨content, base, -, hbase, hrec⟩
    · exact absurd (hnil.symm.trans hr) (by simp)
    · have hans := replayed_records (c := c) (hr.symm.trans hrec) hbase
      split at hans
      · next heq =>
        rw [heq]
        cases hids.symm.trans hans
        exact ⟨base, hbase, hrec, rfl⟩
      · obtain ⟨m, hm⟩ := hans
        exact absurd (hids.symm.trans hm) (by simp)
  · obtain ⟨-, rfl, rfl⟩ := persistInsertion_ok hpersist
    have hmid := @inserted_replays db c goal.ownerId plan.version h hne hnew
    have hrec : (c.inserted db goal.ownerId plan.version).findReplay c.plan c.idempotencyKey =
        insertionRecords c.idempotencyKey c.content db.tasks.length := by
      rw [inserted_findReplay h, hnew, if_pos ⟨rfl, rfl⟩, List.nil_append]
    refine ⟨db.tasks.length, by simp [PlanInsertion.inserted, PlanInsertion.content], ?_, rfl⟩
    rw [(hmid.recorded.framed (recompute_framed c.goal)).kept _ _ (by simp [hrec,
      insertionRecords, PlanInsertion.content, hne]), hrec]

/-- what a later call with the same plan and key is answered, and that it writes nothing -/
theorem repeated_call {c c' : PlanInsertion} {base : TaskId} (hne : c.content.tasks ≠ [])
    (hbase : base + c.content.tasks.length ≤ db.tasks.length)
    (hrec : db.findReplay c.plan c.idempotencyKey =
      insertionRecords c.idempotencyKey c.content base)
    (hp : c'.plan = c.plan) (hk : c'.idempotencyKey = c.idempotencyKey)
    (hauth : c'.authorized db) :
    if c'.content = c.content then
      insertPlanTasks db c' = .ok (insertedIds c.content base, db)
    else ∃ message, insertPlanTasks db c' = .error (.planInsertionConflict message) := by
  rw [← hp, ← hk] at hrec
  cases hr : db.findReplay c'.plan c'.idempotencyKey with
  | nil =>
    rw [hr] at hrec
    simp [insertionRecords, hne] at hrec
  | cons r rs =>
    have hans := replayed_records (c := c') (hr.symm.trans hrec) hbase
    rw [insertPlanTasks_replayed hauth hr]
    split at hans
    · next heq => rw [if_pos heq, hans]; rfl
    · next heq =>
      obtain ⟨m, hm⟩ := hans
      rw [if_neg heq, hm]
      exact ⟨m, rfl⟩

/-- **`insert_plan_tasks` is idempotent for a plan and a key**: after a successful call, and
whatever happened since, the records under the key are those of one insertion of its tasks; and a
call with the same plan and key writes nothing, and is answered with the ids of these tasks or, if
its content is another one, with a conflict, unless the checks before the replay refuse it. -/
theorem insertion_idempotent (os os' : List Op) (c : PlanInsertion) (ids : List TaskId) (db' : Db)
    (h : insertPlanTasks (sysRun os).db c = .ok (ids, db')) :
    let s := sysRun (os ++ .insertPlanTasks c :: os')
    (∃ base, ids = insertedIds c.content base ∧ s.db.findReplay c.plan c.idempotencyKey =
      insertionRecords c.idempotencyKey c.content base) ∧
    ∀ c' : PlanInsertion, c'.plan = c.plan → c'.idempotencyKey = c.idempotencyKey →
      Op.step s (.insertPlanTasks c') = s ∧
      (c'.authorized s.db →
        if c'.content = c.content then insertPlanTasks s.db c' = .ok (ids, s.db)
        else ∃ message, insertPlanTasks s.db c' = .error (.planInsertionConflict message)) ∧
      (¬ c'.authorized s.db → ∃ e, insertPlanTasks s.db c' = .error e) := by
  intro s
  have hrec := sysRun_recorded os
  have hstep : (Op.insertPlanTasks c).step (sysRun os) = { sysRun os with db := db' } := by
    simp [Op.step, h, Except.map, Sys.commit]
  have hs : s = Run.run Op.step { sysRun os with db := db' } os' := by
    rw [← hstep]
    exact Run.run_append ..
  obtain ⟨goal, plan, -, -, hreq, -, -⟩ := insertPlanTasks_ok h
  have hne : c.content.tasks ≠ [] := PlanInsertion.validateRequest_tasks hreq
  obtain ⟨base, hbase, hbrec, rfl⟩ := insertPlanTasks_records hrec h
  have hrun := run_replays (s := { sysRun os with db := db' })
    (insertPlanTasks_replays hrec h).recorded os'
  rw [← hs] at hrun
  have hlater : s.db.findReplay c.plan c.idempotencyKey =
      insertionRecords c.idempotencyKey c.content base := by
    rw [hrun.kept _ _ (by simp [hbrec, insertionRecords, hne]), hbrec]
  have hanswer : ∀ c' : PlanInsertion, c'.plan = c.plan → c'.idempotencyKey = c.idempotencyKey →
      c'.authorized s.db → _ := fun c' hp hk =>
    repeated_call hne (hbase.trans hrun.grown) hlater hp hk
  refine ⟨⟨base, rfl, hlater⟩, fun c' hp hk => ⟨?_, hanswer c' hp hk,
    insertPlanTasks_unauthorized⟩⟩
  by_cases hauth : c'.authorized s.db
  · have hans := hanswer c' hp hk hauth
    split at hans
    · simp [Op.step, hans, Except.map, Sys.commit]
    · obtain ⟨m, hm⟩ := hans
      simp [Op.step, hm, Except.map, Sys.commit]
  · obtain ⟨e, he⟩ := insertPlanTasks_unauthorized hauth
    simp [Op.step, he, Except.map, Sys.commit]

set_option maxRecDepth 8000 in
/-- two calls, with another insertion between them -/
theorem insertion_idempotent_oneMore :
    insertPlanTasks (sysRun (insertedRun ++ [.insertPlanTasks { oneMore with
      idempotencyKey := "insertion-2" }])).db oneMore = .ok ([1], (sysRun (insertedRun ++
      [.insertPlanTasks { oneMore with idempotencyKey := "insertion-2" }])).db) := by
  have h := insertion_idempotent
    [.createGoal 0 "build it" "standard_repo_work", .createPlan 1 0 [sampleSpec [] 3]]
    [.insertPlanTasks { oneMore with idempotencyKey := "insertion-2" }] oneMore [1]
    (sysRun insertedRun).db (by decide)
  refine (h.2 oneMore rfl rfl).2.1 ⟨rfl, ?_⟩
  exact ⟨_, _, rfl, rfl, by decide⟩

/-- the checks of the request come before the replay: other content is not always a conflict -/
theorem emptied_call_is_no_conflict :
    { oneMore with tasks := [] }.content ≠ oneMore.content ∧
      insertPlanTasks (sysRun insertedRun).db { oneMore with tasks := [] } =
        .error (.planInsertionValidation "An insertion must contain at least one task.") :=
  ⟨by decide, rfl⟩

end LifeAI
