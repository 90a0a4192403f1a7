import LifeAI.Gap.Converge
import LifeAI.Tasks.Created

/-!
# The depth of a chain of repairs

The depth is read back from the `created` event of a task and from the problem that its key names.

* `GapSys`         the execution loop together with the problems, and `lineage`: which task was
                   generated for a gap that was found in which other;
* `gapStep`        a signal of the supervisor, an operation of the loop, another problem;
* `Grows`          what each step keeps: creation events, and the provenances under a key;
* `Bounded`        a child is one deeper than its source, and none is deeper than the bound;
* `lineage_bound`  so no chain of children is longer.
-/

namespace LifeAI.Gap

variable {Doc : Type}

structure GapSys (Doc : Type) where
  sys : Sys := {}
  problems : List (LifeProblem Doc) := []
  problemEvents : List ProblemEvent := []
  /-- a generated task, and the task that its gap was found in -/
  lineage : List (TaskId × TaskId) := []

/-- the rows of the gap service -/
def GapSys.gapDb (s : GapSys Doc) : GapDb Doc := ⟨s.sys.db, s.problems, s.problemEvents⟩

inductive GapOp (Doc : Type) where
  | signal (sig : LiveSignal Doc)
  | task (op : Op)
  | createProblem (values : LifeProblem Doc)
  | setProblemStatus (p : ProblemId) (status : String)

/-- the checks of the supervisor: a goal of the owner, and a task of the goal -/
def LiveSignal.selected (owner : OwnerId) (sig : LiveSignal Doc) (db : Db) : Bool :=
  (db.goals[sig.call.goal]?).any (·.ownerId = owner) ∧
    (db.tasks[sig.task]?).any (·.goalId = sig.call.goal)

/-- the tasks that a signal added, also if it failed afterwards, and those it was answered with -/
def generatedTasks (before : Db) (r : Except Err (Option GapOutcome) × GapDb Doc) : List TaskId :=
  List.range' before.tasks.length (r.2.db.tasks.length - before.tasks.length) ++
    match r.1 with
    | .ok (some out) => out.insertedTasks.getD []
    | _ => []

/-- a row that another service asks for: those of the owner carry no generation depth -/
def LifeProblem.foreign (owner : OwnerId) (values : LifeProblem Doc) : LifeProblem Doc :=
  if values.ownerId = owner then { values with provenance := none } else values

/-- one operation, committed -/
def gapStep [DecidableEq Doc] (digest : GapIdentity → String) (maxDepth : ℤ) (owner : OwnerId)
    (s : GapSys Doc) : GapOp Doc → GapSys Doc
  | .signal sig =>
    if sig.selected owner s.sys.db then
      let r := handleLiveGapSignal digest maxDepth sig s.gapDb
      { sys := { s.sys with db := r.2.db }
        problems := r.2.problems
        problemEvents := r.2.problemEvents
        lineage := s.lineage ++ (generatedTasks s.sys.db r).map (·, sig.task) }
    else s
  | .task op => { s with sys := op.step s.sys }
  | .createProblem values =>
    match createProblem (values.foreign owner) s.gapDb with
    | .error _ => s
    | .ok (_, db) => { s with problems := db.problems, problemEvents := db.problemEvents }
  | .setProblemStatus p status =>
    { s with problems := s.problems.modify p fun row => { row with status } }

/-- a chain of generated tasks: each was generated for a gap in the next one, and the last for a
gap in some task -/
def Chain (lineage : List (TaskId × TaskId)) : List TaskId → Prop
  | [] => False
  | [c] => ∃ t, (c, t) ∈ lineage
  | c :: t :: rest => (c, t) ∈ lineage ∧ Chain lineage (t :: rest)

/-! ## the depth of a task -/

variable {owner : OwnerId} {s s' : GapDb Doc} {i : TaskId} {n : ℤ}

/-- the provenances under a key -/
def provenances (problems : List (LifeProblem Doc)) (owner : OwnerId) (key : String) :
    List (Option (Provenance Doc)) :=
  (problems.filter (·.keyedAs owner key)).map (·.provenance)

theorem liveGenerationDepth_ok : liveGenerationDepth s owner i = .ok n ↔
    gapKey s.db i = none ∧ n = 0 ∨ ∃ key pr, gapKey s.db i = some key ∧
      provenances s.problems owner key = [some pr] ∧ n = pr.generationDepth + 1 := by
  unfold liveGenerationDepth
  cases hkey : gapKey s.db i with
  | none => simp [eq_comm]
  | some key =>
    simp only [reduceCtorEq, false_and, false_or, Option.some.injEq]
    have hrows : (∃ key' pr, key = key' ∧ provenances s.problems owner key' = [some pr] ∧
        n = pr.generationDepth + 1) ↔ ∃ pr, provenances s.problems owner key = [some pr] ∧
        n = pr.generationDepth + 1 := by simp
    rw [hrows]
    unfold provenances
    split
    · next parent hfilter =>
      rw [hfilter]
      split
      · next hnone => simp [hnone]
      · next pr hsome => simp [hsome, eq_comm]
    · next hmany =>
      refine iff_of_false (by simp) ?_
      intro h
      obtain ⟨pr, hpr, -⟩ := h
      obtain ⟨parent, hparent, -⟩ := List.map_eq_singleton_iff.1 hpr
      exact hmany parent hparent

theorem creationKey_eq (db : Db) (i : TaskId) :
    creationKey db i = ((db.creation i).bind (·.insertion)).map (·.idempotencyKey) := rfl

/-- what a step keeps: the creation events, and the provenances under a key; a new provenance has no
negative depth -/
structure Grows (owner : OwnerId) (s s' : GapDb Doc) : Prop where
  recorded : s.db.Recorded → s'.db.Recorded
  creates : s.db.Creates s'.db
  provenances : ∀ key, provenances s'.problems owner key = provenances s.problems owner key ∨
    provenances s.problems owner key = [] ∧ ∃ x, provenances s'.problems owner key = [x] ∧
      ∀ pr, x = some pr → 0 ≤ pr.generationDepth

namespace Grows

theorem refl (s : GapDb Doc) : Grows owner s s := ⟨id, .refl _, fun _ => .inl rfl⟩

theorem trans {a b c : GapDb Doc} (h : Grows owner a b) (h' : Grows owner b c) :
    Grows owner a c := by
  refine ⟨h'.recorded ∘ h.recorded, h.creates.trans h'.creates, fun key => ?_⟩
  rcases h.provenances key with hab | ⟨hnil, x, hx, hpos⟩
  · rw [← hab]
    exact h'.provenances key
  · rcases h'.provenances key with hbc | ⟨hnil', -⟩
    · exact .inr ⟨hnil, x, hbc.trans hx, hpos⟩
    · exact absurd (hx.symm.trans hnil') (by simp)

/-- a step of the loop -/
theorem task {x : Sys} (op : Op) (h : s.db = x.db) :
    Grows owner s { s with db := (op.step x).db } := by
  refine ⟨fun hrec => ?_, ?_, fun _ => .inl rfl⟩
  · rw [h] at hrec
    exact (Op.replays op hrec).recorded
  · rw [h]
    exact op.creates

/-- a task that is there keeps its depth -/
theorem depth (h : Grows owner s s') (hi : i < s.db.tasks.length)
    (hn : liveGenerationDepth s owner i = .ok n) : liveGenerationDepth s' owner i = .ok n := by
  have hkey : gapKey s'.db i = gapKey s.db i := by
    unfold gapKey
    rw [creationKey_eq, creationKey_eq, h.creates.creation hi]
  rw [liveGenerationDepth_ok] at hn ⊢
  rw [hkey]
  refine hn.imp_right ?_
  intro hn
  obtain ⟨key, pr, hk, hpr, hdepth⟩ := hn
  refine ⟨key, pr, hk, ?_, hdepth⟩
  rcases h.provenances key with hsame | ⟨hnil, -⟩
  · exact hsame.trans hpr
  · exact absurd (hnil.symm.trans hpr) (by simp)

end Grows

/-! ## the records -/

theorem provenances_append (problems : List (LifeProblem Doc)) (row : LifeProblem Doc)
    (key : String) : provenances (problems ++ [row]) owner key =
      provenances problems owner key ++
        if row.keyedAs owner key then [row.provenance] else [] := by
  unfold provenances
  rw [List.filter_append, List.map_append]
  by_cases hrow : row.keyedAs owner key
  · simp [hrow]
  · simp [hrow]

theorem provenances_none {problems : List (LifeProblem Doc)} {key : String}
    (h : findProblem problems owner key = none) : provenances problems owner key = [] := by
  unfold findProblem at h
  rw [List.findIdx?_eq_none_iff] at h
  unfold provenances
  rw [List.map_eq_nil_iff, List.filter_eq_nil_iff]
  intro row hrow
  simp [h row hrow]

theorem keyedAs_iff {row : LifeProblem Doc} {key : String} :
    row.keyedAs owner key ↔ row.ownerId = owner ∧ row.idempotencyKey = key := by
  simp [LifeProblem.keyedAs]

/-! ## the rows -/

variable {digest : GapIdentity → String} {gap : DiscoveredGap Doc} {requestedBy : String}
  {o : OwnerId} {maxDepth : ℤ} {call : GapCall} {sig : LiveSignal Doc}

/-- the invariant of the rows alone -/
structure Rows (owner : OwnerId) (s : GapDb Doc) : Prop where
  recorded : s.db.Recorded
  created : s.db.Created
  one : ∀ key, (provenances s.problems owner key).length ≤ 1
  nonneg : ∀ key pr, some pr ∈ provenances s.problems owner key → 0 ≤ pr.generationDepth

theorem Rows.grows (hrows : Rows owner s) (h : Grows owner s s') : Rows owner s' := by
  refine ⟨h.recorded hrows.recorded, h.creates.created hrows.created, fun key => ?_,
    fun key pr hpr => ?_⟩
  · rcases h.provenances key with hsame | ⟨-, x, hx, -⟩
    · rw [hsame]
      exact hrows.one key
    · rw [hx]
      exact Nat.le_refl 1
  · rcases h.provenances key with hsame | ⟨-, x, hx, hpos⟩
    · rw [hsame] at hpr
      exact hrows.nonneg key pr hpr
    · rw [hx, List.mem_singleton] at hpr
      exact hpos pr hpr.symm

theorem Rows.depth_nonneg (hrows : Rows owner s) (h : liveGenerationDepth s owner i = .ok n) :
    0 ≤ n := by
  rcases liveGenerationDepth_ok.1 h with ⟨-, rfl⟩ | ⟨key, pr, -, hpr, rfl⟩
  · exact le_rfl
  · have hpos : 0 ≤ pr.generationDepth := hrows.nonneg key pr (by rw [hpr]; simp)
    omega

/-- the answered tasks of an attempt are there, and one deeper than the gap -/
structure Deepened (owner : OwnerId) (maxDepth : ℤ) (gap : DiscoveredGap Doc) (s' : GapDb Doc)
    (c : TaskId) : Prop where
  there : c < s'.db.tasks.length
  shallow : gap.generationDepth < maxDepth
  depth : liveGenerationDepth s' owner c = .ok (gap.generationDepth + 1)

theorem Deepened.grows {s'' : GapDb Doc} {c : TaskId} (h : Deepened owner maxDepth gap s' c)
    (hg : Grows owner s' s'') : Deepened owner maxDepth gap s'' c :=
  ⟨h.there.trans_le hg.creates.grown, h.shallow, hg.depth h.there h.depth⟩

/-- a task that an insertion adds is among those it answers with -/
theorem insertPlanTasks_new {db db' : Db} {c : PlanInsertion} {ids : List TaskId}
    (h : insertPlanTasks db c = .ok (ids, db')) (hi : db.tasks.length ≤ i)
    (hi' : i < db'.tasks.length) : i ∈ ids := by
  obtain ⟨goal, plan, -, -, -, -, ⟨_, _, -, -, rfl⟩ | ⟨-, -, hpersist⟩⟩ := insertPlanTasks_ok h
  · exact absurd hi' (Nat.not_lt.2 hi)
  · obtain ⟨-, rfl, rfl⟩ := persistInsertion_ok hpersist
    rw [(recompute_framed c.goal).length] at hi'
    simp only [PlanInsertion.inserted, List.length_append, List.length_map] at hi'
    refine List.mem_map.2 ⟨i - db.tasks.length, List.mem_range.2 ?_, Nat.add_sub_cancel' hi⟩
    exact Nat.sub_lt_left_of_lt_add hi hi'

theorem gapKey_child {db : Db} {key : String}
    (h : creationKey db i = some (gapChildInsertionPrefix ++ key)) : gapKey db i = some key := by
  unfold gapKey
  rw [h, Option.bind_some, String.toList_append, if_pos (List.prefix_append _ _)]
  rw [← String.length_toList, List.drop_left, String.ofList_toList]

/-! ## the signal -/

theorem LiveSignal.gap_depth {goal : Goal} {task : Task} (h : sig.gap s goal task = .ok gap) :
    liveGenerationDepth s goal.ownerId sig.task = .ok gap.generationDepth := by
  unfold LiveSignal.gap at h
  split at h
  · unfold LiveSignal.gapFromCapabilityMissing at h
    simp only at h
    split at h
    · cases h
    obtain ⟨depth, hdepth, h⟩ := bind_eq_ok.1 h
    split at h
    · cases h
    · cases h
      exact hdepth
  · unfold LiveSignal.gapFromVerificationRequired at h
    obtain ⟨depth, hdepth, h⟩ := bind_eq_ok.1 h
    simp only at h
    split at h
    · cases h
    · cases h
      exact hdepth

/-- parking the source changes nothing that the depths are read from -/
theorem LiveSignal.park_grows (gap : DiscoveredGap Doc) (out : GapOutcome) (s : GapDb Doc) :
    Grows owner s (sig.park gap out s).2 ∧
      (sig.park gap out s).2.db.tasks.length = s.db.tasks.length := by
  unfold LiveSignal.park
  split
  · next child _ _ =>
    split
    · split
      · exact ⟨.refl s, rfl⟩
      · next db hpark =>
        have hstep : (Op.step { db := s.db } (.parkSourceTaskForRepair sig.task child
            "verification/repair gap recorded")).db = db := by
          simp [Op.step, Sys.commit, hpark, transact]
        have hframed : s.db.Framed db := by
          rw [← hstep]
          exact Op.framed (s := { db := s.db }) (by simp [Op.inserts])
        refine ⟨?_, hframed.length⟩
        have hgrows : Grows owner s { s with db := (Op.step { db := s.db }
            (.parkSourceTaskForRepair sig.task child "verification/repair gap recorded")).db } :=
          Grows.task _ rfl
        rw [hstep] at hgrows
        exact hgrows
    · exact ⟨.refl s, rfl⟩
  · exact ⟨.refl s, rfl⟩

/-! ## the record of a gap -/

variable [DecidableEq Doc] {values : LifeProblem Doc} {p : ProblemId}

theorem createProblem_grows (h : createProblem values s = .ok (p, s'))
    (hdepth : values.ownerId = owner → ∀ pr, values.provenance = some pr →
      0 ≤ pr.generationDepth) : Grows owner s s' := by
  obtain ⟨-, -, hdb, hproblems⟩ := createProblem_ok h
  refine ⟨by rw [hdb]; exact id, by rw [hdb]; exact .refl _, fun key => ?_⟩
  rcases hproblems with hsame | ⟨hfresh, hnew⟩
  · exact .inl (by rw [hsame])
  · rw [hnew, provenances_append]
    split
    · next hrow =>
      obtain ⟨howner, hkey⟩ := keyedAs_iff.1 hrow
      have hnil : provenances s.problems owner key = [] := by
        rw [← howner, ← hkey]
        exact provenances_none hfresh
      exact .inr ⟨hnil, values.provenance, by rw [hnil, List.nil_append], hdepth howner⟩
    · exact .inl (List.append_nil _)

theorem recordGap_grows (h : recordGap digest o gap requestedBy s = .ok (p, s'))
    (hdepth : 0 ≤ gap.generationDepth) : Grows owner s s' := by
  obtain ⟨-, s0, hcreate, rfl⟩ := recordGap_ok h
  have hgrows : Grows owner s s0 := createProblem_grows hcreate fun _ pr hpr => by
    obtain rfl : gap.provenance = pr := Option.some.inj hpr
    exact hdepth
  exact ⟨hgrows.recorded, hgrows.creates, hgrows.provenances⟩

/-- the provenance under the key of a recorded gap -/
theorem recordGap_provenance (h : recordGap digest o gap requestedBy s = .ok (p, s'))
    (hone : (provenances s'.problems o ("autonomous_gap:" ++ gap.identityKey digest)).length ≤ 1) :
    provenances s'.problems o ("autonomous_gap:" ++ gap.identityKey digest) =
      [some gap.provenance] := by
  obtain ⟨hfind, row, hrow, hagree⟩ := recordGap_row h
  obtain ⟨row', hrow', hkeyed⟩ := findProblem_some hfind
  obtain rfl : row = row' := Option.some.inj (hrow.symm.trans hrow')
  obtain ⟨-, -, -, -, -, hprov, -⟩ := LifeProblem.conflict_eq_none.1 hagree
  have hmem : some gap.provenance ∈
      provenances s'.problems o ("autonomous_gap:" ++ gap.identityKey digest) :=
    List.mem_map.2 ⟨row, List.mem_filter.2 ⟨List.mem_of_getElem? hrow, hkeyed⟩, hprov⟩
  obtain ⟨x, hx⟩ := List.length_eq_one_iff.1 (le_antisymm hone (List.length_pos_of_mem hmem))
  rw [hx, List.mem_singleton] at hmem
  rw [hx, hmem]

/-! ## the attempt at a child -/

/-- what the generation of a child leaves, also where it fails, with the tasks it answers with -/
inductive Attempt (digest : GapIdentity → String) (maxDepth : ℤ) (call : GapCall)
    (gap : DiscoveredGap Doc) (o : OwnerId) (s : GapDb Doc) : GapDb Doc → List TaskId → Prop
  | nothing : Attempt digest maxDepth call gap o s s []
  | recorded (p : ProblemId) (s1 : GapDb Doc) :
      recordGap digest o gap call.requestedBy s = .ok (p, s1) →
      Attempt digest maxDepth call gap o s s1 []
  | inserted (p : ProblemId) (s1 : GapDb Doc) (ids : List TaskId) (db : Db) :
      recordGap digest o gap call.requestedBy s = .ok (p, s1) → gap.generationDepth < maxDepth →
      insertPlanTasks s1.db (childInsertion digest call gap p) = .ok (ids, db) →
      Attempt digest maxDepth call gap o s { s1 with db } ids

theorem generate_attempt {goal : Goal} (hgoal : s.db.goal call.goal = .ok goal) :
    ∃ ids, Attempt digest maxDepth call gap goal.ownerId s
        (generateChildTaskForGap digest maxDepth call gap s).2 ids ∧
      ∀ out, (generateChildTaskForGap digest maxDepth call gap s).1 = .ok out →
        out.insertedTasks.getD [] = ids := by
  unfold generateChildTaskForGap
  rw [hgoal]
  split
  · next h => cases h
  · exact ⟨[], .nothing, by simp⟩
  next goal' h _ =>
  cases h
  split
  · exact ⟨[], .nothing, by simp⟩
  next p s1 hrecord =>
  have hrecorded : Attempt digest maxDepth call gap goal.ownerId s s1 [] := .recorded p s1 hrecord
  unfold afterRecord
  split
  · exact ⟨[], hrecorded, by simp⟩
  next hdepth =>
  split
  · exact ⟨[], hrecorded, by simp⟩
  split
  · exact ⟨[], hrecorded, by simp⟩
  split
  · exact ⟨[], hrecorded, by simp⟩
  next ids db hinsert =>
  exact ⟨ids, .inserted p s1 ids db hrecord (not_le.1 hdepth) hinsert, by simp⟩

theorem Attempt.grows {ids : List TaskId} (h : Attempt digest maxDepth call gap owner s s' ids)
    (hrows : Rows owner s) (hdepth : 0 ≤ gap.generationDepth) :
    Grows owner s s' ∧ (∀ c ∈ ids, Deepened owner maxDepth gap s' c) ∧
      ∀ c, s.db.tasks.length ≤ c → c < s'.db.tasks.length → c ∈ ids := by
  cases h with
  | nothing => exact ⟨.refl s, by simp, fun c hc hc' => absurd hc' (Nat.not_lt.2 hc)⟩
  | recorded p _ hrecord =>
    refine ⟨recordGap_grows hrecord hdepth, by simp, fun c hc hc' => ?_⟩
    rw [recordGap_db hrecord] at hc'
    exact absurd hc' (Nat.not_lt.2 hc)
  | inserted p s1 ids db hrecord hshallow hinsert =>
    have hgrows : Grows owner s s1 := recordGap_grows hrecord hdepth
    have hrows1 : Rows owner s1 := hrows.grows hgrows
    have hinserted : Grows owner s1 { s1 with db } :=
      ⟨fun hrec => (insertPlanTasks_replays hrec hinsert).recorded,
        insertPlanTasks_creates hinsert, fun _ => .inl rfl⟩
    refine ⟨hgrows.trans hinserted, fun c hc => ?_, fun c hc hc' => ?_⟩
    · obtain ⟨e, r, hcreation, hins, hkey⟩ :=
        insertPlanTasks_creation hrows1.recorded hrows1.created hinsert hc
      obtain ⟨base, hbase, -, rfl⟩ := insertPlanTasks_records hrows1.recorded hinsert
      have hgap : gapKey db c = some ("autonomous_gap:" ++ gap.identityKey digest) := by
        refine gapKey_child ?_
        rw [creationKey_eq, hcreation, Option.bind_some, hins, Option.map_some, hkey]
        rfl
      refine ⟨?_, hshallow, liveGenerationDepth_ok.2 (.inr ⟨_, gap.provenance, hgap, ?_, rfl⟩)⟩
      · obtain ⟨k, hk, rfl⟩ := List.mem_map.1 hc
        exact (Nat.add_lt_add_left (List.mem_range.1 hk) base).trans_le hbase
      · have hprov := recordGap_provenance hrecord (hrows1.one _)
        exact hprov
    · rw [← recordGap_db hrecord] at hc
      exact insertPlanTasks_new hinsert hc hc'

/-! ## one step -/

/-- the child is one deeper than the task that its gap was found in, which is not as deep as the
bound -/
structure Linked (owner : OwnerId) (maxDepth : ℤ) (s : GapDb Doc) (c t : TaskId) : Prop where
  child : c < s.db.tasks.length
  source : t < s.db.tasks.length
  depths : ∃ n, n < maxDepth ∧ 0 ≤ n ∧ liveGenerationDepth s owner t = .ok n ∧
    liveGenerationDepth s owner c = .ok (n + 1)

omit [DecidableEq Doc] in
theorem Linked.grows {c t : TaskId} (h : Linked owner maxDepth s c t) (hg : Grows owner s s') :
    Linked owner maxDepth s' c t := by
  obtain ⟨n, hbound, hpos, ht, hc⟩ := h.depths
  exact ⟨h.child.trans_le hg.creates.grown, h.source.trans_le hg.creates.grown, n, hbound, hpos,
    hg.depth h.source ht, hg.depth h.child hc⟩

omit [DecidableEq Doc] in
theorem mem_generatedTasks {db : Db} {r : Except Err (Option GapOutcome) × GapDb Doc} {c : TaskId} :
    c ∈ generatedTasks db r ↔ (db.tasks.length ≤ c ∧ c < r.2.db.tasks.length) ∨
      ∃ out ids, r.1 = .ok (some out) ∧ out.insertedTasks = some ids ∧ c ∈ ids := by
  unfold generatedTasks
  rw [List.mem_append, List.mem_range'_1]
  refine or_congr ?_ ?_
  · have hend : ∀ a b k : ℕ, a ≤ k → (k < a + (b - a) ↔ k < b) := fun a b k h => by omega
    exact and_congr_right fun hc => hend _ _ _ hc
  · rcases r with ⟨_ | _ | out, t⟩
    · simp
    · simp
    · cases hids : out.insertedTasks with
      | none => simp [hids]
      | some ids => simp [hids]

omit [DecidableEq Doc] in
/-- a signal that ends before a gap was recorded generates nothing -/
theorem generatedTasks_nothing {r : Except Err (Option GapOutcome)} {c : TaskId}
    (h : ∀ out, r = .ok (some out) → out.insertedTasks = none) :
    c ∉ generatedTasks s.db (r, s) := by
  rw [mem_generatedTasks]
  intro hc
  rcases hc with ⟨hc, hc'⟩ | ⟨out, ids, hr, hids, -⟩
  · exact Nat.not_lt.2 hc hc'
  · rw [h out hr] at hids
    cases hids

omit [DecidableEq Doc] in
theorem LiveSignal.bounded_none {out : GapOutcome} (h : sig.bounded = some out) :
    out.insertedTasks = none := by
  unfold LiveSignal.bounded at h
  repeat' split at h
  all_goals first | cases h; rfl | cases h

theorem unbuilt_none {e : Err} {out : GapOutcome} (h : unbuilt e = .ok (some out)) :
    out.insertedTasks = none := by
  unfold unbuilt at h
  split at h
  all_goals first | cases h; rfl | cases h

omit [DecidableEq Doc] in
/-- an answer that has parked the source is the answer of the generation -/
theorem LiveSignal.park_ok {out out' : GapOutcome} (h : (sig.park gap out s).1 = .ok (some out')) :
    out' = out := by
  unfold LiveSignal.park at h
  repeat' split at h
  all_goals first | cases h; rfl | cases h

theorem handle_grows {goal : Goal} (hgoal : s.db.goal sig.call.goal = .ok goal)
    (howner : goal.ownerId = owner) (hrows : Rows owner s) (hi : sig.task < s.db.tasks.length) :
    Grows owner s (handleLiveGapSignal digest maxDepth sig s).2 ∧
      ∀ c ∈ generatedTasks s.db (handleLiveGapSignal digest maxDepth sig s),
        Linked owner maxDepth (handleLiveGapSignal digest maxDepth sig s).2 c sig.task := by
  have hnothing : ∀ r : Except Err (Option GapOutcome),
      (∀ out, r = .ok (some out) → out.insertedTasks = none) →
      Grows owner s s ∧ ∀ c ∈ generatedTasks s.db (r, s), Linked owner maxDepth s c sig.task :=
    fun r hr => ⟨.refl s, fun c hc => absurd hc (generatedTasks_nothing hr)⟩
  unfold handleLiveGapSignal
  split
  · exact hnothing _ (by simp)
  split
  · next out hbounded =>
    refine hnothing _ fun out' hout => ?_
    cases hout
    exact LiveSignal.bounded_none hbounded
  rw [hgoal]
  dsimp only
  split
  · exact hnothing _ (by simp)
  · exact hnothing _ (by simp)
  · exact hnothing _ (by simp)
  next goal' task h _ _ =>
  cases h
  split
  · exact hnothing _ (by simp)
  split
  · next e _ => exact hnothing _ fun out hout => unbuilt_none hout
  next gap hgap =>
  have hdepth := LiveSignal.gap_depth hgap
  rw [howner] at hdepth
  have hpos : 0 ≤ gap.generationDepth := hrows.depth_nonneg hdepth
  obtain ⟨ids, hattempt, hanswer⟩ : ∃ ids, Attempt digest maxDepth sig.call gap goal.ownerId s
      (generateChildTaskForGap digest maxDepth sig.call gap s).2 ids ∧
      ∀ out, (generateChildTaskForGap digest maxDepth sig.call gap s).1 = .ok out →
        out.insertedTasks.getD [] = ids := generate_attempt hgoal
  rw [howner] at hattempt
  obtain ⟨hgrows, hdeep, hnew⟩ := hattempt.grows hrows hpos
  have hlink : ∀ t c, Grows owner (generateChildTaskForGap digest maxDepth sig.call gap s).2 t →
      c ∈ ids → Linked owner maxDepth t c sig.task := by
    intro t c ht hc
    have hchild := (hdeep c hc).grows ht
    exact ⟨hchild.there, hi.trans_le (hgrows.trans ht).creates.grown, gap.generationDepth,
      hchild.shallow, hpos, (hgrows.trans ht).depth hi hdepth, hchild.depth⟩
  split
  · next e s1 hgen =>
    rw [hgen] at hgrows hnew hlink
    refine ⟨hgrows, fun c hc => hlink s1 c (.refl s1) ?_⟩
    rcases mem_generatedTasks.1 hc with ⟨hc, hc'⟩ | ⟨out, _, hr, -, -⟩
    · exact hnew c hc hc'
    · cases hr
  · next out s1 hgen =>
    rw [hgen] at hgrows hnew hlink hanswer
    obtain ⟨hpark, hlen⟩ : Grows owner s1 (sig.park gap out s1).2 ∧
        (sig.park gap out s1).2.db.tasks.length = s1.db.tasks.length :=
      LiveSignal.park_grows gap out s1
    refine ⟨hgrows.trans hpark, fun c hc => hlink _ c hpark ?_⟩
    rcases mem_generatedTasks.1 hc with ⟨hge, hlt⟩ | ⟨out', ids', hr, hids, hmem⟩
    · exact hnew c hge (hlen ▸ hlt)
    · obtain rfl := LiveSignal.park_ok hr
      have hsame := hanswer out' rfl
      rw [hids] at hsame
      exact hsame ▸ hmem

/-- a child is one deeper than its source, and none is deeper than the bound -/
structure Bounded (owner : OwnerId) (maxDepth : ℤ) (s : GapSys Doc) : Prop where
  rows : Rows owner s.gapDb
  linked : ∀ c t, (c, t) ∈ s.lineage → Linked owner maxDepth s.gapDb c t

omit [DecidableEq Doc] in
theorem Bounded.grows {x y : GapSys Doc} (h : Bounded owner maxDepth x)
    (hg : Grows owner x.gapDb y.gapDb) (hlineage : y.lineage = x.lineage) :
    Bounded owner maxDepth y := by
  refine ⟨h.rows.grows hg, fun c t hct => ?_⟩
  rw [hlineage] at hct
  exact (h.linked c t hct).grows hg

omit [DecidableEq Doc] in
theorem provenances_status (problems : List (LifeProblem Doc)) (p : ProblemId) (status key : String) :
    provenances (problems.modify p fun row => { row with status }) owner key =
      provenances problems owner key := by
  induction problems generalizing p with
  | nil => simp [provenances]
  | cons row rows ih =>
    cases p with
    | zero =>
      simp only [List.modify_zero_cons, provenances, List.filter_cons, LifeProblem.keyedAs]
      split <;> rfl
    | succ p =>
      have hrest := ih p
      simp only [List.modify_succ_cons, provenances, List.filter_cons] at hrest ⊢
      split
      · rw [List.map_cons, List.map_cons, hrest]
      · exact hrest

theorem gapStep_bounded (x : GapSys Doc) (op : GapOp Doc) (h : Bounded owner maxDepth x) :
    Bounded owner maxDepth (gapStep digest maxDepth owner x op) := by
  cases op with
  | signal sig =>
    unfold gapStep
    dsimp only
    split
    · next hselected =>
      simp only [LiveSignal.selected, Bool.decide_and, Bool.and_eq_true, decide_eq_true_eq,
        Option.any_eq_true] at hselected
      obtain ⟨⟨goal, hgoal, howner⟩, task, htask, -⟩ := hselected
      have hi : sig.task < x.gapDb.db.tasks.length := (List.getElem?_eq_some_iff.1 htask).1
      have hgoal' : x.gapDb.db.goal sig.call.goal = .ok goal := by
        unfold Db.goal
        have hrow : x.gapDb.db.goals[sig.call.goal]? = some goal := hgoal
        rw [hrow]
      have hsame : goal.ownerId = owner := by simpa using howner
      obtain ⟨hgrows, hlinked⟩ :
          Grows owner x.gapDb (handleLiveGapSignal digest maxDepth sig x.gapDb).2 ∧
            ∀ c ∈ generatedTasks x.gapDb.db (handleLiveGapSignal digest maxDepth sig x.gapDb),
              Linked owner maxDepth (handleLiveGapSignal digest maxDepth sig x.gapDb).2 c sig.task :=
        handle_grows hgoal' hsame h.rows hi
      refine ⟨h.rows.grows hgrows, fun c t hct => ?_⟩
      rcases List.mem_append.1 hct with hold | hnew
      · exact (h.linked c t hold).grows hgrows
      · obtain ⟨c', hc', heq⟩ := List.mem_map.1 hnew
        cases heq
        exact hlinked _ hc'
    · exact h
  | task op => exact h.grows (Grows.task op rfl) rfl
  | createProblem values =>
    unfold gapStep
    dsimp only
    split
    · exact h
    · next p db hcreate =>
      have hdb : db.db = x.sys.db := (createProblem_ok hcreate).2.2.1
      have hgrows : Grows owner x.gapDb db := createProblem_grows hcreate fun howner pr hpr => by
        unfold LifeProblem.foreign at howner hpr
        split at hpr
        · cases hpr
        · next hne =>
          rw [if_neg hne] at howner
          exact absurd howner hne
      refine h.grows ⟨id, .refl _, hgrows.provenances⟩ rfl
  | setProblemStatus p status =>
    exact h.grows ⟨id, .refl _, fun key => .inl (provenances_status _ p status key)⟩ rfl

/-! ## every run -/

omit [DecidableEq Doc] in
/-- the head of a chain is as deep as the chain is long -/
theorem Bounded.chain {x : GapSys Doc} (h : Bounded owner maxDepth x) :
    ∀ {c : TaskId} {cs : List TaskId}, Chain x.lineage (c :: cs) →
      ∃ n, liveGenerationDepth x.gapDb owner c = .ok n ∧ (c :: cs).length ≤ n ∧ n ≤ maxDepth
  | c, [], hchain => by
    obtain ⟨t, hct⟩ := hchain
    obtain ⟨n, hbound, hpos, -, hc⟩ := (h.linked c t hct).depths
    refine ⟨n + 1, hc, ?_, by omega⟩
    simp only [List.length_cons, List.length_nil]
    omega
  | c, t :: cs, hchain => by
    obtain ⟨hct, hrest⟩ := hchain
    obtain ⟨m, hm, hlen, -⟩ := h.chain hrest
    obtain ⟨n, hbound, -, ht, hc⟩ := (h.linked c t hct).depths
    obtain rfl : m = n := Except.ok.inj (hm.symm.trans ht)
    refine ⟨m + 1, hc, ?_, by omega⟩
    simp only [List.length_cons] at hlen ⊢
    push_cast at hlen ⊢
    omega

/-- **bounded lineage**: in every run, a chain of tasks that were generated for gaps found in one
another is no longer than the bound on the generation depth. -/
theorem lineage_bound (digest : GapIdentity → String) (maxDepth : ℤ) (owner : OwnerId)
    (ops : List (GapOp Doc)) (cs : List TaskId)
    (h : Chain (Run.run (gapStep digest maxDepth owner) {} ops).lineage cs) :
    (cs.length : ℤ) ≤ maxDepth := by
  have hinit : Bounded owner maxDepth ({} : GapSys Doc) :=
    ⟨⟨sysRun_recorded [], ⟨by simp [createdTasks, GapSys.gapDb], by simp [createdTasks, GapSys.gapDb],
      by simp [GapSys.gapDb]⟩, by simp [provenances, GapSys.gapDb], by simp [provenances, GapSys.gapDb]⟩,
      by simp⟩
  have hrun : Bounded owner maxDepth (Run.run (gapStep digest maxDepth owner) {} ops) :=
    Run.inv_all (I := Bounded owner maxDepth) (fun x op hx => gapStep_bounded x op hx) hinit ops
  cases cs with
  | nil => exact h.elim
  | cons c cs =>
    obtain ⟨n, -, hlen, hn⟩ := hrun.chain h
    exact hlen.trans hn

/-- a failure of the task, as the driver reports it -/
def failureOf (i : TaskId) : GapOp String :=
  .signal
    { call :=
        { repairCall with
          scope :=
            { repairCall.scope with
              allowedCapabilities := ["create_file", "patch_file", "run_focused_test",
                "stage_scoped_changes", "commit_scoped_changes"] } }
      task := i
      classification := "VERIFICATION_REQUIRED"
      failureEvidence := ""
      executionEnvelope := fun _ => "" }

/-- the digest of a gap by the task that it was found in -/
def GapIdentity.source (g : GapIdentity) : String := if g.sourceTaskId = some 0 then "0" else "1"

/-- a failing task, and its repair that fails -/
def repairOps : List (GapOp String) := oneTaskRun.map GapOp.task ++ [failureOf 0, failureOf 1]

theorem repairOps_lineage : (2, 1) ∈ (Run.run (gapStep GapIdentity.source 2 0) {} repairOps).lineage ∧
    (1, 0) ∈ (Run.run (gapStep GapIdentity.source 2 0) {} repairOps).lineage := by
  decide +kernel

theorem lineage_bound_repairs : ([2, 1].length : ℤ) ≤ 2 :=
  lineage_bound GapIdentity.source 2 0 repairOps [2, 1]
    ⟨repairOps_lineage.1, 0, repairOps_lineage.2⟩

end LifeAI.Gap
