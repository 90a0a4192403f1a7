import LifeAI.Gap.Model
import LifeAI.Tasks.Replay

/-!
# The same gap, discovered twice

A gap is found again by its identity key, and compared in everything that its row records.

* `SameRecord`       the two gaps have one row;
* `SameChild`        and the child that is asked for is the same;
* `gap_convergence`  the second discovery converges exactly when they are the same in this sense.
-/

namespace LifeAI.Gap

variable {Doc : Type} {digest : GapIdentity → String} {s s' s1 : GapDb Doc}
  {gap gap' : DiscoveredGap Doc} {owner : OwnerId} {by1 by2 : String} {p q : ProblemId}
  {values row : LifeProblem Doc} {maxDepth : ℤ} {call call' : GapCall} {out : GapOutcome}
  {db db' : Db} {ids : List TaskId} {goal : Goal} {context : Option JobClaim} {now later : Time}

/-- the two gaps agree in what is recorded of them -/
def SameRecord (gap gap' : DiscoveredGap Doc) : Prop :=
  gap'.provenance = gap.provenance ∧ gap'.reason = gap.reason

/-- they agree in what is asked of their child beside -/
def SameChild (gap gap' : DiscoveredGap Doc) : Prop :=
  gap'.taskType = gap.taskType ∧ gap'.verificationPlan = gap.verificationPlan ∧
    gap'.dependsOnExistingTaskIds = gap.dependsOnExistingTaskIds ∧
    gap'.existingTaskDependencyTarget = gap.existingTaskDependencyTarget

/-! ## the rows under a key -/

theorem findProblem_append {problems : List (LifeProblem Doc)} {key : String}
    (h : findProblem problems owner key = none) (hrow : row.keyedAs owner key) :
    findProblem (problems ++ [row]) owner key = some problems.length := by
  unfold findProblem at h ⊢
  rw [List.findIdx?_append, h]
  simp [hrow]

theorem findProblem_some {problems : List (LifeProblem Doc)} {key : String}
    (h : findProblem problems owner key = some p) :
    ∃ row, problems[p]? = some row ∧ row.keyedAs owner key := by
  obtain ⟨hp, hrow, -⟩ := List.findIdx?_eq_some_iff_getElem.1 h
  exact ⟨problems[p], List.getElem?_eq_getElem hp, hrow⟩

/-! ## the child -/

/-- the three ways in which the generation of a child returns -/
inductive Generated (digest : GapIdentity → String) (maxDepth : ℤ) (call : GapCall)
    (gap : DiscoveredGap Doc) (goal : Goal) (p : ProblemId) (s : GapDb Doc) :
    GapOutcome → GapDb Doc → Prop
  | deep (reason : String) : maxDepth ≤ gap.generationDepth →
      Generated digest maxDepth call gap goal p s ⟨"DEPTH_BOUND_REACHED", some p, none, reason⟩ s
  | unauthorized (classification reason : String) : ¬ maxDepth ≤ gap.generationDepth →
      assessGapAuthority call.scope goal gap = (some classification, reason) →
      Generated digest maxDepth call gap goal p s ⟨classification, some p, none, reason⟩ s
  | inserted (ids : List TaskId) (db : Db) (reason : String) :
      ¬ maxDepth ≤ gap.generationDepth → (assessGapAuthority call.scope goal gap).1 = none →
      call.requireLease call.later s.db = .ok () →
      insertPlanTasks s.db (childInsertion digest call gap p) = .ok (ids, db) →
      Generated digest maxDepth call gap goal p s ⟨"ACCEPTED", some p, some ids, reason⟩
        { s with db := db }

theorem afterRecord_ok (h : afterRecord digest maxDepth call gap goal p s = (.ok out, s')) :
    Generated digest maxDepth call gap goal p s out s' := by
  unfold afterRecord at h
  split at h
  · next hdeep =>
    cases h
    exact .deep _ hdeep
  next hdeep =>
  split at h
  · next classification reason hassess =>
    cases h
    exact .unauthorized classification reason hdeep hassess
  next reason hassess =>
  split at h
  · exact absurd (Prod.mk.inj h).1 (by simp)
  next hlater =>
  split at h
  · exact absurd (Prod.mk.inj h).1 (by simp)
  next ids db hinsert =>
  cases h
  exact .inserted ids db _ hdeep (by rw [hassess]) hlater hinsert

theorem Generated.of (h : Generated digest maxDepth call gap goal p s out s') :
    ∃ out', afterRecord digest maxDepth call gap goal p s = (.ok out', s') ∧
      out'.problem = out.problem ∧ out'.insertedTasks = out.insertedTasks := by
  cases h with
  | deep reason hdeep =>
    have hout : afterRecord digest maxDepth call gap goal p s =
        (.ok ⟨"DEPTH_BOUND_REACHED", some p, none, _⟩, s) := if_pos hdeep
    exact ⟨_, hout, rfl, rfl⟩
  | unauthorized classification reason hdeep hassess =>
    refine ⟨_, ?_, rfl, rfl⟩
    rw [afterRecord, if_neg hdeep, hassess]
  | inserted ids db reason hdeep hassess hlater hinsert =>
    rcases hcase : assessGapAuthority call.scope goal gap with ⟨classification, why⟩
    rw [hcase] at hassess
    obtain rfl : classification = none := hassess
    refine ⟨⟨"ACCEPTED", some p, some ids,
      "child task inserted via the partial-plan-insertion primitive."⟩, ?_, rfl, rfl⟩
    simp only [afterRecord, if_neg hdeep, hcase, hlater, hinsert]

theorem Generated.problem (h : Generated digest maxDepth call gap goal p s out s') :
    out.problem = some p := by
  cases h with
  | _ => rfl

theorem Generated.problems (h : Generated digest maxDepth call gap goal p s out s') :
    s'.problems = s.problems := by
  cases h with
  | _ => rfl

/-! ## the second child -/

/-- what an insertion leaves of the goals and plans -/
theorem insertPlanTasks_rows {c : PlanInsertion} (h : insertPlanTasks db c = .ok (ids, db')) :
    db'.goals = db.goals ∧ db'.plans = db.plans := by
  obtain ⟨goal, plan, -, -, -, -, ⟨_, _, -, -, rfl⟩ | ⟨-, -, hpersist⟩⟩ := insertPlanTasks_ok h
  · exact ⟨rfl, rfl⟩
  · obtain ⟨-, -, rfl⟩ := persistInsertion_ok hpersist
    exact ⟨recompute_goals .., recompute_plans ..⟩

/-- the goal is as it was -/
theorem Generated.goals (h : Generated digest maxDepth call gap goal p s out s') :
    s'.db.goals = s.db.goals := by
  cases h with
  | deep => rfl
  | unauthorized => rfl
  | inserted ids db reason _ _ _ hinsert => exact (insertPlanTasks_rows hinsert).1

/-- the same call made again, by another worker and under its own lease -/
def GapCall.again (call : GapCall) (requestedBy : String) (context : Option JobClaim)
    (now later : Time) : GapCall :=
  { call with requestedBy, operatorContext := context, now, later }

theorem assess_congr (h : gap'.provenance = gap.provenance) :
    assessGapAuthority call.scope goal gap' = assessGapAuthority call.scope goal gap := by
  have hrepo : gap'.repositoryIdentity = gap.repositoryIdentity :=
    congrArg Provenance.repositoryIdentity h
  have hpaths : gap'.allowedPaths = gap.allowedPaths := congrArg Provenance.allowedPaths h
  have htype : gap'.gapType = gap.gapType := congrArg Provenance.gapType h
  have hcaps : gap'.requiredCapabilities = gap.requiredCapabilities :=
    congrArg Provenance.requiredCapabilities h
  have hrisk : gap'.riskLevel = gap.riskLevel := congrArg Provenance.riskLevel h
  have hunknowns : gap'.unknowns = gap.unknowns := congrArg Provenance.unknowns h
  have hoptions : gap'.candidateOptions = gap.candidateOptions :=
    congrArg Provenance.candidateOptions h
  have hout : gap'.requiredOutcome = gap.requiredOutcome := congrArg Provenance.requiredOutcome h
  unfold assessGapAuthority
  rw [hrepo, hpaths, htype, hcaps, hrisk, hunknowns, hoptions, hout]

/-- the requests for the children of two gaps with one record are the same but for their content -/
theorem childInsertion_again (hkey : gap'.identityKey digest = gap.identityKey digest)
    (hsame : SameRecord gap gap') :
    childInsertion digest (call.again by2 context now later) gap' p =
      { childInsertion digest call gap p with
        tasks := [proposeChildTaskSpec gap']
        existingTaskDependencies := gainedEdges gap' } := by
  obtain ⟨hprov, hreason⟩ := hsame
  have htype : gap'.gapType = gap.gapType := congrArg Provenance.gapType hprov
  have hsource : gap'.sourceType = gap.sourceType := congrArg Provenance.sourceType hprov
  have href : gap'.sourceRef = gap.sourceRef := congrArg Provenance.sourceRef hprov
  simp only [childInsertion, GapCall.again, hkey, htype, hsource, href, hreason]

theorem sameChild_iff (hprov : gap'.provenance = gap.provenance) :
    (proposeChildTaskSpec gap' = proposeChildTaskSpec gap ∧ gainedEdges gap' = gainedEdges gap) ↔
      SameChild gap gap' := by
  have hout : gap'.requiredOutcome = gap.requiredOutcome := congrArg Provenance.requiredOutcome hprov
  have hrisk : gap'.riskLevel = gap.riskLevel := congrArg Provenance.riskLevel hprov
  have hdeps : gap'.dependsOnExistingTaskIds.map DepRef.existing =
      gap.dependsOnExistingTaskIds.map DepRef.existing ↔
        gap'.dependsOnExistingTaskIds = gap.dependsOnExistingTaskIds :=
    (List.map_injective_iff.2 fun a b h => DepRef.existing.inj h).eq_iff
  have hedges : gainedEdges gap' = gainedEdges gap ↔
      gap'.existingTaskDependencyTarget = gap.existingTaskDependencyTarget := by
    unfold gainedEdges
    cases gap'.existingTaskDependencyTarget with
    | none => cases gap.existingTaskDependencyTarget <;> simp
    | some i => cases gap.existingTaskDependencyTarget <;> simp
  rw [hedges]
  simp only [proposeChildTaskSpec, hout, hrisk, InsertedTaskSpec.mk.injEq, hdeps, true_and,
    and_true, SameChild]
  tauto

theorem gainedEdges_length : (gainedEdges gap).length ≤ 1 := by
  unfold gainedEdges
  cases gap.existingTaskDependencyTarget with
  | none => exact Nat.zero_le 1
  | some i => exact Nat.le_refl 1

/-- the request for the second child passes the checks that come before its replay -/
theorem childInsertion_authorized (hkey : gap'.identityKey digest = gap.identityKey digest)
    (hsame : SameRecord gap gap') (hinsert : insertPlanTasks db (childInsertion digest call gap p) =
      .ok (ids, db')) :
    (childInsertion digest (call.again by2 context now later) gap' p).authorized db' := by
  obtain ⟨goal, plan, hgoal, hplan, hreq, hrow, -⟩ := insertPlanTasks_ok hinsert
  obtain ⟨hgoals, hplans⟩ := insertPlanTasks_rows hinsert
  rw [childInsertion_again hkey hsame]
  refine ⟨?_, goal, plan, by rw [hgoals]; exact hgoal, by rw [hplans]; exact hplan, hrow⟩
  have hlen : ¬ (gainedEdges gap').length > maxExistingTaskDependenciesPerInsertion := by
    have hone : (gainedEdges gap').length ≤ 1 := gainedEdges_length
    unfold maxExistingTaskDependenciesPerInsertion
    omega
  unfold PlanInsertion.validateRequest at hreq ⊢
  simp only [guard_eq_ok] at hreq ⊢
  obtain ⟨-, -, -, hrest⟩ := hreq
  exact ⟨by simp, by simp [maxNewTasksPerInsertion], hlen, hrest⟩

/-- the second request is answered from the records of the first one exactly when the children are
the same -/
theorem insert_again_iff (hrec : db.Recorded)
    (hkey : gap'.identityKey digest = gap.identityKey digest) (hsame : SameRecord gap gap')
    (hinsert : insertPlanTasks db (childInsertion digest call gap p) = .ok (ids, db'))
    {ids' : List TaskId} {db'' : Db} :
    insertPlanTasks db' (childInsertion digest (call.again by2 context now later) gap' p) =
      .ok (ids', db'') ↔ SameChild gap gap' ∧ ids' = ids ∧ db'' = db' := by
  obtain ⟨base, hbase, hrecords, rfl⟩ := insertPlanTasks_records hrec hinsert
  have hauth : (childInsertion digest (call.again by2 context now later) gap' p).authorized db' :=
    childInsertion_authorized hkey hsame hinsert
  have hne : (childInsertion digest call gap p).content.tasks ≠ [] := by
    simp [childInsertion, PlanInsertion.content]
  have hplan : (childInsertion digest (call.again by2 context now later) gap' p).plan =
      (childInsertion digest call gap p).plan := by rw [childInsertion_again hkey hsame]
  have hkey' : (childInsertion digest (call.again by2 context now later) gap' p).idempotencyKey =
      (childInsertion digest call gap p).idempotencyKey := by rw [childInsertion_again hkey hsame]
  have hagain := repeated_call hne hbase hrecords hplan hkey' hauth
  have hcontent : (childInsertion digest (call.again by2 context now later) gap' p).content =
      (childInsertion digest call gap p).content ↔ SameChild gap gap' := by
    rw [← sameChild_iff hsame.1, childInsertion_again hkey hsame]
    simp [PlanInsertion.content, childInsertion]
  split at hagain
  · next heq =>
    rw [hagain, ← hcontent]
    simp only [heq, true_and, Except.ok.injEq, Prod.mk.injEq]
    exact and_congr eq_comm eq_comm
  · next hne' =>
    obtain ⟨m, hm⟩ := hagain
    rw [hm, ← hcontent]
    simp [hne']

/-- how the second call goes on after the record -/
theorem generated_again_iff (hrec : s.db.Recorded)
    (hkey : gap'.identityKey digest = gap.identityKey digest) (hsame : SameRecord gap gap')
    (h : Generated digest maxDepth call gap goal p s out s') {t : GapDb Doc}
    (ht : t.db = s'.db) :
    (∃ out' t', Generated digest maxDepth (call.again by2 context now later) gap' goal p t out' t' ∧
      out'.insertedTasks = out.insertedTasks ∧ t'.db = t.db) ↔
    (out.insertedTasks.isSome → (call.again by2 context now later).requireLease later s'.db = .ok () ∧
      SameChild gap gap') := by
  have hdepth : gap'.generationDepth = gap.generationDepth :=
    congrArg Provenance.generationDepth hsame.1
  have hassess : assessGapAuthority (call.again by2 context now later).scope goal gap' =
      assessGapAuthority call.scope goal gap := assess_congr hsame.1
  cases h with
  | deep reason hdeep =>
    refine iff_of_true ⟨_, _, .deep reason (hdepth ▸ hdeep), rfl, rfl⟩ (by simp)
  | unauthorized classification reason hdeep hwhy =>
    exact iff_of_true ⟨_, _, .unauthorized classification reason (hdepth ▸ hdeep)
      (hassess.trans hwhy), rfl, rfl⟩ (by simp)
  | inserted ids db' reason hdeep hwhy hlater hinsert =>
    constructor
    · intro hagain _
      obtain ⟨out', t', hgen, hids, hdb⟩ := hagain
      cases hgen with
      | deep => exact absurd hids (by simp)
      | unauthorized => exact absurd hids (by simp)
      | inserted ids' db'' _ _ _ hlater' hinsert' =>
        rw [ht] at hlater' hinsert'
        exact ⟨hlater', ((insert_again_iff hrec hkey hsame hinsert).1 hinsert').1⟩
    · intro hcond
      obtain ⟨hlater', hchild⟩ := hcond rfl
      refine ⟨_, { t with db := db' }, .inserted ids db' reason (hdepth ▸ hdeep)
        (by rw [hassess]; exact hwhy) ?_ ?_, rfl, ht.symm⟩
      · rw [ht]
        exact hlater'
      · rw [ht]
        exact (insert_again_iff hrec hkey hsame hinsert).2 ⟨hchild, rfl, rfl⟩

theorem row_found (hkey : gap'.identityKey digest = gap.identityKey digest)
    (h : findProblem s.problems owner ("autonomous_gap:" ++ gap.identityKey digest) = some p) :
    findProblem s.problems (gap'.row digest owner).ownerId
      (gap'.row digest owner).idempotencyKey = some p := by
  rw [← hkey] at h
  exact h

/-! ## the record -/

variable [DecidableEq Doc]

theorem ite_singleton_eq_nil {c : Prop} [Decidable c] {x : String} :
    (if ¬ c then [x] else []) = [] ↔ c := by
  by_cases h : c
  · simp [h]
  · simp [h]

/-- a row is replayed for what it records -/
theorem LifeProblem.conflict_eq_none : row.conflict values = none ↔
    row.authority = values.authority ∧ row.classificationBasis = values.classificationBasis ∧
      row.description = values.description ∧ row.mainaiJobId = values.mainaiJobId ∧
      row.mainaiTaskId = values.mainaiTaskId ∧ row.provenance = values.provenance ∧
      row.status = values.status ∧ row.title = values.title := by
  have hnil : row.conflict values = none ↔ row.differing values = [] := by
    unfold LifeProblem.conflict
    split
    · next h => exact iff_of_true rfl h
    · next h => exact iff_of_false (by simp) h
  rw [hnil]
  simp only [LifeProblem.differing, ne_eq, List.append_eq_nil_iff, ite_singleton_eq_nil, and_assoc]

/-- the rows of two gaps replay each other exactly when the gaps have one record -/
theorem row_conflict_iff (h : row.conflict (gap.row digest owner) = none) :
    row.conflict (gap'.row digest owner) = none ↔ SameRecord gap gap' := by
  rw [LifeProblem.conflict_eq_none] at h ⊢
  obtain ⟨hauth, hbasis, hdesc, hjob, htask, hprov, hstatus, htitle⟩ := h
  rw [hauth, hbasis, hdesc, hjob, htask, hprov, hstatus, htitle]
  constructor
  · intro hsame
    obtain ⟨-, -, hdesc', -, -, hprov', -, -⟩ := hsame
    exact ⟨(Option.some.inj hprov').symm, hdesc'.symm⟩
  · intro hsame
    obtain ⟨hprov', hreason⟩ := hsame
    have htype : gap'.gapType = gap.gapType := congrArg Provenance.gapType hprov'
    have hout : gap'.requiredOutcome = gap.requiredOutcome :=
      congrArg Provenance.requiredOutcome hprov'
    have hsource : gap'.sourceTaskId = gap.sourceTaskId :=
      congrArg Provenance.sourceTaskId hprov'
    have hsourceJob : gap'.sourceJobId = gap.sourceJobId :=
      congrArg Provenance.sourceJobId hprov'
    simp only [DiscoveredGap.row, hreason, hprov', htype, hout, hsource, hsourceJob, and_self]

/-- what a row that is there under a key is answered with -/
theorem createProblem_found {s : GapDb Doc}
    (h : findProblem s.problems values.ownerId values.idempotencyKey = some p)
    (hrow : s.problems[p]? = some row) :
    createProblem values s = match row.conflict values with
      | some e => .error e
      | none => .ok (p, s) := by
  unfold createProblem
  cases hc : row.conflict values with
  | none => simp [h, hrow, hc]
  | some e => simp [h, hrow, hc]

/-- what `create_problem` leaves behind: the row under the key, which agrees with what was asked -/
theorem createProblem_ok (h : createProblem values s = .ok (p, s')) :
    findProblem s'.problems values.ownerId values.idempotencyKey = some p ∧
      (∃ row, s'.problems[p]? = some row ∧ row.conflict values = none) ∧ s'.db = s.db ∧
      (s'.problems = s.problems ∨ findProblem s.problems values.ownerId values.idempotencyKey = none ∧
        s'.problems = s.problems ++ [values]) := by
  cases hfind : findProblem s.problems values.ownerId values.idempotencyKey with
  | some q =>
    obtain ⟨row, hrow, -⟩ := findProblem_some hfind
    rw [createProblem_found hfind hrow] at h
    split at h
    · cases h
    · next hnone =>
      cases h
      exact ⟨hfind, ⟨row, hrow, hnone⟩, rfl, .inl rfl⟩
  | none =>
    unfold createProblem at h
    rw [hfind] at h
    dsimp only at h
    split at h
    · cases h
    · cases h
      refine ⟨findProblem_append hfind (by simp [LifeProblem.keyedAs]), ⟨values, by simp, ?_⟩, rfl,
        .inr ⟨rfl, rfl⟩⟩
      rw [LifeProblem.conflict_eq_none]
      simp

theorem recordGap_ok (h : recordGap digest owner gap by1 s = .ok (p, s')) :
    gap.evidenceKind ∈ authorizedEvidenceKinds ∧
      ∃ s0, createProblem (gap.row digest owner) s = .ok (p, s0) ∧
        s' = { s0 with problemEvents := s0.problemEvents ++ [.gapAttempt p by1] } := by
  unfold recordGap at h
  split at h
  · cases h
  · next hkind =>
    split at h
    · cases h
    · next s0 hcreate =>
      cases h
      exact ⟨not_not.1 hkind, s0, hcreate, rfl⟩

/-- the row under the key of a recorded gap -/
theorem recordGap_row (h : recordGap digest owner gap by1 s = .ok (p, s')) :
    findProblem s'.problems owner ("autonomous_gap:" ++ gap.identityKey digest) = some p ∧
      ∃ row, s'.problems[p]? = some row ∧ row.conflict (gap.row digest owner) = none := by
  obtain ⟨-, s0, hcreate, rfl⟩ := recordGap_ok h
  obtain ⟨hfind, hrow, -, -⟩ := createProblem_ok hcreate
  exact ⟨hfind, hrow⟩

theorem recordGap_again (hkind : gap.evidenceKind ∈ authorizedEvidenceKinds)
    (h : createProblem (gap.row digest owner) s = .ok (p, s)) :
    recordGap digest owner gap by1 s =
      .ok (p, { s with problemEvents := s.problemEvents ++ [.gapAttempt p by1] }) := by
  unfold recordGap
  rw [if_neg (not_not.2 hkind), h]

/-- after a gap was recorded, and whatever else was written since, another one under its key is
answered with its row, and with nothing new, if it is answered at all -/
theorem recordGap_found {t t' : GapDb Doc} (hkey : gap'.identityKey digest = gap.identityKey digest)
    (h : recordGap digest owner gap by1 s = .ok (p, s')) (ht : t.problems = s'.problems)
    (hagain : recordGap digest owner gap' by2 t = .ok (q, t')) :
    q = p ∧ t'.problems = t.problems ∧ t'.db = t.db ∧ SameRecord gap gap' := by
  obtain ⟨hfind, row, hrow, hagree⟩ := recordGap_row h
  obtain ⟨-, t0, hcreate, rfl⟩ := recordGap_ok hagain
  rw [← ht] at hfind hrow
  have hanswer := createProblem_found (row_found hkey hfind) hrow
  rw [hanswer] at hcreate
  split at hcreate
  · cases hcreate
  · next hnone =>
    cases hcreate
    exact ⟨rfl, rfl, rfl, (row_conflict_iff hagree).1 hnone⟩

/-- it is answered exactly when the two have one record -/
theorem recordGap_converges_iff {t : GapDb Doc}
    (hkey : gap'.identityKey digest = gap.identityKey digest)
    (h : recordGap digest owner gap by1 s = .ok (p, s')) (ht : t.problems = s'.problems) :
    (∃ t', recordGap digest owner gap' by2 t = .ok (p, t') ∧ t'.problems = t.problems ∧
      t'.db = t.db) ↔ SameRecord gap gap' := by
  constructor
  · intro hagain
    obtain ⟨t', ht', -, -⟩ := hagain
    exact (recordGap_found hkey h ht ht').2.2.2
  · intro hsame
    obtain ⟨hkind, -⟩ := recordGap_ok h
    obtain ⟨hfind, row, hrow, hagree⟩ := recordGap_row h
    rw [← ht] at hfind hrow
    have hanswer := createProblem_found (row_found hkey hfind) hrow
    rw [(row_conflict_iff hagree).2 hsame] at hanswer
    have hkind' : gap'.evidenceKind ∈ authorizedEvidenceKinds := by
      have heq : gap'.evidenceKind = gap.evidenceKind := congrArg Provenance.evidenceKind hsame.1
      rw [heq]
      exact hkind
    exact ⟨_, recordGap_again hkind' hanswer, rfl, rfl⟩

/-! ## the whole -/

theorem generate_ok_iff :
    generateChildTaskForGap digest maxDepth call gap s = (.ok out, s') ↔
      ∃ goal p s1, s.db.goal call.goal = .ok goal ∧ call.requireLease call.now s.db = .ok () ∧
        recordGap digest goal.ownerId gap call.requestedBy s = .ok (p, s1) ∧
        afterRecord digest maxDepth call gap goal p s1 = (.ok out, s') := by
  constructor
  · intro h
    unfold generateChildTaskForGap at h
    split at h
    · exact absurd (Prod.mk.inj h).1 (by simp)
    · exact absurd (Prod.mk.inj h).1 (by simp)
    next goal hgoal hlease =>
    split at h
    · exact absurd (Prod.mk.inj h).1 (by simp)
    next p s1 hrecord => exact ⟨goal, p, s1, hgoal, hlease, hrecord, h⟩
  · intro h
    obtain ⟨goal, p, s1, hgoal, hlease, hrecord, h⟩ := h
    simp only [generateChildTaskForGap, hgoal, hlease, hrecord, h]

/-- the leases under which the call records, and inserts -/
def Leased (call : GapCall) (db : Db) (inserts : Bool) : Prop :=
  call.requireLease call.now db = .ok () ∧ (inserts → call.requireLease call.later db = .ok ())

/-- the second discovery of the gap is answered like the first one, and adds no problem, no task and
no edge -/
def Converges (digest : GapIdentity → String) (maxDepth : ℤ) (call : GapCall)
    (gap' : DiscoveredGap Doc) (out : GapOutcome) (s : GapDb Doc) : Prop :=
  ∃ out' s', generateChildTaskForGap digest maxDepth call gap' s = (.ok out', s') ∧
    out'.problem = out.problem ∧ out'.insertedTasks = out.insertedTasks ∧
    s'.problems = s.problems ∧ s'.db = s.db

theorem recordGap_db (h : recordGap digest owner gap by1 s = .ok (p, s')) : s'.db = s.db := by
  obtain ⟨-, s0, hcreate, rfl⟩ := recordGap_ok h
  exact (createProblem_ok hcreate).2.2.1

theorem generate_converges_iff (hrec : s.db.Recorded)
    (hkey : gap'.identityKey digest = gap.identityKey digest)
    (h : generateChildTaskForGap digest maxDepth call gap s = (.ok out, s')) :
    Converges digest maxDepth (call.again by2 context now later) gap' out s' ↔
      Leased (call.again by2 context now later) s'.db out.insertedTasks.isSome ∧
        SameRecord gap gap' ∧ (out.insertedTasks.isSome → SameChild gap gap') := by
  obtain ⟨goal, p, s1, hgoal, hlease, hrecord, hafter⟩ := generate_ok_iff.1 h
  have hgen := afterRecord_ok hafter
  have hdb := recordGap_db hrecord
  have hgoal' : s'.db.goal (call.again by2 context now later).goal = .ok goal := by
    rw [← hgoal]
    simp only [Db.goal, hgen.goals, hdb, GapCall.again]
  rw [← hdb] at hrec
  constructor
  · intro hconv
    obtain ⟨out', s'', hsecond, hproblem, hids, hproblems, hdb'⟩ := hconv
    obtain ⟨goal', p', s2, hgoal'', hlease', hrecord', hafter'⟩ := generate_ok_iff.1 hsecond
    obtain rfl : goal' = goal := Except.ok.inj (hgoal''.symm.trans hgoal')
    obtain ⟨rfl, hproblems', hdb2, hsame⟩ := recordGap_found hkey hrecord hgen.problems hrecord'
    have hcond := (generated_again_iff hrec hkey hsame hgen hdb2).1
      ⟨out', s'', afterRecord_ok hafter', hids, hdb'.trans hdb2.symm⟩
    exact ⟨⟨hlease', fun hi => (hcond hi).1⟩, hsame, fun hi => (hcond hi).2⟩
  · intro hcond
    obtain ⟨⟨hlease', hlater⟩, hsame, hchild⟩ := hcond
    obtain ⟨s2, hrecord', hproblems', hdb2⟩ :=
      (recordGap_converges_iff hkey hrecord hgen.problems).2 hsame
    obtain ⟨out₁, s₃, hgen', hids, hdb3⟩ :=
      (generated_again_iff hrec hkey hsame hgen hdb2).2 fun hi => ⟨hlater hi, hchild hi⟩
    obtain ⟨out', hafter', hproblem', hids'⟩ := hgen'.of
    refine ⟨out', s₃, generate_ok_iff.2 ⟨goal, p, s2, hgoal', hlease', hrecord', hafter'⟩, ?_,
      hids'.trans hids, hgen'.problems.trans hproblems', hdb3.trans hdb2⟩
    rw [hproblem', hgen'.problem, hgen.problem]

/-- **gap convergence**: after a gap was recorded, a gap with the same identity key is answered with
its row and adds nothing exactly when the two agree in what is recorded of them; and after a child
was generated for a gap, or refused, the same holds of the generation under a live lease, where a
gap with a child has to agree in what is asked of the child, too. -/
theorem gap_convergence (digest : GapIdentity → String) (os : List Op)
    (problems : List (LifeProblem Doc)) (events : List ProblemEvent) (gap gap' : DiscoveredGap Doc)
    (hkey : gap'.identityKey digest = gap.identityKey digest) (by1 by2 : String) :
    (∀ owner p s, recordGap digest owner gap by1 ⟨(sysRun os).db, problems, events⟩ = .ok (p, s) →
      ((∃ s', recordGap digest owner gap' by2 s = .ok (p, s') ∧ s'.problems = s.problems ∧
        s'.db = s.db) ↔ SameRecord gap gap')) ∧
    ∀ maxDepth call context now later out s,
      generateChildTaskForGap digest maxDepth call gap ⟨(sysRun os).db, problems, events⟩ =
        (.ok out, s) →
      (Converges digest maxDepth (call.again by2 context now later) gap' out s ↔
        Leased (call.again by2 context now later) s.db out.insertedTasks.isSome ∧
          SameRecord gap gap' ∧ (out.insertedTasks.isSome → SameChild gap gap')) :=
  ⟨fun _ _ _ h => recordGap_converges_iff hkey h rfl,
    fun _ _ _ _ _ _ _ h => generate_converges_iff (sysRun_recorded os) hkey h⟩

/-! ## a repair that is discovered twice -/

/-- a goal with one task -/
def oneTaskRun : List Op :=
  [.createGoal 0 "build it" "standard_repo_work", .createPlan 1 0 [sampleSpec [] 3]]

def repairCall : GapCall where
  scope :=
    { ownerId := 0
      goalId := 0
      authorityKind := "founder_decision"
      authorityRef := "message"
      authorizedInstruction := "build it"
      repositoryIdentity := "lifeai"
      allowedPaths := ["calculator.py"]
      allowedCapabilities := ["patch_file"] }
  goal := 0
  plan := 0
  requestedBy := "worker-1"

/-- the failure of the task, with the trace event that shows it -/
def repairGap (traceEventId : String) : DiscoveredGap String where
  gapType := "verification_failure"
  evidenceKind := "verification_failure"
  parentGoalId := 0
  reason := "Task 0 did not reach verified completion; bounded repair required."
  requiredOutcome := "Repair the verification failure"
  sourceTaskId := some 0
  repositoryIdentity := "lifeai"
  allowedPaths := ["calculator.py"]
  executionEnvelope := ""
  failureEvidence := traceEventId

/-- what the first discovery leaves -/
def repaired : Except Err GapOutcome × GapDb String :=
  generateChildTaskForGap GapIdentity.reason 3 repairCall (repairGap "event-1")
    ⟨(sysRun oneTaskRun).db, [], []⟩

/-- a child is inserted -/
def repairOutcome : GapOutcome :=
  ⟨"ACCEPTED", some 0, some [1], "child task inserted via the partial-plan-insertion primitive."⟩

set_option maxRecDepth 8000 in
theorem repaired_eq : generateChildTaskForGap GapIdentity.reason 3 repairCall (repairGap "event-1")
    ⟨(sysRun oneTaskRun).db, [], []⟩ = (.ok repairOutcome, repaired.2) := by
  refine Prod.ext ?_ rfl
  decide

theorem gap_convergence_repair :
    Converges GapIdentity.reason 3 (repairCall.again "worker-2" none 0 0) (repairGap "event-1")
      repairOutcome repaired.2 := by
  have hiff := (gap_convergence GapIdentity.reason oneTaskRun [] [] (repairGap "event-1")
    (repairGap "event-1") rfl "worker-1" "worker-2").2 3 repairCall none 0 0 _ _ repaired_eq
  exact hiff.2 ⟨⟨rfl, fun _ => rfl⟩, ⟨rfl, rfl⟩, fun _ => ⟨rfl, rfl, rfl, rfl⟩⟩

/-- the same failure, shown by another trace event, does not converge -/
theorem second_failure_refused :
    (repairGap "event-2").identityKey GapIdentity.reason =
        (repairGap "event-1").identityKey GapIdentity.reason ∧
      ¬ Converges GapIdentity.reason 3 (repairCall.again "worker-1" none 0 0)
        (repairGap "event-2") repairOutcome repaired.2 := by
  have hkey : (repairGap "event-2").identityKey GapIdentity.reason =
    (repairGap "event-1").identityKey GapIdentity.reason := rfl
  refine ⟨hkey, fun hconv => ?_⟩
  have hsame := ((generate_converges_iff (sysRun_recorded oneTaskRun) hkey repaired_eq).1 hconv).2.1
  have hevidence : (repairGap "event-2").failureEvidence = (repairGap "event-1").failureEvidence :=
    congrArg Provenance.failureEvidence hsame.1
  exact absurd hevidence (by decide)

end LifeAI.Gap
