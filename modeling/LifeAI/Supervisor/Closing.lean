import LifeAI.Supervisor.Candidates
import LifeAI.Tasks.Closing

/-!
# The two paths that close a goal

`supervisorPass` closes a goal as completed when all its tasks are completed or cancelled,
`recordFinalReport` when they are all completed.  `closing_paths_agree` says on which states the
two agree.
-/

namespace LifeAI

variable {env : SupervisorEnv} {db : Db} {scope : SupervisorScope} {bindings : List WorkBinding}

/-- the pass ends in the branch that marks the goal completed -/
def supervisorMarks (env : SupervisorEnv) (db : Db) (scope : SupervisorScope)
    (bindings : List WorkBinding) : Prop :=
  ∃ db', supervisorPass env db scope bindings = .ok (.result "COMPLETE"
    "all explicit completion criteria have verified child work", db')

/-- `record_final_report` marks a goal completed that was not -/
def reportMarks (now : Time) (db : Db) (g : GoalId) : Prop :=
  reportCompletes now db g ∧ ∀ goal, db.goals[g]? = some goal → goal.status ≠ .completed

/-- the two paths agree about the goal -/
structure ClosingPathsAgree (env : SupervisorEnv) (db : Db) (scope : SupervisorScope)
    (bindings : List WorkBinding) : Prop where
  same : supervisorMarks env db scope bindings → reportMarks env.now db scope.goalId
  unfinished : (db.taskStatuses scope.goalId).all TaskStatus.terminal →
    (∃ s ∈ db.taskStatuses scope.goalId, s ≠ .completed) →
      ¬ supervisorMarks env db scope bindings ∧ ¬ reportMarks env.now db scope.goalId

/-! ## when the supervisor closes -/

/-- the scope is in force, its criteria are explicit, and its tasks, not too many to look at, are
completed or cancelled -/
structure NothingLeft (env : SupervisorEnv) (db : Db) (scope : SupervisorScope) : Prop where
  valid : validateScope env db scope = .ok none
  bound : 1 ≤ env.maxCandidates ∧ env.maxCandidates ≤ 100
  few : (db.scopedTasks scope).length ≤ env.maxCandidates
  done : ∀ p ∈ db.scopedTasks scope, p.2.status = .completed ∨ p.2.status = .cancelled
  criteria : scope.completionCriteria ≠ []

@[simp] theorem deferredBy_status (a : CandidateAssessment) (deferred : TaskId → Option String) :
    (a.deferredBy deferred).status = a.status := by
  unfold CandidateAssessment.deferredBy
  split <;> rfl

theorem deferredBy_actionable {a : CandidateAssessment} {deferred : TaskId → Option String}
    (h : (a.deferredBy deferred).actionable) : a.actionable := by
  unfold CandidateAssessment.deferredBy at h
  split at h
  · exact h
  · exact absurd h (by simp)

@[simp] theorem assess_status (t : Task) (i : TaskId) :
    (t.assess i scope bindings).status = t.status := rfl

theorem assess_actionable {t : Task} {i : TaskId} (h : (t.assess i scope bindings).actionable) :
    t.status = .ready ∨ t.status = .running := by
  simp only [Task.assess, decide_eq_true_eq] at h
  exact h.2

theorem ownedGoal_ok {goal : Goal} (h : db.ownedGoal scope = .ok goal) :
    db.goals[scope.goalId]? = some goal := by
  unfold Db.ownedGoal at h
  split at h
  · exact absurd h (by simp)
  · next g hg =>
    split at h
    · cases h
      exact hg
    · exact absurd h (by simp)

/-- a scope in force is one of a goal that is neither cancelled nor completed -/
theorem validateScope_none (h : validateScope env db scope = .ok none) :
    ∃ goal, db.ownedGoal scope = .ok goal ∧ goal.status ≠ .cancelled ∧
      goal.status ≠ .completed := by
  unfold validateScope at h
  rw [bind_eq_ok] at h
  obtain ⟨goal, hg, h⟩ := h
  refine ⟨goal, hg, ?_⟩
  split at h
  · exact absurd h (by simp [pure, Except.pure])
  split at h
  · exact absurd h (by simp [pure, Except.pure])
  rw [guard_eq_ok, guard_eq_ok, guard_eq_ok] at h
  obtain ⟨-, -, -, h⟩ := h
  split at h
  · exact absurd h (by simp [pure, Except.pure])
  next hc =>
    split at h
    · exact absurd h (by simp [pure, Except.pure])
    next hd => exact ⟨hc, hd⟩

/-- the end of a run whose scope is not in force has another reason -/
theorem validateScope_some {c r : String} (h : validateScope env db scope = .ok (some (c, r))) :
    r ≠ "all explicit completion criteria have verified child work" := by
  unfold validateScope at h
  rw [bind_eq_ok] at h
  obtain ⟨goal, -, h⟩ := h
  have hpure : ∀ {x y : String}, (pure (some (x, y)) : Except SupervisorError _) = .ok (some (c, r)) →
      y = r := by
    intro x y hx
    simp only [pure, Except.pure, Except.ok.injEq, Option.some.injEq, Prod.mk.injEq] at hx
    exact hx.2
  split at h
  · rw [← hpure h]
    decide
  split at h
  · rw [← hpure h]
    decide
  rw [guard_eq_ok, guard_eq_ok, guard_eq_ok] at h
  obtain ⟨-, -, -, h⟩ := h
  split at h
  · rw [← hpure h]
    decide
  split at h
  · rw [← hpure h]
    decide
  split at h
  · exact absurd h (by simp [pure, Except.pure])
  · split at h
    · exact absurd h (by simp)
    · exact absurd h (by simp [pure, Except.pure])
    · rw [← hpure h]
      decide

/-- no choice is ever classified as complete -/
theorem selectCandidate_none {as : List CandidateAssessment} {c r : String}
    (h : selectCandidate as = (none, c, r)) : c ≠ "COMPLETE" := by
  unfold selectCandidate at h
  dsimp only at h
  split at h
  · repeat' split at h
    all_goals
      simp only [Prod.mk.injEq] at h
      rw [← h.2.1]
      decide
  · split at h
    · simp at h
    · simp only [Prod.mk.injEq] at h
      rw [← h.2.1]
      decide

theorem selectCandidate_of_none {as : List CandidateAssessment} (h : ∀ a ∈ as, ¬ a.actionable) :
    ∃ c r, selectCandidate as = (none, c, r) := by
  have hnil : as.filter (·.actionable) = [] := by simpa [List.filter_eq_nil_iff] using h
  unfold selectCandidate
  rw [hnil]
  dsimp only
  repeat' split
  all_goals exact ⟨_, _, rfl⟩

theorem discoverCandidates_ok {as : List CandidateAssessment} :
    discoverCandidates env db scope bindings = .ok as ↔
      (1 ≤ env.maxCandidates ∧ env.maxCandidates ≤ 100) ∧
        (db.scopedTasks scope).length ≤ env.maxCandidates ∧
        as = (db.scopedTasks scope).map fun p => p.2.assess p.1 scope bindings := by
  unfold discoverCandidates
  rw [guard_eq_ok, guard_eq_ok, not_not, not_lt, Except.ok.injEq, eq_comm (a := as)]

theorem incomplete_nil {as : List CandidateAssessment} :
    incomplete as = [] ↔ ∀ a ∈ as, a.status = .completed ∨ a.status = .cancelled := by
  simp [incomplete, List.filter_eq_nil_iff, or_iff_not_imp_left]

/-- the supervisor marks the goal completed exactly if nothing is left of it -/
theorem supervisorMarks_iff :
    supervisorMarks env db scope bindings ↔ NothingLeft env db scope := by
  unfold supervisorMarks supervisorPass
  constructor
  · rintro ⟨db', h⟩
    rw [bind_eq_ok] at h
    obtain ⟨v, hv, h⟩ := h
    cases v with
    | some p =>
      obtain ⟨c, r⟩ := p
      simp only [pure, Except.pure, Except.ok.injEq, Prod.mk.injEq,
        SupervisorOutcome.result.injEq] at h
      exact absurd h.1.2 (validateScope_some hv)
    | none =>
      simp only [bind_eq_ok] at h
      obtain ⟨as, has, h⟩ := h
      obtain ⟨hbound, hfew, rfl⟩ := discoverCandidates_ok.1 has
      split at h
      · simp [pure, Except.pure] at h
      · next c r hsel =>
        split at h
        · next hinc =>
          split at h
          · simp [pure, Except.pure] at h
          · next hcrit =>
            refine ⟨hv, hbound, hfew, fun p hp => ?_, hcrit⟩
            simpa using incomplete_nil.1 hinc _
              (List.mem_map.2 ⟨_, List.mem_map.2 ⟨p, hp, rfl⟩, rfl⟩)
        · simp only [pure, Except.pure, Except.ok.injEq, Prod.mk.injEq,
            SupervisorOutcome.result.injEq] at h
          exact absurd h.1.1 (selectCandidate_none hsel)
  · intro h
    obtain ⟨goal, hgoal, -⟩ := validateScope_none h.valid
    have hdone : ∀ a ∈ ((db.scopedTasks scope).map fun p => p.2.assess p.1 scope bindings).map
        (·.deferredBy env.deferred), (a.status = .completed ∨ a.status = .cancelled) ∧
          ¬ a.actionable := by
      intro a ha
      obtain ⟨a', ha', rfl⟩ := List.mem_map.1 ha
      obtain ⟨p, hp, rfl⟩ := List.mem_map.1 ha'
      refine ⟨by simpa using h.done p hp, fun hact => ?_⟩
      have hst := assess_actionable (deferredBy_actionable hact)
      rcases h.done p hp with hd | hd <;> simp [hd] at hst
    obtain ⟨c, r, hsel⟩ := selectCandidate_of_none fun a ha => (hdone a ha).2
    have hinc := incomplete_nil.2 fun a ha => (hdone a ha).1
    rw [h.valid]
    simp only [bind, Except.bind, discoverCandidates_ok.2 ⟨h.bound, h.few, rfl⟩, hsel, hinc,
      if_true, h.criteria, if_false, hgoal]
    exact ⟨_, rfl⟩

/-! ## when the paths agree -/

/-- the goal is not failed, and it has tasks and they are all completed -/
structure AllCompleted (db : Db) (g : GoalId) : Prop where
  unfailed : ∀ goal, db.goals[g]? = some goal → goal.status ≠ .failed
  onePlan : (db.activePlans g).length ≤ 1
  tasks : db.taskStatuses g ≠ []
  completed : (db.taskStatuses g).all (· = .completed)

/-- **When the two closing paths agree**: whenever nothing is left of the goal, it is not failed,
has a task, and none of its tasks is cancelled. -/
theorem closing_paths_agree (env : SupervisorEnv) (db : Db) (scope : SupervisorScope)
    (bindings : List WorkBinding) :
    ClosingPathsAgree env db scope bindings ↔
      (NothingLeft env db scope → AllCompleted db scope.goalId) := by
  have hreport : reportMarks env.now db scope.goalId →
      db.taskStatuses scope.goalId ≠ [] ∧
        (db.taskStatuses scope.goalId).all (· = .completed) ∧
        (db.activePlans scope.goalId).length ≤ 1 ∧
        ∀ goal, db.goals[scope.goalId]? = some goal → goal.status ≠ .failed := by
    rintro ⟨h, hnc⟩
    obtain ⟨goal, hg, hp, hc | ⟨ht, hne, hall⟩⟩ := reportCompletes_iff.1 h
    · exact absurd hc (hnc goal hg)
    · refine ⟨hne, hall, hp, fun goal' hg' hf => ht ?_⟩
      obtain rfl := Option.some.inj (hg.symm.trans hg')
      simp [hf, GoalStatus.terminal]
  constructor
  · intro h hleft
    obtain ⟨hne, hall, hp, hf⟩ := hreport (h.same (supervisorMarks_iff.2 hleft))
    exact ⟨hf, hp, hne, hall⟩
  · intro h
    have hall : ∀ s ∈ db.taskStatuses scope.goalId, s ≠ .completed →
        ¬ (db.taskStatuses scope.goalId).all (· = .completed) := fun s hs hn hc =>
      hn (by simpa using List.all_eq_true.1 hc s hs)
    constructor
    · intro hm
      have hleft := supervisorMarks_iff.1 hm
      obtain ⟨goal, hgoal, hncan, hncomp⟩ := validateScope_none hleft.valid
      have hg := ownedGoal_ok hgoal
      have hc := h hleft
      have hopen : ¬ goal.status.terminal := by
        simp [GoalStatus.terminal, hncan, hncomp, hc.unfailed goal hg]
      refine ⟨reportCompletes_iff.2
        ⟨goal, hg, hc.onePlan, .inr ⟨hopen, hc.tasks, hc.completed⟩⟩, fun goal' hg' => ?_⟩
      obtain rfl := Option.some.inj (hg.symm.trans hg')
      exact hncomp
    · rintro - ⟨s, hs, hn⟩
      exact ⟨fun hm => hall s hs hn (h (supervisorMarks_iff.1 hm)).completed,
        fun hm => hall s hs hn (hreport hm).2.1⟩

/-! ## a run on which they differ -/

/-- the first task is completed, and the founder cancels the second one -/
def partlyCancelledRun : List Op :=
  begunRun [sampleSpec [] 3, sampleSpec [] 3] ++
    [.completeRun 5 firstRunner true 30, .cancelTask 6 1 true ""]

/-- a scope in force for the goal of a sample run -/
def sampleScope : SupervisorScope where
  ownerId := 0
  goalId := 0
  authorityKind := "founder_requirement"
  authorityRef := "req-1"
  authorizedInstruction := "build it"
  repositoryIdentity := "repo"
  allowedPaths := ["src"]
  allowedCapabilities := ["read_file"]
  completionCriteria := ["it builds"]

set_option maxRecDepth 8000 in
/-- the supervisor closes the goal as completed, the report as failed -/
theorem cancelled_task_splits_paths :
    ((supervisorPass { now := 7 } (sysRun partlyCancelledRun).db sampleScope []).map fun p =>
        p.2.goals.map (·.status)) = .ok [.completed] ∧
      ((recordFinalReport 7 (sysRun partlyCancelledRun).db 0).map fun db =>
        db.goals.map (·.status)) = .ok [.failed] := by
  decide

end LifeAI
