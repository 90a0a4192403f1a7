import LifeAI.Tasks.Endings

/-!
# The attempt budget

`beginDispatch` adds an attempt and the CHECK constraints refuse one too many.  Only a failed
attempt compares `attempts` with `max_attempts` before it lets a task return; the takeover reset,
the parks with their wakes, and the repair resume do not.

* `Task.hasAttempt`  there is an attempt left;
* `BudgetInv`        a task on a way to `ready` has one;
* `Op.keepsBudget`   no task without an attempt is put on such a way.
-/

namespace LifeAI

variable {db db' : Db}

/-- there is an attempt left -/
def Task.hasAttempt (t : Task) : Bool := t.attempts < t.maxAttempts

/-- the statuses from which a task comes to `ready` without a dispatch in between -/
def TaskStatus.returns (s : TaskStatus) : Bool :=
  s = pending ∨ s = ready ∨ s = blocked ∨ s = retryableFailed

/-- a task on a way to `ready` has an attempt left -/
def BudgetInv (db : Db) : Prop :=
  ∀ (i : TaskId) (t : Task), db.tasks[i]? = some t → t.status.returns → t.hasAttempt

/-- new tasks have an attempt, and a task that comes back to a way to `ready` has one -/
def budgetGuard : Guard where
  insert _ ts _ := ∀ t ∈ ts, 0 < t.maxAttempts
  row _ _ t t' := t'.status.returns → t.status.returns ∨ t.hasAttempt
  resume _ _ := True

theorem Task.hasAttempt_congr {t t' : Task} (hatt : t'.attempts = t.attempts)
    (hmax : t'.maxAttempts = t.maxAttempts) : t'.hasAttempt = t.hasAttempt := by
  rw [hasAttempt, hasAttempt, hatt, hmax]

/-- a turn that is not asked about leads from one returning status to another, or away -/
theorem Turn.changes_returns {i : TaskId} {t t' : Task} {k : Turn} (hk : k.changes db i t t')
    (hG : k.guarded → budgetGuard.row i k t t') (hs : t'.status.returns) :
    k ≠ .dispatch ∧ (t.status.returns ∨ t.hasAttempt) := by
  cases k with
  | touch => exact ⟨by decide, .inl (hk.1 ▸ hs)⟩
  | dispatch => simp [hk.2, TaskStatus.returns] at hs
  | retry | wake => exact ⟨by decide, .inl (by simp [hk.1, TaskStatus.returns])⟩
  | cancel => simp [hk.2, TaskStatus.returns] at hs
  | reset | park | repairPark | resume | outcome => exact ⟨by decide, hG rfl hs⟩

theorem BudgetInv.recompute (h : BudgetInv db) (g : GoalId) :
    BudgetInv (recomputeTaskReadiness db g) := by
  intro i t' ht' hs
  obtain ⟨t, ht⟩ : ∃ t, db.tasks[i]? = some t := by
    rw [recompute_getElem?] at ht'
    obtain ⟨t, ht, -⟩ := Option.map_eq_some_iff.1 ht'
    exact ⟨t, ht⟩
  have hpend : t.pendingIn g → t.hasAttempt := fun hp =>
    h i t ht (by simp [(Task.pendingIn_iff.1 hp).2, TaskStatus.returns])
  rcases recompute_cases (g := g) ht with h1 | ⟨hp, -, h1⟩ | ⟨hp, d, s, -, h1⟩
  · rw [ht'] at h1
    cases h1
    exact h i _ ht hs
  · rw [ht'] at h1
    cases h1
    exact hpend hp
  · rw [ht'] at h1
    cases h1
    exact hpend hp

theorem Move.budgetInv (h : BudgetInv db) (hm : Move budgetGuard db db') : BudgetInv db' := by
  cases hm with
  | notes es hes => exact h
  | insert ts ds es hts hes hG =>
    intro i t ht hs
    rw [Db.addEvents_tasks, List.getElem?_append] at ht
    split at ht
    · exact h i t ht hs
    · have hmem := List.mem_of_getElem? ht
      simpa [Task.hasAttempt, (hts t hmem).2.1] using hG t hmem
  | recompute g => exact h.recompute g
  | @row i t t' k es ht hc hmax hplan hatt hk hes hG hr =>
    intro j r hj hs
    rw [Db.addEvents_tasks, getElem?_set_row ht] at hj
    split at hj
    · cases hj
      obtain ⟨hkind, hprior⟩ := Turn.changes_returns hk hG hs
      have hatt' : t'.attempts = t.attempts := by simpa [Turn.attempts, hkind] using hatt
      rw [Task.hasAttempt_congr hatt' hmax]
      exact hprior.elim (h i t ht) id
    · exact h j r hj hs
  | jobs hj => exact h
  | newJob r hr _ => exact h
  | aux ht hd he hj =>
    intro i t hi
    exact h i t (ht ▸ hi)

/-! ## the operations -/

/-- the task is where the operation would take it from, with no attempt left -/
def Db.spent (db : Db) (i : TaskId) (prior : TaskStatus → Bool) : Bool :=
  db.tasks[i]?.any fun t => prior t.status ∧ ¬ t.status.returns ∧ ¬ t.hasAttempt

/-- what the budget asks of an operation: new tasks have an attempt, no reset, park or repair
takes a running task that has none left, and no failure is written from an old copy to a task
that has used its last attempt since -/
def Op.keepsBudget (s : Sys) : Op → Bool
  | .createPlan _ _ specs => specs.all fun spec => 0 < spec.maxAttempts
  | .insertPlanTasks c => s.db.findReplay c.plan c.idempotencyKey ≠ [] ∨
    c.tasks.all fun spec => 0 < spec.maxAttempts
  | .resetTaskForTakeover i => ¬ s.db.spent i (· = .running)
  | .executeTakeover _ k => s.db.recoveries[k]?.all fun r =>
    r.refusal ≠ none ∨ ¬ s.db.spent r.taskId (· = .running)
  | .parkProviderSpendDefer _ w | .releaseProviderWait _ w _ =>
    (s.db.heldTask w).all fun i => ¬ s.db.spent i (· = .running)
  | .parkSourceTaskForRepair i _ _ => ¬ s.db.spent i (fun st => ¬ st.terminal)
  | .resumeSourceAfterRepair i => ¬ s.db.spent i TaskStatus.resumable
  | .completeRun _ w passed _ => passed ∨ (s.db.heldTask w).all fun i =>
    (s.held w.job).all fun loaded => ¬ loaded.hasAttempt ∨ ¬ s.db.spent i (fun _ => true)
  | _ => true

theorem budgetGuard_admitsTurn {i : TaskId} {k : Turn} {prior : TaskStatus → Bool}
    {next : TaskStatus} (h : ¬ db.spent i prior) : budgetGuard.admitsTurn db i k prior next := by
  intro t t' ht hprior _ _ _ _
  by_contra hno
  rw [not_or] at hno
  exact h (by simpa [Db.spent, ht, hprior] using hno)

/-- a failure that leaves an attempt was written from a copy with one -/
theorem Task.finishedFailed_returns {now : Time} {retryIn : Nat} {t : Task}
    (h : (t.finishedFailed now retryIn).status.returns) : t.hasAttempt := by
  unfold finishedFailed at h
  split at h
  · next hlt => simpa [hasAttempt] using hlt
  · simp [TaskStatus.returns] at h

theorem outcomeOf_returns {now : Time} {loaded new : Task} {passed : Bool} {retryIn : Nat}
    (h : outcomeOf now db loaded passed retryIn = some new) (hs : new.status.returns) :
    passed = false ∧ loaded.hasAttempt := by
  unfold outcomeOf at h
  cases passed with
  | false =>
    cases h
    exact ⟨rfl, Task.finishedFailed_returns hs⟩
  | true =>
    simp only [not_true_eq_false, if_false] at h
    split at h
    · exact absurd h (by simp)
    split at h
    · cases h
      simp [Task.finishedCancelled, TaskStatus.returns] at hs
    · cases h
      simp [Task.finishedCompleted, TaskStatus.returns] at hs

/-- the row of an outcome that keeps the task on a way to `ready` has an attempt left -/
theorem Op.outcome_returns {s : Sys} {op : Op} {i : TaskId} {loaded new t : Task}
    (h : op.keepsBudget s) (ho : op.outcome s = some (i, loaded, new))
    (ht : s.db.tasks[i]? = some t) (hs : new.status.returns) :
    t.status.returns ∨ t.hasAttempt := by
  cases op with
  | completeRun now w passed retryIn =>
    simp only [outcome, Option.bind_eq_bind, Option.bind_eq_some_iff] at ho
    obtain ⟨i', hi, l, hl, n, hn, ho⟩ := ho
    cases ho
    obtain ⟨rfl, hlt⟩ := outcomeOf_returns hn hs
    by_contra hno
    rw [not_or] at hno
    simp [keepsBudget, hi, hl, hlt, Db.spent, ht, hno.1, hno.2] at h
  | failRun now w retryIn =>
    simp only [outcome, Option.bind_eq_bind, Option.bind_eq_some_iff] at ho
    obtain ⟨i', hi, t', ht', ho⟩ := ho
    cases ho
    rw [ht] at ht'
    cases ht'
    exact .inr (Task.finishedFailed_returns hs)
  | cancelRun now w =>
    simp only [outcome, Option.bind_eq_bind, Option.bind_eq_some_iff] at ho
    obtain ⟨i', hi, t', ht', ho⟩ := ho
    cases ho
    simp [Task.finishedCancelled, TaskStatus.returns] at hs
  | failUnavailable now w retryIn =>
    simp only [outcome, Option.bind_eq_bind, Option.bind_eq_some_iff] at ho
    obtain ⟨i', hi, t', ht', ho⟩ := ho
    split at ho
    · cases ho
      rw [ht] at ht'
      cases ht'
      exact .inr (Task.finishedFailed_returns hs)
    · exact absurd ho (by simp)
  | enterCiWait now w secs =>
    simp only [outcome, Option.bind_eq_bind, Option.bind_eq_some_iff] at ho
    obtain ⟨i', hi, l, hl, ho⟩ := ho
    cases ho
    simp [TaskStatus.returns] at hs
  | resumeWaitingCiTask now w polled retryIn =>
    simp only [outcome, Option.bind_eq_bind, Option.bind_eq_some_iff] at ho
    obtain ⟨wait, hw, t', ht', ho⟩ := ho
    split at ho
    · exact absurd ho (by simp)
    generalize (if wait.status = .pending then polled else wait.status) = st at ho
    cases st with
    | pending => exact absurd ho (by simp)
    | satisfied =>
      obtain ⟨n, hn, hm⟩ := Option.map_eq_some_iff.1 ho
      cases hm
      exact absurd (outcomeOf_returns hn hs).1 (by decide)
    | timedOut | failed | cancelled =>
      cases ho
      rw [ht] at ht'
      cases ht'
      exact .inr (Task.finishedFailed_returns hs)
  | _ => exact absurd ho (by simp [outcome])

theorem Op.admits_budgetGuard {s : Sys} {op : Op} (h : op.keepsBudget s) :
    budgetGuard.admits s op := by
  have hout : budgetGuard.admitsOutcome s.db (op.outcome s) := by
    intro i loaded new t ho ht hc hs
    rcases Task.flushed_status loaded new t with hst | hst
    · exact Op.outcome_returns h ho ht (hst ▸ hs)
    · exact .inl (hst ▸ hs)
  cases op with
  | createPlan now g specs =>
    intro _ ts ds hts _ t ht
    obtain ⟨spec, hspec, hmax⟩ := hts t ht
    have := List.all_eq_true.1 h spec hspec
    simpa [hmax] using this
  | insertPlanTasks c =>
    intro hnew _ ts ds hts _ t ht
    obtain ⟨spec, hspec, hmax⟩ := hts t ht
    simp only [keepsBudget, hnew, ne_eq, not_true_eq_false, false_or, decide_eq_true_eq] at h
    have := List.all_eq_true.1 h spec hspec
    simpa [hmax] using this
  | resetTaskForTakeover i => exact budgetGuard_admitsTurn (by simpa [keepsBudget] using h)
  | executeTakeover env k =>
    intro r hr haccepted
    refine ⟨budgetGuard_admitsTurn ?_, fun _ => trivial⟩
    simpa [keepsBudget, hr, haccepted] using h
  | parkProviderSpendDefer now w | releaseProviderWait now w delay =>
    intro i hi
    refine budgetGuard_admitsTurn ?_
    simpa [keepsBudget, hi] using h
  | parkSourceTaskForRepair i child reason =>
    exact budgetGuard_admitsTurn (of_decide_eq_true h)
  | resumeSourceAfterRepair i =>
    exact ⟨budgetGuard_admitsTurn (by simpa [keepsBudget] using h), fun _ _ _ => trivial⟩
  | createJob env c => trivial
  | dispatchReadyTask env i | dispatchCrash env i => exact fun _ => trivial
  | retryJob j loaded => trivial
  | _ => exact hout

/-- a ready task with an attempt left can be dispatched -/
theorem beginDispatch_accepted {i : TaskId} {t : Task} {goal : Goal} (now : Time)
    (ht : db.tasks[i]? = some t) (hs : t.status = .ready) (hc : t.checks) (ha : t.hasAttempt)
    (hg : db.goals[t.goalId]? = some goal)
    (happ : requireTaskApproval db i t goal.approvalPolicy = .ok ()) :
    ∃ r, beginDispatch now i db = .ok r := by
  have hd : (t.dispatched now).checks := by
    rw [Task.checks_iff] at hc ⊢
    simp only [Task.hasAttempt, decide_eq_true_eq] at ha
    have hopen : ¬ t.completedAt.isSome := fun hsome => by
      have := hc.2.2.2.1 hsome
      simp [hs, TaskStatus.terminal] at this
    refine ⟨?_, hc.2.1, ?_, ?_⟩
    · simp only [Task.dispatched]
      omega
    · simp only [Task.dispatched]
      omega
    · simpa [Task.dispatched, TaskStatus.terminal] using hopen
  refine ⟨(t, Db.addEvents { db with tasks := db.tasks.set i (t.dispatched now) }
    [{ task := i, kind := .dispatched, mainaiJobId := some db.jobs.length }]), ?_⟩
  unfold beginDispatch
  rw [bind_eq_ok]
  refine ⟨t, Db.lockTask_ok.2 ht, ?_⟩
  simp only [guard_eq_ok, bind_eq_ok]
  exact ⟨by simp [hs], goal, by simp [Db.goal, hg], (), happ, _, Db.setTask_ok.2 ⟨hd, rfl⟩, rfl⟩

/-- **A ready task has an attempt left**, in every run whose operations keep the budget, and its
dispatch is refused by no CHECK constraint. -/
theorem ready_within_budget (os : List Op)
    (h : Run.Meets Op.step (fun s op => op.keepsBudget s) {} os) (i : TaskId) (t : Task)
    (ht : (sysRun os).db.tasks[i]? = some t) (hs : t.status = .ready) :
    t.attempts < t.maxAttempts ∧
      ∀ (now : Time) (goal : Goal), (sysRun os).db.goals[t.goalId]? = some goal →
        requireTaskApproval (sysRun os).db i t goal.approvalPolicy = .ok () →
        ∃ r, beginDispatch now i (sysRun os).db = .ok r := by
  have hinv : (sysRun os).db.rowsOk ∧ BudgetInv (sysRun os).db :=
    sysRun_inv (G := budgetGuard) (I := fun db => db.rowsOk ∧ BudgetInv db)
      ⟨by simp [Db.rowsOk], by simp [BudgetInv]⟩
      (fun _ _ hi hm => ⟨hm.rowsOk hi.1, hm.budgetInv hi.2⟩)
      (fun _ _ _ hop => Op.admits_budgetGuard hop) h
  have ha : t.hasAttempt := hinv.2 i t ht (by simp [hs, TaskStatus.returns])
  refine ⟨by simpa [Task.hasAttempt] using ha, fun now goal hg happ => ?_⟩
  exact beginDispatch_accepted now ht hs (hinv.1 i t ht) ha hg happ

/-! ## two runs -/

/-- the first of two attempts fails, and the task is retried -/
def retriedRun : List Op :=
  begunRun [sampleSpec [] 2] ++ [.completeRun 5 firstRunner false 30, .retryTask 0]

set_option maxRecDepth 8000 in
theorem ready_within_budget_retriedRun :
    ∃ t, (sysRun retriedRun).db.tasks[0]? = some t ∧ t.attempts < t.maxAttempts :=
  ⟨_, rfl, (ready_within_budget retriedRun (by decide) 0 _ rfl (by decide)).1⟩

/-- the only attempt is parked for its provider, and woken -/
def spentRun : List Op :=
  begunRun [sampleSpec [] 1] ++ [.releaseProviderWait 5 firstRunner 10, .wakeDueBackoff 20 5]

set_option maxRecDepth 8000 in
theorem ready_without_attempt :
    ∃ t, (sysRun spentRun).db.tasks[0]? = some t ∧ t.status = .ready ∧
      ¬ t.attempts < t.maxAttempts ∧
      beginDispatch 21 0 (sysRun spentRun).db = .error (.integrityError "ck_mainai_tasks") :=
  ⟨_, rfl, by decide, by decide, by decide⟩

end LifeAI
