import LifeAI.Driver.Turns

/-!
# Steps that are skipped on the way to COMPLETE

The cursor is advanced before the outcome of a step is known, and taken back only for a retry.

* `Achieved`  the steps before `n` ended well, the driver's own directives aside;
* `ResumesAchieved`  so did the steps before the cursor of the latest checkpoint;
* `complete_achieved_iff`  an invocation that answers COMPLETE has all of its steps achieved exactly
              when it resumed from such a checkpoint.
-/

namespace LifeAI.Driver

variable {inv : Invocation} {planHash : DevelopmentPlan → String} {plan : DevelopmentPlan}
  {step : DriverStep} {steps : List DriverStep} {s s' : DriverState} {w w' : DriverWorld}
  {n i actions : ℕ}

/-- the most recent result that is recorded for a step -/
def DriverState.lastResult (s : DriverState) (i : ℕ) : Option String :=
  (s.completed.reverse.find? (·.index = i)).map (·.result)

def Well (result : Option String) : Prop := result = some "succeeded" ∨ result = some "no_result"

instance (result : Option String) : Decidable (Well result) :=
  inferInstanceAs (Decidable (_ ∨ _))

/-- each step before `n` that is not a directive of the driver ended well, most recently -/
def Achieved (plan : DevelopmentPlan) (s : DriverState) (n : ℕ) : Prop :=
  ∀ i < n, ∀ step, plan.steps[i]? = some step → step.capability ∉ driverDirectives →
    Well (s.lastResult i)

/-! ## one step -/

theorem lastResult_append (c : Completed) (hs : s'.completed = s.completed ++ [c]) :
    s'.lastResult i = if c.index = i then some c.result else s.lastResult i := by
  unfold DriverState.lastResult
  rw [hs, List.reverse_append, List.reverse_singleton, List.singleton_append, List.find?_cons]
  by_cases hi : c.index = i
  · simp [hi]
  · simp [hi]

theorem Goes.lastResult_ne (h : Goes inv step actions s w s' w') (hi : i ≠ s.nextStep) :
    s'.lastResult i = s.lastResult i := by
  cases h with
  | awaits => rfl
  | verifies | operates => rw [lastResult_append _ rfl, if_neg (Ne.symm hi)]

theorem Goes.lastResult_self (h : Goes inv step actions s w s' w')
    (hstep : step.capability ∉ driverDirectives) : Well (s'.lastResult s.nextStep) := by
  cases h with
  | awaits hcap | verifies hcap => exact absurd hstep (by simp [hcap, driverDirectives])
  | operates r w1 _ _ hgood =>
    rw [lastResult_append _ rfl, if_pos rfl]
    exact hgood.imp (congrArg some) (congrArg some)

/-- going on past a step keeps the steps before it as they were, and ends it well -/
theorem Goes.achieved_iff (h : Goes inv step actions s w s' w') (hstep : plan.steps[s.nextStep]? = some step) :
    Achieved plan s' s'.nextStep ↔ Achieved plan s s.nextStep := by
  rw [h.nextStep]
  constructor
  · intro ha i hi step' hi' hcap
    rw [← h.lastResult_ne (Nat.ne_of_lt hi)]
    exact ha i (Nat.lt_succ_of_lt hi) step' hi' hcap
  · intro ha i hi step' hi' hcap
    rcases Nat.lt_succ_iff_lt_or_eq.1 hi with hlt | rfl
    · rw [h.lastResult_ne (Nat.ne_of_lt hlt)]
      exact ha i hlt step' hi' hcap
    · obtain rfl := Option.some.inj (hstep.symm.trans hi')
      exact h.lastResult_self hcap

/-! ## a run -/

theorem Passes.achieved_iff (h : Passes inv steps s w s' w')
    (hsteps : plan.steps.drop s.nextStep = steps) :
    Achieved plan s' s'.nextStep ↔ Achieved plan s s.nextStep := by
  induction h with
  | nil => exact Iff.rfl
  | cons step rest actions s s1 s2 w w1 w2 hgo _ ih =>
    have hstep : plan.steps[s.nextStep]? = some step := by
      rw [← List.head?_drop, hsteps, List.head?_cons]
    have hrest : plan.steps.drop s1.nextStep = rest := by
      rw [hgo.nextStep, ← List.drop_drop, hsteps, List.drop_one, List.tail_cons]
    rw [ih hrest, hgo.achieved_iff hstep]

theorem achieved_of_length_le (hn : plan.steps.length ≤ n) :
    Achieved plan s n ↔ Achieved plan s plan.steps.length := by
  constructor
  · exact fun h i hi => h i (hi.trans_le hn)
  · intro h i _ step hi
    exact h i (List.getElem?_eq_some_iff.1 hi).1 step hi

/-- past all of the steps -/
theorem Passes.all_achieved_iff (h : Passes inv (plan.steps.drop s.nextStep) s w s' w') :
    Achieved plan s' plan.steps.length ↔ Achieved plan s s.nextStep := by
  have hlen : plan.steps.length ≤ s'.nextStep := by
    have hnext := h.nextStep
    rw [List.length_drop] at hnext
    omega
  rw [← achieved_of_length_le hlen, h.achieved_iff rfl]

/-! ## invocations -/

/-- the operation answers COMPLETE -/
def Completes (planHash : DevelopmentPlan → String) (plan : DevelopmentPlan) (j : DriverJob) :
    JobOp → Prop
  | .invoke inv => j.failed = false ∧
      ∃ res w, runDriver inv planHash plan j.world = (.ok res, w) ∧ res.classification = .complete
  | _ => False

/-- all of the steps ended well, by the latest checkpoint -/
def AllAchieved (plan : DevelopmentPlan) (j : DriverJob) : Prop :=
  ∃ s, latestDriver j.world.checkpoints = some s ∧ Achieved plan s plan.steps.length

/-- no step before the cursor of the latest checkpoint has ended badly -/
def ResumesAchieved (plan : DevelopmentPlan) (j : DriverJob) : Prop :=
  ∀ s, latestDriver j.world.checkpoints = some s → Achieved plan s s.nextStep

theorem runDriver_complete {res : DriverResult}
    (h : runDriver inv planHash plan w = (.ok res, w')) (hc : res.classification = .complete) :
    ∃ s s' w1, (latestDriver w.checkpoints).getD ⟨planHash plan, [], 0, 0, [], none⟩ = s ∧
      Passes inv (plan.steps.drop s.nextStep) s w s' w1 ∧ finish inv s' w1 = (.ok res, w') := by
  unfold runDriver at h
  split at h
  · exact absurd (Prod.mk.inj h).1 (by simp)
  split at h
  · obtain ⟨hres, -⟩ := Prod.mk.inj h
    obtain rfl := Except.ok.inj hres
    exact absurd hc (by simp)
  dsimp only at h
  split at h
  · exact absurd (Prod.mk.inj h).1 (by simp)
  · obtain ⟨s', w1, hpass, hfin⟩ := loop_complete h hc
    exact ⟨_, s', w1, rfl, hpass, hfin⟩

/-- In every run, an invocation that answers COMPLETE leaves every step ended well exactly when no
step before the cursor of the checkpoint that it resumed from had ended badly. -/
theorem complete_achieved_iff (planHash : DevelopmentPlan → String) (plan : DevelopmentPlan)
    (ops : List JobOp) :
    ∀ p ∈ Run.trace (jobStep planHash plan) {} ops, Completes planHash plan p.1 p.2 →
      (AllAchieved plan (jobStep planHash plan p.1 p.2) ↔ ResumesAchieved plan p.1) := by
  rintro ⟨j, op⟩ - hcomp
  cases op with
  | commit => exact hcomp.elim
  | rollback => exact hcomp.elim
  | invoke inv =>
    obtain ⟨hlive, res, w', hrun, hc⟩ := hcomp
    obtain ⟨s, s', w1, hs, hpass, hfin⟩ := runDriver_complete hrun hc
    have hworld : (jobStep planHash plan j (.invoke inv)).world = w' := by
      rw [jobStep_ok hlive hrun]
    have hlatest : latestDriver w'.checkpoints = some s' := by
      rw [(finish_complete hfin hc).2, record_checkpoints, latestDriver_driver]
    have hall : AllAchieved plan (jobStep planHash plan j (.invoke inv)) ↔
        Achieved plan s' plan.steps.length := by
      unfold AllAchieved
      rw [hworld, hlatest]
      simp
    have hresume : ResumesAchieved plan j ↔ Achieved plan s s.nextStep := by
      unfold ResumesAchieved
      rw [← hs]
      cases latestDriver j.world.checkpoints with
      | none => simp [Achieved]
      | some s0 => simp
    rw [hall, hresume, hpass.all_achieved_iff]

/-! ## a step that is stepped over -/

/-- a search, then a test and its evaluation -/
def searchPlan : DevelopmentPlan where
  planId := "search"
  strategyExecutionId := "strategy"
  steps := [
    { capability := "search_text", purpose := "find the callers", expectedResult := "matches"
      arguments := [("query", .str "subtract")] },
    { capability := "run_focused_test", purpose := "run the test", expectedResult := "passed"
      arguments := [("profile_name", .str "focused_pytest"), ("arguments", .arr [.str "test_a.py"])]
      requiredRisk := "LOCAL_EXECUTION", verificationRequired := true },
    { capability := "verification_evaluate", purpose := "evaluate", expectedResult := "passed" }]

/-- the search tool is not there; every other step succeeds -/
def withoutSearch : Invocation where
  strategyExecutionId := "strategy"
  input := fun i =>
    { answer := fun _ =>
        if i = 0 then .plain (.error (.operatorCapabilityMissing "search_text"
          "the deterministic rg search tool is unavailable" true))
        else .plain (.ok ⟨"succeeded", [], "event"⟩) }

/-- every step succeeds -/
def withSearch : Invocation where
  strategyExecutionId := "strategy"
  input := fun _ => { answer := fun _ => .plain (.ok ⟨"succeeded", [], "event"⟩) }

theorem search_completes_achieved :
    AllAchieved searchPlan
      (jobStep DevelopmentPlan.planId searchPlan {} (.invoke withSearch)) := by
  have hcomp : Completes DevelopmentPlan.planId searchPlan {} (.invoke withSearch) :=
    ⟨rfl, _, _, rfl, rfl⟩
  have hresume : ResumesAchieved searchPlan {} := by
    intro s hs
    cases hs
  exact (complete_achieved_iff DevelopmentPlan.planId searchPlan [.invoke withSearch]
    ({}, .invoke withSearch) (by simp [Run.trace]) hcomp).2 hresume

theorem skipped_step_completes :
    ¬ ∀ p ∈ Run.trace (jobStep DevelopmentPlan.planId searchPlan) {}
        [.invoke withoutSearch, .commit, .invoke withoutSearch],
      Completes DevelopmentPlan.planId searchPlan p.1 p.2 →
        AllAchieved searchPlan (jobStep DevelopmentPlan.planId searchPlan p.1 p.2) := by
  intro h
  let j := jobStep DevelopmentPlan.planId searchPlan
    (jobStep DevelopmentPlan.planId searchPlan {} (.invoke withoutSearch)) .commit
  have hcomp : Completes DevelopmentPlan.planId searchPlan j (.invoke withoutSearch) :=
    ⟨rfl, _, _, rfl, rfl⟩
  obtain ⟨s, hs, hall⟩ := h (j, .invoke withoutSearch) (by simp [Run.trace, j]) hcomp
  have hresult : (latestDriver (jobStep DevelopmentPlan.planId searchPlan j
      (.invoke withoutSearch)).world.checkpoints).map (·.lastResult 0) =
      some (some "capability_missing") := by decide
  rw [hs, Option.map_some, Option.some.injEq] at hresult
  have hwell := hall 0 (by decide) _ rfl (by decide)
  rw [hresult] at hwell
  exact absurd hwell (by decide)

end LifeAI.Driver
