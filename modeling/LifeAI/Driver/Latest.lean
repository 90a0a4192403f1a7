import LifeAI.Driver.Turns

/-!
# The verification gate and attempts that were retried

* `latestAttempts`   the last attempt of each step;
* `failureRetried`   the condition is about these: a step failed and was tried again;
* `evaluations`      the verifications of an invocation, each with the state that it looked at;
* `verifies_latest`  every run of the job.
-/

namespace LifeAI.Driver

variable {inv : Invocation} {planHash : DevelopmentPlan → String} {plan : DevelopmentPlan}
  {maxFailures : ℤ} {step : DriverStep} {rest steps : List DriverStep} {actions : ℕ}
  {s : DriverState} {w w' : DriverWorld} {e : DriverState × Bool}

/-- the last attempt of each step -/
def latestAttempts : List Completed → List Completed
  | [] => []
  | c :: cs => if cs.any (·.index = c.index) then latestAttempts cs else c :: latestAttempts cs

/-- an attempt has failed, and the step was tried again -/
def failureRetried : List Completed → Bool
  | [] => false
  | c :: cs => (c.result ≠ "succeeded" ∧ cs.any (·.index = c.index)) ∨ failureRetried cs

/-- the latest attempt of each required step that has run succeeded, and one has run -/
def DriverState.latestSucceeded (s : DriverState) : Bool :=
  s.required ≠ [] ∧ (latestAttempts s.required).all (·.result = "succeeded")

/-- Where a required step failed and was tried again, some required step's latest attempt failed. -/
def DriverState.failuresCount (s : DriverState) : Bool :=
  failureRetried s.required → ¬ (latestAttempts s.required).all (·.result = "succeeded")

/-! ## the verifications of a run -/

/-- what an iteration from `w` to `w'` has recorded of its verification -/
def evaluated (s : DriverState) (w w' : DriverWorld) : List (DriverState × Bool) :=
  (w'.checkpoints.drop w.checkpoints.length).filterMap fun
    | .driver .. => none
    | .verification passed _ _ => some (s, passed)

/-- the verifications of the loop -/
def loopEvaluations (inv : Invocation) (maxFailures : ℤ) :
    List DriverStep → ℕ → DriverState → DriverWorld → List (DriverState × Bool)
  | [], _, _, _ => []
  | step :: rest, actions, s, w =>
    match turn inv maxFailures step rest actions s w with
    | (.next actions' s', w') =>
      evaluated s w w' ++ loopEvaluations inv maxFailures rest actions' s' w'
    | (.done .., w') => evaluated s w w'
    | (.raised _, w') => evaluated s w w'

/-- the verifications of `run_driver` -/
def evaluations (inv : Invocation) (planHash : DevelopmentPlan → String) (plan : DevelopmentPlan)
    (w : DriverWorld) : List (DriverState × Bool) :=
  match enter inv plan with
  | .error _ => []
  | .ok () =>
    if inv.cancelRequested then []
    else
      let s := (latestDriver w.checkpoints).getD ⟨planHash plan, [], 0, 0, [], none⟩
      if s.planHash ≠ planHash plan then []
      else loopEvaluations inv plan.maxFailures (plan.steps.drop s.nextStep) 0 s w

/-- the verifications of an operation of the job -/
def JobOp.evaluations (planHash : DevelopmentPlan → String) (plan : DevelopmentPlan) (j : DriverJob) :
    JobOp → List (DriverState × Bool)
  | .invoke inv => if j.failed then [] else Driver.evaluations inv planHash plan j.world
  | _ => []

/-- each verification of the run passes exactly when the latest attempts succeeded -/
def VerifiesLatest (planHash : DevelopmentPlan → String) (plan : DevelopmentPlan) (j : DriverJob)
    (ops : List JobOp) : Prop :=
  ∀ p ∈ Run.trace (jobStep planHash plan) j ops, ∀ e ∈ p.2.evaluations planHash plan p.1,
    e.2 = e.1.latestSucceeded

/-! ## attempts -/

/-- all attempts succeeded, by the latest ones and the ones before -/
theorem all_succeeded_iff (cs : List Completed) : cs.all (·.result = "succeeded") = true ↔
    (latestAttempts cs).all (·.result = "succeeded") = true ∧ failureRetried cs = false := by
  induction cs with
  | nil => exact ⟨fun h => ⟨h, rfl⟩, fun h => h.1⟩
  | cons c cs ih =>
    have hlatest : latestAttempts (c :: cs) =
        if cs.any (·.index = c.index) then latestAttempts cs else c :: latestAttempts cs := rfl
    have hretried : failureRetried (c :: cs) = true ↔
        c.result ≠ "succeeded" ∧ cs.any (·.index = c.index) = true ∨ failureRetried cs = true :=
      decide_eq_true_iff
    rw [List.all_cons, Bool.and_eq_true, decide_eq_true_iff, ih, hlatest, ← Bool.not_eq_true,
      ← Bool.not_eq_true, hretried]
    by_cases hagain : cs.any (·.index = c.index) = true
    · rw [if_pos hagain]
      by_cases hc : c.result = "succeeded"
      · simp only [hc, true_and, ne_eq, not_true_eq_false, false_and, false_or]
      · simp only [hc, false_and, ne_eq, not_false_eq_true, hagain, true_and, true_or,
          not_true_eq_false, and_false]
    · rw [if_neg hagain, List.all_cons, Bool.and_eq_true, decide_eq_true_iff, and_assoc]
      simp only [hagain, Bool.false_eq_true, and_false, false_or]

/-- the gate agrees with the latest attempts exactly when no failure was made up for -/
theorem verified_eq_latest_iff (s : DriverState) :
    s.verified = s.latestSucceeded ↔ s.failuresCount = true := by
  have hall := all_succeeded_iff s.required
  unfold DriverState.verified DriverState.latestSucceeded DriverState.failuresCount
  rw [decide_eq_decide, decide_eq_true_iff]
  by_cases hnil : s.required = []
  · rw [hnil]
    simp [failureRetried]
  · cases hretried : failureRetried s.required with
    | false =>
      rw [hretried] at hall
      simp [hall]
    | true =>
      rw [hretried] at hall
      have hno : ¬ s.required.all (·.result = "succeeded") = true := fun h => nomatch (hall.1 h).2
      simp [hno, hnil]

/-! ## what is recorded -/

theorem evaluated_same (h : w'.checkpoints = w.checkpoints) : evaluated s w w' = [] := by
  unfold evaluated
  rw [h, List.drop_length]
  rfl

theorem evaluated_record (s : DriverState) (w : DriverWorld) (passed : Bool) (ids : List String)
    (moment : ℕ) : evaluated s w (w.record (.verification passed ids moment)) = [(s, passed)] := by
  unfold evaluated
  rw [record_checkpoints, List.drop_left]
  rfl

theorem Goes.evaluated {s' : DriverState} (h : Goes inv step actions s w s' w')
    (he : e ∈ Driver.evaluated s w w') : e = (s, s.verified) := by
  cases h with
  | awaits hcap =>
    rw [evaluated_same rfl] at he
    exact absurd he List.not_mem_nil
  | verifies hcap hv =>
    rw [evaluated_record] at he
    rw [List.mem_singleton.1 he, hv]
  | operates r w1 hreach hcall hgood =>
    rw [evaluated_same (called_of_eq hcall).checkpoints] at he
    exact absurd he List.not_mem_nil

theorem Halts.evaluated {s' : DriverState} (h : Halts inv step actions s w s' w')
    (he : e ∈ Driver.evaluated s w w') : e = (s, s.verified) := by
  cases h with
  | idle s1 hs =>
    rw [evaluated_same rfl] at he
    exact absurd he List.not_mem_nil
  | refuses hv =>
    rw [evaluated_record] at he
    rw [List.mem_singleton.1 he, hv]
  | operates r s1 w1 hreach hcall hs =>
    rw [evaluated_same (called_of_eq hcall).checkpoints] at he
    exact absurd he List.not_mem_nil

/-- every verification of the loop records what `verified` says of its state -/
theorem loopEvaluations_verified (he : e ∈ loopEvaluations inv maxFailures steps actions s w) :
    e.2 = e.1.verified := by
  induction steps generalizing actions s w with
  | nil => exact absurd he List.not_mem_nil
  | cons step rest ih =>
    unfold loopEvaluations at he
    split at he
    · next hturn =>
      rcases List.mem_append.1 he with hnow | hlater
      · rw [(turn_next hturn).evaluated hnow]
      · exact ih hlater
    · next hturn =>
      rw [(turn_done hturn).2.evaluated he]
    · next hturn =>
      obtain ⟨-, call, hcall⟩ := turn_raised hturn
      rw [evaluated_same (called_of_eq hcall).checkpoints] at he
      exact absurd he List.not_mem_nil

theorem JobOp.evaluations_verified {j : DriverJob} {op : JobOp}
    (he : e ∈ op.evaluations planHash plan j) : e.2 = e.1.verified := by
  cases op with
  | commit => exact absurd he List.not_mem_nil
  | rollback => exact absurd he List.not_mem_nil
  | invoke inv =>
    change e ∈ if j.failed then [] else Driver.evaluations inv planHash plan j.world at he
    split at he
    · exact absurd he List.not_mem_nil
    unfold Driver.evaluations at he
    split at he
    · exact absurd he List.not_mem_nil
    split at he
    · exact absurd he List.not_mem_nil
    dsimp only at he
    split at he
    · exact absurd he List.not_mem_nil
    · exact loopEvaluations_verified he

/-- **In every run of the job, from any state of it, the verifications follow the latest attempts
exactly when none of them looks at a required step that failed and then succeeded on a retry.** -/
theorem verifies_latest (planHash : DevelopmentPlan → String) (plan : DevelopmentPlan)
    (j : DriverJob) (ops : List JobOp) :
    VerifiesLatest planHash plan j ops ↔
      ∀ p ∈ Run.trace (jobStep planHash plan) j ops, ∀ e ∈ p.2.evaluations planHash plan p.1,
        e.1.failuresCount = true := by
  constructor
  · intro h p hp e he
    have hsame := h p hp e he
    rw [JobOp.evaluations_verified he] at hsame
    exact (verified_eq_latest_iff e.1).1 hsame
  · intro h p hp e he
    rw [JobOp.evaluations_verified he]
    exact (verified_eq_latest_iff e.1).2 (h p hp e he)

/-! ## a retry that succeeds -/

/-- a test that may be retried, and its evaluation -/
def retriedPlan : DevelopmentPlan where
  planId := "retried"
  strategyExecutionId := "strategy"
  steps := [
    { capability := "run_focused_test", purpose := "run the test", expectedResult := "passed"
      arguments := [("profile_name", .str "focused_pytest"), ("arguments", .arr [.str "test_a.py"])]
      requiredRisk := "LOCAL_EXECUTION", verificationRequired := true, onFailure := "retry" },
    { capability := "verification_evaluate", purpose := "evaluate", expectedResult := "passed" }]

/-- the first attempt fails, the second one succeeds -/
def failsOnce : Invocation where
  strategyExecutionId := "strategy"
  input := fun _ =>
    { answer := fun attempt =>
        if attempt = 0 then .plain (.ok ⟨"failed", [], "event-0"⟩)
        else .plain (.ok ⟨"succeeded", [], "event-1"⟩) }

/-- The verification fails although the latest attempt of the test succeeded. -/
theorem retried_not_verified :
    ¬ ∀ (planHash : DevelopmentPlan → String) (plan : DevelopmentPlan) (j : DriverJob)
      (ops : List JobOp), VerifiesLatest planHash plan j ops := by
  intro h
  let first := jobStep DevelopmentPlan.planId retriedPlan
    (jobStep DevelopmentPlan.planId retriedPlan {} (.invoke failsOnce)) .commit
  have hmem : (first, JobOp.invoke failsOnce) ∈ Run.trace (jobStep DevelopmentPlan.planId retriedPlan)
      {} [.invoke failsOnce, .commit, .invoke failsOnce] := by
    simp [Run.trace, first]
  have hany : ((JobOp.invoke failsOnce).evaluations DevelopmentPlan.planId retriedPlan first).any
      (fun e => e.2 ≠ e.1.latestSucceeded) = true := by decide
  obtain ⟨e, he, hne⟩ := List.any_eq_true.1 hany
  exact of_decide_eq_true hne (h _ _ _ _ _ hmem e he)

end LifeAI.Driver
