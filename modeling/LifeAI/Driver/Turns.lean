import LifeAI.Driver.Model

/-!
# What an iteration of the driver can do

* `Called`   the effects of a call: at most one, of the kind of its step;
* `Goes`     how the loop goes on: past a provider's step, a passed verification, or a step that
             the operator answered well;
* `Halts`    how an iteration ends the invocation;
* `loop_ok`  the answer of the loop and its last checkpoint;
* `runDriver_ok`  the same of `run_driver`.
-/

namespace LifeAI.Driver

variable {inv : Invocation} {planHash : DevelopmentPlan → String} {plan : DevelopmentPlan}
  {maxFailures : ℤ} {step : DriverStep} {rest steps : List DriverStep}
  {index attempt actions actions' : ℕ} {s s' : DriverState} {w w' : DriverWorld}
  {r : ActionResult} {answer : OperatorAnswer}

/-! ## checkpoints -/

@[simp] theorem record_log (c : Checkpoint) : (w.record c).log = w.log := rfl
@[simp] theorem emit_log (e : Effect) : (w.emit e).log = w.log ++ [e] := rfl
@[simp] theorem record_checkpoints (c : Checkpoint) :
    (w.record c).checkpoints = w.checkpoints ++ [c] := rfl
@[simp] theorem emit_checkpoints (e : Effect) : (w.emit e).checkpoints = w.checkpoints := rfl

@[simp] theorem latestDriver_driver (cs : List Checkpoint) (p : Phase) (c : Classification) :
    latestDriver (cs ++ [.driver p c s]) = some s := by
  simp [latestDriver]

@[simp] theorem latestDriver_verification (cs : List Checkpoint) (b : Bool) (ids : List String)
    (m : ℕ) : latestDriver (cs ++ [.verification b ids m]) = latestDriver cs := by
  simp [latestDriver]

@[simp] theorem latestVerification_driver (cs : List Checkpoint) (p : Phase)
    (c : Classification) : latestVerification (cs ++ [.driver p c s]) = latestVerification cs := by
  simp [latestVerification]

@[simp] theorem latestVerification_verification (cs : List Checkpoint) (b : Bool)
    (ids : List String) (m : ℕ) :
    latestVerification (cs ++ [.verification b ids m]) = some (b, m) := by
  simp [latestVerification]

/-! ## calls of the operator -/

/-- how a call ends: with no effect, with a commit under the latest verification checkpoint, or
with a write -/
inductive Called (step : DriverStep) (index : ℕ) (w : DriverWorld) :
    Except Err ActionResult → DriverWorld → Prop
  | plain (r : Except Err ActionResult) : Called step index w r w
  | commit (id : Option String) (moment : ℕ) : step.capability = "commit_scoped_changes" →
      latestVerification w.checkpoints = some (true, moment) →
      Called step index w (audited id) (w.emit (.committed moment))
  | write (id : Option String) : step.capability ∈ writeCapabilities →
      Called step index w (audited id) (w.emit (.wrote index))

theorem operate_called :
    Called step index w (operate step index answer w).1 (operate step index answer w).2 := by
  cases answer with
  | plain r => exact .plain r
  | effect id =>
    unfold operate
    by_cases hcommit : step.capability = "commit_scoped_changes"
    · simp only [if_pos hcommit]
      split
      · next moment hv => exact .commit id moment hcommit hv
      · exact .plain _
    · simp only [if_neg hcommit]
      split
      · next hwrite => exact .write id hwrite
      · exact .plain _

theorem invokeOperator_called :
    Called step index w (invokeOperator inv step index attempt w).1
      (invokeOperator inv step index attempt w).2 := by
  unfold invokeOperator
  split
  · exact .plain _
  · split
    · exact .plain _
    · split
      · split
        · exact operate_called
        · exact .plain _
      · split
        · exact .plain _
        · exact .plain _

theorem Called.plain_of_error {e : Err} (h : Called step index w (.error e) w')
    (he : e ≠ .died) : w' = w := by
  generalize hres : (Except.error e : Except Err ActionResult) = res at h
  cases h with
  | plain => rfl
  | commit id | write id =>
    cases id with
    | none => exact absurd (Except.error.inj hres) he
    | some id => exact absurd hres (by simp [audited])

/-- a call as the exception or the result that it ended with -/
def Call.outcome : Call → Except Err ActionResult
  | .result r => .ok r
  | .stale m => .error (.operatorAuthorityTransition m)
  | .escaped e => .error e

theorem called_of_eq {call : Call}
    (h : callOperator inv step index attempt w = (call, w')) :
    Called step index w call.outcome w' := by
  have hcalled : Called step index w (invokeOperator inv step index attempt w).1
    (invokeOperator inv step index attempt w).2 := invokeOperator_called
  unfold callOperator at h
  split at h
  · next heq =>
    rw [heq] at hcalled
    obtain ⟨rfl, rfl⟩ := Prod.mk.inj h
    exact hcalled
  · next w1 heq =>
    rw [heq] at hcalled
    obtain rfl : w1 = w := hcalled.plain_of_error (by simp)
    split at h
    · obtain ⟨rfl, rfl⟩ := Prod.mk.inj h
      exact .plain _
    · obtain ⟨rfl, rfl⟩ := Prod.mk.inj h
      exact .plain _
  · next heq =>
    rw [heq] at hcalled
    obtain ⟨rfl, rfl⟩ := Prod.mk.inj h
    exact hcalled
  · next heq =>
    rw [heq] at hcalled
    obtain ⟨rfl, rfl⟩ := Prod.mk.inj h
    exact hcalled

theorem Called.checkpoints {res : Except Err ActionResult} (h : Called step index w res w') :
    w'.checkpoints = w.checkpoints := by
  cases h with
  | plain => rfl
  | commit => rfl
  | write => rfl

/-! ## iterations -/

theorem classify_next {a : ℕ} (h : classify maxFailures step r a s = .next actions' s') :
    s' = s ∧ (r.result = "succeeded" ∨ r.result = "no_result") := by
  unfold classify at h
  split at h
  · cases h
  · split at h
    · dsimp only at h
      split at h
      · cases h
      · cases h
    · next hgood =>
      cases h
      exact ⟨rfl, by simpa [or_iff_not_imp_left] using hgood⟩

/-- the iteration gets to the operator: nothing holds the invocation up before -/
structure Reaches (inv : Invocation) (step : DriverStep) (actions : ℕ) (s : DriverState) : Prop where
  bounded : ¬ (inv.maxActions ≤ actions ∨ (inv.input s.nextStep).elapsed)
  independent : ¬ (s.pendingProvider.isSome ∧ ¬ step.independentOfProvider)
  operator : step.capability ∉ driverDirectives
  live : ¬ (inv.input s.nextStep).cancelRequested

/-- how the loop goes on to the next step -/
inductive Goes (inv : Invocation) (step : DriverStep) (actions : ℕ) (s : DriverState)
    (w : DriverWorld) : DriverState → DriverWorld → Prop
  | awaits : step.capability = "provider_step" → Goes inv step actions s w (s.awaitProvider step) w
  | verifies : step.capability = "verification_evaluate" → s.verified = true →
      Goes inv step actions s w s.pass
        (w.record (.verification true (s.required.filterMap (·.traceEventId)) w.log.length))
  | operates (r : ActionResult) (w1 : DriverWorld) : Reaches inv step actions s →
      callOperator inv step s.nextStep (s.attempts s.nextStep) w = (.result r, w1) →
      r.result = "succeeded" ∨ r.result = "no_result" →
      Goes inv step actions s w (s.advance step r) w1

theorem operatorTurn_next (hreach : Reaches inv step actions s)
    (h : operatorTurn inv maxFailures step actions s w = (.next actions' s', w')) :
    Goes inv step actions s w s' w' := by
  unfold operatorTurn at h
  split at h
  · exact absurd (Prod.mk.inj h).1 (by simp)
  · exact absurd (Prod.mk.inj h).1 (by simp)
  · next r w1 hcall =>
    split at h
    · exact absurd (Prod.mk.inj h).1 (by simp)
    · exact absurd (Prod.mk.inj h).1 (by simp)
    · obtain ⟨hend, rfl⟩ := Prod.mk.inj h
      obtain ⟨rfl, hgood⟩ := classify_next hend
      exact .operates r w1 hreach hcall hgood

theorem verifyTurn_next (hcap : step.capability = "verification_evaluate")
    (h : verifyTurn actions s w = (.next actions' s', w')) : Goes inv step actions s w s' w' := by
  unfold verifyTurn at h
  by_cases hv : s.verified = true
  · simp only [if_pos hv, Prod.mk.injEq, TurnEnd.next.injEq] at h
    obtain ⟨⟨-, rfl⟩, rfl⟩ := h
    rw [hv]
    exact .verifies hcap hv
  · simp only [if_neg hv, Prod.mk.injEq, reduceCtorEq, false_and] at h

theorem turn_next (h : turn inv maxFailures step rest actions s w = (.next actions' s', w')) :
    Goes inv step actions s w s' w' := by
  unfold turn at h
  split at h
  · exact absurd (Prod.mk.inj h).1 (by simp)
  next hbound =>
  split at h
  · exact absurd (Prod.mk.inj h).1 (by simp)
  next hwait =>
  split at h
  · next hprovider =>
    split at h
    · obtain ⟨hend, rfl⟩ := Prod.mk.inj h
      obtain ⟨-, rfl⟩ := TurnEnd.next.inj hend
      exact .awaits hprovider
    · exact absurd (Prod.mk.inj h).1 (by simp)
  split at h
  · exact absurd (Prod.mk.inj h).1 (by simp)
  split at h
  · next hverify => exact verifyTurn_next hverify h
  split at h
  · exact absurd (Prod.mk.inj h).1 (by simp)
  · next hp hr hv hlive =>
    exact operatorTurn_next ⟨hbound, hwait, by simp [driverDirectives, hp, hr, hv], hlive⟩ h

theorem classify_done {a : ℕ} {p : Phase} {c : Classification} {d : List (String × Json)}
    (h : classify maxFailures step r a s = .done p c s' d) :
    c ≠ .complete ∧ s'.completed = s.completed := by
  unfold classify at h
  split at h
  · cases h
    exact ⟨by simp, rfl⟩
  · split at h
    · dsimp only at h
      split at h
      · cases h
        exact ⟨by simp, rfl⟩
      · cases h
        exact ⟨by simp, rfl⟩
    · cases h

/-- how an iteration ends the invocation -/
inductive Halts (inv : Invocation) (step : DriverStep) (actions : ℕ) (s : DriverState)
    (w : DriverWorld) : DriverState → DriverWorld → Prop
  | idle (s1 : DriverState) : s1.completed = s.completed → Halts inv step actions s w s1 w
  | refuses : s.verified = false → Halts inv step actions s w s
      (w.record (.verification false (s.required.filterMap (·.traceEventId)) w.log.length))
  | operates (r : ActionResult) (s1 : DriverState) (w1 : DriverWorld) :
      Reaches inv step actions s →
      callOperator inv step s.nextStep (s.attempts s.nextStep) w = (.result r, w1) →
      s1.completed = (s.advance step r).completed → Halts inv step actions s w s1 w1

variable {p : Phase} {c : Classification} {d : List (String × Json)}

theorem operatorTurn_done (hreach : Reaches inv step actions s)
    (h : operatorTurn inv maxFailures step actions s w = (.done p c s' d, w')) :
    c ≠ .complete ∧ Halts inv step actions s w s' w' := by
  unfold operatorTurn at h
  split at h
  · next hcall =>
    have hw := (called_of_eq hcall).plain_of_error (by simp)
    obtain ⟨hend, rfl⟩ := Prod.mk.inj h
    obtain ⟨-, rfl, rfl, -⟩ := TurnEnd.done.inj hend
    rw [hw]
    exact ⟨by simp, .idle _ rfl⟩
  · exact absurd (Prod.mk.inj h).1 (by simp)
  · next r w1 hcall =>
    split at h
    · obtain ⟨hend, rfl⟩ := Prod.mk.inj h
      obtain ⟨-, rfl, rfl, -⟩ := TurnEnd.done.inj hend
      exact ⟨by simp, .operates r _ _ hreach hcall rfl⟩
    · exact absurd (Prod.mk.inj h).1 (by simp)
    · obtain ⟨hend, rfl⟩ := Prod.mk.inj h
      obtain ⟨hc, hs⟩ := classify_done hend
      exact ⟨hc, .operates r _ _ hreach hcall hs⟩

theorem verifyTurn_done (h : verifyTurn actions s w = (.done p c s' d, w')) :
    c ≠ .complete ∧ Halts inv step actions s w s' w' := by
  unfold verifyTurn at h
  by_cases hv : s.verified = true
  · simp only [if_pos hv, Prod.mk.injEq, reduceCtorEq, false_and] at h
  · simp only [if_neg hv, Prod.mk.injEq, TurnEnd.done.injEq] at h
    obtain ⟨⟨-, rfl, rfl, -⟩, rfl⟩ := h
    rw [Bool.not_eq_true] at hv
    rw [hv]
    exact ⟨by simp, .refuses hv⟩

theorem turn_done (h : turn inv maxFailures step rest actions s w = (.done p c s' d, w')) :
    c ≠ .complete ∧ Halts inv step actions s w s' w' := by
  have hidle : ∀ {p1 c1 d1 s1}, (TurnEnd.done p1 c1 s1 d1, w) = (TurnEnd.done p c s' d, w') →
      s1.completed = s.completed → c1 ≠ .complete → c ≠ .complete ∧ Halts inv step actions s w s' w' := by
    intro p1 c1 d1 s1 heq hs hc
    obtain ⟨hend, rfl⟩ := Prod.mk.inj heq
    obtain ⟨-, rfl, rfl, -⟩ := TurnEnd.done.inj hend
    exact ⟨hc, .idle _ hs⟩
  unfold turn at h
  split at h
  · exact hidle h rfl (by simp)
  next hbound =>
  split at h
  · exact hidle h rfl (by simp)
  next hwait =>
  split at h
  · split at h
    · exact absurd (Prod.mk.inj h).1 (by simp)
    · exact hidle h rfl (by simp)
  split at h
  · exact hidle h rfl (by simp)
  split at h
  · exact verifyTurn_done h
  split at h
  · exact hidle h rfl (by simp)
  · next hp hr hv hlive =>
    exact operatorTurn_done ⟨hbound, hwait, by simp [driverDirectives, hp, hr, hv], hlive⟩ h

/-- an exception comes from a call of the operator, or from the progress checkpoint after it -/
theorem turn_raised {e : Err}
    (h : turn inv maxFailures step rest actions s w = (.raised e, w')) :
    Reaches inv step actions s ∧
      ∃ call, callOperator inv step s.nextStep (s.attempts s.nextStep) w = (call, w') := by
  unfold turn at h
  split at h
  · exact absurd (Prod.mk.inj h).1 (by simp)
  next hbound =>
  split at h
  · exact absurd (Prod.mk.inj h).1 (by simp)
  next hwait =>
  split at h
  · split at h
    · exact absurd (Prod.mk.inj h).1 (by simp)
    · exact absurd (Prod.mk.inj h).1 (by simp)
  split at h
  · exact absurd (Prod.mk.inj h).1 (by simp)
  split at h
  · unfold verifyTurn at h
    dsimp only at h
    split at h
    · exact absurd (Prod.mk.inj h).1 (by simp)
    · exact absurd (Prod.mk.inj h).1 (by simp)
  split at h
  · exact absurd (Prod.mk.inj h).1 (by simp)
  · next hp hr hv hlive =>
    refine ⟨⟨hbound, hwait, by simp [driverDirectives, hp, hr, hv], hlive⟩, ?_⟩
    unfold operatorTurn at h
    split at h
    · exact absurd (Prod.mk.inj h).1 (by simp)
    · next hcall =>
      obtain rfl := (Prod.mk.inj h).2
      exact ⟨_, hcall⟩
    · next hcall =>
      split at h
      · exact absurd (Prod.mk.inj h).1 (by simp)
      · obtain rfl := (Prod.mk.inj h).2
        exact ⟨_, hcall⟩
      · obtain rfl := (Prod.mk.inj h).2
        exact ⟨_, hcall⟩

theorem Goes.nextStep (h : Goes inv step actions s w s' w') : s'.nextStep = s.nextStep + 1 := by
  cases h with
  | awaits => rfl
  | verifies => rfl
  | operates => rfl

/-! ## invocations -/

/-- the loop past all of the steps -/
inductive Passes (inv : Invocation) :
    List DriverStep → DriverState → DriverWorld → DriverState → DriverWorld → Prop
  | nil (s0 : DriverState) (w0 : DriverWorld) : Passes inv [] s0 w0 s0 w0
  | cons (step0 : DriverStep) (rest0 : List DriverStep) (actions0 : ℕ) (s0 s1 s2 : DriverState)
      (w0 w1 w2 : DriverWorld) : Goes inv step0 actions0 s0 w0 s1 w1 → Passes inv rest0 s1 w1 s2 w2 →
      Passes inv (step0 :: rest0) s0 w0 s2 w2

theorem Passes.nextStep (h : Passes inv steps s w s' w') :
    s'.nextStep = s.nextStep + steps.length := by
  induction h with
  | nil => rfl
  | cons _ _ _ _ _ _ _ _ _ hgo _ ih =>
    rw [ih, hgo.nextStep, List.length_cons]
    omega

theorem loop_complete {res : DriverResult}
    (h : loop inv maxFailures steps actions s w = (.ok res, w'))
    (hc : res.classification = .complete) :
    ∃ s1 w1, Passes inv steps s w s1 w1 ∧ finish inv s1 w1 = (.ok res, w') := by
  induction steps generalizing actions s w with
  | nil => exact ⟨s, w, .nil s w, h⟩
  | cons step rest ih =>
    rw [loop] at h
    split at h
    · next hturn =>
      obtain ⟨s1, w1, hpass, hfin⟩ := ih h
      exact ⟨s1, w1, .cons _ _ _ _ _ _ _ _ _ (turn_next hturn) hpass, hfin⟩
    · next hturn =>
      obtain ⟨hres, -⟩ := Prod.mk.inj h
      obtain rfl := Except.ok.inj hres
      exact absurd hc (turn_done hturn).1
    · exact absurd (Prod.mk.inj h).1 (by simp)

theorem finish_complete {res : DriverResult} (h : finish inv s w = (.ok res, w'))
    (hc : res.classification = .complete) :
    (inv.verificationPlan → ∃ moment, latestVerification w.checkpoints = some (true, moment)) ∧
    w' = (w.emit (.completed (if inv.verificationPlan then
      (latestVerification w.checkpoints).map (·.2) else none))).record
        (.driver .complete .complete s) := by
  have hclose : ∀ {p1 c1 d1 w1}, close p1 c1 s d1 w1 = (.ok res, w') → c1 ≠ .complete → False := by
    intro p1 c1 d1 w1 heq hne
    obtain ⟨hres, -⟩ := Prod.mk.inj heq
    obtain rfl := Except.ok.inj hres
    exact hne hc
  unfold finish at h
  split at h
  · exact (hclose h (by simp)).elim
  dsimp only at h
  split at h
  · exact (hclose h (by simp)).elim
  next hpassed =>
  split at h
  · exact absurd (Prod.mk.inj h).1 (by simp)
  split at h
  · exact (hclose h (by simp)).elim
  · refine ⟨fun hplan => ?_, (Prod.mk.inj h).2.symm⟩
    cases hv : latestVerification w.checkpoints with
    | none => simp [hplan, hv] at hpassed
    | some v =>
      obtain ⟨b, moment⟩ := v
      have hb : b = true := by simpa [hplan, hv] using hpassed
      exact ⟨moment, by rw [hb]⟩

/-- `C` holds of every iteration that the loop gets to, and `F` of what follows the last -/
def EveryTurn (inv : Invocation) (maxFailures : ℤ)
    (C : DriverStep → ℕ → DriverState → DriverWorld → Prop) (F : DriverState → DriverWorld → Prop) :
    List DriverStep → ℕ → DriverState → DriverWorld → Prop
  | [], _, s, w => F s w
  | step :: rest, actions, s, w => C step actions s w ∧
    match turn inv maxFailures step rest actions s w with
    | (.next actions' s', w') => EveryTurn inv maxFailures C F rest actions' s' w'
    | _ => True

/-- the state that an invocation starts from -/
def resumed (planHash : DevelopmentPlan → String) (plan : DevelopmentPlan) (w : DriverWorld) :
    DriverState :=
  (latestDriver w.checkpoints).getD ⟨planHash plan, [], 0, 0, [], none⟩

/-- the same for an invocation that gets to its loop -/
def Along (inv : Invocation) (planHash : DevelopmentPlan → String) (plan : DevelopmentPlan)
    (C : DriverStep → ℕ → DriverState → DriverWorld → Prop) (F : DriverState → DriverWorld → Prop)
    (w : DriverWorld) : Prop :=
  enter inv plan = .ok () → inv.cancelRequested = false →
    (resumed planHash plan w).planHash = planHash plan →
    EveryTurn inv plan.maxFailures C F (plan.steps.drop (resumed planHash plan w).nextStep) 0
      (resumed planHash plan w) w

variable {j : DriverJob}

theorem jobStep_failed (op : JobOp) (hj : j.failed = true) :
    jobStep planHash plan j op = j.undo := by
  unfold jobStep
  rw [if_pos hj]

theorem jobStep_ok {res : DriverResult} (hj : j.failed = false)
    (hrun : runDriver inv planHash plan j.world = (.ok res, w')) :
    jobStep planHash plan j (.invoke inv) = { j with world := w' } := by
  unfold jobStep
  rw [if_neg (by simp [hj])]
  simp only [hrun]

theorem jobStep_error {e : Err} (hj : j.failed = false)
    (hrun : runDriver inv planHash plan j.world = (.error e, w')) :
    jobStep planHash plan j (.invoke inv) = { j with world := w', failed := true } := by
  unfold jobStep
  rw [if_neg (by simp [hj])]
  simp only [hrun]

end LifeAI.Driver
