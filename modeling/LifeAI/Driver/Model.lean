import LifeAI.Driver.Plan

/-!
# The development driver

`run_driver` of one job and plan.  What the operator answers, what the clock and the cancel flag
say and what the finalisation raises are inputs of an invocation.

* `DriverState`  what the driver keeps in its checkpoints;
* `DriverWorld`  the checkpoints of the job, and the log of the effects that no rollback undoes;
* `invokeOperator`  `_invoke_operator`;
* `turn`         one iteration of the loop;
* `loop`, `runDriver`  `run_driver`;
* `jobStep`      the job over time: invocations, and the ends of the transactions around them.

The loop runs over the steps that are left: every iteration that goes on takes one of them.
-/

namespace LifeAI.Driver

inductive Phase where
  | execute | verify | review | wait | blocked | complete | failed | cancelled
  deriving DecidableEq

inductive Classification where
  | failedRetryable | failedNonretryable | capabilityMissing | waitingProvider
  | externalReviewRequired | verificationRequired | cancelled | actionBoundReached | complete
  | staleAuthority
  deriving DecidableEq

/-- a member of `state["completed"]` -/
structure Completed where
  index : ℕ
  capability : String
  result : String
  traceEventId : Option String := none
  verificationRequired : Bool := false
  deriving DecidableEq

structure DriverState where
  planHash : String
  completed : List Completed := []
  failures : ℕ := 0
  nextStep : ℕ := 0
  stepAttempts : List (ℕ × ℕ) := []
  pendingProvider : Option (ℕ × String) := none
  deriving DecidableEq

/-- a row of `mainai_checkpoints` for the job -/
inductive Checkpoint where
  | driver (phase : Phase) (classification : Classification) (state : DriverState)
  /-- `moment` is when it was recorded: the number of effects in the log -/
  | verification (passed : Bool) (operatorActionIds : List String) (moment : ℕ)
  deriving DecidableEq

/-- what happens outside of the database, or is answered to the caller -/
inductive Effect where
  /-- a create, patch or delete step changed a file -/
  | wrote (index : ℕ)
  /-- a commit was made under the verification checkpoint of that moment -/
  | committed (verified : ℕ)
  /-- COMPLETE was answered, for a task with a verification plan under such a checkpoint -/
  | completed (verified : Option ℕ)
  deriving DecidableEq

structure DriverWorld where
  checkpoints : List Checkpoint := []
  log : List Effect := []
  deriving DecidableEq

/-- `latest_checkpoint_for_step(step="development_driver")` -/
def latestDriver (cs : List Checkpoint) : Option DriverState :=
  cs.reverse.findSome? fun
    | .driver _ _ state => some state
    | .verification .. => none

/-- `latest_checkpoint_for_step(step="verification")` -/
def latestVerification (cs : List Checkpoint) : Option (Bool × ℕ) :=
  cs.reverse.findSome? fun
    | .driver .. => none
    | .verification passed _ moment => some (passed, moment)

def DriverWorld.record (w : DriverWorld) (c : Checkpoint) : DriverWorld :=
  { w with checkpoints := w.checkpoints ++ [c] }

def DriverWorld.emit (w : DriverWorld) (e : Effect) : DriverWorld := { w with log := w.log ++ [e] }

structure ActionResult where
  result : String
  detail : List (String × Json) := []
  traceEventId : String

/-- how a call of an operator function ends -/
inductive OperatorAnswer where
  /-- with no effect: refused, replayed, read or run -/
  | plain (r : Except Err ActionResult)
  /-- the file is written or the commit made; the audit that follows gives the trace event, or
  raises what no handler of the driver is for -/
  | effect (traceEventId : Option String)

/-- what an iteration of the loop finds -/
structure TurnInput where
  elapsed : Bool := false
  cancelRequested : Bool := false
  /-- by the attempt in the idempotency key -/
  answer : ℕ → OperatorAnswer
  /-- `operator.capability_missing` -/
  missing : Except Err ActionResult := .ok ⟨"capability_missing", [], ""⟩
  /-- what `checkpoint_operator_progress` raises -/
  progress : Option Err := none

structure Invocation where
  maxActions : ℤ := 10
  maxElapsedSeconds : ℤ := 300
  /-- the context's binding to an envelope or a supervised goal -/
  governed : Bool := false
  allowedCapabilities : List String := []
  strategyExecutionId : String
  /-- `task.verification_plan` is not empty -/
  verificationPlan : Bool := true
  authority : Except Err Unit := .ok ()
  jobFound : Bool := true
  cancelRequested : Bool := false
  /-- by the step -/
  input : ℕ → TurnInput
  cancelRequestedAtEnd : Bool := false
  /-- what the finalisation of the task and the job raises -/
  finishing : Option Err := none

structure DriverResult where
  phase : Phase
  classification : Classification
  completedSteps : ℕ
  detail : List (String × Json) := []
  checkpointId : ℕ

/-- how an iteration of the loop ends -/
inductive TurnEnd where
  | next (actions : ℕ) (state : DriverState)
  | done (phase : Phase) (classification : Classification) (state : DriverState)
      (detail : List (String × Json))
  | raised (e : Err)

/-! ## the operator -/

variable (inv : Invocation)

/-- the end of a call that has had its effect -/
def audited : Option String → Except Err ActionResult
  | some id => .ok ⟨"succeeded", [], id⟩
  | none => .error .died

/-- `commit_changes` after its replay, or another function of the operator -/
def operate (step : DriverStep) (index : ℕ) (answer : OperatorAnswer) (w : DriverWorld) :
    Except Err ActionResult × DriverWorld :=
  match answer with
  | .plain r => (r, w)
  | .effect id =>
    if step.capability = "commit_scoped_changes" then
      match latestVerification w.checkpoints with
      | some (true, moment) => (audited id, w.emit (.committed moment))
      | _ => (.error (.operatorVerificationRequired
          "required verification checkpoint is absent or failed"), w)
    else if step.capability ∈ writeCapabilities then (audited id, w.emit (.wrote index))
    else (audited id, w)

/-- `_invoke_operator` -/
def invokeOperator (step : DriverStep) (index attempt : ℕ) (w : DriverWorld) :
    Except Err ActionResult × DriverWorld :=
  if inv.governed ∧ inv.allowedCapabilities = [] then
    (.error (.operatorAuthorization
      "governed OperatorContext cannot inherit legacy unrestricted empty capability ceiling; refusing effect"), w)
  else if inv.allowedCapabilities ≠ [] ∧ step.capability ∉ inv.allowedCapabilities then
    (.error (.operatorCapabilityMissing step.capability
      "capability is outside the authorized OperatorContext ceiling" true), w)
  else
    match signature step.capability with
    | some sig =>
      if sig.fits step.arguments then operate step index ((inv.input index).answer attempt) w
      else (.error .typeError, w)
    | none =>
      if step.capability = "push_branch" then
        (.error (.driverPlan "async remote push is outside this synchronous driver slice"), w)
      else ((inv.input index).missing, w)

/-- how the call of a step ends for the driver -/
inductive Call where
  | result (r : ActionResult)
  | stale (message : String)
  | escaped (e : Err)

/-- the call with its handlers; what the handler for a missing capability raises escapes -/
def callOperator (step : DriverStep) (index attempt : ℕ) (w : DriverWorld) : Call × DriverWorld :=
  match invokeOperator inv step index attempt w with
  | (.ok r, w') => (.result r, w')
  | (.error (.operatorCapabilityMissing ..), w') =>
    match (inv.input index).missing with
    | .ok r => (.result r, w')
    | .error e => (.escaped e, w')
  | (.error (.operatorAuthorityTransition m), w') => (.stale m, w')
  | (.error e, w') => (.escaped e, w')

/-! ## the loop -/

def setDefault (fields : List (String × Json)) (key : String) (value : Json) :
    List (String × Json) :=
  if hasKey fields [key] then fields else fields ++ [(key, value)]

def copyArgument (step : DriverStep) (key : String) (fields : List (String × Json)) :
    List (String × Json) :=
  match step.arguments.lookup key with
  | none => fields
  | some value => setDefault fields key value

def failureDetail (step : DriverStep) (r : ActionResult) : List (String × Json) :=
  let d := setDefault r.detail "capability" (.str step.capability)
  let d := setDefault d "failed_capability" (.str step.capability)
  let d := setDefault d "verification_required" (.bool step.verificationRequired)
  let d := setDefault d "result" (.str r.result)
  let d := setDefault d "trace_event_id" (.str r.traceEventId)
  let d := setDefault d "step_arguments" (.obj step.arguments)
  copyArgument step "paths" (copyArgument step "path" d)

def verificationDetail : List (String × Json) :=
  [("verification_passed", .bool false), ("failed_capability", .str "verification_evaluate"),
    ("capability", .str "verification_evaluate"), ("verification_required", .bool true)]

namespace DriverState

def attempts (s : DriverState) (index : ℕ) : ℕ := (s.stepAttempts.lookup index).getD 0

/-- the records that `verification_evaluate` looks at -/
def required (s : DriverState) : List Completed := s.completed.filter (·.verificationRequired)

def verified (s : DriverState) : Bool :=
  s.required ≠ [] ∧ s.required.all (·.result = "succeeded")

/-- the state after a step that the operator answered -/
def advance (s : DriverState) (step : DriverStep) (r : ActionResult) : DriverState :=
  { s with
    completed := s.completed ++
      [⟨s.nextStep, step.capability, r.result, some r.traceEventId, step.verificationRequired⟩]
    stepAttempts := (s.nextStep, s.attempts s.nextStep + 1) :: s.stepAttempts
    nextStep := s.nextStep + 1 }

/-- the state after a verification that passed -/
def pass (s : DriverState) : DriverState :=
  { s with
    completed := s.completed ++ [⟨s.nextStep, "verification_evaluate", "succeeded", none, false⟩]
    nextStep := s.nextStep + 1 }

/-- the state after a step that a provider is to carry out -/
def awaitProvider (s : DriverState) (step : DriverStep) : DriverState :=
  { s with pendingProvider := some (s.nextStep, step.purpose), nextStep := s.nextStep + 1 }

end DriverState

/-- the classification of a result that the operator has answered with -/
def classify (maxFailures : ℤ) (step : DriverStep) (r : ActionResult) (actions : ℕ)
    (s : DriverState) : TurnEnd :=
  if r.result = "capability_missing" then .done .blocked .capabilityMissing s r.detail
  else if r.result ∉ ["succeeded", "no_result"] then
    let s := { s with failures := s.failures + 1 }
    if s.failures ≤ maxFailures ∧ step.onFailure = "retry" then
      .done .failed .failedRetryable { s with nextStep := s.nextStep - 1 } (failureDetail step r)
    else .done .failed .failedNonretryable s (failureDetail step r)
  else .next actions s

/-- a step of the operator -/
def operatorTurn (maxFailures : ℤ) (step : DriverStep) (actions : ℕ) (s : DriverState)
    (w : DriverWorld) : TurnEnd × DriverWorld :=
  match callOperator inv step s.nextStep (s.attempts s.nextStep) w with
  | (.stale m, w') => (.done .blocked .staleAuthority s [("reason", .str m)], w')
  | (.escaped e, w') => (.raised e, w')
  | (.result r, w') =>
    match (inv.input s.nextStep).progress with
    | some (.operatorAuthorityTransition m) =>
      (.done .blocked .staleAuthority (s.advance step r) [("reason", .str m)], w')
    | some e => (.raised e, w')
    | none => (classify maxFailures step r (actions + 1) (s.advance step r), w')

/-- a `verification_evaluate` step -/
def verifyTurn (actions : ℕ) (s : DriverState) (w : DriverWorld) : TurnEnd × DriverWorld :=
  let ids := s.required.filterMap (·.traceEventId)
  let w' := w.record (.verification s.verified ids w.log.length)
  if s.verified then (.next (actions + 1) s.pass, w')
  else
    (.done .verify .verificationRequired s
      (verificationDetail ++ [("operator_action_ids", .arr (ids.map .str))]), w')

/-- one iteration of the loop, at the step `step` with `rest` to follow -/
def turn (maxFailures : ℤ) (step : DriverStep) (rest : List DriverStep) (actions : ℕ)
    (s : DriverState) (w : DriverWorld) : TurnEnd × DriverWorld :=
  if inv.maxActions ≤ actions ∨ (inv.input s.nextStep).elapsed then
    (.done .execute .actionBoundReached s [], w)
  else if s.pendingProvider.isSome ∧ ¬ step.independentOfProvider then
    (.done .wait .waitingProvider s [("independent_work_remains", .bool false)], w)
  else if step.capability = "provider_step" then
    if rest.any (·.independentOfProvider) then (.next actions (s.awaitProvider step), w)
    else
      (.done .wait .waitingProvider (s.awaitProvider step)
        [("independent_work_remains", .bool false)], w)
  else if step.capability = "external_review" then
    (.done .review .externalReviewRequired s step.arguments, w)
  else if step.capability = "verification_evaluate" then verifyTurn actions s w
  else if (inv.input s.nextStep).cancelRequested then
    (.done .cancelled .cancelled s
      [("reason", .str "job cancel requested before further operator effects")], w)
  else operatorTurn inv maxFailures step actions s w

/-- the checkpoint of an ending, and its answer -/
def close (phase : Phase) (classification : Classification) (s : DriverState)
    (detail : List (String × Json)) (w : DriverWorld) : Except Err DriverResult × DriverWorld :=
  (.ok ⟨phase, classification, s.completed.length, detail, w.checkpoints.length⟩,
    w.record (.driver phase classification s))

/-- what follows the last step -/
def finish (s : DriverState) (w : DriverWorld) : Except Err DriverResult × DriverWorld :=
  if s.pendingProvider.isSome then
    close .wait .waitingProvider s [("independent_work_remains", .bool false)] w
  else
    let verification := latestVerification w.checkpoints
    if inv.verificationPlan ∧ ¬ verification.any (·.1) then
      close .verify .verificationRequired s verificationDetail w
    else
      match inv.finishing with
      | some e => (.error e, w)
      | none =>
        if inv.cancelRequestedAtEnd then
          close .cancelled .cancelled s
            [("reason", .str "job cancel requested after verify before task finalize")] w
        else
          close .complete .complete s []
            (w.emit (.completed (if inv.verificationPlan then verification.map (·.2) else none)))

def loop (maxFailures : ℤ) : List DriverStep → ℕ → DriverState → DriverWorld →
    Except Err DriverResult × DriverWorld
  | [], _, s, w => finish inv s w
  | step :: rest, actions, s, w =>
    match turn inv maxFailures step rest actions s w with
    | (.next actions' s', w') => loop maxFailures rest actions' s' w'
    | (.done phase classification s' detail, w') => close phase classification s' detail w'
    | (.raised e, w') => (.error e, w')

/-- the checks before the loop -/
def enter (plan : DevelopmentPlan) : Except Err Unit :=
  match plan.check inv.strategyExecutionId inv.authority with
  | .error e => .error e
  | .ok () =>
    if inv.maxActions < 1 ∨ 50 < inv.maxActions ∨ inv.maxElapsedSeconds < 1 then
      .error (.driverPlan "invocation bounds are invalid")
    else if ¬ inv.jobFound then .error (.driverPlan "job is missing or cross-owner")
    else .ok ()

/-- `run_driver`; `planHash` is `_plan_hash` -/
def runDriver (planHash : DevelopmentPlan → String) (plan : DevelopmentPlan) (w : DriverWorld) :
    Except Err DriverResult × DriverWorld :=
  match enter inv plan with
  | .error e => (.error e, w)
  | .ok () =>
    if inv.cancelRequested then close .cancelled .cancelled ⟨planHash plan, [], 0, 0, [], none⟩ [] w
    else
      let s := (latestDriver w.checkpoints).getD ⟨planHash plan, [], 0, 0, [], none⟩
      if s.planHash ≠ planHash plan then
        (.error (.driverPlan "checkpoint plan identity conflicts with supplied plan"), w)
      else loop inv plan.maxFailures (plan.steps.drop s.nextStep) 0 s w

/-! ## the job over time -/

structure DriverJob where
  /-- the checkpoints that are committed -/
  saved : List Checkpoint := []
  /-- the length of the log at the last commit -/
  savedAt : ℕ := 0
  world : DriverWorld := {}
  /-- an exception has left `run_driver`: what follows is a rollback -/
  failed : Bool := false

inductive JobOp where
  | invoke (inv : Invocation)
  | commit
  /-- the process dies, or the transaction is given up -/
  | rollback

def DriverJob.undo (j : DriverJob) : DriverJob :=
  { j with world := { j.world with checkpoints := j.saved }, failed := false }

def jobStep (planHash : DevelopmentPlan → String) (plan : DevelopmentPlan) (j : DriverJob)
    (op : JobOp) : DriverJob :=
  if j.failed then j.undo
  else
    match op with
    | .invoke inv =>
      match runDriver inv planHash plan j.world with
      | (.ok _, w) => { j with world := w }
      | (.error _, w) => { j with world := w, failed := true }
    | .commit => { j with saved := j.world.checkpoints, savedAt := j.world.log.length }
    | .rollback => j.undo

end LifeAI.Driver
