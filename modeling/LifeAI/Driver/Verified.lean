import LifeAI.Driver.Turns

/-!
# What is committed was verified

A commit and COMPLETE are admitted by the latest verification checkpoint of the job, which says
nothing of what was written after it.

* `Quiet`         no write step was executed since a moment;
* `Verified`      nothing was written between a verification and what it admitted;
* `Settled`       the records of the driver: a verification, and no write after it;
* `Ordered`       commits and completions from settled records, and no rollback of a write;
* `run_verified`  a run whose operations are all ordered is verified.
-/

namespace LifeAI.Driver

variable {inv : Invocation} {planHash : DevelopmentPlan → String} {plan : DevelopmentPlan}
  {maxFailures : ℤ} {step : DriverStep} {steps : List DriverStep} {actions index v n : ℕ}
  {s s' : DriverState} {w w' : DriverWorld} {j : DriverJob} {log more : List Effect} {e : Effect}
  {cs : List Checkpoint} {done : List Completed} {c : Completed} {r : ActionResult}

/-! ## the log -/

/-- the moment of the verification checkpoint that admitted an effect -/
def Effect.admittedBy : Effect → Option ℕ
  | .wrote _ => none
  | .committed v => some v
  | .completed v => v

/-- no write step was executed since the moment `v` -/
def Quiet (log : List Effect) (v : ℕ) : Prop := ∀ i, .wrote i ∉ log.drop v

instance (log : List Effect) (v : ℕ) : Decidable (Quiet log v) :=
  decidable_of_iff (∀ e ∈ log.drop v, e.admittedBy ≠ none ∨ e = .completed none) (by
    constructor
    · intro h i hi
      rcases h _ hi with h | h
      · exact h rfl
      · cases h
    · intro h e he
      cases e with
      | wrote i => exact absurd he (h i)
      | committed v => exact .inl (by simp [Effect.admittedBy])
      | completed v =>
        cases v with
        | none => exact .inr rfl
        | some v => exact .inl (by simp [Effect.admittedBy]))

/-- no write step was executed between a verification and the commit or the COMPLETE that it
admitted -/
def Verified (log : List Effect) : Prop :=
  ∀ n e v, log[n]? = some e → e.admittedBy = some v → Quiet (log.take n) v

theorem quiet_length : Quiet log log.length := by
  intro i hi
  rw [List.drop_length] at hi
  exact absurd hi List.not_mem_nil

theorem Quiet.snoc (h : Quiet log v) (he : ∀ i, e ≠ .wrote i) : Quiet (log ++ [e]) v := by
  intro i hi
  rw [List.drop_append] at hi
  rcases List.mem_append.1 hi with hi | hi
  · exact h i hi
  · exact he i (List.mem_singleton.1 (List.mem_of_mem_drop hi)).symm

/-- nothing before a moment, and nothing since it -/
theorem Quiet.join (h : Quiet (log.take n) v) (hn : Quiet log n) : Quiet log v := by
  intro i hi
  obtain ⟨k, hk, heq⟩ := List.getElem_of_mem hi
  rw [List.getElem_drop] at heq
  rw [List.length_drop] at hk
  by_cases hlt : v + k < n
  · refine h i (List.mem_iff_getElem.2 ⟨k, ?_, ?_⟩)
    · rw [List.length_drop, List.length_take]
      omega
    · rw [List.getElem_drop, List.getElem_take, heq]
  · refine hn i (List.mem_iff_getElem.2 ⟨v + k - n, ?_, ?_⟩)
    · rw [List.length_drop]
      omega
    · rw [List.getElem_drop, ← heq]
      congr 1
      omega

theorem verified_nil : Verified [] := by
  intro n e v h
  cases h

theorem Verified.snoc (h : Verified log) (he : ∀ v, e.admittedBy = some v → Quiet log v) :
    Verified (log ++ [e]) := by
  intro n e' v hn hv
  rcases Nat.lt_trichotomy n log.length with hlt | rfl | hgt
  · rw [List.getElem?_append_left hlt] at hn
    rw [List.take_append_of_le_length hlt.le]
    exact h n e' v hn hv
  · rw [List.getElem?_append_right le_rfl, Nat.sub_self] at hn
    obtain rfl := Option.some.inj hn
    rw [List.take_left]
    exact he v hv
  · rw [List.getElem?_eq_none (by rw [List.length_append]; exact hgt)] at hn
    cases hn

/-! ## the records -/

def Completed.verifies (c : Completed) : Bool := c.capability = "verification_evaluate"

def Completed.writes (c : Completed) : Bool :=
  c.capability ∈ writeCapabilities ∧ c.result = "succeeded"

/-- the latest record of a verification or of a write that succeeded is that of a verification -/
def Settled (done : List Completed) : Bool :=
  (done.reverse.find? fun c => c.verifies ∨ c.writes).any (·.verifies)

theorem settled_snoc :
    Settled (done ++ [c]) = (c.verifies || (!c.writes && Settled done)) := by
  unfold Settled
  rw [List.reverse_append, List.reverse_singleton, List.singleton_append, List.find?_cons]
  cases hv : c.verifies with
  | true => simp [hv]
  | false =>
    cases hw : c.writes with
    | true => simp [hv]
    | false => simp

/-- settled records have the latest verification checkpoint behind them, and no write since -/
def Backed (done : List Completed) (cs : List Checkpoint) (log : List Effect) : Prop :=
  Settled done → ∃ b v, latestVerification cs = some (b, v) ∧ Quiet log v

/-- so have the records of the latest checkpoint of the driver -/
def Sound (cs : List Checkpoint) (log : List Effect) : Prop :=
  ∀ s, latestDriver cs = some s → Backed s.completed cs log

theorem sound_record {p : Phase} {c : Classification} (h : Backed s.completed w.checkpoints w.log) :
    Sound (w.record (.driver p c s)).checkpoints w.log := by
  intro s1 hs1 hset
  rw [record_checkpoints, latestDriver_driver] at hs1
  obtain rfl := Option.some.inj hs1
  rw [record_checkpoints, latestVerification_driver]
  exact h hset

/-! ## one call -/

/-- a call that commits does so from settled records -/
def CommitsSettled (inv : Invocation) (step : DriverStep) (actions : ℕ) (s : DriverState)
    (w : DriverWorld) : Prop :=
  Reaches inv step actions s →
    ∀ v, (callOperator inv step s.nextStep (s.attempts s.nextStep) w).2 = w.emit (.committed v) →
      Settled s.completed

theorem emit_ne : w.emit e ≠ w := by
  intro h
  have hlen := congrArg (fun w => w.log.length) h
  simp at hlen

theorem Called.committed {res : Except Err ActionResult}
    (h : Called step index w res (w.emit (.committed v))) :
    step.capability = "commit_scoped_changes" := by
  generalize hw : w.emit (.committed v) = w1 at h
  cases h with
  | plain => exact absurd hw emit_ne
  | commit _ _ hcap => exact hcap
  | write => exact absurd (congrArg (fun w => w.log.getLast?) hw) (by simp)

/-- the condition is one on the commit steps -/
theorem commitsSettled_of_ne (hne : step.capability ≠ "commit_scoped_changes") :
    CommitsSettled inv step actions s w := by
  intro _ v hv
  rcases hcall : callOperator inv step s.nextStep (s.attempts s.nextStep) w with ⟨call, w'⟩
  have hcalled := called_of_eq hcall
  rw [hcall] at hv
  obtain rfl : w' = w.emit (.committed v) := hv
  exact absurd hcalled.committed hne

theorem Called.verified {res : Except Err ActionResult} (h : Called step index w res w')
    (hset : ∀ v, w' = w.emit (.committed v) → Settled s.completed)
    (hb : Backed s.completed w.checkpoints w.log) (hv : Verified w.log) : Verified w'.log := by
  cases h with
  | plain => exact hv
  | commit id moment _ hlatest =>
    refine hv.snoc fun v hadm => ?_
    obtain ⟨b, v', hlatest', hquiet⟩ := hb (hset moment rfl)
    obtain ⟨-, rfl⟩ := Prod.mk.inj (Option.some.inj (hlatest.symm.trans hlatest'))
    obtain rfl := Option.some.inj hadm
    exact hquiet
  | write id => exact hv.snoc fun v hadm => absurd hadm (by simp [Effect.admittedBy])

/-- a record after a call: a write leaves the records unsettled -/
theorem Called.backed (h : Called step s.nextStep w (.ok r) w')
    (hcap : step.capability ∉ driverDirectives)
    (hb : Backed s.completed w.checkpoints w.log) :
    Backed (s.advance step r).completed w'.checkpoints w'.log := by
  have hne : step.capability ≠ "verification_evaluate" := fun heq =>
    hcap (by simp [heq, driverDirectives])
  intro hset
  have hset' : Completed.writes ⟨s.nextStep, step.capability, r.result, some r.traceEventId,
      step.verificationRequired⟩ = false ∧ Settled s.completed = true := by
    simpa [DriverState.advance, settled_snoc, Completed.verifies, hne] using hset
  obtain ⟨b, v, hlatest, hquiet⟩ := hb hset'.2
  rw [h.checkpoints]
  refine ⟨b, v, hlatest, ?_⟩
  generalize hres : (Except.ok r : Except Err ActionResult) = res at h
  cases h with
  | plain => exact hquiet
  | commit => exact hquiet.snoc (by simp)
  | write id hcap =>
    cases id with
    | none => exact absurd hres (by simp [audited])
    | some id =>
      obtain rfl := Except.ok.inj hres
      exact absurd hset'.1 (by simp [Completed.writes, hcap])

/-! ## one iteration -/

theorem Goes.verified (h : Goes inv step actions s w s' w')
    (hc : CommitsSettled inv step actions s w) (hb : Backed s.completed w.checkpoints w.log)
    (hv : Verified w.log) :
    Backed s'.completed w'.checkpoints w'.log ∧ Verified w'.log := by
  cases h with
  | awaits => exact ⟨hb, hv⟩
  | verifies =>
    refine ⟨fun _ => ⟨true, w.log.length, ?_, quiet_length⟩, hv⟩
    rw [record_checkpoints, latestVerification_verification]
  | operates r _ hreach hcall =>
    have hcalled := called_of_eq hcall
    refine ⟨hcalled.backed hreach.operator hb, hcalled.verified (fun v hw => ?_) hb hv⟩
    refine hc hreach v ?_
    rw [hcall]
    exact hw

theorem Halts.verified (h : Halts inv step actions s w s' w')
    (hc : CommitsSettled inv step actions s w) (hb : Backed s.completed w.checkpoints w.log)
    (hv : Verified w.log) :
    Backed s'.completed w'.checkpoints w'.log ∧ Verified w'.log := by
  cases h with
  | idle _ hs =>
    rw [hs]
    exact ⟨hb, hv⟩
  | refuses =>
    refine ⟨fun _ => ⟨false, w.log.length, ?_, quiet_length⟩, hv⟩
    rw [record_checkpoints, latestVerification_verification]
  | operates r _ _ hreach hcall hs =>
    have hcalled := called_of_eq hcall
    rw [hs]
    refine ⟨hcalled.backed hreach.operator hb, hcalled.verified (fun v hw => ?_) hb hv⟩
    refine hc hreach v ?_
    rw [hcall]
    exact hw

/-! ## one invocation -/

/-- COMPLETE is answered from settled records -/
def CompletesSettled (inv : Invocation) (s : DriverState) (w : DriverWorld) : Prop :=
  inv.verificationPlan → ∀ res w', finish inv s w = (.ok res, w') →
    res.classification = .complete → Settled s.completed

/-- what an invocation leaves behind -/
structure Leaves (res : Except Err DriverResult) (w w' : DriverWorld) : Prop where
  verified : Verified w'.log
  grows : w.log <+: w'.log
  sound : ∀ a, res = .ok a → Sound w'.checkpoints w'.log

theorem Called.log_grows {res : Except Err ActionResult} (h : Called step index w res w') :
    w.log <+: w'.log := by
  cases h with
  | plain => exact List.prefix_rfl
  | commit => exact List.prefix_append _ _
  | write => exact List.prefix_append _ _

theorem Goes.log_grows (h : Goes inv step actions s w s' w') : w.log <+: w'.log := by
  cases h with
  | awaits => exact List.prefix_rfl
  | verifies => exact List.prefix_rfl
  | operates _ _ _ hcall => exact (called_of_eq hcall).log_grows

theorem Halts.log_grows (h : Halts inv step actions s w s' w') : w.log <+: w'.log := by
  cases h with
  | idle => exact List.prefix_rfl
  | refuses => exact List.prefix_rfl
  | operates _ _ _ _ hcall => exact (called_of_eq hcall).log_grows

theorem leaves_close {p : Phase} {c : Classification} {d : List (String × Json)}
    (hb : Backed s.completed w.checkpoints w.log) (hv : Verified w.log) :
    Leaves (close p c s d w).1 w (close p c s d w).2 where
  verified := hv
  grows := List.prefix_rfl
  sound := fun _ _ => sound_record hb

theorem Leaves.trans {res : Except Err DriverResult} {w0 : DriverWorld}
    (h : Leaves res w w') (hlog : w0.log <+: w.log) : Leaves res w0 w' :=
  ⟨h.verified, hlog.trans h.grows, h.sound⟩

theorem leaves_finish (hc : CompletesSettled inv s w)
    (hb : Backed s.completed w.checkpoints w.log) (hv : Verified w.log) :
    Leaves (finish inv s w).1 w (finish inv s w).2 := by
  rcases hfin : finish inv s w with ⟨res, w'⟩
  have hres := hfin
  unfold finish at hres
  split at hres
  · rw [← hres]
    exact leaves_close hb hv
  dsimp only at hres
  split at hres
  · rw [← hres]
    exact leaves_close hb hv
  split at hres
  · next e _ =>
    obtain ⟨rfl, rfl⟩ := Prod.mk.inj hres
    exact ⟨hv, List.prefix_rfl, fun _ h => absurd h (by simp)⟩
  split at hres
  · rw [← hres]
    exact leaves_close hb hv
  · rw [← hres]
    refine (leaves_close ?_ ?_).trans (List.prefix_append _ _)
    · intro hset
      obtain ⟨b, v, hlatest, hquiet⟩ := hb hset
      exact ⟨b, v, hlatest, hquiet.snoc (by simp)⟩
    · refine hv.snoc fun v hadm => ?_
      cases hplan : inv.verificationPlan with
      | false => exact absurd hadm (by simp [Effect.admittedBy, hplan])
      | true =>
        obtain ⟨hanswer, -⟩ := Prod.mk.inj hres
        rw [← hanswer] at hfin
        have hset := hc hplan _ w' hfin rfl
        obtain ⟨b, v', hlatest, hquiet⟩ := hb hset
        have hv' : v' = v := by simpa [Effect.admittedBy, hplan, hlatest] using hadm
        rw [← hv']
        exact hquiet

theorem leaves_loop
    (hc : EveryTurn inv maxFailures (CommitsSettled inv) (CompletesSettled inv) steps actions s w)
    (hb : Backed s.completed w.checkpoints w.log) (hv : Verified w.log) :
    Leaves (loop inv maxFailures steps actions s w).1 w (loop inv maxFailures steps actions s w).2 := by
  induction steps generalizing actions s w with
  | nil => exact leaves_finish hc hb hv
  | cons step rest ih =>
    obtain ⟨hcommit, hrest⟩ := hc
    rw [loop]
    split
    · next hturn =>
      rw [hturn] at hrest
      have hgo := turn_next hturn
      obtain ⟨hb', hv'⟩ := hgo.verified hcommit hb hv
      exact (ih hrest hb' hv').trans hgo.log_grows
    · next hturn =>
      have hhalt := (turn_done hturn).2
      obtain ⟨hb', hv'⟩ := hhalt.verified hcommit hb hv
      exact (leaves_close hb' hv').trans hhalt.log_grows
    · next e w1 hturn =>
      obtain ⟨hreach, call, hcall⟩ := turn_raised hturn
      have hcalled := called_of_eq hcall
      refine ⟨hcalled.verified (fun v hw => hcommit hreach v ?_) hb hv, hcalled.log_grows,
        fun _ h => absurd h (by simp)⟩
      rw [hcall]
      exact hw

theorem leaves_runDriver
    (hc : Along inv planHash plan (CommitsSettled inv) (CompletesSettled inv) w)
    (hs : Sound w.checkpoints w.log) (hv : Verified w.log) :
    Leaves (runDriver inv planHash plan w).1 w (runDriver inv planHash plan w).2 := by
  have hfresh : Backed [] w.checkpoints w.log := fun hset => absurd hset (by simp [Settled])
  have hraise : ∀ e, Leaves (.error e) w w := fun e =>
    ⟨hv, List.prefix_rfl, fun _ h => absurd h (by simp)⟩
  unfold runDriver
  split
  · exact hraise _
  next hent =>
  split
  · exact leaves_close hfresh hv
  next hcancel =>
  dsimp only
  split
  · exact hraise _
  next hhash =>
  refine leaves_loop (hc hent (by simpa using hcancel) (not_not.1 hhash)) ?_ hv
  cases hlatest : latestDriver w.checkpoints with
  | none => exact hfresh
  | some s => exact hs s hlatest

/-! ## every run -/

/-- an operation that commits and completes from settled records only, and rolls no write back -/
def Ordered (planHash : DevelopmentPlan → String) (plan : DevelopmentPlan) (j : DriverJob)
    (op : JobOp) : Prop :=
  if j.failed then Quiet j.world.log j.savedAt
  else
    match op with
    | .invoke inv => Along inv planHash plan (CommitsSettled inv) (CompletesSettled inv) j.world
    | .commit => True
    | .rollback => Quiet j.world.log j.savedAt

/-- the invariant of ordered runs -/
structure VerifiedJob (j : DriverJob) : Prop where
  verified : Verified j.world.log
  /-- what the session sees, and what a rollback brings back -/
  sound : j.failed = false → Sound j.world.checkpoints j.world.log
  saved : Sound j.saved (j.world.log.take j.savedAt)
  savedAt : j.savedAt ≤ j.world.log.length

theorem VerifiedJob.undo (h : VerifiedJob j) (hq : Quiet j.world.log j.savedAt) :
    VerifiedJob j.undo where
  verified := h.verified
  sound := by
    intro _ s hs hset
    obtain ⟨b, v, hlatest, hquiet⟩ := h.saved s hs hset
    exact ⟨b, v, hlatest, hquiet.join hq⟩
  saved := h.saved
  savedAt := h.savedAt

theorem VerifiedJob.extend (h : VerifiedJob j) (hv : Verified w.log)
    (hlog : j.world.log <+: w.log) (failed : Bool)
    (hs : failed = false → Sound w.checkpoints w.log) :
    VerifiedJob { j with world := w, failed := failed } where
  verified := hv
  sound := hs
  saved := by
    obtain ⟨more, hmore⟩ := hlog
    show Sound j.saved (w.log.take j.savedAt)
    rw [← hmore, List.take_append_of_le_length h.savedAt]
    exact h.saved
  savedAt := h.savedAt.trans hlog.length_le

theorem verifiedJob_step (op : JobOp) (h : VerifiedJob j) (hc : Ordered planHash plan j op) :
    VerifiedJob (jobStep planHash plan j op) := by
  cases hj : j.failed with
  | true =>
    rw [jobStep_failed op hj]
    refine h.undo ?_
    unfold Ordered at hc
    rwa [if_pos hj] at hc
  | false =>
    unfold Ordered at hc
    rw [if_neg (by simp [hj])] at hc
    cases op with
    | invoke inv =>
      have hleaves := leaves_runDriver hc (h.sound hj) h.verified
      rcases hrun : runDriver inv planHash plan j.world with ⟨res, w'⟩
      rw [hrun] at hleaves
      cases res with
      | ok res =>
        have hext := h.extend hleaves.verified hleaves.grows j.failed
          fun _ => hleaves.sound res rfl
        rw [jobStep_ok hj hrun]
        exact hext
      | error e =>
        rw [jobStep_error hj hrun]
        exact h.extend hleaves.verified hleaves.grows true fun hf => absurd hf (by simp)
    | commit =>
      unfold jobStep
      rw [if_neg (by simp [hj])]
      refine ⟨h.verified, h.sound, ?_, le_rfl⟩
      show Sound j.world.checkpoints (j.world.log.take j.world.log.length)
      rw [List.take_length]
      exact h.sound hj
    | rollback =>
      unfold jobStep
      rw [if_neg (by simp [hj])]
      exact h.undo hc

/-- In every run of ordered operations, no write step was executed between a verification and the
commit or the COMPLETE that its checkpoint admitted. -/
theorem run_verified (planHash : DevelopmentPlan → String) (plan : DevelopmentPlan)
    (ops : List JobOp) (h : Run.Meets (jobStep planHash plan) (Ordered planHash plan) {} ops) :
    Verified (Run.run (jobStep planHash plan) {} ops).world.log := by
  have hnone : ∀ log, Sound [] log := fun _ s hs => absurd hs (by simp [latestDriver])
  have hinit : VerifiedJob {} := ⟨verified_nil, fun _ => hnone _, hnone _, Nat.zero_le _⟩
  have hstep : ∀ j op, VerifiedJob j → Ordered planHash plan j op →
      VerifiedJob (jobStep planHash plan j op) := fun _ op hj hc => verifiedJob_step op hj hc
  exact (Run.inv hstep hinit h).verified

/-! ## orders of steps -/

def testStep : DriverStep where
  capability := "run_focused_test"
  purpose := "run the test"
  expectedResult := "passed"
  arguments := [("profile_name", .str "focused_pytest"), ("arguments", .arr [.str "test_a.py"])]
  requiredRisk := "LOCAL_EXECUTION"
  verificationRequired := true

def evaluateStep : DriverStep where
  capability := "verification_evaluate"
  purpose := "evaluate"
  expectedResult := "passed"

def createStep : DriverStep where
  capability := "create_file"
  purpose := "create the module"
  expectedResult := "source hash"
  arguments := [("path", .str "a.py"), ("content", .str "x = 1\n"), ("expected_sha256", .null)]
  requiredRisk := "LOCAL_WRITE"

def stageStep : DriverStep where
  capability := "stage_scoped_changes"
  purpose := "stage the module"
  expectedResult := "staged"
  arguments := [("paths", .arr [.str "a.py"])]
  requiredRisk := "LOCAL_WRITE"

def commitStep : DriverStep where
  capability := "commit_scoped_changes"
  purpose := "commit"
  expectedResult := "a commit"
  arguments := [("message", .str "add a module")]
  requiredRisk := "LOCAL_WRITE"

def orderedPlan (steps : List DriverStep) : DevelopmentPlan where
  planId := "ordered"
  strategyExecutionId := "strategy"
  steps := steps

/-- every call has its effect -/
def allSucceed : Invocation where
  strategyExecutionId := "strategy"
  input := fun _ => { answer := fun _ => .effect (some "event") }

theorem verified_commit_run :
    Verified (Run.run (jobStep DevelopmentPlan.planId
      (orderedPlan [createStep, stageStep, testStep, evaluateStep, commitStep])) {}
        [.invoke allSucceed, .commit]).world.log := by
  refine run_verified _ _ _ ⟨?_, trivial, trivial⟩
  intro _ _ _
  refine And.intro (commitsSettled_of_ne (by decide)) (And.intro
    (commitsSettled_of_ne (by decide)) (And.intro (commitsSettled_of_ne (by decide)) (And.intro
      (commitsSettled_of_ne (by decide)) (And.intro ?_ ?_))))
  · exact fun _ _ _ => rfl
  · exact fun _ _ _ _ _ => rfl

/-- a write between the evaluation and the commit -/
theorem late_write_committed :
    ¬ Verified (Run.run (jobStep DevelopmentPlan.planId
      (orderedPlan [testStep, evaluateStep, createStep, stageStep, commitStep])) {}
        [.invoke allSucceed]).world.log := by
  intro h
  have hlog : (Run.run (jobStep DevelopmentPlan.planId
      (orderedPlan [testStep, evaluateStep, createStep, stageStep, commitStep])) {}
        [.invoke allSucceed]).world.log =
      [.wrote 2, .committed 0, .completed (some 0)] := by decide
  rw [hlog] at h
  exact absurd (h 1 (.committed 0) 0 rfl rfl) (by decide)

end LifeAI.Driver
