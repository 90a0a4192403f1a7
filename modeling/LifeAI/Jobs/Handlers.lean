import LifeAI.Jobs.Kept

/-!
# Handlers of jobs, side by side

`process_claimed_mainai_job` and the function that it hands a claimed job to, as a program of steps;
any number of them run at once, next to the other operations on the table of jobs.

* `Handler`        a job type's program: where it stands, one transaction at a time;
* `HandlerSys`     the tables, what the handlers work on, and the runs;
* `HandlerOp`      an operation on the table, something outside, a step of a run, a death;
* `HandlerSys.Ok`  claims of live runs differ, and a run that still holds its claim is `Rel`ated
                   to its row; `Ok.exec` keeps it, given that the handler's own steps do.
-/

namespace LifeAI

variable {τ σ ε ω : Type}

/-- an operation on the table of jobs that no handler makes -/
def LeaseOp.outside : LeaseOp → Bool
  | .guarded .. => false
  | _ => true

/-- one execution of a handler -/
structure JobRun (σ : Type) where
  claim : Claim
  pc : σ
  deriving DecidableEq

/-- A job type's program.  `σ` is where it stands, `τ` what it works on, `ε` what the surroundings
answer to a step, and `ω` what others do meanwhile. -/
structure Handler (τ σ ε ω : Type) where
  jobType : JobType
  start : OwnerId → σ
  /-- one transaction: the jobs, the work, and where the run stands after it, if it goes on -/
  step : ε → JobDb → τ → Claim → σ → List Job × τ × Option σ
  outside : τ → ω → τ

structure HandlerSys (τ σ : Type) where
  db : JobDb := {}
  work : τ
  runs : List (Option (JobRun σ)) := []

inductive HandlerOp (ε ω : Type) where
  | queue (o : LeaseOp)
  | outside (o : ω)
  | step (i : Nat) (env : ε)
  | crash (i : Nat)

namespace HandlerSys

def run (s : HandlerSys τ σ) (i : Nat) : Option (JobRun σ) := s.runs[i]?.join

/-- the run that a claim starts -/
def started (h : Handler τ σ ε ω) (jobs : List Job) (c : Claim) : Option (JobRun σ) :=
  match jobs[c.job]? with
  | some r => if r.jobType = h.jobType then some ⟨c, h.start r.ownerId⟩ else none
  | none => none

end HandlerSys

def HandlerOp.exec (h : Handler τ σ ε ω) (s : HandlerSys τ σ) : HandlerOp ε ω → HandlerSys τ σ
  | .queue o =>
    if o.outside then
      { s with
        db := LeaseOp.step s.db o
        runs := s.runs ++ ((LeaseOp.handed (s.db, o)).bind (HandlerSys.started h s.db.jobs)).toList.map some }
    else s
  | .outside o => { s with work := h.outside s.work o }
  | .step i env =>
    match s.run i with
    | none => s
    | some x =>
      let r := h.step env s.db s.work x.claim x.pc
      { db := { s.db with jobs := r.1 }
        work := r.2.1
        runs := s.runs.set i (r.2.2.map (⟨x.claim, ·⟩)) }
  | .crash i => { s with runs := s.runs.set i none }

/-! ## rows under the other operations -/

/-- the columns that the handlers go by -/
structure Job.SameWork (r r' : Job) : Prop where
  current : r'.progressCurrent = r.progressCurrent
  total : r'.progressTotal = r.progressTotal
  refs : r'.inputRefs = r.inputRefs
  type : r'.jobType = r.jobType
  owner : r'.ownerId = r.ownerId

theorem Job.SameWork.refl (r : Job) : r.SameWork r := ⟨rfl, rfl, rfl, rfl, rfl⟩

/-- a row that is running in `jobs'` was running in `jobs`, under the same claim and at the same
point -/
def Steady (jobs jobs' : List Job) : Prop :=
  ∀ (j : JobId) (r' : Job), jobs'[j]? = some r' → r'.status = .running → ∃ r, jobs[j]? = some r ∧
    r.status = .running ∧ r'.lockedBy = r.lockedBy ∧ r'.leaseGeneration = r.leaseGeneration ∧
    r.SameWork r'

theorem Steady.refl (jobs : List Job) : Steady jobs jobs :=
  fun _ r h hrun => ⟨r, h, hrun, rfl, rfl, .refl r⟩

theorem Steady.set {jobs : List Job} {j : JobId} {r r' : Job} (hr : jobs[j]? = some r)
    (h : r'.status = .running → r.status = .running ∧ r'.lockedBy = r.lockedBy ∧
      r'.leaseGeneration = r.leaseGeneration ∧ r.SameWork r') : Steady jobs (jobs.set j r') := by
  intro i q hq hrun
  rw [getElem?_set_row hr] at hq
  split at hq
  · next hi =>
    subst hi
    obtain rfl : r' = q := Option.some.inj hq
    exact ⟨r, hr, h hrun⟩
  · exact ⟨q, hq, hrun, rfl, rfl, .refl q⟩

theorem checks_of_set {jobs jobs' : List Job} {j : JobId} {r r' : Job}
    (h : ∀ q ∈ jobs, q.checks) (hs : setRow jobs j r r' = .ok jobs') : ∀ q ∈ jobs', q.checks := by
  obtain ⟨hr, rfl⟩ := setRow_ok hs
  intro q hq
  rcases List.mem_or_eq_of_mem_set hq with hq | rfl
  · exact h q hq
  · exact hr

theorem retryJob_steady {jobs jobs' : List Job} {j : JobId} {loaded : Job}
    (h : retryJob jobs j loaded = .ok jobs') :
    Steady jobs jobs' ∧ ((∀ q ∈ jobs, q.checks) → ∀ q ∈ jobs', q.checks) := by
  unfold retryJob at h
  split at h
  · cases h
  · next r hr =>
    rw [guard_eq_ok, guard_eq_ok] at h
    obtain ⟨hretry, -, h⟩ := h
    refine ⟨?_, fun hc => checks_of_set hc h⟩
    obtain ⟨-, rfl⟩ := setRow_ok h
    refine .set hr fun hrun => ?_
    -- the row that was loaded is failed, so the flush writes `queued`
    have hloaded : loaded.status = .failed := by
      simpa [JobStatus.retryable] using hretry
    simp [dirty, hloaded] at hrun

theorem requestCancel_steady {jobs jobs' : List Job} {j : JobId} {loaded : Job}
    (h : requestCancel jobs j loaded = .ok jobs') :
    Steady jobs jobs' ∧ ((∀ q ∈ jobs, q.checks) → ∀ q ∈ jobs', q.checks) := by
  unfold requestCancel at h
  split at h
  · cases h
  · next r hr =>
    rw [guard_eq_ok] at h
    obtain ⟨-, h⟩ := h
    split at h
    · cases h
      exact ⟨.refl _, id⟩
    · refine ⟨?_, fun hc => checks_of_set hc h⟩
      obtain ⟨-, rfl⟩ := setRow_ok h
      exact .set hr fun hrun => ⟨hrun, rfl, rfl, ⟨rfl, rfl, rfl, rfl, rfl⟩⟩

/-- the end of a dead job -/
theorem setRow_steady {jobs jobs' : List Job} {j : JobId} {r r' : Job} (hr : jobs[j]? = some r)
    (h : setRow jobs j r r' = .ok jobs') (hst : r'.status ≠ .running) :
    Steady jobs jobs' ∧ ((∀ q ∈ jobs, q.checks) → ∀ q ∈ jobs', q.checks) := by
  refine ⟨?_, fun hc => checks_of_set hc h⟩
  obtain ⟨-, rfl⟩ := setRow_ok h
  exact .set hr fun hrun => absurd hrun hst

/-- a claim, or rows that stay as they are -/
theorem LeaseOp.exec_steady {s : JobDb} {o : LeaseOp} {c : Option Claim} {jobs' : List Job}
    (ho : o.outside) (h : LeaseOp.exec s o = .ok (c, jobs')) :
    (c = none → Steady s.jobs jobs') ∧ ((∀ q ∈ s.jobs, q.checks) → ∀ q ∈ jobs', q.checks) := by
  have plain : ∀ x : Except Err (List Job), x.map (none, ·) = .ok (c, jobs') → x = .ok jobs' := by
    intro x hx
    cases x with
    | error e => exact absurd hx (by simp [Except.map])
    | ok a =>
      simp only [Except.map, Except.ok.injEq, Prod.mk.injEq] at hx
      rw [hx.2]
  have hclaim : ∀ {j r w secs}, s.jobs[j]? = some r → claimRow s.now s.jobs j r w secs = .ok (c, jobs') →
      (c = none → Steady s.jobs jobs') ∧ ((∀ q ∈ s.jobs, q.checks) → ∀ q ∈ jobs', q.checks) := by
    intro j r w secs hr h
    obtain ⟨jobs1, h1, h2⟩ := bind_eq_ok.1 h
    cases h2
    exact ⟨fun hc => (nomatch hc), fun hc => checks_of_set hc h1⟩
  have hrefl : Except.ok (none, s.jobs) = (.ok (c, jobs') : Except Err _) →
      (c = none → Steady s.jobs jobs') ∧ ((∀ q ∈ s.jobs, q.checks) → ∀ q ∈ jobs', q.checks) := by
    intro h
    cases h
    exact ⟨fun _ => .refl _, id⟩
  have hdead : ∀ {j r r'}, s.jobs[j]? = some r → setRow s.jobs j r r' = .ok jobs' →
      r'.status ≠ .running → (c = none → Steady s.jobs jobs') ∧
        ((∀ q ∈ s.jobs, q.checks) → ∀ q ∈ jobs', q.checks) := fun hr h hst =>
    (setRow_steady hr h hst).imp_left fun h _ => h
  cases o with
  | tick n => exact hrefl h
  | createJob owner ty refs =>
    cases h
    refine ⟨fun _ j r' hr' hrun => ?_, fun hc q hq => ?_⟩
    · rcases getElem?_insert hr' with hr' | ⟨-, rfl⟩
      · exact ⟨r', hr', hrun, rfl, rfl, .refl r'⟩
      · cases hrun
    · rcases List.mem_append.1 hq with hq | hq
      · exact hc q hq
      · rw [List.mem_singleton.1 hq]
        simp [Job.checks, JobStatus.terminal]
  | claimNext w secs locked =>
    simp only [LeaseOp.exec, claimNextMainaiJob] at h
    split at h
    · exact hrefl h
    · split at h
      · exact hrefl h
      · next r hr => exact hclaim hr h
  | claimSpecific j w secs =>
    simp only [LeaseOp.exec, claimSpecificMainaiJob] at h
    split at h
    · exact hrefl h
    · next r hr =>
      split at h
      · exact hclaim hr h
      · exact hrefl h
  | guarded gw j w g => cases ho
  | retryJob j loaded => exact (retryJob_steady (plain _ h)).imp_left fun h _ => h
  | requestCancel j loaded => exact (requestCancel_steady (plain _ h)).imp_left fun h _ => h
  | markJobSuperseded rec j b =>
    have h := plain _ h
    unfold LifeAI.markJobSuperseded at h
    split at h
    · cases h
    · next r hr =>
      split at h
      · exact hdead hr h (by simp)
      · cases h
  | markJobFailedAfterDecline rec j =>
    have h := plain _ h
    unfold markJobFailedAfterGovernedRecoveryDecline at h
    split at h
    · cases h
    · next r hr =>
      split at h
      · exact hdead hr h (by simp)
      · cases h

/-- **What the other operations do to a running row**: nothing, or a claim. -/
theorem LeaseOp.step_steady {s : JobDb} {o : LeaseOp} (ho : o.outside) :
    (handed (s, o) = none → Steady s.jobs (step s o).jobs) ∧
      ((∀ q ∈ s.jobs, q.checks) → ∀ q ∈ (step s o).jobs, q.checks) := by
  cases he : LeaseOp.exec s o with
  | error e =>
    have hjobs : (step s o).jobs = s.jobs := by simp [step, he, Except.map]
    rw [hjobs]
    exact ⟨fun _ => .refl _, id⟩
  | ok p =>
    obtain ⟨c, jobs'⟩ := p
    have hhanded : handed (s, o) = c := by simp [handed, he]
    have hjobs : (step s o).jobs = jobs' := by simp [step, he, Except.map]
    rw [hhanded, hjobs]
    exact exec_steady ho he

/-! ## live runs -/

/-- the claim `c` is held, on the row `r` -/
def Claim.Held (c : Claim) (jobs : List Job) (r : Job) : Prop :=
  jobs[c.job]? = some r ∧ r.heldBy c.worker c.generation

theorem Claim.Held.running {c : Claim} {jobs : List Job} {r : Job} (h : c.Held jobs r) :
    r.status = .running :=
  (Job.heldBy_iff.1 h.2).2.2

/-- the write of the holder -/
theorem Claim.Held.write {c : Claim} {jobs : List Job} {r : Job} {set : Job → Job}
    (h : c.Held jobs r) (hchecks : (set r).checks) (hkept : progressKept r (set r)) :
    guardedJobWrite jobs c.job c.worker c.generation set = .ok (jobs.set c.job (set r)) := by
  unfold guardedJobWrite
  rw [h.1]
  simp [h.2, setRow, hchecks, hkept]

/-- the write of the holder that the trigger refuses -/
theorem Claim.Held.write_refused {c : Claim} {jobs : List Job} {r : Job} (set : Job → Job)
    (h : c.Held jobs r) (hchecks : (set r).checks) (hkept : ¬ progressKept r (set r)) :
    guardedJobWrite jobs c.job c.worker c.generation set =
      .error (.integrityError "mainai_jobs_deny_progress_regression") := by
  unfold guardedJobWrite
  rw [h.1]
  simp [h.2, setRow, hchecks, hkept]

theorem Claim.write_lost {c : Claim} {jobs : List Job} {set : Job → Job}
    (h : ∀ r, ¬ c.Held jobs r) :
    guardedJobWrite jobs c.job c.worker c.generation set =
      .error (.jobLeaseLost c.job c.worker c.generation) := by
  unfold guardedJobWrite
  split
  · rfl
  · next r hr => exact if_neg fun hby => h r ⟨hr, hby⟩

/-- A write in a handler: `JobLeaseLostError` ends the run, another exception goes to the end of
`process_claimed_mainai_job`. -/
def fenced (jobs : List Job) (work : τ) (write : Except Err (List Job)) (work' : τ)
    (next : Option σ) (escaped : Err → σ) : List Job × τ × Option σ :=
  match write with
  | .ok jobs' => (jobs', work', next)
  | .error (.jobLeaseLost ..) => (jobs, work, none)
  | .error e => (jobs, work, some (escaped e))

/-- a write in a handler that the table accepts from the holder -/
theorem fenced_cases {c : Claim} {jobs : List Job} {set : Job → Job} (work work' : τ)
    (next : Option σ) (escaped : Err → σ) (hchecks : ∀ r, c.Held jobs r → (set r).checks)
    (hkept : ∀ r, c.Held jobs r → progressKept r (set r)) :
    let done := fenced jobs work (guardedJobWrite jobs c.job c.worker c.generation set) work' next
      escaped
    (∀ r, ¬ c.Held jobs r) ∧ done = (jobs, work, none) ∨
      ∃ r, c.Held jobs r ∧ done = (jobs.set c.job (set r), work', next) := by
  by_cases hheld : ∃ r, c.Held jobs r
  · obtain ⟨r, hr⟩ := hheld
    refine .inr ⟨r, hr, ?_⟩
    rw [hr.write (hchecks r hr) (hkept r hr)]
    rfl
  · have hlost : ∀ r, ¬ c.Held jobs r := not_exists.1 hheld
    refine .inl ⟨hlost, ?_⟩
    rw [Claim.write_lost hlost]
    rfl

/-- the row of a job that ends -/
theorem Job.ended_checks {r r' : Job} (h : r.checks) (hrun : r.status = .running)
    (hst : r'.status = .completed ∨ r'.status = .failed ∨ r'.status = .cancelled)
    (hc : r'.completedAt.isSome) (hs : r'.startedAt = r.startedAt)
    (hp : r'.progressCurrent = r.progressCurrent) (ht : r'.progressTotal = r.progressTotal)
    (hretry : r'.retryCount = r.retryCount) (hmax : r'.maxRetries = r.maxRetries)
    (hby : r'.supersededByJobId = r.supersededByJobId) : r'.checks := by
  simp only [Job.checks, hrun, decide_eq_true_eq] at h ⊢
  obtain ⟨-, hstart, hprog, hret, hsup⟩ := h
  rw [hs, hp, ht, hretry, hmax, hby]
  have hno : r.supersededByJobId.isSome = false := by simpa using hsup.symm
  have hyes : r.startedAt.isSome := by simpa using hstart
  rcases hst with hst | hst | hst <;>
    exact ⟨by simp [hst, hc, JobStatus.terminal], .inr hyes, hprog, hret, by simp [hst, hno]⟩

/-- the trigger asks no more of a running job than that the progress does not decrease -/
theorem progressKept_running {r r' : Job} (hrun : r.status = .running) :
    progressKept r r' ↔ r.progressCurrent ≤ r'.progressCurrent := by
  simp [progressKept, hrun]

/-- a write of the holder that leaves the progress alone -/
structure Quiet (r r' : Job) : Prop where
  checks : r'.checks
  generation : r'.leaseGeneration = r.leaseGeneration
  refs : r'.inputRefs = r.inputRefs
  current : r'.progressCurrent = r.progressCurrent

/-- a guarded write that ends the job with `status` -/
def EndsWith (status : JobStatus)
    (write : List Job → JobId → String → Nat → Except Err (List Job)) : Prop :=
  ∃ set : Job → Job, (∀ jobs j w g, write jobs j w g = guardedJobWrite jobs j w g set) ∧
    ∀ r, r.checks → r.status = .running → Quiet r (set r) ∧ (set r).status = status

theorem markCompleted_ends (now : Time) (message : Option String) :
    EndsWith .completed (markCompleted now · · · · message) :=
  ⟨_, fun _ _ _ _ => rfl, fun _ h hrun => ⟨⟨Job.ended_checks h hrun (.inl rfl) rfl rfl rfl rfl rfl rfl
    rfl, rfl, rfl, rfl⟩, rfl⟩⟩

theorem markFailed_ends (now : Time) (category : JobErrorCategory) :
    EndsWith .failed (markFailed now · · · · category) :=
  ⟨_, fun _ _ _ _ => rfl, fun _ h hrun => ⟨⟨Job.ended_checks h hrun (.inr (.inl rfl)) rfl rfl rfl rfl
    rfl rfl rfl, rfl, rfl, rfl⟩, rfl⟩⟩

theorem markCancelled_ends (now : Time) : EndsWith .cancelled (markCancelled now) :=
  ⟨_, fun _ _ _ _ => rfl, fun _ h hrun => ⟨⟨Job.ended_checks h hrun (.inr (.inr rfl)) rfl rfl rfl rfl
    rfl rfl rfl, rfl, rfl, rfl⟩, rfl⟩⟩

/-- the last write of a run: the lease is lost, or the job ends -/
theorem EndsWith.fenced_cases {status : JobStatus}
    {write : List Job → JobId → String → Nat → Except Err (List Job)} (h : EndsWith status write)
    {c : Claim} {jobs : List Job} (hchecks : ∀ r ∈ jobs, r.checks) (work : τ)
    (escaped : Err → σ) :
    let done := fenced jobs work (write jobs c.job c.worker c.generation) work none escaped
    (∀ r, ¬ c.Held jobs r) ∧ done = (jobs, work, none) ∨
      ∃ r r', c.Held jobs r ∧ Quiet r r' ∧ r'.status = status ∧
        done = (jobs.set c.job r', work, none) := by
  obtain ⟨set, hwrite, hset⟩ := h
  have hends : ∀ r, c.Held jobs r → Quiet r (set r) ∧ (set r).status = status := fun r hr =>
    hset r (hchecks r (List.mem_of_getElem? hr.1)) hr.running
  rw [hwrite]
  rcases LifeAI.fenced_cases work work none escaped (fun r hr => (hends r hr).1.checks)
    (fun r hr => (progressKept_running hr.running).2 (Nat.le_of_eq (hends r hr).1.current.symm))
    with h | ⟨r, hr, h⟩
  · exact .inl h
  · exact .inr ⟨r, set r, hr, (hends r hr).1, (hends r hr).2, h⟩

/-- the last resort: an exception of the write, too, ends the run -/
theorem EndsWith.transact_cases {status : JobStatus}
    {write : List Job → JobId → String → Nat → Except Err (List Job)} (h : EndsWith status write)
    {c : Claim} {jobs : List Job} (hchecks : ∀ r ∈ jobs, r.checks) :
    let done := transact jobs (write jobs c.job c.worker c.generation)
    (∀ r, ¬ c.Held jobs r) ∧ done = jobs ∨
      ∃ r r', c.Held jobs r ∧ Quiet r r' ∧ r'.status = status ∧ done = jobs.set c.job r' := by
  obtain ⟨set, hwrite, hset⟩ := h
  dsimp only
  rw [hwrite]
  by_cases hheld : ∃ r, c.Held jobs r
  · obtain ⟨r, hr⟩ := hheld
    obtain ⟨hq, hst⟩ := hset r (hchecks r (List.mem_of_getElem? hr.1)) hr.running
    refine .inr ⟨r, set r, hr, hq, hst, ?_⟩
    rw [hr.write hq.checks ((progressKept_running hr.running).2 (Nat.le_of_eq hq.current.symm))]
    rfl
  · refine .inl ⟨not_exists.1 hheld, ?_⟩
    rw [Claim.write_lost (not_exists.1 hheld)]
    rfl

/-- the row of the holder, after a write of its own -/
theorem Claim.Held.set {c : Claim} {jobs : List Job} {r r' q : Job} (hr : c.Held jobs r)
    (hq : c.Held (jobs.set c.job r') q) : q = r' := by
  obtain ⟨hq, -⟩ := hq
  rw [getElem?_set_row hr.1, if_pos rfl] at hq
  exact (Option.some.inj hq).symm

/-- the operations on jobs that are there keep what these are about -/
theorem LeaseOp.exec_keeps {s : JobDb} {o : LeaseOp} {c : Option Claim} {jobs' : List Job}
    (h : exec s o = .ok (c, jobs')) (ho : ∀ owner ty refs, o ≠ .createJob owner ty refs) :
    ∃ revived, JobsKept revived s.jobs jobs' := by
  have plain : ∀ x : Except Err (List Job), x.map (none, ·) = .ok (c, jobs') → x = .ok jobs' := by
    intro x hx
    cases x with
    | error e => exact absurd hx (by simp [Except.map])
    | ok a =>
      simp only [Except.map, Except.ok.injEq, Prod.mk.injEq] at hx
      rw [hx.2]
  cases o with
  | tick n =>
    cases h
    exact ⟨fun _ => False, .refl _⟩
  | createJob owner ty refs => exact absurd rfl (ho owner ty refs)
  | claimNext w secs locked => exact ⟨fun _ => False, claimNext_keeps h⟩
  | claimSpecific k w secs => exact ⟨fun _ => False, claimSpecific_keeps h⟩
  | guarded gw k w g => exact ⟨fun _ => False, GuardedWrite.exec_keeps (plain _ h)⟩
  | retryJob k loaded => exact ⟨_, retryJob_keeps (plain _ h)⟩
  | requestCancel k loaded => exact ⟨fun _ => False, requestCancel_keeps (plain _ h)⟩
  | markJobSuperseded rec k b => exact ⟨fun _ => False, markJobSuperseded_keeps (plain _ h)⟩
  | markJobFailedAfterDecline rec k =>
    exact ⟨fun _ => False, markJobFailedAfterDecline_keeps (plain _ h)⟩

/-- what a job is about stays -/
theorem LeaseOp.step_refs {s : JobDb} (o : LeaseOp) {j : JobId} {r : Job}
    (hr : s.jobs[j]? = some r) :
    ∃ r', (step s o).jobs[j]? = some r' ∧ r'.inputRefs = r.inputRefs := by
  have hex : ∃ r', (step s o).jobs[j]? = some r' := by
    rcases step_cases s o with ⟨d, -, q, now, secs, hq, -, hjobs⟩ | ⟨-, hkept⟩
    · rw [hjobs, getElem?_set_row hq]
      split
      · exact ⟨_, rfl⟩
      · exact ⟨r, hr⟩
    · obtain ⟨r', hr', -⟩ := hkept j r hr
      exact ⟨r', hr'⟩
  obtain ⟨r', hr'⟩ := hex
  refine ⟨r', hr', ?_⟩
  by_cases ho : ∃ owner ty refs, o = .createJob owner ty refs
  · obtain ⟨owner, ty, refs, rfl⟩ := ho
    have hj : j < s.jobs.length := (List.getElem?_eq_some_iff.1 hr).1
    have hr' : (s.jobs ++ [{ ownerId := owner, jobType := ty, inputRefs := refs }])[j]? = some r' := hr'
    rw [List.getElem?_append_left hj, hr] at hr'
    rw [Option.some.inj hr']
  · cases he : exec s o with
    | error e =>
      have hjobs : (step s o).jobs = s.jobs := by simp [step, he, Except.map]
      rw [hjobs, hr] at hr'
      rw [Option.some.inj hr']
    | ok p =>
      obtain ⟨c, jobs'⟩ := p
      have hjobs : (step s o).jobs = jobs' := by simp [step, he, Except.map]
      obtain ⟨revived, hkept⟩ := exec_keeps he fun owner ty refs h => ho ⟨owner, ty, refs, h⟩
      rw [hjobs] at hr'
      obtain ⟨q, hq, -, hrefs, -⟩ := hkept j r' hr'
      rw [hr] at hq
      obtain rfl := Option.some.inj hq
      exact hrefs

namespace HandlerSys

variable {s t : HandlerSys τ σ} {Rel : τ → Claim → σ → Job → Prop} {i : Nat} {x : JobRun σ}

structure Ok (Rel : τ → Claim → σ → Job → Prop) (s : HandlerSys τ σ) : Prop where
  checks : ∀ r ∈ s.db.jobs, r.checks
  bounded : ∀ i x, s.run i = some x → GenAtLeast x.claim.job x.claim.generation s.db
  apart : ∀ i k x y, s.run i = some x → s.run k = some y → x.claim.job = y.claim.job →
    x.claim.generation = y.claim.generation → i = k
  rel : ∀ i x r, s.run i = some x → x.claim.Held s.db.jobs r → Rel s.work x.claim x.pc r

theorem run_set {db : JobDb} {w : τ} {o : Option (JobRun σ)} {k : Nat} {y : JobRun σ}
    (h : (⟨db, w, s.runs.set i o⟩ : HandlerSys τ σ).run k = some y) :
    k = i ∧ o = some y ∨ k ≠ i ∧ s.run k = some y := by
  unfold run at *
  by_cases hk : k = i
  · subst hk
    refine .inl ⟨rfl, ?_⟩
    rw [List.getElem?_set] at h
    simp only [if_true] at h
    split at h
    · exact h
    · cases h
  · rw [List.getElem?_set_ne (Ne.symm hk)] at h
    exact .inr ⟨hk, h⟩

theorem run_append {db : JobDb} {w : τ} {o : Option (JobRun σ)} {k : Nat} {y : JobRun σ}
    (h : (⟨db, w, s.runs ++ o.toList.map some⟩ : HandlerSys τ σ).run k = some y) :
    s.run k = some y ∨ k = s.runs.length ∧ o = some y := by
  unfold run at *
  cases o with
  | none =>
    rw [Option.toList_none, List.map_nil, List.append_nil] at h
    exact .inl h
  | some x =>
    obtain ⟨q, hq, hy⟩ : ∃ q, (s.runs ++ [some x])[k]? = some q ∧ q = some y :=
      ⟨_, Option.join_eq_some_iff.1 h, rfl⟩
    subst hy
    rcases getElem?_insert hq with hq | ⟨hk, hq⟩
    · exact .inl (by rw [hq]; rfl)
    · exact .inr ⟨hk, hq.symm⟩

theorem started_eq {h : Handler τ σ ε ω} {jobs : List Job} {c : Claim} {y : JobRun σ}
    (hy : started h jobs c = some y) : y.claim = c ∧ ∃ owner, y.pc = h.start owner := by
  unfold started at hy
  split at hy
  · next r hr =>
    split at hy
    · cases hy
      exact ⟨rfl, r.ownerId, rfl⟩
    · cases hy
  · cases hy

/-- the runs after an operation on the table -/
theorem run_queue {h : Handler τ σ ε ω} {o : LeaseOp} {k : Nat} {y : JobRun σ}
    (hk : ((HandlerOp.queue o).exec h s).run k = some y) :
    s.run k = some y ∨ ∃ owner, y.pc = h.start owner := by
  unfold HandlerOp.exec at hk
  dsimp only at hk
  split at hk
  · rcases run_append hk with hk | ⟨-, hy⟩
    · exact .inl hk
    · obtain ⟨c, -, hy⟩ := Option.bind_eq_some_iff.1 hy
      exact .inr (started_eq hy).2
  · exact .inl hk

/-- the claim of a live run and the claims that come later -/
theorem held_of_step {db : JobDb} {o : LeaseOp} (ho : o.outside) {c : Claim}
    (hb : GenAtLeast c.job c.generation db) {r : Job}
    (hheld : c.Held (LeaseOp.step db o).jobs r) :
    ∃ r₀, c.Held db.jobs r₀ ∧ r₀.SameWork r := by
  obtain ⟨hr, hby⟩ := hheld
  obtain ⟨hw, hg, hst⟩ := Job.heldBy_iff.1 hby
  have hsteady : Steady db.jobs (LeaseOp.step db o).jobs →
      ∃ r₀, c.Held db.jobs r₀ ∧ r₀.SameWork r := by
    intro hs
    obtain ⟨r₀, hr₀, hst₀, hw₀, hg₀, hsame⟩ := hs c.job r hr hst
    exact ⟨r₀, ⟨hr₀, Job.heldBy_iff.2 ⟨hw₀.symm.trans hw, hg₀.symm.trans hg, hst₀⟩⟩, hsame⟩
  rcases LeaseOp.step_cases db o with ⟨d, -, hd⟩ | ⟨hnone, -⟩
  · by_cases hj : d.job = c.job
    · -- the new claim has another generation
      obtain ⟨q, hq, hgen, r', hr', hh⟩ := hd.row
      rw [hj] at hq hr'
      obtain rfl : r' = r := Option.some.inj (hr'.symm.trans hr)
      obtain ⟨q', hq', hle⟩ := hb
      obtain rfl : q = q' := Option.some.inj (hq.symm.trans hq')
      have hrow := (Job.heldBy_iff.1 hh).2.1
      omega
    · rw [hd.other hj] at hr
      exact ⟨r, ⟨hr, hby⟩, .refl r⟩
  · exact hsteady ((LeaseOp.step_steady ho).1 hnone)

theorem exec_step {h : Handler τ σ ε ω} {env : ε} {jobs : List Job} {work : τ} {o : Option σ}
    (hi : s.run i = some x) (hstep : h.step env s.db s.work x.claim x.pc = (jobs, work, o)) :
    (HandlerOp.step i env).exec h s =
      ⟨{ s.db with jobs }, work, s.runs.set i (o.map (⟨x.claim, ·⟩))⟩ := by
  unfold HandlerOp.exec
  dsimp only
  rw [hi]
  dsimp only
  rw [hstep]

theorem exec_step_none {h : Handler τ σ ε ω} {env : ε} (hi : s.run i = none) :
    (HandlerOp.step i env).exec h s = s := by
  unfold HandlerOp.exec
  dsimp only
  rw [hi]

theorem exec_queue_work {h : Handler τ σ ε ω} (o : LeaseOp) :
    ((HandlerOp.queue o).exec h s).work = s.work := by
  unfold HandlerOp.exec
  dsimp only
  split <;> rfl

theorem exec_queue_refs {h : Handler τ σ ε ω} (o : LeaseOp) {j : JobId} {r : Job}
    (hr : s.db.jobs[j]? = some r) :
    ∃ r', ((HandlerOp.queue o).exec h s).db.jobs[j]? = some r' ∧ r'.inputRefs = r.inputRefs := by
  unfold HandlerOp.exec
  dsimp only
  split
  · exact LeaseOp.step_refs o hr
  · exact ⟨r, hr, rfl⟩

/-- where a run is after its step -/
theorem run_set_self (db : JobDb) (w : τ) (o : Option (JobRun σ)) (hi : s.run i = some x) :
    (⟨db, w, s.runs.set i o⟩ : HandlerSys τ σ).run i = o := by
  unfold run at *
  rw [List.getElem?_set]
  have hlt : i < s.runs.length := by
    by_contra hge
    rw [List.getElem?_eq_none (Nat.le_of_not_lt hge)] at hi
    cases hi
  rw [if_pos rfl, if_pos hlt]
  rfl

namespace Ok

variable {h : Handler τ σ ε ω}

/-- an operation on the table -/
theorem queue (hs : s.Ok Rel) (o : LeaseOp)
    (hsame : ∀ w c pc r r', r.SameWork r' → Rel w c pc r → Rel w c pc r')
    (hstart : ∀ w c owner r, Rel w c (h.start owner) r) :
    ((HandlerOp.queue o).exec h s).Ok Rel := by
  unfold HandlerOp.exec
  dsimp only
  split
  · next ho =>
    -- a claim that is handed out is newer than those of the live runs
    have hnew : ∀ y, (LeaseOp.handed (s.db, o)).bind (started h s.db.jobs) = some y →
        Claimed s.db.jobs (LeaseOp.step s.db o).jobs y.claim ∧ ∃ owner, y.pc = h.start owner := by
      intro y hy
      obtain ⟨c, hc, hy⟩ := Option.bind_eq_some_iff.1 hy
      obtain ⟨rfl, hpc⟩ := started_eq hy
      rcases LeaseOp.step_cases s.db o with ⟨d, hd, hcl⟩ | ⟨hd, -⟩
      · rw [hc] at hd
        cases hd
        exact ⟨hcl, hpc⟩
      · rw [hc] at hd
        cases hd
    have hfresh : ∀ k x y, s.run k = some x →
        (LeaseOp.handed (s.db, o)).bind (started h s.db.jobs) = some y →
        x.claim.job = y.claim.job → x.claim.generation < y.claim.generation := by
      intro k x y hx hy hj
      obtain ⟨q, hq, hgen, -⟩ := (hnew y hy).1.row
      obtain ⟨q', hq', hle⟩ := hs.bounded k x hx
      rw [hj, hq] at hq'
      obtain rfl : q = q' := Option.some.inj hq'
      omega
    refine ⟨(LeaseOp.step_steady ho).2 hs.checks, fun k y hk => ?_, fun k l y z hk hl hj hg => ?_,
      fun k y r hk hheld => ?_⟩
    · rcases run_append hk with hk | ⟨-, hy⟩
      · exact (hs.bounded k y hk).step o
      · obtain ⟨-, -, -, r', hr', hh⟩ := (hnew y hy).1.row
        exact ⟨r', hr', Nat.le_of_eq (Job.heldBy_iff.1 hh).2.1.symm⟩
    · rcases run_append hk with hk | ⟨hk, hy⟩ <;> rcases run_append hl with hl | ⟨hl, hz⟩
      · exact hs.apart k l y z hk hl hj hg
      · exact absurd hg (Nat.ne_of_lt (hfresh k y z hk hz hj))
      · exact absurd hg.symm (Nat.ne_of_lt (hfresh l z y hl hy hj.symm))
      · exact hk.trans hl.symm
    · rcases run_append hk with hk | ⟨-, hy⟩
      · obtain ⟨r₀, hheld₀, hsw⟩ := held_of_step ho (hs.bounded k y hk) hheld
        exact hsame _ _ _ _ _ hsw (hs.rel k y r₀ hk hheld₀)
      · obtain ⟨owner, hpc⟩ := (hnew y hy).2
        rw [hpc]
        exact hstart _ _ _ _
  · exact hs

/-- the work changes from outside -/
theorem outside (hs : s.Ok Rel) (o : ω)
    (hout : ∀ w c pc r, Rel w c pc r → Rel (h.outside w o) c pc r) :
    ((HandlerOp.outside o).exec h s).Ok Rel :=
  ⟨hs.checks, hs.bounded, hs.apart, fun i x r hi hheld => hout _ _ _ _ (hs.rel i x r hi hheld)⟩

theorem crash (hs : s.Ok Rel) (i : Nat) : ((HandlerOp.crash i).exec h s).Ok Rel := by
  have hsub : ∀ k y, ((HandlerOp.crash i).exec h s).run k = some y → s.run k = some y := by
    intro k y hk
    rcases run_set hk with ⟨-, hk⟩ | ⟨-, hk⟩
    · cases hk
    · exact hk
  exact ⟨hs.checks, fun k y hk => hs.bounded k y (hsub k y hk),
    fun k l y z hk hl => hs.apart k l y z (hsub k y hk) (hsub l z hl),
    fun k y r hk => hs.rel k y r (hsub k y hk)⟩

end Ok

/-- what a handler's own step may do to the table: nothing, or one write under its claim -/
def OwnWrite (jobs : List Job) (c : Claim) (jobs' : List Job) : Prop :=
  jobs' = jobs ∨ ∃ r r', c.Held jobs r ∧ jobs' = jobs.set c.job r' ∧ r'.checks ∧
    r'.leaseGeneration = r.leaseGeneration ∧ r'.inputRefs = r.inputRefs

theorem OwnWrite.refs {jobs jobs' : List Job} {c : Claim} (h : OwnWrite jobs c jobs') {j : JobId}
    {r : Job} (hr : jobs[j]? = some r) : ∃ r', jobs'[j]? = some r' ∧ r'.inputRefs = r.inputRefs := by
  rcases h with rfl | ⟨q, q', hq, rfl, -, -, hrefs⟩
  · exact ⟨r, hr, rfl⟩
  · rw [getElem?_set_row hq.1]
    split
    · next hj =>
      rw [← hj, hq.1] at hr
      obtain rfl := Option.some.inj hr
      exact ⟨q', rfl, hrefs⟩
    · exact ⟨r, hr, rfl⟩

theorem Ok.step {h : Handler τ σ ε ω} (hs : s.Ok Rel) (hi : s.run i = some x) {env : ε}
    {jobs : List Job} {work : τ} {o : Option σ}
    (hstep : h.step env s.db s.work x.claim x.pc = (jobs, work, o))
    (hown : OwnWrite s.db.jobs x.claim jobs)
    (hothers : ∀ (y : JobRun σ) (r : Job), y.claim.Held s.db.jobs r →
      (∀ q, y.claim.job = x.claim.job → ¬ x.claim.Held s.db.jobs q) →
      Rel s.work y.claim y.pc r → Rel work y.claim y.pc r)
    (hself : ∀ (pc : σ) (r : Job), o = some pc → x.claim.Held jobs r → Rel work x.claim pc r) :
    ((HandlerOp.step i env).exec h s).Ok Rel := by
  have hexec := exec_step hi hstep
  have hsub : ∀ k y, ((HandlerOp.step i env).exec h s).run k = some y →
      k = i ∧ y.claim = x.claim ∧ o = some y.pc ∨ k ≠ i ∧ s.run k = some y := by
    intro k y hk
    rw [hexec] at hk
    rcases run_set hk with ⟨hki, hy⟩ | hk
    · obtain ⟨pc, hpc, rfl⟩ := Option.map_eq_some_iff.1 hy
      exact .inl ⟨hki, rfl, hpc⟩
    · exact .inr hk
  have hrow : ∀ (j : JobId) (n : Nat), GenAtLeast j n s.db → GenAtLeast j n { s.db with jobs } := by
    rintro j n ⟨q, hq, hn⟩
    rcases hown with rfl | ⟨r, r', hheld, rfl, -, hgen, -⟩
    · exact ⟨q, hq, hn⟩
    · refine ⟨if x.claim.job = j then r' else q, ?_, ?_⟩
      · show (s.db.jobs.set x.claim.job r')[j]? = _
        rw [getElem?_set_row hheld.1]
        split
        · rfl
        · exact hq
      · split
        · next hj =>
          rw [← hj, hheld.1] at hq
          obtain rfl : r = q := Option.some.inj hq
          exact hgen ▸ hn
        · exact hn
  have hclaim : ∀ k y, ((HandlerOp.step i env).exec h s).run k = some y →
      ∃ z, s.run k = some z ∧ z.claim = y.claim := by
    intro k y hk
    rcases hsub k y hk with ⟨rfl, hc, -⟩ | ⟨-, hk⟩
    · exact ⟨x, hi, hc.symm⟩
    · exact ⟨y, hk, rfl⟩
  refine ⟨fun q hq => ?_, fun k y hk => ?_, fun k l y z hk hl hj hg => ?_, fun k y r hk hheld => ?_⟩
  · rw [hexec] at hq
    rcases hown with rfl | ⟨r, r', -, rfl, hchecks, -, -⟩
    · exact hs.checks q hq
    · rcases List.mem_or_eq_of_mem_set hq with hq | rfl
      · exact hs.checks q hq
      · exact hchecks
  · obtain ⟨z, hz, hc⟩ := hclaim k y hk
    rw [hexec, ← hc]
    exact hrow _ _ (hs.bounded k z hz)
  · obtain ⟨y', hy', hcy⟩ := hclaim k y hk
    obtain ⟨z', hz', hcz⟩ := hclaim l z hl
    rw [← hcy, ← hcz] at hj hg
    exact hs.apart k l y' z' hy' hz' hj hg
  · rw [hexec] at hheld ⊢
    rcases hsub k y hk with ⟨rfl, hc, ho⟩ | ⟨hki, hk⟩
    · rw [hc] at hheld ⊢
      exact hself y.pc r ho hheld
    · have hne : ∀ q, x.claim.Held s.db.jobs q → y.claim.job = x.claim.job →
          y.claim.generation ≠ x.claim.generation := fun q _ hj hg =>
        hki (hs.apart k i y x hk hi hj hg)
      have hold : y.claim.Held s.db.jobs r := by
        rcases hown with rfl | ⟨q, q', hq, rfl, -, hgen, -⟩
        · exact hheld
        · obtain ⟨hr, hby⟩ := hheld
          have hr : (s.db.jobs.set x.claim.job q')[y.claim.job]? = some r := hr
          rw [getElem?_set_row hq.1] at hr
          split at hr
          · next hj =>
            obtain rfl : q' = r := Option.some.inj hr
            have hg := (Job.heldBy_iff.1 hby).2.1
            have hgx := (Job.heldBy_iff.1 hq.2).2.1
            exact absurd (hg.symm.trans (hgen.trans hgx)) (hne q hq hj.symm)
          · exact ⟨hr, hby⟩
      refine hothers y r hold (fun q hj hx => hne q hx hj ?_) (hs.rel k y r hk hold)
      -- two live runs that hold one row have one generation
      obtain ⟨hq, hby⟩ := hx
      rw [← hj, hold.1] at hq
      obtain rfl : r = q := Option.some.inj hq
      exact (Job.heldBy_iff.1 hold.2).2.1.symm.trans (Job.heldBy_iff.1 hby).2.1

end HandlerSys

end LifeAI
