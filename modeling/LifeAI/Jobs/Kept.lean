import LifeAI.Jobs.Fence

/-!
# What the job operations leave alone

No operation on an existing job changes what the job is for (`jobType`, `inputRefs`), and only
`retryJob` brings a finished job back to life.
-/

namespace LifeAI

/-- the rows of `jobs'` are rows of `jobs` with the same type and references; a row that is live
was live before, unless it is one of `revived` -/
def JobsKept (revived : JobId → Prop) (jobs jobs' : List Job) : Prop :=
  ∀ j r', jobs'[j]? = some r' → ∃ r, jobs[j]? = some r ∧ r'.jobType = r.jobType ∧
    r'.inputRefs = r.inputRefs ∧ (r'.status.live → r.status.live ∨ revived j)

variable {revived : JobId → Prop} {jobs jobs' : List Job}

theorem JobsKept.refl (jobs : List Job) : JobsKept revived jobs jobs :=
  fun _ r' h => ⟨r', h, rfl, rfl, .inl⟩

theorem JobsKept.trans {jobs'' : List Job} (h : JobsKept revived jobs jobs')
    (h' : JobsKept revived jobs' jobs'') : JobsKept revived jobs jobs'' := by
  intro j r'' hr''
  obtain ⟨r', hr', ht', hi', hl'⟩ := h' j r'' hr''
  obtain ⟨r, hr, ht, hi, hl⟩ := h j r' hr'
  refine ⟨r, hr, ht'.trans ht, hi'.trans hi, fun hlive => ?_⟩
  rcases hl' hlive with h1 | h1
  · exact hl h1
  · exact .inr h1

theorem JobsKept.mono {q : JobId → Prop} (h : JobsKept revived jobs jobs')
    (hq : ∀ j, revived j → q j) : JobsKept q jobs jobs' := by
  intro j r' hr'
  obtain ⟨r, hr, ht, hi, hl⟩ := h j r' hr'
  exact ⟨r, hr, ht, hi, fun hlive => (hl hlive).imp_right (hq j)⟩

theorem JobsKept.set {j : JobId} {r r' : Job} (hr : jobs[j]? = some r)
    (ht : r'.jobType = r.jobType) (hi : r'.inputRefs = r.inputRefs)
    (hl : r'.status.live → r.status.live ∨ revived j) :
    JobsKept revived jobs (jobs.set j r') := by
  intro k q hq
  rw [getElem?_set_row hr] at hq
  split at hq
  · next hk =>
    subst hk
    cases hq
    exact ⟨r, hr, ht, hi, hl⟩
  · exact ⟨q, hq, rfl, rfl, .inl⟩

theorem JobsKept.setRow {j : JobId} {r r' : Job} (hr : jobs[j]? = some r)
    (h : setRow jobs j r r' = .ok jobs') (ht : r'.jobType = r.jobType)
    (hi : r'.inputRefs = r.inputRefs) (hl : r'.status.live → r.status.live ∨ revived j) :
    JobsKept revived jobs jobs' := by
  obtain ⟨-, rfl⟩ := setRow_ok h
  exact .set hr ht hi hl

/-- an exception keeps the rows as well -/
theorem JobsKept.transact {x : Except Err (List Job)}
    (h : ∀ jobs', x = .ok jobs' → JobsKept revived jobs jobs') :
    JobsKept revived jobs (transact jobs x) := by
  cases x with
  | ok jobs' => exact h jobs' rfl
  | error e => exact .refl jobs

/-- a guarded write finds a running job -/
theorem guardedJobWrite_keeps {j : JobId} {w : String} {g : Nat} {set : Job → Job}
    (h : guardedJobWrite jobs j w g set = .ok jobs')
    (ht : ∀ r, (set r).jobType = r.jobType) (hi : ∀ r, (set r).inputRefs = r.inputRefs) :
    JobsKept revived jobs jobs' := by
  obtain ⟨r, hr, hheld, rfl⟩ := guardedJobWrite_ok h
  have hrun : r.status.live := by
    have := (Job.heldBy_iff.1 hheld).2.2
    simp [this, JobStatus.live]
  exact .set hr (ht r) (hi r) fun _ => .inl hrun

theorem GuardedWrite.exec_keeps {now : Time} {j : JobId} {w : String} {g : Nat}
    {gw : GuardedWrite} (h : gw.exec now jobs j w g = .ok jobs') : JobsKept revived jobs jobs' := by
  cases gw with
  | updateProgress c t p =>
    simp only [GuardedWrite.exec, LifeAI.updateProgress] at h
    split at h
    · cases h
      exact .refl jobs
    · exact guardedJobWrite_keeps h (fun _ => rfl) (fun _ => rfl)
  | recordClaimed | renew secs | markCompleted m | markFailed c | markFailedFlush c
  | markCancelled | recordDocumentSkipped =>
    exact guardedJobWrite_keeps h (fun _ => rfl) (fun _ => rfl)
  | recordDocumentReviewed c t p m ref =>
    exact guardedJobWrite_keeps h (fun _ => rfl) (fun _ => rfl)

/-- a claimed job was queued, or running with an expired lease -/
theorem claimRow_keeps {now : Time} {j : JobId} {r : Job} {w : String} {secs : Nat}
    {c : Option Claim} (hr : jobs[j]? = some r) (hlive : r.status.live)
    (h : claimRow now jobs j r w secs = .ok (c, jobs')) : JobsKept revived jobs jobs' := by
  unfold claimRow at h
  obtain ⟨jobs1, h1, h2⟩ := bind_eq_ok.1 h
  cases h2
  exact .setRow hr h1 rfl rfl fun _ => .inl hlive

theorem claimNext_keeps {now : Time} {w : String} {secs : Nat} {locked : List JobId}
    {c : Option Claim} (h : claimNextMainaiJob now jobs w secs locked = .ok (c, jobs')) :
    JobsKept revived jobs jobs' := by
  unfold claimNextMainaiJob at h
  split at h
  · cases h
    exact .refl jobs
  · next j hj =>
    split at h
    · cases h
      exact .refl jobs
    · next r hr =>
      have hp : j ∉ locked ∧ (jobs[j]?).any (claimableNow now) := by
        simpa using List.find?_some hj
      have hclaim : claimableNow now r := by simpa [hr] using hp.2
      refine claimRow_keeps hr ?_ h
      unfold claimableNow at hclaim
      simp only [JobStatus.claimable, decide_eq_true_eq] at hclaim
      rcases hclaim with h1 | h1
      · simp [h1, JobStatus.live]
      · simp [h1.1, JobStatus.live]

theorem claimSpecific_keeps {now : Time} {j : JobId} {w : String} {secs : Nat}
    {c : Option Claim} (h : claimSpecificMainaiJob now jobs j w secs = .ok (c, jobs')) :
    JobsKept revived jobs jobs' := by
  unfold claimSpecificMainaiJob at h
  split at h
  · cases h
    exact .refl jobs
  · next r hr =>
    split at h
    · next hq =>
      refine claimRow_keeps hr ?_ h
      simp only [JobStatus.claimable, decide_eq_true_eq] at hq
      simp [hq, JobStatus.live]
    · cases h
      exact .refl jobs

theorem requestCancel_keeps {j : JobId} {loaded : Job}
    (h : requestCancel jobs j loaded = .ok jobs') : JobsKept revived jobs jobs' := by
  unfold requestCancel at h
  split at h
  · exact absurd h (by simp)
  · next r hr =>
    rw [guard_eq_ok] at h
    obtain ⟨-, h⟩ := h
    split at h
    · cases h
      exact .refl jobs
    · exact .setRow hr h rfl rfl .inl

theorem retryJob_keeps {j : JobId} {loaded : Job} (h : retryJob jobs j loaded = .ok jobs') :
    JobsKept (· = j) jobs jobs' := by
  unfold retryJob at h
  split at h
  · exact absurd h (by simp)
  · next r hr =>
    rw [guard_eq_ok, guard_eq_ok] at h
    exact .setRow hr h.2.2 rfl rfl fun _ => .inr rfl

theorem markJobSuperseded_keeps {now : Time} {rec : Bool} {j b : JobId}
    (h : markJobSuperseded now rec jobs j b = .ok jobs') : JobsKept revived jobs jobs' := by
  unfold markJobSuperseded at h
  split at h
  · exact absurd h (by simp)
  · next r hr =>
    split at h
    · exact .setRow hr h rfl rfl (by simp [JobStatus.live])
    · exact absurd h (by simp)

theorem markJobFailedAfterDecline_keeps {now : Time} {rec : Bool} {j : JobId}
    (h : markJobFailedAfterGovernedRecoveryDecline now rec jobs j = .ok jobs') :
    JobsKept revived jobs jobs' := by
  unfold markJobFailedAfterGovernedRecoveryDecline at h
  split at h
  · exact absurd h (by simp)
  · next r hr =>
    split at h
    · exact .setRow hr h rfl rfl (by simp [JobStatus.live])
    · exact absurd h (by simp)

end LifeAI
