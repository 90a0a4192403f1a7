import LifeAI.Base

/-!
# The rows of `mainai_jobs`

`Job` is one row, `Job.checks` the CHECK constraints of the migrations on it, `progressKept` the
trigger against a decreasing `progress_current`, and `setRow` an UPDATE of one row: refused as a
whole when the new row breaks one of them.
-/

namespace LifeAI

inductive JobStatus where
  | queued | running | paused | completed | failed | cancelled | superseded
  deriving DecidableEq

namespace JobStatus

/-- `CLAIMABLE_MAINAI_JOB_STATUSES` -/
def claimable (s : JobStatus) : Bool := s = queued
/-- `RETRYABLE_MAINAI_JOB_STATUSES` -/
def retryable (s : JobStatus) : Bool := s = failed
/-- `CANCELLABLE_MAINAI_JOB_STATUSES` -/
def cancellable (s : JobStatus) : Bool := s = queued ∨ s = running ∨ s = paused
/-- the statuses that carry a `completed_at` -/
def terminal (s : JobStatus) : Bool :=
  s = completed ∨ s = failed ∨ s = cancelled ∨ s = superseded
/-- the job is waiting for a worker or in the hands of one -/
def live (s : JobStatus) : Bool := s = queued ∨ s = running

end JobStatus

inductive JobType where
  | corpusReview | messageSequenceBackfill | messageSourceBackfill | taskExecution
  | other (name : String)
  deriving DecidableEq

/-- the `type` of an entry of `input_refs` -/
inductive RefType where
  | document | mainaiTask | other (name : String)
  deriving DecidableEq

structure InputRef where
  type : RefType
  id : Nat
  deriving DecidableEq

inductive JobErrorCategory where
  | transientIo | permanent | capabilityUnavailable | cancelledByOwner | timeout | unexpected
  deriving DecidableEq

/-- `_PUBLIC_ERROR_MESSAGES` -/
def publicErrorMessage : JobErrorCategory → String
  | .transientIo =>
    "A temporary error occurred. This job will not retry automatically — use retry."
  | .permanent =>
    "This job could not complete due to a permanent error and cannot be retried."
  | .capabilityUnavailable => "The requested capability is not currently available."
  | .cancelledByOwner => "This job was cancelled."
  | .timeout => "This job did not complete in time."
  | .unexpected => "An unexpected error occurred while processing this job."

/-- a row of `mainai_jobs`; its id is its position in the table -/
structure Job where
  ownerId : OwnerId
  jobType : JobType
  status : JobStatus := .queued
  startedAt : Option Time := none
  lastHeartbeatAt : Option Time := none
  completedAt : Option Time := none
  progressCurrent : Nat := 0
  progressTotal : Option Nat := none
  currentPhase : Option String := none
  publicMessage : Option String := none
  errorCategory : Option JobErrorCategory := none
  retryCount : Nat := 0
  maxRetries : Nat := 3
  inputRefs : List InputRef := []
  outputRefs : List Nat := []
  lockedBy : Option String := none
  leaseExpiresAt : Option Time := none
  leaseGeneration : Nat := 0
  provider : Option String := none
  model : Option String := none
  cancelRequested : Bool := false
  cancelAcknowledged : Bool := false
  idempotencyKey : Option String := none
  supersededByJobId : Option JobId := none
  deriving DecidableEq

namespace Job

/-- the CHECK constraints of migrations 0026, 0028 and 0034 -/
def checks (r : Job) : Bool :=
  (r.status.terminal = r.completedAt.isSome) ∧
  (r.status = .queued ∨ r.startedAt.isSome) ∧
  (∀ n ∈ r.progressTotal, r.progressCurrent ≤ n) ∧
  r.retryCount ≤ r.maxRetries ∧
  ((r.status = .superseded : Bool) = r.supersededByJobId.isSome)

/-- the lease ran out -/
def leaseExpired (r : Job) (now : Time) : Bool :=
  match r.leaseExpiresAt with
  | some t => t < now
  | none => false

/-- `(worker, generation)` is the current claim of a running job -/
def heldBy (r : Job) (worker : String) (generation : Nat) : Bool :=
  r.lockedBy = some worker ∧ r.leaseGeneration = generation ∧ r.status = .running

end Job

/-- `mainai_jobs_deny_progress_regression` (migration 0029) -/
def progressKept (old new : Job) : Bool :=
  old.progressCurrent ≤ new.progressCurrent ∨
    (old.status = .failed ∧ new.status = .queued ∧ new.progressCurrent = 0)

/-- `UPDATE mainai_jobs SET … WHERE id = j` on the row `r` that the WHERE clause matched -/
def setRow (jobs : List Job) (j : JobId) (r r' : Job) : Except Err (List Job) :=
  if ¬ r'.checks then .error (.integrityError "ck_mainai_jobs")
  else if ¬ progressKept r r' then
    .error (.integrityError "mainai_jobs_deny_progress_regression")
  else .ok (jobs.set j r')

theorem setRow_ok {jobs jobs' : List Job} {j : JobId} {r r' : Job}
    (h : setRow jobs j r r' = .ok jobs') : r'.checks ∧ jobs' = jobs.set j r' := by
  unfold setRow at h
  rw [guard_eq_ok, guard_eq_ok] at h
  obtain ⟨h1, -, h2⟩ := h
  exact ⟨by simpa using h1, by simpa using h2.symm⟩

theorem setRow_error {jobs : List Job} {j : JobId} {r r' : Job} {e : Err}
    (h : setRow jobs j r r' = .error e) : ∃ c, e = .integrityError c := by
  unfold setRow at h
  split at h
  · exact ⟨_, by simpa using h.symm⟩
  split at h
  · exact ⟨_, by simpa using h.symm⟩
  · exact absurd h (by simp)

end LifeAI
