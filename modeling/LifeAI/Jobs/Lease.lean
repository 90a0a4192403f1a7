import LifeAI.Jobs.Model

/-!
# Claims, leases and guarded writes

The claim primitives of `mainai_job_lease.py` and the writes of `jobs/service.py` that touch
`status`, `locked_by` or `lease_generation`, on the table of jobs.  Every worker-driven write is
one UPDATE whose WHERE clause re-reads the claim; `retry_job` and `request_cancel` read the row
without a lock, decide, and flush the columns they changed (`dirty`).
-/

namespace LifeAI

/-! ## claims -/

/-- the WHERE clause of `_CLAIM_SQL` -/
def claimableNow (now : Time) (r : Job) : Bool :=
  r.status.claimable ∨ (r.status = .running ∧ r.leaseExpired now ∧ r.jobType ≠ .taskExecution)

/-- the SET clause of both claim statements -/
def claimed (now : Time) (worker : String) (leaseSeconds : Nat) (r : Job) : Job :=
  { r with
    status := .running
    lockedBy := some worker
    leaseGeneration := r.leaseGeneration + 1
    leaseExpiresAt := some (now + leaseSeconds)
    lastHeartbeatAt := some now
    startedAt := some (r.startedAt.getD now) }

/-- a claim handed out: the job, the worker and the generation -/
structure Claim where
  job : JobId
  worker : String
  generation : Nat
  deriving DecidableEq

/-- the oldest claimable row that no other transaction has locked -/
def oldestClaimable (now : Time) (locked : List JobId) (jobs : List Job) : Option JobId :=
  (List.range jobs.length).find? fun j =>
    j ∉ locked ∧ (jobs[j]?.any (claimableNow now))

/-- the UPDATE of one chosen row -/
def claimRow (now : Time) (jobs : List Job) (j : JobId) (r : Job) (worker : String)
    (leaseSeconds : Nat) : Except Err (Option Claim × List Job) := do
  let jobs' ← setRow jobs j r (claimed now worker leaseSeconds r)
  return (some ⟨j, worker, r.leaseGeneration + 1⟩, jobs')

/-- `claim_next_mainai_job`; `locked` are the rows that `SKIP LOCKED` passes over -/
def claimNextMainaiJob (now : Time) (jobs : List Job) (worker : String) (leaseSeconds : Nat)
    (locked : List JobId) : Except Err (Option Claim × List Job) :=
  match oldestClaimable now locked jobs with
  | none => .ok (none, jobs)
  | some j =>
    match jobs[j]? with
    | none => .ok (none, jobs)
    | some r => claimRow now jobs j r worker leaseSeconds

/-- `claim_specific_mainai_job` -/
def claimSpecificMainaiJob (now : Time) (jobs : List Job) (j : JobId) (worker : String)
    (leaseSeconds : Nat) : Except Err (Option Claim × List Job) :=
  match jobs[j]? with
  | none => .ok (none, jobs)
  | some r =>
    if r.status.claimable then claimRow now jobs j r worker leaseSeconds else .ok (none, jobs)

/-! ## guarded writes -/

/-- `_guarded_job_write`: the claim is re-verified by the statement that writes -/
def guardedJobWrite (jobs : List Job) (j : JobId) (worker : String) (generation : Nat)
    (set : Job → Job) : Except Err (List Job) :=
  match jobs[j]? with
  | none => .error (.jobLeaseLost j worker generation)
  | some r =>
    if r.heldBy worker generation then setRow jobs j r (set r)
    else .error (.jobLeaseLost j worker generation)

/-- `record_claimed`: a self-assignment, there is nothing to change -/
def recordClaimed (jobs : List Job) (j : JobId) (worker : String) (generation : Nat) :=
  guardedJobWrite jobs j worker generation id

/-- `renew_mainai_job_lease` -/
def renewMainaiJobLease (now : Time) (jobs : List Job) (j : JobId) (worker : String)
    (generation : Nat) (leaseSeconds : Nat) :=
  guardedJobWrite jobs j worker generation fun r =>
    { r with leaseExpiresAt := some (now + leaseSeconds), lastHeartbeatAt := some now }

/-- `mark_completed` -/
def markCompleted (now : Time) (jobs : List Job) (j : JobId) (worker : String)
    (generation : Nat) (publicMessage : Option String) :=
  guardedJobWrite jobs j worker generation fun r =>
    { r with
      status := .completed
      completedAt := some now
      publicMessage := some (match publicMessage with
        | some m => if m = "" then "Completed." else m
        | none => "Completed.") }

/-- `mark_failed_flush` -/
def markFailedFlush (now : Time) (jobs : List Job) (j : JobId) (worker : String)
    (generation : Nat) (category : JobErrorCategory) :=
  guardedJobWrite jobs j worker generation fun r =>
    { r with
      status := .failed
      completedAt := some now
      errorCategory := some category
      publicMessage := some (publicErrorMessage category) }

/-- `mark_failed`: `mark_failed_flush`, then a commit -/
def markFailed := markFailedFlush

/-- `mark_cancelled` -/
def markCancelled (now : Time) (jobs : List Job) (j : JobId) (worker : String)
    (generation : Nat) :=
  guardedJobWrite jobs j worker generation fun r =>
    { r with
      status := .cancelled
      completedAt := some now
      cancelAcknowledged := true
      publicMessage := some (publicErrorMessage .cancelledByOwner) }

/-- `update_progress`: a call with nothing to set returns before the fence -/
def updateProgress (jobs : List Job) (j : JobId) (worker : String) (generation : Nat)
    (current total : Option Nat) (phase : Option String) : Except Err (List Job) :=
  if current.isNone ∧ total.isNone ∧ phase.isNone then .ok jobs
  else guardedJobWrite jobs j worker generation fun r =>
    { r with
      progressCurrent := current.getD r.progressCurrent
      progressTotal := total.or r.progressTotal
      currentPhase := phase.or r.currentPhase }

/-- `record_document_reviewed` -/
def recordDocumentReviewed (jobs : List Job) (j : JobId) (worker : String) (generation : Nat)
    (current total : Nat) (provider model : String) (proposalOutputRef : Nat) :=
  guardedJobWrite jobs j worker generation fun r =>
    { r with
      progressCurrent := current
      progressTotal := some total
      currentPhase := some "reviewing"
      provider := some provider
      model := some model
      outputRefs := r.outputRefs ++ [proposalOutputRef] }

/-- `record_document_skipped`: a self-assignment before the event -/
def recordDocumentSkipped (jobs : List Job) (j : JobId) (worker : String) (generation : Nat) :=
  guardedJobWrite jobs j worker generation id

/-! ## unlocked writes of the owner -/

/-- `retry_job`: `loaded` is the row as the unlocked read returned it -/
def retryJob (jobs : List Job) (j : JobId) (loaded : Job) : Except Err (List Job) :=
  match jobs[j]? with
  | none => .error (.jobNotFound j)
  | some r =>
    if ¬ loaded.status.retryable then .error (.invalidJobTransition j)
    else if loaded.retryCount ≥ loaded.maxRetries then .error (.invalidJobTransition j)
    else setRow jobs j r
      { r with
        status := dirty loaded.status .queued r.status
        retryCount := dirty loaded.retryCount (loaded.retryCount + 1) r.retryCount
        errorCategory := dirty loaded.errorCategory none r.errorCategory
        publicMessage := dirty loaded.publicMessage none r.publicMessage
        cancelRequested := dirty loaded.cancelRequested false r.cancelRequested
        cancelAcknowledged := dirty loaded.cancelAcknowledged false r.cancelAcknowledged
        completedAt := dirty loaded.completedAt none r.completedAt
        progressCurrent := dirty loaded.progressCurrent 0 r.progressCurrent
        progressTotal := dirty loaded.progressTotal none r.progressTotal
        currentPhase := dirty loaded.currentPhase none r.currentPhase }

/-- `request_cancel`: sets the flag only; `loaded` as in `retryJob` -/
def requestCancel (jobs : List Job) (j : JobId) (loaded : Job) : Except Err (List Job) :=
  match jobs[j]? with
  | none => .error (.jobNotFound j)
  | some r =>
    if ¬ loaded.status.cancellable then .error (.invalidJobTransition j)
    else if loaded.cancelRequested then .ok jobs
    else setRow jobs j r { r with cancelRequested := true }

/-! ## the two ends of a recovery -/

/-- The WHERE clause shared by `mark_job_superseded` and its sibling; `takingOver` says that a
recovery record of the job is at `taking_over`. -/
def deadJob (now : Time) (takingOver : Bool) (r : Job) : Bool :=
  (r.status = .running ∧ r.leaseExpired now) ∨
    ((r.status = .failed ∨ r.status = .completed ∨ r.status = .cancelled) ∧ takingOver)

/-- `mark_job_superseded` -/
def markJobSuperseded (now : Time) (takingOver : Bool) (jobs : List Job) (j by_ : JobId) :
    Except Err (List Job) :=
  match jobs[j]? with
  | none => .error (.jobNotSupersedable j)
  | some r =>
    if deadJob now takingOver r then
      setRow jobs j r
        { r with
          status := .superseded
          completedAt := some (r.completedAt.getD now)
          supersededByJobId := some by_ }
    else .error (.jobNotSupersedable j)

/-- `mark_job_failed_after_governed_recovery_decline` -/
def markJobFailedAfterGovernedRecoveryDecline (now : Time) (takingOver : Bool)
    (jobs : List Job) (j : JobId) : Except Err (List Job) :=
  match jobs[j]? with
  | none => .error (.jobNotDeclinable j)
  | some r =>
    if deadJob now takingOver r then
      setRow jobs j r
        { r with
          status := .failed
          completedAt := some (r.completedAt.getD now)
          errorCategory := some .permanent }
    else .error (.jobNotDeclinable j)

end LifeAI
