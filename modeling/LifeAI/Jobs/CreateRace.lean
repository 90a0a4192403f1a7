import LifeAI.Lib.Unique
import LifeAI.Tasks.Dispatch

/-!
# Concurrent calls of `create_job`

Each call is a transaction of its own, and the statements of different calls interleave.

* `Phase`       how far a call has come;
* `CreateStep`  one statement of one call, its commit or its end by death or rollback;
* `CreateSys`   the committed rows and the calls; a row that a call has inserted and not yet
                committed blocks other inserts of its id or key.
-/

namespace LifeAI

/-- a call of `create_job`; `jobId` is the id that the caller brought -/
structure CreateCall where
  ownerId : OwnerId
  jobType : JobType
  inputRefs : List InputRef
  idempotencyKey : Option String
  jobId : Option JobId := none
  deriving DecidableEq

namespace CreateCall

def request (c : CreateCall) : JobRequest where
  ownerId := c.ownerId
  jobType := c.jobType
  inputRefs := c.inputRefs
  idempotencyKey := c.idempotencyKey
  claimed := c.jobId.isSome

/-- the call is looked up: `if idempotency_key` -/
def keyed (c : CreateCall) : Bool := c.idempotencyKey ≠ none ∧ c.idempotencyKey ≠ some ""

/-- the row stands under the owner and the key of the call -/
def names (c : CreateCall) (r : Job) : Bool :=
  r.ownerId = c.ownerId ∧ r.idempotencyKey = c.idempotencyKey

end CreateCall

inductive Phase where
  | started
  /-- the lookup found no row, or there is no key to look up -/
  | missed
  /-- capability and input references were accepted -/
  | checked
  /-- the row is inserted and not yet committed -/
  | inserted (id : JobId)
  /-- the insert violated the unique key and its savepoint was rolled back -/
  | violated
  | done (answer : Except Err JobId)
  /-- the process died, or its transaction was rolled back -/
  | dead
  deriving DecidableEq

structure CreateSys where
  rows : List (JobId × Job) := []
  calls : List (CreateCall × Phase) := []
  deriving DecidableEq

inductive CreateStep where
  | call (c : CreateCall)
  | lookup (k : Nat)
  /-- the checks, which read other tables as they are now -/
  | check (k : Nat) (env : Env) (db : Db)
  /-- the INSERT; `fresh` is the default of the id column -/
  | insert (k : Nat) (fresh : JobId)
  | reselect (k : Nat)
  | commit (k : Nat)
  | die (k : Nat)

namespace CreateSys

/-- the committed row of the owner and the key -/
def stored (s : CreateSys) (c : CreateCall) : Option (JobId × Job) :=
  s.rows.find? fun r => c.names r.2

/-- the row that a call has inserted and not committed -/
def pending (s : CreateSys) (k : Nat) : Option (JobId × Job) :=
  match s.calls[k]? with
  | some (c, .inserted id) => some (id, c.request.row)
  | _ => none

/-- another call holds a row with the property -/
def heldByOther (s : CreateSys) (k : Nat) (p : JobId × Job → Bool) : Bool :=
  (List.range s.calls.length).any fun l => l ≠ k ∧ (s.pending l).any p

def setPhase (s : CreateSys) (k : Nat) (c : CreateCall) (p : Phase) : CreateSys :=
  { s with calls := s.calls.set k (c, p) }

/-- the answer of the first lookup to a row that is there -/
def replayAnswer (c : CreateCall) (j : JobId) (r : Job) : Except Err JobId :=
  if c.request.matchesRow r then .ok j else .error .idempotencyConflict

/-- the answer of the handler of the unique violation -/
def raceAnswer (c : CreateCall) (j : JobId) (r : Job) : Except Err JobId :=
  if ¬ c.request.matchesRow r then .error .idempotencyConflict
  else if c.jobId ≠ none ∧ c.jobId ≠ some j then .error .idempotencyConflict
  else .ok j

/-- The primary key is checked before the unique key of owner and idempotency key.  An insert
waits for the transaction that holds a row with the same id or key: the step then does nothing. -/
def insert (s : CreateSys) (k : Nat) (c : CreateCall) (fresh : JobId) : CreateSys :=
  let id := c.jobId.getD fresh
  if s.heldByOther k (·.1 = id) then s
  else if s.rows.any (·.1 = id) then
    if c.jobId.isSome then s.setPhase k c (.done (.error (.integrityError "mainai_jobs_pkey")))
    else s
  else if c.idempotencyKey = none then s.setPhase k c (.inserted id)
  else if s.heldByOther k (c.names ·.2) then s
  else if (s.stored c).isSome then s.setPhase k c .violated
  else s.setPhase k c (.inserted id)

end CreateSys

open CreateSys in
def CreateStep.step (s : CreateSys) : CreateStep → CreateSys
  | .call c => { s with calls := s.calls ++ [(c, .started)] }
  | .lookup k =>
    match s.calls[k]? with
    | some (c, .started) =>
      if ¬ c.keyed then s.setPhase k c .missed
      else match s.stored c with
        | some (j, r) => s.setPhase k c (.done (replayAnswer c j r))
        | none => s.setPhase k c .missed
    | _ => s
  | .check k env db =>
    match s.calls[k]? with
    | some (c, .missed) =>
      match c.request.validate env db with
      | .ok _ => s.setPhase k c .checked
      | .error e => s.setPhase k c (.done (.error e))
    | _ => s
  | .insert k fresh =>
    match s.calls[k]? with
    | some (c, .checked) => s.insert k c fresh
    | _ => s
  | .reselect k =>
    match s.calls[k]? with
    | some (c, .violated) =>
      match s.stored c with
      | some (j, r) => s.setPhase k c (.done (raceAnswer c j r))
      | none => s.setPhase k c
          (.done (.error (.integrityError "uq_mainai_jobs_owner_idempotency_key")))
    | _ => s
  | .commit k =>
    match s.calls[k]? with
    | some (c, .inserted id) =>
      CreateSys.setPhase { s with rows := s.rows ++ [(id, c.request.row)] } k c (.done (.ok id))
    | _ => s
  | .die k =>
    match s.calls[k]? with
    | some (_, .done _) => s
    | some (c, _) => s.setPhase k c .dead
    | none => s

/-- the calls after a list of steps -/
def createRun (os : List CreateStep) : CreateSys := Run.run CreateStep.step {} os

end LifeAI
