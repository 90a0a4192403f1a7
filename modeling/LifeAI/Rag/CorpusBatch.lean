import LifeAI.Base

/-!
# Corpus batches

`rag/corpus_batch.py` on one row of `source_import_batches`, from any number of sessions.

* `Batch`    the row, `Batch.reconciles` and the CHECK of migration 0037;
* `Call`     the calls of `record_*`, each with the file that it is about;
* `Session`  the session's object of the row, and what its open transaction has written;
* `Op.exec`  a call, `try_mark_completed`, a commit, a rollback, a refresh.

The sessions do not flush before they execute SQL, and do not expire their objects when they commit
(`autoflush=False`, `expire_on_commit=False`).  An UPDATE holds the row until the end of its
transaction, and is made from the last committed row or from the one that its own transaction has
left; a SELECT sees the same and waits for nobody.
-/

namespace LifeAI.Rag

inductive BatchStatus where
  | discovering | importing | completed
  deriving DecidableEq

/-- the columns that `_atomic_increment` adds to -/
structure Counters where
  discoveredFiles : Nat := 0
  discoveredArchives : Nat := 0
  discoveredConversations : Nat := 0
  discoveredMessages : Nat := 0
  discoveredAttachments : Nat := 0
  discoveredBytes : Nat := 0
  storedOriginalsDone : Nat := 0
  storedOriginalsTotal : Nat := 0
  parsedDone : Nat := 0
  parsedTotal : Nat := 0
  duplicateCount : Nat := 0
  storageFailedCount : Nat := 0
  parseFailedCount : Nat := 0
  unsupportedCount : Nat := 0
  semanticPendingCount : Nat := 0
  deriving DecidableEq

/-- `col = col + :col` for all of them -/
def Counters.add (c deltas : Counters) : Counters where
  discoveredFiles := c.discoveredFiles + deltas.discoveredFiles
  discoveredArchives := c.discoveredArchives + deltas.discoveredArchives
  discoveredConversations := c.discoveredConversations + deltas.discoveredConversations
  discoveredMessages := c.discoveredMessages + deltas.discoveredMessages
  discoveredAttachments := c.discoveredAttachments + deltas.discoveredAttachments
  discoveredBytes := c.discoveredBytes + deltas.discoveredBytes
  storedOriginalsDone := c.storedOriginalsDone + deltas.storedOriginalsDone
  storedOriginalsTotal := c.storedOriginalsTotal + deltas.storedOriginalsTotal
  parsedDone := c.parsedDone + deltas.parsedDone
  parsedTotal := c.parsedTotal + deltas.parsedTotal
  duplicateCount := c.duplicateCount + deltas.duplicateCount
  storageFailedCount := c.storageFailedCount + deltas.storageFailedCount
  parseFailedCount := c.parseFailedCount + deltas.parseFailedCount
  unsupportedCount := c.unsupportedCount + deltas.unsupportedCount
  semanticPendingCount := c.semanticPendingCount + deltas.semanticPendingCount

/-- the two equations of `reconciles` -/
def Counters.reconciles (c : Counters) : Bool :=
  c.discoveredFiles = c.storedOriginalsDone + c.storageFailedCount ∧
    c.parsedDone + c.unsupportedCount + c.semanticPendingCount + c.parseFailedCount =
      c.storedOriginalsDone

/-- a row of `source_import_batches` -/
structure Batch where
  status : BatchStatus := .discovering
  counters : Counters := {}
  completedAt : Option Time := none
  deriving DecidableEq

def Batch.reconciles (b : Batch) : Bool := b.counters.reconciles

/-- `ck_sib_completed_reconciles` -/
def Batch.check (b : Batch) : Bool := b.status ≠ .completed ∨ b.reconciles

/-- a row of `source_import_batch_failures` -/
structure BatchFailure where
  sourceRef : String
  reason : String
  retryable : Bool := false
  deriving DecidableEq

/-- files count from the first one that was discovered -/
abbrev FileId := Nat

/-- a call of `record_*`; the code does not see the file -/
inductive Call where
  | discoveryTotals (files archives conversations messages attachments totalBytes : Nat)
  | storedOriginal (file : FileId)
  | parsed (file : FileId)
  | duplicate (file : FileId)
  | unsupported (file : FileId)
  | storageFailed (file : FileId) (failure : BatchFailure)
  | parseFailed (file : FileId) (failure : BatchFailure)
  deriving DecidableEq

namespace Call

def deltas : Call → Counters
  | .discoveryTotals files archives conversations messages attachments totalBytes =>
    { discoveredFiles := files
      discoveredArchives := archives
      discoveredConversations := conversations
      discoveredMessages := messages
      discoveredAttachments := attachments
      discoveredBytes := totalBytes
      storedOriginalsTotal := files
      parsedTotal := files }
  | .storedOriginal _ => { storedOriginalsDone := 1 }
  | .parsed _ => { parsedDone := 1 }
  | .duplicate _ => { storedOriginalsDone := 1, duplicateCount := 1 }
  | .unsupported _ => { unsupportedCount := 1 }
  | .storageFailed .. => { storageFailedCount := 1 }
  | .parseFailed .. => { parseFailedCount := 1 }

/-- `also_set` -/
def alsoSet : Call → Option BatchStatus
  | .discoveryTotals .. => some .importing
  | _ => none

/-- the row that is added to the session -/
def failure? : Call → Option BatchFailure
  | .storageFailed _ failure | .parseFailed _ failure => some failure
  | _ => none

end Call

/-- the UPDATE of `_atomic_increment` -/
def Batch.atomicIncrement (b : Batch) (c : Call) : Batch :=
  { b with counters := b.counters.add c.deltas, status := c.alsoSet.getD b.status }

/-- the object of a session: the attributes as they were loaded, and the time of completion when
`try_mark_completed` has set `status` and `completed_at` since -/
structure BatchObject where
  loaded : Batch
  completedAt : Option Time := none
  deriving DecidableEq

/-- `loaded` with the attributes that have been set -/
def BatchObject.written (o : BatchObject) (b : Batch) : Batch :=
  match o.completedAt with
  | none => b
  | some time =>
    { b with
      status := if o.loaded.status = .completed then b.status else .completed
      completedAt := if o.loaded.completedAt = some time then b.completedAt else some time }

/-- an attribute has another value than the loaded one -/
def BatchObject.dirty (o : BatchObject) : Bool := o.written o.loaded ≠ o.loaded

structure Session where
  /-- none when its attributes are expired -/
  object : Option BatchObject
  /-- the rows that the next flush inserts -/
  added : List BatchFailure := []
  /-- no variable: the calls of the open transaction -/
  calls : List Call := []
  deriving DecidableEq

/-- the flush of the object -/
def Session.flush (q : Session) (b : Batch) : Batch := (q.object.map (·.written b)).getD b

abbrev SessionId := Nat

structure Sys where
  /-- the committed row -/
  row : Batch := {}
  /-- the session that holds the row, and the row as it has left it -/
  lock : Option (SessionId × Batch) := none
  failures : List BatchFailure := []
  sessions : List Session := []
  /-- no variable: the calls whose transaction has committed -/
  history : List Call := []
  deriving DecidableEq

namespace Sys

variable (s : Sys) (i : SessionId)

/-- the row that a statement of the session sees -/
def view : Batch :=
  match s.lock with
  | none => s.row
  | some (j, b) => if j = i then b else s.row

/-- another session holds the row -/
def waits : Bool := s.lock.any (·.1 ≠ i)

/-- the object with its attributes loaded -/
def load (q : Session) : BatchObject := q.object.getD { loaded := s.view i }

/-- the transaction is rolled back: new objects are gone, the others are expired -/
def rollback : Sys :=
  { s with
    lock := s.lock.filter (·.1 ≠ i)
    sessions := s.sessions.set i { object := none } }

/-- a call of `record_*` -/
def record (q : Session) (c : Call) : Sys :=
  if s.waits i then s
  else if ¬ ((s.view i).atomicIncrement c).check then s.rollback i
  else
    { s with
      lock := some (i, (s.view i).atomicIncrement c)
      sessions := s.sessions.set i
        { -- expired; the new failure reads `batch.owner_id`
          object := c.failure?.map fun _ => { loaded := (s.view i).atomicIncrement c }
          added := q.added ++ c.failure?.toList
          calls := q.calls ++ [c] } }

/-- what `try_mark_completed` returns -/
def completes (q : Session) : Bool := (s.load i q).loaded.reconciles

def tryMarkCompleted (q : Session) (now : Time) : Sys :=
  { s with sessions := s.sessions.set i { q with
      object := some { s.load i q with
        completedAt := if s.completes i q then some now else (s.load i q).completedAt } } }

/-- the flush of the session's object, then its commit -/
def commit (q : Session) : Sys :=
  if q.object.any (·.dirty) ∧ s.waits i then s
  else if q.object.any (·.dirty) ∧ ¬ (q.flush (s.view i)).check then s.rollback i
  else
    { s with
      row := q.flush (s.view i)
      lock := s.lock.filter (·.1 ≠ i)
      failures := s.failures ++ q.added
      history := s.history ++ q.calls
      sessions := s.sessions.set i
        { object := q.object.map fun o => { loaded := o.written o.loaded } } }

end Sys

inductive Op where
  /-- a session that loads the row -/
  | begins
  | record (i : SessionId) (c : Call)
  | tryMarkCompleted (i : SessionId) (now : Time)
  | refresh (i : SessionId)
  | commit (i : SessionId)
  | rollback (i : SessionId)
  deriving DecidableEq

def Op.exec (s : Sys) (o : Op) : Sys :=
  match o with
  | .begins => { s with sessions := s.sessions ++ [{ object := some { loaded := s.row } }] }
  | .record i c => (s.sessions[i]?.map (s.record i · c)).getD s
  | .tryMarkCompleted i now => (s.sessions[i]?.map (s.tryMarkCompleted i · now)).getD s
  | .refresh i => (s.sessions[i]?.map fun q =>
      { s with
        sessions := s.sessions.set i { q with object := some { loaded := s.view i } } }).getD s
  | .commit i => (s.sessions[i]?.map (s.commit i ·)).getD s
  | .rollback i => s.rollback i

/-- after `create_batch` -/
def Sys.start : Sys := {}

end LifeAI.Rag
