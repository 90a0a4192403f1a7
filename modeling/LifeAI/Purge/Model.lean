import LifeAI.Import.Rows

/-!
# The purge of a source

`storage/purge.py`, with `maybe_purge_blob`, `storage_key_still_referenced_global` and the database
functions that they call.

* `Db`, `Store`        the tables, and the blobs on disk;
* `Write`              what a transaction has written and not committed;
* `Call`, `Call.step`  a call of `purge_source` or `retry_source_blob_purge` and its next
                       statement;
* `Sys`, `Op.exec`     the calls side by side, with their locks.

A session keeps what it has loaded (`expire_on_commit=False`, and a query with `FOR UPDATE` does not
refresh it), so the second phase of `purge_source` works on the copy of the first one.
-/

namespace LifeAI.Purge

open Import (DocId ImportJobId IndexStatus DeletionStatus ImportJob ImportJobStatus)

abbrev ChunkId := Nat
abbrev UnitId := Nat
abbrev CallId := Nat

/-! ## the tables -/

inductive LifecycleStatus where
  | active | revoked | purged
  deriving DecidableEq

structure Document where
  uploadedBy : Option OwnerId
  importJobId : Option ImportJobId := none
  status : IndexStatus := .received
  errorMessage : Option String := none
  storageKey : Option String := none
  chunkCount : Nat := 0
  deletedAt : Option Time := none
  deletionStatus : DeletionStatus := .none
  /-- `onupdate`: every UPDATE by the session sets it -/
  updatedAt : Time := 0
  deriving DecidableEq

structure Chunk where
  id : ChunkId
  document : DocId
  owner : OwnerId
  deriving DecidableEq

/-- a row of `document_source_units` with its row of `memory_source_units` -/
structure SourceUnit where
  document : DocId
  owner : OwnerId
  chunk : Option ChunkId := none
  lifecycle : LifecycleStatus := .active
  contentText : Option String := none
  purgedAt : Option Time := none
  purgeReason : Option String := none
  deriving DecidableEq

/-- `memory_source_lifecycle_events` -/
structure LifecycleEvent where
  owner : OwnerId
  unit : UnitId
  fromStatus : LifecycleStatus
  toStatus : LifecycleStatus
  reason : String
  deriving DecidableEq

structure AuditEntry where
  user : OwnerId
  action : String
  entityType : String
  entityId : DocId
  detail : String
  ipAddress : Option String
  deriving DecidableEq

structure Db where
  documents : List Document := []
  chunks : List Chunk := []
  units : List SourceUnit := []
  events : List LifecycleEvent := []
  /-- `source_id` and `owner_id` of the claims -/
  claims : List (DocId × OwnerId) := []
  jobs : List ImportJob := []
  audit : List AuditEntry := []
  /-- keys of project sources and checkpoints -/
  projectKeys : List String := []
  /-- the users with the role `founder` -/
  founders : List OwnerId := []

structure Store where
  db : Db := {}
  /-- the storage root -/
  blobs : String → Bool := fun _ => false

/-! ## queries -/

/-- a row of `purge_source`'s query -/
def Document.liveOf (d : Document) (owner : OwnerId) : Bool :=
  d.uploadedBy = some owner ∧ d.deletedAt = none

/-- a row of `retry_source_blob_purge`'s query -/
def Document.deletedOf (d : Document) (owner : OwnerId) : Bool :=
  d.uploadedBy = some owner ∧ d.deletedAt ≠ none

namespace Db

variable (db : Db)

/-- a live document of the job is on its way -/
def stuck (j : ImportJobId) : Bool :=
  db.documents.any fun d => d.importJobId = some j ∧ d.deletedAt = none ∧ d.status.resumable

/-- `storage_key_still_referenced_global` -/
def stillReferenced (key : String) : Bool :=
  (db.documents.any fun d => d.storageKey = some key ∧ d.deletedAt = none) ∨
  ((List.range db.jobs.length).any fun j => (db.jobs[j]?).any fun r =>
    r.sourceStorageKey = key ∧ (r.stillNeedsRawBlob ∨ db.stuck j)) ∨
  key ∈ db.projectKeys

/-- the source units of the document, with the status that the query reads -/
def unitsOf (d : DocId) (owner : OwnerId) : List (UnitId × LifecycleStatus) :=
  (List.range db.units.length).filterMap fun u => (db.units[u]?).bind fun r =>
    if r.document = d ∧ r.owner = owner then some (u, r.lifecycle) else none

def chunksOf (d : DocId) (owner : OwnerId) : List Chunk :=
  db.chunks.filter fun c => c.document = d ∧ c.owner = owner

/-- `trg_dsu_guard_update` lets every `chunk_id` of them go to NULL -/
def clearable (d : DocId) (owner : OwnerId) : Bool :=
  (db.chunksOf d owner).all fun c => db.units.all fun u => u.chunk = some c.id → u.lifecycle ≠ .active

end Db

/-! ## writes -/

def purgeReason : String := "source_deleted"

inductive Write where
  /-- `transition_own_memory_source(…, 'purged', …)` -/
  | transition (u : UnitId) (r : SourceUnit) (now : Time)
  /-- the DELETE of the chunks, with `ON DELETE SET NULL` -/
  | deleteChunks (d : DocId) (owner : OwnerId)
  | document (d : DocId) (row : Document)
  | cancelJob (j : ImportJobId) (now : Time)
  | audit (e : AuditEntry)
  deriving DecidableEq

def Write.apply (db : Db) : Write → Db
  | .transition u r now =>
    { db with
      units := db.units.modify u fun r =>
        { r with
          lifecycle := .purged
          purgedAt := some now
          purgeReason := some purgeReason
          contentText := none }
      events := db.events ++ [⟨r.owner, u, r.lifecycle, .purged, purgeReason⟩] }
  | .deleteChunks d owner =>
    let gone := (db.chunksOf d owner).map (·.id)
    { db with
      chunks := db.chunks.filter fun c => ¬ (c.document = d ∧ c.owner = owner)
      units := db.units.map fun u => { u with chunk := u.chunk.filter (· ∉ gone) } }
  | .document d row => { db with documents := db.documents.set d row }
  | .cancelJob j now =>
    { db with jobs := db.jobs.modify j fun r =>
        { r with status := .cancelled, completedAt := some now } }
  | .audit e => { db with audit := db.audit ++ [e] }

/-- what a transaction with these writes sees -/
def Db.view (db : Db) (writes : List Write) : Db := writes.foldl Write.apply db

/-- the UPDATE of `deletion_status` -/
def Db.setDeletionStatus (db : Db) (d : DocId) (st : DeletionStatus) (now : Time) : Db :=
  { db with documents := db.documents.modify d fun r =>
      { r with deletionStatus := st, updatedAt := now } }

/-- `transition_own_memory_source(u, 'purged', PURGE_REASON)` of a caller; `none` raises -/
def transitionOwnMemorySource (db : Db) (caller : OwnerId) (u : UnitId) (now : Time) : Option Write :=
  if caller ∉ db.founders then none
  else
    match db.units[u]? with
    | none => none
    | some r =>
      if r.owner ≠ caller ∨ r.lifecycle = .purged then none
      else some (.transition u r now)

/-! ## calls -/

structure PurgeSourceResult where
  documentId : DocId
  sourcesPurged : Nat := 0
  sourcesAlreadyPurged : Nat := 0
  chunksDeleted : Nat := 0
  claimsPreserved : Nat := 0
  legacyWithoutMemorySource : Bool := false
  deletionStatus : DeletionStatus := .none
  deriving DecidableEq

inductive Outcome where
  | purged (r : PurgeSourceResult)
  | retried (st : DeletionStatus)
  /-- `SourcePurgeNotFoundError` -/
  | notFound (message : String)
  /-- another exception, after a rollback -/
  | failed
  /-- the process is gone -/
  | died
  deriving DecidableEq

inductive Kind where
  | purgeSource | retrySourceBlobPurge
  deriving DecidableEq

/-- the statement that comes next -/
inductive Pc where
  /-- SELECT … FOR UPDATE of a live document -/
  | locking
  | listing
  | transitioning (todo : List (UnitId × LifecycleStatus))
  | deletingChunks
  | counting
  | loadingJob
  | committing (cancels : Option ImportJobId)
  /-- SELECT … FOR UPDATE of a deleted document -/
  | relocking
  | lockingKey (key : String)
  /-- `storage_key_still_referenced` -/
  | checking (key : String)
  /-- `storage.delete` -/
  | deleting (key : String)
  /-- the commit of `deletion_status`; the key is the one whose lock is held -/
  | settling (key : Option String) (st : DeletionStatus)
  | done (o : Outcome)
  deriving DecidableEq

structure Call where
  kind : Kind
  doc : DocId
  owner : OwnerId
  clientIp : Option String := none
  pc : Pc
  writes : List Write := []
  /-- the document as the session has it -/
  held : Option Document := none
  result : PurgeSourceResult
  /-- the first phase is committed -/
  committed : Bool := false
  deriving DecidableEq

structure Env where
  /-- the statement raises -/
  fails : Bool := false
  /-- `storage.delete` raises a `StorageError` -/
  storageError : Bool := false
  /-- it raises an `OSError` -/
  osError : Bool := false
  now : Time := 0
  deriving DecidableEq

def pyBool (b : Bool) : String := if b then "True" else "False"

def deletionText : DeletionStatus → String
  | .none => "none"
  | .pending => "pending"
  | .purged => "purged"
  | .failed => "failed"

/-- the statuses that a purge leaves as they are -/
def keptByPurge : IndexStatus → Bool
  | .indexed | .failed | .cancelled => true
  | _ => false

/-- the row that the first phase leaves -/
def purgedRow (now : Time) (d : Document) : Document :=
  { d with
    deletedAt := some now
    chunkCount := 0
    status := if keptByPurge d.status then d.status else .cancelled
    errorMessage := if keptByPurge d.status then d.errorMessage
      else some "Källan togs bort innan bearbetningen slutfördes."
    deletionStatus := if d.storageKey = none then .purged else .pending
    updatedAt := now }

/-- the job is cancelled with its only document -/
def cancelledWith (j : ImportJob) (owner : OwnerId) : Bool :=
  j.ownerId = owner ∧ (j.status = .pending ∨ j.status = .running) ∧ j.progressTotal ≤ 1

namespace Call

variable (c : Call)

def goto (pc : Pc) : Call := { c with pc }

/-- the transaction is over, with its locks -/
def endWith (o : Outcome) : Call := { c with pc := .done o, writes := [] }

/-- an exception: `purge_source` does not raise what its second phase raises -/
def fail (o : Outcome) : Call := c.endWith (if c.committed then .purged c.result else o)

def auditEntry (r : PurgeSourceResult) : AuditEntry :=
  let sourcesPurged := r.sourcesPurged
  let sourcesAlreadyPurged := r.sourcesAlreadyPurged
  let chunksDeleted := r.chunksDeleted
  let claimsPreserved := r.claimsPreserved
  let legacy := pyBool r.legacyWithoutMemorySource
  let deletionStatus := deletionText r.deletionStatus
  { user := c.owner
    action := "source_purged"
    entityType := "document"
    entityId := c.doc
    detail := s!"sources_purged={sourcesPurged} sources_already_purged={sourcesAlreadyPurged} "
      ++ s!"chunks_deleted={chunksDeleted} claims_preserved={claimsPreserved} "
      ++ s!"legacy_without_memory_source={legacy} deletion_status={deletionStatus}"
    ipAddress := c.clientIp }

/-- the end of the second phase -/
def settled (st : DeletionStatus) : Call :=
  c.endWith (if c.kind = .purgeSource then .purged { c.result with deletionStatus := st }
    else .retried st)

/-- the first phase, from the lock on the row to the commit; the second one follows a `pending` -/
def commit (now : Time) (cancels : Option ImportJobId) (d : Document) : List Write × Call :=
  let row := purgedRow now d
  let result := { c.result with deletionStatus := row.deletionStatus }
  let writes := c.writes ++ [.document c.doc row]
    ++ (cancels.toList.map fun j => .cancelJob j now) ++ [.audit (c.auditEntry result)]
  let c : Call := { c with held := some row, result, committed := true, writes := [] }
  (writes, c.goto (if row.deletionStatus = .pending then .relocking else .done (.purged result)))

/-- the next statement of a call that waits for no lock -/
def step (env : Env) (s : Store) : Store × Call :=
  let doc := c.doc
  let owner := c.owner
  let view := s.db.view c.writes
  match c.pc with
  | .done _ => (s, c)
  | .deleting key =>
    if env.fails ∨ env.osError then (s, c.fail .failed)
    else if env.storageError then (s, c.goto (.settling (some key) .failed))
    else ({ s with blobs := fun k => if k = key then false else s.blobs k },
      c.goto (.settling (some key) .purged))
  | pc =>
    if env.fails then (s, c.fail .failed)
    else match pc with
    | .locking =>
      match (s.db.documents[c.doc]?).filter (·.liveOf c.owner) with
      | none => (s, c.endWith (.notFound s!"document {doc} not found or not owned by {owner}"))
      | some d => (s, { c with held := some d, pc := .listing })
    | .listing =>
      let units := view.unitsOf c.doc c.owner
      let result := { c.result with legacyWithoutMemorySource := units.isEmpty }
      (s, { c with result, pc := .transitioning units })
    | .transitioning [] => (s, c.goto .deletingChunks)
    | .transitioning ((u, st) :: todo) =>
      let r := c.result
      if st = .purged then
        let result := { r with sourcesAlreadyPurged := r.sourcesAlreadyPurged + 1 }
        (s, { c with result, pc := .transitioning todo })
      else match transitionOwnMemorySource view c.owner u env.now with
        | none => (s, c.fail .failed)
        | some w =>
          let result := { r with sourcesPurged := r.sourcesPurged + 1 }
          (s, { c with result, writes := c.writes ++ [w], pc := .transitioning todo })
    | .deletingChunks =>
      if ¬ view.clearable c.doc c.owner then (s, c.fail .failed)
      else
        let result := { c.result with chunksDeleted := (view.chunksOf c.doc c.owner).length }
        (s, { c with
          result
          writes := c.writes ++ [.deleteChunks c.doc c.owner]
          pc := .counting })
    | .counting =>
      let result := { c.result with
        claimsPreserved := view.claims.countP fun k => k.1 = c.doc ∧ k.2 = c.owner }
      (s, { c with result, pc := .loadingJob })
    | .loadingJob =>
      let job := (c.held.bind (·.importJobId)).filter fun j =>
        (view.jobs[j]?).any (cancelledWith · c.owner)
      (s, c.goto (.committing job))
    | .committing cancels =>
      match c.held with
      | none => (s, c.fail .failed)
      | some d =>
        let (writes, c) := c.commit env.now cancels d
        ({ s with db := s.db.view writes }, c)
    | .relocking =>
      match (s.db.documents[c.doc]?).filter (·.deletedOf c.owner) with
      | none => (s, c.fail (.notFound (s!"document {doc} not found, not owned by {owner}, "
          ++ "or not yet soft-deleted")))
      | some row =>
        let d := c.held.getD row
        if d.deletionStatus = .purged then (s, c.settled .purged)
        else match d.storageKey with
          | none => (s, { c with held := some d, pc := .settling none .purged })
          | some key => (s, { c with held := some d, pc := .lockingKey key })
    | .lockingKey key => (s, c.goto (.checking key))
    | .checking key =>
      (s, c.goto (if s.db.stillReferenced key then .settling (some key) .pending
        else .deleting key))
    | .settling _ st =>
      let loaded := c.held.map (·.deletionStatus)
      if loaded = some st then (s, c.settled st)
      else ({ s with db := s.db.setDeletionStatus c.doc st env.now }, c.settled st)
    | .deleting _ | .done _ => (s, c)

/-- the row of `documents` that the transaction has locked -/
def holdsRow (d : DocId) : Bool :=
  match c.pc with
  | .locking | .relocking | .done _ => false
  | _ => c.doc = d

/-- the row whose lock the next statement takes -/
def takesRow (d : DocId) : Bool :=
  match c.pc with
  | .locking | .relocking => c.doc = d
  | _ => false

/-- the storage key whose lock the transaction holds -/
def holdsKey : Option String :=
  match c.pc with
  | .checking key | .deleting key => some key
  | .settling key _ => key
  | _ => none

def takesKey : Option String :=
  match c.pc with
  | .lockingKey key => some key
  | _ => none

end Call

/-! ## the calls side by side -/

structure Sys where
  store : Store := {}
  calls : List Call := []

inductive Op where
  | purgeSource (d : DocId) (owner : OwnerId) (clientIp : Option String)
  | retrySourceBlobPurge (d : DocId) (owner : OwnerId)
  | step (i : CallId) (env : Env)
  | crash (i : CallId)
  deriving DecidableEq

namespace Sys

variable (s : Sys)

/-- the next statement of the call waits for a lock of another one -/
def waits (i : CallId) (c : Call) : Bool :=
  (List.range s.calls.length).any fun k => k ≠ i ∧ (s.calls[k]?).any fun b =>
    (c.takesRow c.doc ∧ b.holdsRow c.doc) ∨ (c.takesKey ≠ none ∧ b.holdsKey = c.takesKey)

end Sys

def Op.exec (s : Sys) : Op → Sys
  | .purgeSource doc owner clientIp =>
    { s with calls := s.calls ++ [{
        kind := .purgeSource, doc, owner, clientIp
        pc := .locking, result := { documentId := doc } }] }
  | .retrySourceBlobPurge doc owner =>
    { s with calls := s.calls ++ [{
        kind := .retrySourceBlobPurge, doc, owner
        pc := .relocking, result := { documentId := doc } }] }
  | .step i env =>
    match s.calls[i]? with
    | none => s
    | some c =>
      if s.waits i c then s
      else { store := (c.step env s.store).1, calls := s.calls.set i (c.step env s.store).2 }
  | .crash i =>
    match s.calls[i]? with
    | none => s
    | some c => { s with calls := s.calls.set i (match c.pc with
        | .done _ => c
        | _ => c.endWith .died) }

end LifeAI.Purge
