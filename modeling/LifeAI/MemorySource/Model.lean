import LifeAI.Lib.Inserts
import LifeAI.Base

/-!
# Memory source units

`rag/memory_source.py` over the tables of migration 0019, the units of one owner under sessions that
run at the same time.

* `MemorySourceUnit`  a row of `memory_source_units` with its row of `document_source_units`;
* `Session`           a session: what its transaction wrote, its identity map, its call;
* `check`             what `get_or_create_memory_source_unit` demands of a unit that it found;
* `Event`, `perform`  what the statements of the calls and of the transitions do, one by one.

A unit is named by its position, the UUIDs being fresh.  A statement that has to wait leaves
everything as it is.  A deferred trigger that refuses a commit is an `Event.rollback`.
-/

namespace LifeAI.MemorySource
open Inserts (Home)

abbrev Uuid := String
abbrev UnitId := ℕ
abbrev SessionId := ℕ

inductive SourceKind where
  | documentChunk | documentVersion | documentRecord
  deriving DecidableEq

inductive SnapshotStatus where
  | exact | degraded | missing
  deriving DecidableEq

inductive LifecycleStatus where
  | active | revoked | purged
  deriving DecidableEq

/-- an id that may be NULL, as an f-string shows it -/
def shown (id : Option Uuid) : String := id.getD "None"

def LifecycleStatus.value : LifecycleStatus → String
  | .active => "active"
  | .revoked => "revoked"
  | .purged => "purged"

def SnapshotStatus.shown : SnapshotStatus → String
  | .exact => "SnapshotStatus.exact"
  | .degraded => "SnapshotStatus.degraded"
  | .missing => "SnapshotStatus.missing"

def sourceIdentityKey (sourceKind : SourceKind) (chunkId versionId : Option Uuid)
    (documentId : Uuid) : String :=
  match sourceKind with
  | .documentChunk => s!"document_chunk:{shown chunkId}"
  | .documentVersion => s!"document_version:{shown versionId}"
  | .documentRecord => s!"document_record:{documentId}"

/-- the owner is that of all units -/
structure DocumentSourceLocator where
  documentId : Uuid
  versionId : Option Uuid
  chunkId : Option Uuid
  contentText : Option String
  snapshotStatus : SnapshotStatus
  deriving DecidableEq

namespace DocumentSourceLocator

variable (l : DocumentSourceLocator)

def sourceKind : SourceKind :=
  if l.chunkId.isSome then .documentChunk
  else if l.versionId.isSome then .documentVersion
  else .documentRecord

def identityKey : String := sourceIdentityKey l.sourceKind l.chunkId l.versionId l.documentId

end DocumentSourceLocator

/-! ## the tables -/

/-- the columns that a transition writes -/
structure Standing where
  lifecycleStatus : LifecycleStatus
  contentHash : Option String
  deriving DecidableEq

structure DocumentSourceUnit where
  documentId : Uuid
  versionId : Option Uuid
  chunkId : Option Uuid
  deriving DecidableEq

structure MemorySourceUnit where
  sourceKind : SourceKind
  sourceIdentityKey : String
  snapshotStatus : SnapshotStatus
  standing : Standing
  /-- its row in `document_source_units` -/
  document : Option DocumentSourceUnit
  home : Home SessionId
  deriving DecidableEq

/-- how far a call is, from the SAVEPOINT on: the INSERT of the unit, that of its document row, and
the lookup after a conflict -/
inductive Stage where
  | inserting
  | linking (i : UnitId)
  | looking
  deriving DecidableEq

structure Pending where
  locator : DocumentSourceLocator
  stage : Stage
  deriving DecidableEq

structure Session where
  /-- what the caller wrote in its transaction -/
  work : List ℕ := []
  /-- the transitions of its transaction, the last one first -/
  transitions : List (UnitId × Standing) := []
  /-- the units of which it deleted the chunk -/
  cleared : List UnitId := []
  /-- the rows in its identity map, which a commit does not expire -/
  loaded : List (UnitId × Standing) := []
  loadedDocuments : List (UnitId × DocumentSourceUnit) := []
  pending : Option Pending := none
  /-- a statement failed, and its transaction was not rolled back: only a rollback is left -/
  deactive : Bool := false
  deriving DecidableEq

/-- the ids that the foreign keys may refer to -/
structure Referred where
  documents : List Uuid := []
  versions : List Uuid := []
  chunks : List Uuid := []
  deriving DecidableEq

structure Db where
  units : List MemorySourceUnit := []
  /-- the row locks -/
  holder : UnitId → Option SessionId := fun _ => none
  sessions : SessionId → Session := fun _ => {}
  referred : Referred := {}
  /-- what the callers committed -/
  work : List ℕ := []

namespace Db

variable (s : Db) (t : SessionId)

/-- the unit under an identity key, as the session finds it -/
def underKey (key : String) : Option (MemorySourceUnit × UnitId) :=
  Inserts.underKey MemorySourceUnit.home MemorySourceUnit.sourceIdentityKey t key s.units

/-- the unique index makes an INSERT wait for the end of another session: that of an INSERT under
the key, or of a transition of the unit under it -/
def waits (key : String) : Bool :=
  Inserts.keyTaken MemorySourceUnit.home MemorySourceUnit.sourceIdentityKey t key s.units ∨
    (s.underKey t key).any fun p => (s.holder p.2).any (· ≠ t)

/-- the standing of a unit, as the session reads it -/
def standing (i : UnitId) (u : MemorySourceUnit) : Standing :=
  ((s.sessions t).transitions.lookup i).getD u.standing

/-- the document row of a unit, as the session reads it -/
def document (i : UnitId) (d : DocumentSourceUnit) : DocumentSourceUnit :=
  if i ∈ (s.sessions t).cleared then { d with chunkId := none } else d

def setSession (x : Session) : Db := { s with sessions := Function.update s.sessions t x }

/-- the session ends without its writes -/
def rollback : Db where
  units := s.units.map fun u => { u with home := u.home.rollingBack t }
  holder := fun i => if s.holder i = some t then none else s.holder i
  sessions := Function.update s.sessions t {}
  referred := s.referred
  work := s.work

/-- the session ends with its writes; a unit of it without a document row is refused -/
def commit : Db :=
  if s.units.any fun u => u.home = .pending t ∧ u.document.isNone then s.rollback t
  else
    { units := s.units.mapIdx fun i u =>
        { u with
          standing := s.standing t i u
          document := u.document.map (s.document t i)
          home := u.home.committing t }
      holder := fun i => if s.holder i = some t then none else s.holder i
      sessions := Function.update s.sessions t
        { loaded := (s.sessions t).loaded, loadedDocuments := (s.sessions t).loadedDocuments }
      referred := s.referred
      work := s.work ++ (s.sessions t).work }

end Db

/-! ## a call -/

/-- what a call answers -/
structure Answer where
  session : SessionId
  locator : DocumentSourceLocator
  result : Except Err UnitId
  deriving DecidableEq

section
variable (sha256 : String → String) (s : Db) (t : SessionId) (l : DocumentSourceLocator)

def contentHashVersion : String := "sha256-utf8-v1"

def computeContentHash (contentText : Option String) : Option String × Option String :=
  match contentText with
  | none => (none, none)
  | some text => (some (sha256 text), some contentHashVersion)

/-- the hash of a locator -/
def DocumentSourceLocator.contentHash : Option String := (computeContentHash sha256 l.contentText).1

/-- `ck_msu_content_hash_format` -/
def hexDigest (hash : String) : Bool :=
  hash.length = 64 ∧ hash.toList.all fun c => c.isDigit ∨ c ∈ ['a', 'b', 'c', 'd', 'e', 'f']

/-- the CHECKs of `memory_source_units` on the row that the call inserts -/
def checkUnit : Except Err Unit :=
  let hash := computeContentHash sha256 l.contentText
  let given : Bool := match l.snapshotStatus with
    | .exact => l.contentText.isSome ∧ hash.1.isSome ∧ hash.2.isSome
    | .degraded | .missing => l.contentText.isNone ∧ hash.1.isNone ∧ hash.2.isNone
  if ¬ given then .error (.integrityError "ck_msu_content_matches_snapshot")
  else if ¬ hash.1.all hexDigest then .error (.integrityError "ck_msu_content_hash_format")
  else .ok ()

/-- the foreign keys of `document_source_units` -/
def checkDocument (r : Referred) : Except Err Unit :=
  if l.documentId ∉ r.documents then
    .error (.integrityError "document_source_units_document_id_fkey")
  else if ¬ l.versionId.all (· ∈ r.versions) then
    .error (.integrityError "document_source_units_version_id_fkey")
  else if ¬ l.chunkId.all (· ∈ r.chunks) then
    .error (.integrityError "document_source_units_chunk_id_fkey")
  else .ok ()

/-- what the call demands of the unit under its identity key -/
def check (u : MemorySourceUnit) (i : UnitId) (standing : Standing) (d : DocumentSourceUnit) :
    Except Err UnitId :=
  let hash := l.contentHash sha256
  if u.sourceKind ≠ l.sourceKind ∨ d.documentId ≠ l.documentId ∨ d.versionId ≠ l.versionId ∨
      (d.chunkId.isSome ∧ d.chunkId ≠ l.chunkId) then
    .error (.memorySourceIdentityConflict (
      s!"memory_source_units {i}: source_identity_key='{l.identityKey}' matched but locator " ++
      s!"differs (existing document_id={d.documentId}, version_id={shown d.versionId}, " ++
      s!"chunk_id={shown d.chunkId} vs. requested document_id={l.documentId}, " ++
      s!"version_id={shown l.versionId}, chunk_id={shown l.chunkId})"))
  else if standing.lifecycleStatus ≠ .active then
    .error (.memorySourceIdentityConflict (
      s!"memory_source_units {i}: source_identity_key='{l.identityKey}' matched an existing " ++
      s!"source, but its lifecycle_status is '{standing.lifecycleStatus.value}', not 'active' " ++
      "— refusing to silently reuse a revoked or purged source"))
  else if u.snapshotStatus ≠ l.snapshotStatus ∨ standing.contentHash ≠ hash then
    .error (.memorySourceIdentityConflict (
      s!"memory_source_units {i}: snapshot_status/content_hash mismatch on lookup (expected " ++
      s!"snapshot_status={l.snapshotStatus.shown}, content_hash={shown hash}; found " ++
      s!"snapshot_status={u.snapshotStatus.shown}, content_hash={shown standing.contentHash})"))
  else .ok i

/-- the session goes on with its call -/
def Db.goOn (stage : Stage) : Db :=
  s.setSession t { s.sessions t with pending := some ⟨l, stage⟩ }

/-- the call returns or raises, with its SAVEPOINT released or rolled back -/
def Db.finish (result : Except Err UnitId) : Option Answer × Db :=
  (some ⟨t, l, result⟩, s.setSession t { s.sessions t with pending := none })

/-- the call raises and leaves its nested transaction deactive -/
def Db.fail (e : Err) : Option Answer × Db :=
  (some ⟨t, l, .error e⟩, s.setSession t { s.sessions t with pending := none, deactive := true })

/-- ROLLBACK TO SAVEPOINT, after the INSERT of the unit -/
def Db.rollbackUnit (i : UnitId) : Db :=
  { s with units := s.units.modify i fun u => { u with home := .rolledBack } }

/-- the flush of the unit -/
def insertUnit : Option Answer × Db :=
  if l.contentText.any fun text => '\x00' ∈ text.toList then s.fail t l .valueError
  else match checkUnit sha256 l with
    | .error e => s.finish t l (.error e)
    | .ok () =>
      if s.waits t l.identityKey then (none, s)
      -- `uq_msu_owner_identity`
      else if (s.underKey t l.identityKey).isSome then (none, s.goOn t l .looking)
      else
        let unit : MemorySourceUnit :=
          { sourceKind := l.sourceKind, sourceIdentityKey := l.identityKey
            snapshotStatus := l.snapshotStatus
            standing := { lifecycleStatus := .active, contentHash := l.contentHash sha256 }
            document := none, home := .pending t }
        (none, { s with units := s.units ++ [unit] }.goOn t l (.linking s.units.length))

/-- the flush of the document row -/
def insertDocument (i : UnitId) : Option Answer × Db :=
  match checkDocument l s.referred with
  | .error e => (s.rollbackUnit i).finish t l (.error e)
  | .ok () =>
    let d : DocumentSourceUnit :=
      { documentId := l.documentId, versionId := l.versionId, chunkId := l.chunkId }
    { s with units := s.units.modify i fun u => { u with document := some d } }.finish t l (.ok i)

/-- the SELECT under the identity key, with the rows that the identity map has -/
def lookUp : Option Answer × Db :=
  let x := s.sessions t
  match s.underKey t l.identityKey with
  | some (u, i) =>
    match u.document with
    | some d => s.finish t l (check sha256 l u i ((x.loaded.lookup i).getD (s.standing t i u))
        ((x.loadedDocuments.lookup i).getD (s.document t i d)))
    | none => s.finish t l (.error (.memorySourceIdentityConflict (
        s!"uq_msu_owner_identity fired for identity_key='{l.identityKey}' but no matching " ++
        "memory_source_units row is visible — likely a concurrent, not-yet-committed writer; " ++
        "retry")))
  | none => s.finish t l (.error (.memorySourceIdentityConflict (
      s!"uq_msu_owner_identity fired for identity_key='{l.identityKey}' but no matching " ++
      "memory_source_units row is visible — likely a concurrent, not-yet-committed writer; retry")))

/-- the statement that the call is at fails with an error that is no IntegrityError: the database
cancels it to end a deadlock, or at a timeout -/
def cancelled (stage : Stage) : Option Answer × Db :=
  match stage with
  -- the flush rolls back to the SAVEPOINT
  | .linking i => (s.rollbackUnit i).fail t l (.sqlException "OperationalError")
  | .inserting | .looking => s.fail t l (.sqlException "OperationalError")

end

/-! ## lifecycle transitions -/

/-- what `transition_own_memory_source` makes of a standing -/
def Standing.transition (target : LifecycleStatus) (x : Standing) : Option Standing :=
  match target, x.lifecycleStatus with
  | .revoked, .active => some { x with lifecycleStatus := .revoked }
  | .active, .revoked => some { x with lifecycleStatus := .active }
  | .purged, .active | .purged, .revoked => some ⟨.purged, none⟩
  | _, _ => none

section
variable (s : Db) (t : SessionId) (i : UnitId)

/-- a transition locks the row, and raises where it is not found or the transition is illegal -/
def transition (target : LifecycleStatus) : Db :=
  match (s.units[i]?).filter fun u => u.home.visible t with
  | none => s.rollback t
  | some u =>
    if (s.holder i).any (· ≠ t) then s
    else match (s.standing t i u).transition target with
      | none => s.rollback t
      | some x =>
        { s with holder := Function.update s.holder i (some t) }.setSession t
          { s.sessions t with transitions := (i, x) :: (s.sessions t).transitions }

/-- the chunk of a unit is deleted; `trg_dsu_guard_update` demands that the unit is not active -/
def deleteChunk : Db :=
  match (s.units[i]?).filter fun u => u.home.visible t with
  | none => s
  | some u =>
    if (s.standing t i u).lifecycleStatus = .active then s.rollback t
    else s.setSession t { s.sessions t with cleared := i :: (s.sessions t).cleared }

end

/-! ## events -/

inductive Event where
  /-- the caller writes something of its own -/
  | write (t : SessionId) (w : ℕ)
  /-- the caller loads a unit, unless its identity map has it -/
  | load (t : SessionId) (i : UnitId)
  /-- the identity map drops a unit, or its document row, that nothing refers to -/
  | forget (t : SessionId) (i : UnitId)
  | forgetDocument (t : SessionId) (i : UnitId)
  | call (t : SessionId) (l : DocumentSourceLocator)
  | insertUnit (t : SessionId)
  | insertDocument (t : SessionId)
  | look (t : SessionId)
  | cancel (t : SessionId)
  | transition (t : SessionId) (i : UnitId) (target : LifecycleStatus)
  | deleteChunk (t : SessionId) (i : UnitId)
  /-- the documents, versions and chunks change -/
  | refer (r : Referred)
  | commit (t : SessionId)
  | rollback (t : SessionId)
  deriving DecidableEq

/-- the session is between two calls, and takes statements -/
def Session.free (x : Session) : Bool := x.pending.isNone ∧ ¬ x.deactive

section
variable (sha256 : String → String) (s : Db)

/-- what an event does; a statement that a session is not at does nothing -/
def perform : Event → Option Answer × Db
  | .write t w =>
    let x := s.sessions t
    if x.free then (none, s.setSession t { x with work := x.work ++ [w] }) else (none, s)
  | .load t i =>
    let x := s.sessions t
    if x.free then
      match (s.units[i]?).filter fun u => u.home.visible t with
      | none => (none, s)
      | some u => (none, s.setSession t { x with
          loaded := (i, (x.loaded.lookup i).getD (s.standing t i u)) :: x.loaded
          loadedDocuments := match u.document with
            | some d => (i, (x.loadedDocuments.lookup i).getD (s.document t i d)) ::
                x.loadedDocuments
            | none => x.loadedDocuments })
    else (none, s)
  | .forget t i =>
    let x := s.sessions t
    (none, s.setSession t { x with loaded := x.loaded.filter fun p => p.1 ≠ i })
  | .forgetDocument t i =>
    let x := s.sessions t
    (none, s.setSession t { x with loadedDocuments := x.loadedDocuments.filter fun p => p.1 ≠ i })
  | .call t l => if (s.sessions t).free then (none, s.goOn t l .inserting) else (none, s)
  | .insertUnit t =>
    match (s.sessions t).pending with
    | some ⟨l, .inserting⟩ => insertUnit sha256 s t l
    | _ => (none, s)
  | .insertDocument t =>
    match (s.sessions t).pending with
    | some ⟨l, .linking i⟩ => insertDocument s t l i
    | _ => (none, s)
  | .look t =>
    match (s.sessions t).pending with
    | some ⟨l, .looking⟩ => lookUp sha256 s t l
    | _ => (none, s)
  | .cancel t =>
    match (s.sessions t).pending with
    | some ⟨l, stage⟩ => cancelled s t l stage
    | none => (none, s)
  | .transition t i target =>
    if (s.sessions t).free then (none, transition s t i target) else (none, s)
  | .deleteChunk t i => if (s.sessions t).free then (none, deleteChunk s t i) else (none, s)
  | .refer r => (none, { s with referred := r })
  | .commit t => if (s.sessions t).free then (none, s.commit t) else (none, s)
  | .rollback t => (none, s.rollback t)

def step (e : Event) : Db := (perform sha256 s e).2

def answer (e : Event) : Option Answer := (perform sha256 s e).1

end

end LifeAI.MemorySource
