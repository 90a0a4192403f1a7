import LifeAI.Import.Worker
import Mathlib.Data.List.MinMax

/-!
# Uploads, purges and workers side by side

`Sys` is the store with the processes that are at work on it; `Op` starts one, lets one take its
next step, or lets one die.  A lock on a storage key is held from the step that checks the key to
the commit or rollback of its transaction, so it is read off from where the processes stand.

* `Upload`       `import_package`;
* `MemoryWrite`  `store_content_with_reference_lock`, and the commit of the project memory;
* `Deletion`     `retry_source_blob_purge`, `delete_if_unreferenced`, and
                 `attempt_storage_deletion_task`, all on one key;
* `purgeSource`  the first phase of `purge_source`, which is one transaction;
* `claimNextJob`, `requeueBlockedJobs`, and `orphanedJobs` with the UPDATE that follows it.
-/

namespace LifeAI.Import

variable {β : Type}

inductive UploadStage where
  | writing
  /-- the query for a completed job -/
  | matching
  /-- the lock on the key, and `storage.exists` -/
  | locking
  | committing
  deriving DecidableEq

structure Upload (β : Type) where
  owner : OwnerId
  filename : String
  content : β
  stage : UploadStage := .writing

inductive MemoryStage where
  | writing | verifying | republishing | linking
  deriving DecidableEq

structure MemoryWrite (β : Type) where
  content : β
  stage : MemoryStage := .writing

inductive DeletionStage where
  /-- the lock on the key, and `storage_key_still_referenced` -/
  | checking
  | deleting
  /-- the commit of `deletion_status` -/
  | settling (st : DeletionStatus)
  deriving DecidableEq

structure Deletion where
  key : String
  /-- the purged document, if it is one -/
  doc : Option DocId
  stage : DeletionStage := .checking
  deriving DecidableEq

inductive Proc (β : Type) where
  | worker (w : Worker β)
  | upload (u : Upload β)
  | memory (m : MemoryWrite β)
  | deletion (d : Deletion)
  /-- `_reconcile_orphaned_documents` between its query and its UPDATE -/
  | reconcile (ids : List ImportJobId)

structure Sys (β : Type) where
  store : Store β := {}
  procs : List (Option (Proc β)) := []

inductive Op (β : Type) where
  | tick (seconds : Nat)
  | importPackage (owner : OwnerId) (filename : String) (content : β)
  | writeMemory (content : β)
  | purgeSource (owner : OwnerId) (d : DocId)
  | retrySourceBlobPurge (owner : OwnerId) (d : DocId)
  | deleteBlob (key : String)
  | requeueBlockedJobs (verification : Verification)
  | reconcileOrphanedDocuments
  | claimNextJob (name : String) (leaseSeconds : Nat)
  | step (i : ProcId) (env : Env)
  /-- the process dies -/
  | crash (i : ProcId)

/-! ## the statements -/

namespace Store

variable (s : Store β)

/-- `storage_key_still_referenced_global` -/
def stillReferenced (key : String) : Bool :=
  (s.documents.any fun d => d.storageKey = some key ∧ ¬ d.deleted) ∨
  ((List.range s.jobs.length).any fun j => (s.jobs[j]?).any fun r =>
    r.sourceStorageKey = key ∧ (r.stillNeedsRawBlob ∨ s.stuck j)) ∨
  key ∈ s.projectKeys

/-- the completed job that `import_package` returns at once -/
def completedJob (owner : OwnerId) (checksum : String) : Option ImportJobId :=
  let done := (List.range s.jobs.length).filter fun j => (s.jobs[j]?).any fun r =>
    r.ownerId = owner ∧ r.sourceChecksum = checksum ∧ r.status = .completed
  let latest := done.argmax fun j => ((s.jobs[j]?).bind (·.completedAt)).getD 0
  latest.filter fun j => s.documents.any fun d => d.importJobId = j ∧ ¬ d.deleted

/-- the statuses that a purge leaves as they are -/
def keptByPurge : IndexStatus → Bool
  | .indexed | .failed | .cancelled => true
  | _ => false

/-- `purge_source` cancels the job of the document -/
def purgeCancels (j : ImportJob) : Bool :=
  (j.status = .pending ∨ j.status = .running) ∧ j.progressTotal ≤ 1

/-- the first phase of `purge_source` on a live document -/
def purged (i : DocId) (d : Document) : Store β :=
  let s := { s with chunks := s.chunks.filter (· ≠ i) }
  let s := s.setDoc i fun d =>
    { d with
      deleted := true
      chunkCount := 0
      status := if keptByPurge d.status then d.status else .cancelled
      deletionStatus := if d.storageKey = none then .purged else .pending }
  s.setJob d.importJobId fun r =>
    if purgeCancels r then { r with status := .cancelled, completedAt := some s.clock } else r

/-- the UPDATE of `_requeue_blocked_jobs` -/
def requeued : Store β :=
  { s with jobs := s.jobs.map fun r =>
      if r.requeueEligible then
        { r with status := .pending, completedAt := none, failureReason := none }
      else r }

/-- the query of `_reconcile_orphaned_documents` -/
def orphanedJobs : List ImportJobId :=
  (List.range s.jobs.length).filter fun j => (s.jobs[j]?).any (·.finished) ∧ s.stuck j

/-- its UPDATE -/
def reopened (ids : List ImportJobId) : Store β :=
  ids.foldl (fun s j => s.setJob j fun r =>
    { r with status := .pending, completedAt := none, failureReason := none }) s

/-- the UPDATE of a claim -/
def claimed (name : String) (leaseSeconds : Nat) (j : ImportJobId) : Store β :=
  s.setJob j fun r =>
    { r with
      status := .running
      lockedBy := some name
      leaseExpiresAt := some (s.clock + leaseSeconds)
      lastHeartbeatAt := some s.clock
      startedAt := some (r.startedAt.getD s.clock) }

end Store

/-! ## the processes -/

section
variable (P : Pipeline β)

/-- the storage key whose lock the process holds -/
def Proc.holds : Proc β → Option String
  | .worker w => match w.pc with
    | .working _ f => if f.stage = .republishing ∨ f.stage = .linking then
        some (P.sha256 f.content) else none
    | _ => none
  | .upload u => if u.stage = .committing then some (P.sha256 u.content) else none
  | .memory m => if m.stage = .republishing ∨ m.stage = .linking then
      some (P.sha256 m.content) else none
  | .deletion d => if d.stage = .checking then none else some d.key
  | .reconcile _ => none

/-- the storage key whose lock its next step takes -/
def Proc.takes : Proc β → Option String
  | .worker w => match w.pc with
    | .working _ f => if f.stage = .verifying then some (P.sha256 f.content) else none
    | _ => none
  | .upload u => if u.stage = .locking then some (P.sha256 u.content) else none
  | .memory m => if m.stage = .verifying then some (P.sha256 m.content) else none
  | .deletion d => if d.stage = .checking then some d.key else none
  | .reconcile _ => none

/-- the row that `import_package` inserts -/
def Upload.row (u : Upload β) : ImportJob where
  ownerId := u.owner
  sourceFilename := if u.filename = "" then "upload" else u.filename
  sourceChecksum := P.sha256 u.content
  sourceStorageKey := P.sha256 u.content

/-- the next step of an upload -/
def Upload.step (env : Env) (s : Store β) (u : Upload β) : Store β × Option (Proc β) :=
  match u.stage with
  | .writing =>
    if env.osError ∨ env.storageError then (s, none)
    else
      let s := s.apply P (.publish u.content)
      if P.size u.content = 0 then (s, some (.deletion ⟨P.sha256 u.content, none, .checking⟩))
      else (s, some (.upload { u with stage := .matching }))
  | .matching =>
    if env.dbError ∨ (s.completedJob u.owner (P.sha256 u.content)).isSome then (s, none)
    else (s, some (.upload { u with stage := .locking }))
  | .locking =>
    if env.dbError ∨ s.disk (P.sha256 u.content) = none then (s, none)
    else (s, some (.upload { u with stage := .committing }))
  | .committing =>
    if env.dbError then (s, none) else ({ s with jobs := s.jobs ++ [u.row P] }, none)

/-- the next step of a writer of the project memory -/
def MemoryWrite.step (env : Env) (s : Store β) (m : MemoryWrite β) : Store β × Option (Proc β) :=
  let go (s : Store β) (stage : MemoryStage) : Store β × Option (Proc β) :=
    (s, some (.memory { m with stage }))
  if env.dbError ∨ env.osError ∨ env.storageError then (s, none)
  else match m.stage with
    | .writing => go (s.apply P (.publish m.content)) .verifying
    | .verifying => go s (if s.verify P (P.sha256 m.content) then .linking else .republishing)
    | .republishing => go (s.apply P (.publish m.content)) .linking
    | .linking => ({ s with projectKeys := s.projectKeys ++ [P.sha256 m.content] }, none)

/-- the commit of `deletion_status` -/
def Deletion.settle (s : Store β) (d : Deletion) (st : DeletionStatus) : Store β :=
  match d.doc with
  | none => s
  | some i => s.setDoc i fun r => { r with deletionStatus := st }

/-- the next step of a deletion -/
def Deletion.step (env : Env) (s : Store β) (d : Deletion) : Store β × Option (Proc β) :=
  let go (s : Store β) (stage : DeletionStage) : Store β × Option (Proc β) :=
    (s, some (.deletion { d with stage }))
  if env.dbError then (s, none)
  else match d.stage with
    | .checking => go s (if s.stillReferenced d.key then .settling .pending else .deleting)
    | .deleting =>
      if env.osError then (s, none)
      else if env.storageError then go s (.settling .failed)
      else go { s with disk := fun k => if k = d.key then none else s.disk k } (.settling .purged)
    | .settling st => (d.settle s st, none)

/-- the next step of a process -/
def Proc.step (env : Env) (s : Store β) (self : ProcId) : Proc β → Store β × Option (Proc β)
  | .worker w =>
    let r := w.step P env s self
    (r.1, r.2.map .worker)
  | .upload u => u.step P env s
  | .memory m => m.step P env s
  | .deletion d => d.step env s
  | .reconcile ids => (if env.dbError then s else s.reopened ids, none)

/-! ## the system -/

namespace Sys

/-- another process holds the lock -/
def locked (s : Sys β) (self : ProcId) (key : String) : Bool :=
  (List.range s.procs.length).any fun i =>
    i ≠ self ∧ (s.procs[i]?.join).any fun p => p.holds P = some key

def spawn (s : Sys β) (p : Proc β) : Sys β := { s with procs := s.procs ++ [some p] }

/-- a worker of this name is at work -/
def busy (s : Sys β) (name : String) : Bool :=
  s.procs.any fun p => p.any fun p => match p with
    | .worker w => w.name = name
    | _ => false

end Sys

/-- one operation -/
def Op.exec (s : Sys β) : Op β → Sys β
  | .tick n => { s with store := { s.store with clock := s.store.clock + n } }
  | .importPackage owner filename content => s.spawn (.upload { owner, filename, content })
  | .writeMemory content => s.spawn (.memory { content })
  | .purgeSource owner i =>
    match s.store.documents[i]? with
    | none => s
    | some d =>
      if d.deleted ∨ d.uploadedBy ≠ owner then s
      else
        let t : Sys β := { s with store := s.store.purged i d }
        match d.storageKey with
        | none => t
        | some key => t.spawn (.deletion ⟨key, some i, .checking⟩)
  | .retrySourceBlobPurge owner i =>
    match s.store.documents[i]? with
    | none => s
    | some d =>
      if ¬ d.deleted ∨ d.uploadedBy ≠ owner ∨ d.deletionStatus = .purged then s
      else match d.storageKey with
        | none =>
          { s with store := s.store.setDoc i fun r => { r with deletionStatus := .purged } }
        | some key => s.spawn (.deletion ⟨key, some i, .checking⟩)
  | .deleteBlob key => s.spawn (.deletion ⟨key, none, .checking⟩)
  | .requeueBlockedJobs verification =>
    if verification = .ok then { s with store := s.store.requeued } else s
  | .reconcileOrphanedDocuments => s.spawn (.reconcile s.store.orphanedJobs)
  | .claimNextJob name leaseSeconds =>
    match s.store.jobs.findIdx? (·.claimable s.store.clock) with
    | none => s
    | some j =>
      match s.store.jobs[j]? with
      | none => s
      | some r =>
        if s.busy name then s
        else
          let t : Sys β := { s with store := s.store.claimed name leaseSeconds j }
          t.spawn (.worker { name, job := j, owner := r.ownerId })
  | .step i env =>
    match s.procs[i]?.join with
    | none => s
    | some p =>
      if (p.takes P).any (s.locked P i) then s
      else
        let r := p.step P env s.store i
        { store := r.1, procs := s.procs.set i r.2 }
  | .crash i => { s with procs := s.procs.set i none }

/-- the system after a list of operations, from empty tables -/
def importRun (ops : List (Op β)) : Sys β := Run.run (Op.exec P) {} ops

end

/-- texts as files, each its own hash and its own only chunk -/
def plainPipeline : Pipeline String where
  sha256 c := c
  size c := c.length
  unzip _ _ := none
  extractText _ c := some c
  chunkText text := if text = "" then [] else [text]
  validMedia _ _ := true
  transcribe _ c := some [c]
  accepts _ _ := true

/-- steps of a process that nothing disturbs -/
def turns (i : ProcId) (n : Nat) : List (Op β) := List.replicate n (.step i {})

/-- an upload of one file, and the claim of its job -/
def uploadedFile : List (Op String) :=
  .importPackage 0 "a.txt" "x" :: turns 0 4 ++ [.claimNextJob "w" 120]

end LifeAI.Import
