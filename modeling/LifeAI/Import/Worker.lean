import LifeAI.Import.Rows

/-!
# A worker at an import job

`process_claimed_job`, `run_import_job`, `_run_once`, `_import_one_file`,
`_resume_incomplete_document`, `index_document` and `index_media_document` as one program: `Pc` is
where it stands, between two statements, transactions or file operations, and `Worker.next` is the
next one of them and where the program goes on.

The sessions keep what they have read (`expire_on_commit=False`), and a flush writes only what
differs from it; a program point carries the copies that a later write is compared with.  Chunks
and claims of claim extraction, which is best effort, are not modelled.
-/

namespace LifeAI.Import

variable {β : Type}

/-- where `_import_one_file` stands with its document -/
inductive Stage where
  | versioning
  /-- `_job_is_cancelled`, before the original is stored -/
  | askingFirst
  | storing
  | writing
  /-- the lock on the storage key, and `storage.verify` -/
  | verifying
  | republishing
  | linking
  /-- `_job_is_cancelled`, after it -/
  | askingAgain
  | validating
  | extracting
  | extractingText
  | extracted
  | transcribing
  | embedding
  | chunking
  /-- `resolve_active` and `ensure_verified` -/
  | checkingProvider
  | pausing (st : IndexStatus)
  | embeddingCall
  | finishing
  /-- the commit of a last status -/
  | ending (st : IndexStatus)
  deriving DecidableEq

/-- a file of the package on its way -/
structure FileRun (β : Type) where
  filename : String
  content : β
  doc : DocId
  /-- `document.status` in the session -/
  held : IndexStatus
  stage : Stage

/-- the loop over the entries -/
structure Pass (β : Type) where
  zip : Bool
  manifest : Option Json
  /-- `max_upload_bytes` -/
  maxBytes : Nat
  todo : List (Entry β)
  outcomes : List FileOutcome

inductive Pc (β : Type) where
  /-- `db.get(ImportJob, job_id)` of `run_import_job` -/
  | loading
  | locking
  /-- the lock is held by another one -/
  | refused
  | reading
  | unreadable
  | starting (raw : β)
  | opening (raw : β)
  /-- the head of the loop, with `_job_is_cancelled` -/
  | checking (p : Pass β)
  /-- the query for an existing document -/
  | looking (p : Pass β) (filename : String) (content : β)
  | creating (p : Pass β) (filename : String) (content : β)
  | working (p : Pass β) (f : FileRun β)
  /-- the progress is committed, and the lease is renewed if the file was tried -/
  | recording (p : Pass β) (tried : Bool)
  | renewing (p : Pass β)
  | rollingUp (p : Pass β)
  /-- `lock.release()`, on the way out with the exception if there is one -/
  | unlocking (exc : Option Exc)
  /-- the `except` of `process_claimed_job` -/
  | handling (exc : Exc)
  /-- the backoff -/
  | sleeping

structure Worker (β : Type) where
  /-- `worker_id` -/
  name : String
  job : ImportJobId
  owner : OwnerId
  /-- `job.status` in the session, once the row is loaded -/
  held : Option ImportJobStatus := none
  /-- `job.locked_by` in the session -/
  lockedBy : Option String := none
  pc : Pc β := .loading

inductive Verification where
  | ok | notConfigured | notOk
  deriving DecidableEq

/-- what the surroundings answer to a step -/
structure Env where
  /-- the statement fails: the connection is lost -/
  dbError : Bool := false
  redisDown : Bool := false
  /-- a file operation raises an `OSError` -/
  osError : Bool := false
  /-- it raises a `StorageError` -/
  storageError : Bool := false
  verification : Verification := .ok
  /-- `embed_with_policy` answers -/
  embeds : Bool := true
  /-- a call inside the `try` of `index_document` raises something else -/
  raises : Bool := false
  leaseSeconds : Nat := 120
  deriving DecidableEq

namespace Worker

def goto (w : Worker β) (pc : Pc β) : Worker β := { w with pc }

/-- an exception that leaves the statement -/
def throw (w : Worker β) (e : Exc) : Option (Worker β) :=
  match w.pc with
  | .loading | .locking | .refused => some (w.goto (.handling e))
  | .unlocking _ | .sleeping => some w
  | .handling _ => none
  | _ => some (w.goto (.unlocking (some e)))

end Worker

/-! ## one file -/

namespace FileRun

variable (P : Pipeline β) (env : Env) (s : Store β) (job : ImportJobId) (maxBytes : Nat)

def goto (f : FileRun β) (stage : Stage) : FileRun β := { f with stage }

/-- `document.status = st`, then go on -/
def set (f : FileRun β) (st : IndexStatus) (stage : Stage) : FileRun β :=
  { f with held := st, stage }

/-- the texts that are indexed -/
def texts (f : FileRun β) : List String :=
  if isMedia f.filename then (P.transcribe f.filename f.content).getD []
  else ((P.extractText f.filename f.content).map P.chunkText).getD []

/-- the first thousand characters of the text -/
def preview (f : FileRun β) : String :=
  let text := if isMedia f.filename then " ".intercalate (f.texts P)
    else (P.extractText f.filename f.content).getD ""
  String.ofList (text.toList.take 1000)

/-- the first stage after the original is stored -/
def pipeline (f : FileRun β) : FileRun β :=
  f.goto (if isMedia f.filename then .validating else .extracting)

/-- the row of the job says `cancelled` -/
def cancelled (s : Store β) (job : ImportJobId) : Bool :=
  (s.jobs[job]?).any (·.status = .cancelled)

/-- the end of a file: its outcome -/
def outcome (f : FileRun β) (st : OutcomeStatus) : FileOutcome := ⟨f.filename, st, some f.doc⟩

/-- the outcome that goes with the last status of the document -/
def outcomeOf (f : FileRun β) : IndexStatus → FileOutcome
  | .indexed => f.outcome .indexed
  | .cancelled => f.outcome .cancelled
  | .awaitingProvider | .blockedProvider => f.outcome .blocked
  | _ => f.outcome .failed

/-- the next statement of the file, with the rest of the way, the outcome or an exception -/
def next (f : FileRun β) : Act β × (FileRun β ⊕ FileOutcome ⊕ Exc) :=
  let go (a : Act β) (f : FileRun β) : Act β × (FileRun β ⊕ FileOutcome ⊕ Exc) := (a, .inl f)
  let set (st : IndexStatus) (stage : Stage) := go (.status f.doc f.held st none) (f.set st stage)
  match f.stage with
  | .versioning => go (.version f.doc f.filename) (f.goto .askingFirst)
  | .askingFirst => go .idle (f.goto (if cancelled s job then .ending .cancelled else .storing))
  | .storing => set .originalStoring .writing
  | .writing =>
    if env.osError then (.idle, .inr (.inr .osError))
    else if env.storageError ∨ maxBytes < P.size f.content then go .idle (f.goto (.ending .storageFailed))
    else go (.publish f.content) (f.goto .verifying)
  | .verifying =>
    if env.osError then (.idle, .inr (.inr .osError))
    else if s.verify P (P.sha256 f.content) then go .idle (f.goto .linking)
    else go .idle (f.goto .republishing)
  | .republishing =>
    if env.osError then (.idle, .inr (.inr .osError))
    else if env.storageError then go .idle (f.goto (.ending .storageFailed))
    else go (.publish f.content) (f.goto .linking)
  | .linking =>
    go (.link f.doc (P.sha256 f.content)) (f.set .originalStored .askingAgain)
  | .askingAgain =>
    go .idle (if cancelled s job then f.goto (.ending .cancelled) else f.pipeline)
  | .validating =>
    go .idle (f.goto (if P.validMedia f.filename f.content then .extracting else .ending .failed))
  | .extracting =>
    set .extracting (if isMedia f.filename then .transcribing else .extractingText)
  | .extractingText =>
    go .idle (f.goto (if (P.extractText f.filename f.content).isSome then .extracted
      else .ending .extractionFailed))
  | .extracted => set .extracted .embedding
  | .transcribing =>
    if env.raises ∨ P.transcribe f.filename f.content = none then go .idle (f.goto (.ending .failed))
    else go .idle (f.goto (if f.texts P = [] then .ending .extractionFailed else .embedding))
  | .embedding => set .embedding (if isMedia f.filename then .checkingProvider else .chunking)
  | .chunking =>
    go .idle (f.goto (if f.texts P = [] then .ending .extractionFailed else .checkingProvider))
  | .checkingProvider =>
    if env.raises then go .idle (f.goto (.ending .failed))
    else match env.verification with
      | .ok => go .idle (f.goto .embeddingCall)
      | .notConfigured => go .idle (f.goto (.pausing .awaitingProvider))
      | .notOk => go .idle (f.goto (.pausing .blockedProvider))
  | .pausing st => (.status f.doc f.held st (some (f.preview P)), .inr (.inl (f.outcomeOf st)))
  | .embeddingCall =>
    go .idle (f.goto (if env.embeds then .finishing else .ending .indexingFailed))
  | .finishing => (.index f.doc (f.texts P) (f.preview P), .inr (.inl (f.outcomeOf .indexed)))
  | .ending st => (.status f.doc f.held st none, .inr (.inl (f.outcomeOf st)))

end FileRun

/-! ## the loop, and the job around it -/

namespace Worker

variable (P : Pipeline β) (env : Env) (s : Store β) (self : ProcId) (w : Worker β)

/-- a file is done -/
def done (p : Pass β) (o : FileOutcome) : Worker β :=
  w.goto (.recording { p with outcomes := p.outcomes ++ [o] } true)

/-- the branches of `_import_one_file` on an existing document -/
def existing (p : Pass β) (filename : String) (content : β) (i : DocId) (d : Document) : Worker β :=
  let f : FileRun β := ⟨filename, content, i, d.status, .versioning⟩
  if d.status.paused ∨ d.status.resumable then w.goto (.working p f.pipeline)
  else if d.status.failedIndex then w.done p ⟨filename, .failed, some i⟩
  else w.done p ⟨filename, .duplicate, some i⟩

/-- the rest of the query of `_import_one_file`, up to the new row -/
def lookUp (p : Pass β) (filename : String) (content : β) : Option (Worker β) :=
  let checksum := P.sha256 content
  match s.documents.findIdx? (·.holds w.owner checksum) with
  | some i => (s.documents[i]?).map (w.existing p filename content i)
  | none =>
    let entry := manifestEntryFor (if p.zip then p.manifest else none) filename
    if unhashable (field "classification" entry) ∨
        unhashable (field "active_truth_status" entry) then
      w.throw .typeError
    else if declaresOther entry checksum then some (w.done p ⟨filename, .failed, none⟩)
    else some (w.goto (.creating p filename content))

/-- the head of the loop for an entry -/
def enter (p : Pass β) (e : Entry β) : Worker β :=
  if FileRun.cancelled s w.job then
    w.goto (.recording { p with outcomes := p.outcomes ++ [⟨e.filename, .cancelled, none⟩] } false)
  else match e.status with
    | .encrypted => w.done p ⟨e.filename, .encrypted, none⟩
    | .skipped | .rejected => w.done p ⟨e.filename, .skipped, none⟩
    | .ok content =>
      if p.zip ∧ isManifest e.filename then w.done p ⟨e.filename, .skipped, none⟩
      else w.goto (.looking p e.filename content)

/-- the next statement of the worker, and where it goes on; `none` is the end -/
def next : Act β × Option (Worker β) :=
  match s.jobs[w.job]? with
  | none => (.idle, none)
  | some r =>
    match w.pc with
    | .loading =>
      let loaded := w.held.getD r.status
      let lockedBy := if w.held = none then r.lockedBy else w.lockedBy
      (.idle, some { w with held := some loaded, lockedBy, pc := .locking })
    | .locking =>
      if env.redisDown then (.idle, w.throw .jobLockUnavailable)
      else if s.locks.any fun l =>
          l.owner = w.owner ∧ l.checksum = r.sourceChecksum ∧ s.clock < l.expiresAt then
        (.idle, some (w.goto .refused))
      else (.lock ⟨w.owner, r.sourceChecksum, self, s.clock + 60⟩, some (w.goto .reading))
    | .refused =>
      (.job w.job (.fail .identicalImport none), none)
    | .reading =>
      if env.osError then (.idle, w.throw .osError)
      else if env.storageError then (.idle, some (w.goto .unreadable))
      else match s.disk r.sourceStorageKey with
        | none => (.idle, some (w.goto .unreadable))
        | some raw => (.idle, some (w.goto (.starting raw)))
    | .unreadable =>
      (.job w.job (.fail .unreadable none), some (w.goto (.unlocking none)))
    | .starting raw =>
      (.job w.job (.start (w.held.getD r.status)),
        some { w with held := some .running, pc := .opening raw })
    | .opening raw =>
      if isZip r.sourceFilename then
        match P.unzip r.sourceFilename raw with
        | none => (.idle, w.throw .zipSecurity)
        | some package =>
          (.job w.job (.total package.manifest package.entries.length), some (w.goto (.checking
            ⟨true, package.manifest, max (P.size raw) 1, package.entries, []⟩)))
      else
        (.job w.job (.total r.manifest 1), some (w.goto (.checking
          ⟨false, none, max (P.size raw) 1, [⟨r.sourceFilename, .ok raw⟩], []⟩)))
    | .checking p =>
      match p.todo with
      | [] => (.idle, some (w.goto (.rollingUp p)))
      | e :: todo => (.idle, some (w.enter s { p with todo } e))
    | .looking p filename content => (.idle, w.lookUp P s p filename content)
    | .creating p filename content =>
      let entry := manifestEntryFor (if p.zip then p.manifest else none) filename
      (.create { uploadedBy := w.owner, checksum := P.sha256 content, importJobId := w.job }
          (titleOf entry filename) ((field "category" entry).getD .null) filename,
        some (w.goto (.working p
          ⟨filename, content, s.documents.length, .received, .versioning⟩)))
    | .working p f =>
      match f.next P env s w.job p.maxBytes with
      | (a, .inl f) => (a, some (w.goto (.working p f)))
      | (a, .inr (.inl o)) => (a, some (w.done p o))
      | (a, .inr (.inr e)) => (a, w.throw e)
    | .recording p tried =>
      (.job w.job (.record p.outcomes),
        some (w.goto (if p.zip ∧ tried ∧ w.lockedBy ≠ none then .renewing p else .checking p)))
    | .renewing p =>
      (.job w.job (.renew (w.lockedBy.getD "") env.leaseSeconds), some (w.goto (.checking p)))
    | .rollingUp p => (.job w.job (.rollUp p.outcomes), some (w.goto (.unlocking none)))
    | .unlocking exc =>
      (if env.redisDown then .idle else .unlock w.owner r.sourceChecksum self,
        exc.map fun e => w.goto (.handling e))
    | .handling e =>
      if e.transient ∧ r.attemptCount + 1 < r.maxAttempts then
        (.job w.job .retry, some { w with
          held := some .pending, lockedBy := r.lockedBy, pc := .sleeping })
      else (.job w.job (.fail e.reason (some e.transient)), none)
    | .sleeping => (.idle, some (w.goto .loading))

/-- one step: a statement that fails, or whose values the database refuses, leaves nothing -/
def step : Store β × Option (Worker β) :=
  let act := w.next P env s self
  if env.dbError ∨ ¬ act.1.accepted P then (s, w.throw .dbError)
  else (s.apply P act.1, act.2)

end Worker

end LifeAI.Import
