import LifeAI.Base
import LifeAI.Lib.Locks

/-!
# The local storage backend

`storage/local_fs.py`.  A call is cut at its system calls, and any of them may fail.

* `Files`   the blobs by their keys, and the temporary files of the calls;
* `Write`   a call of `write_stream`, with `_publish`;
* `Delete`  a call of `delete`;
* `Sys`     the files and all calls; `Op.exec` lets one of them go on.

A storage key is the path of its blob under the root.  The bytes of a file stand in `Files`; a
hard link shares them with the temporary file, which is not written any more by then.
-/

namespace LifeAI.Storage

abbrev Bytes := List UInt8
abbrev CallId := Nat

/-- where an `OSError` comes from -/
inductive Syscall where
  | mkstemp | write | fsync | mkdir | lock | link | stat | read | replace | fsyncDir | unlock
  | unlink
  deriving DecidableEq

/-- why `_resolve` refuses a key -/
inductive InvalidKey where
  | malformed (key : String)
  | outside
  | symlink
  deriving DecidableEq

/-- the text of the exception, with the `repr` of a string -/
def InvalidKey.message (repr : String → String) : InvalidKey → String
  | .malformed key => "Ogiltig storage-nyckel: " ++ repr key
  | .outside => "Storage-nyckeln pekar utanför lagringsroten."
  | .symlink => "Storage-nyckeln pekar på en symbolisk länk, vilket inte är tillåtet."

/-- what `_resolve` finds behind a key of the right shape -/
inductive Resolved where
  | inside | outside | symlink
  deriving DecidableEq

inductive Exn where
  | sizeLimitExceeded (message : String)
  | integrity (message : String)
  | storage (message : String)
  | invalidStorageKey (reason : InvalidKey)
  | fileNotFound
  | osError (call : Syscall)
  /-- what `read_chunk` raises -/
  | readChunk
  deriving DecidableEq

structure StoredBlob where
  storageKey : String
  sha256 : String
  sizeBytes : Nat
  deriving DecidableEq

structure Files where
  blobs : String → Option Bytes
  temps : CallId → Option Bytes := fun _ => none

def Files.setBlob (f : Files) (key : String) (c : Option Bytes) : Files :=
  { f with blobs := Function.update f.blobs key c }

def Files.setTemp (f : Files) (i : CallId) (c : Option Bytes) : Files :=
  { f with temps := Function.update f.temps i c }

/-! ## keys -/

def isHex (c : Char) : Bool := ('0' ≤ c ∧ c ≤ '9') ∨ ('a' ≤ c ∧ c ≤ 'f')

/-- `hashlib.sha256`, up to its `hexdigest` -/
structure Sha256 where
  hexdigest : Bytes → String
  length_eq : ∀ b, (hexdigest b).toList.length = 64
  hex : ∀ b, ∀ c ∈ (hexdigest b).toList, isHex c

/-- `_KEY_PATTERN.match`, where `$` allows a line end -/
def isStorageKey (key : String) : Bool :=
  let cs := key.toList
  let body := cs.take 67
  (cs.length = 67 ∨ cs.length = 68 ∧ cs.getLast? = some '\n') ∧ (body.take 2).all isHex ∧
    body[2]? = some '/' ∧ (body.drop 3).all isHex

/-- the first two characters, which name the lock file -/
def shard (key : String) : String := String.ofList (key.toList.take 2)

/-- `_resolve`: the exception it raises -/
def resolve (r : Resolved) (key : String) : Option Exn :=
  if ¬ isStorageKey key then some (.invalidStorageKey (.malformed key))
  else match r with
    | .inside => none
    | .outside => some (.invalidStorageKey .outside)
    | .symlink => some (.invalidStorageKey .symlink)

variable (h : Sha256)

/-- `final_key` -/
def finalKey (content : Bytes) : String :=
  shard (h.hexdigest content) ++ "/" ++ h.hexdigest content

/-- `open_read`, to the end of the file -/
def openRead (r : Resolved) (f : Files) (key : String) : Except Exn Bytes :=
  match resolve r key with
  | some e => .error e
  | none => (f.blobs key).elim (.error .fileNotFound) .ok

/-- `verify` -/
def verify (r : Resolved) (f : Files) (key : String) (expectedSha256 : String)
    (expectedSize : Option Nat) : Bool :=
  resolve r key = none ∧ (f.blobs key).any fun content =>
    expectedSize.all (content.length = ·) ∧ h.hexdigest content = expectedSha256

/-! ## `write_stream` -/

inductive Stage where
  /-- `tempfile.mkstemp` -/
  | opening
  /-- the loop over `read_chunk` -/
  | reading
  /-- `f.flush` and `os.fsync` -/
  | syncing
  /-- `_resolve`, `mkdir` and `chmod` -/
  | preparing
  /-- `_key_lock` -/
  | locking
  | linking
  | statting
  | hashing
  | replacing
  /-- `_fsync_dir`, after a link or a repair -/
  | flushing (repair : Bool)
  /-- `stat` and `_hash_file` after a repair -/
  | checking
  | unlocking (e : Option Exn)
  /-- `tmp_path.unlink(missing_ok=True)` -/
  | removing (e : Option Exn)
  | done (r : Except Exn StoredBlob)
  /-- the process has died -/
  | died
  deriving DecidableEq

/-- inside `with self._key_lock` -/
def Stage.locked : Stage → Bool
  | .linking | .statting | .hashing | .replacing | .flushing _ | .checking | .unlocking _ => true
  | _ => false

structure Write where
  /-- what `read_chunk` returns, before it returns nothing; `none` raises -/
  chunks : List (Option Bytes)
  maxBytes : Int
  rest : List (Option Bytes)
  /-- what has been hashed and written -/
  sent : Bytes := []
  stage : Stage := .opening
  /-- no variable: what the final path held when the lock was taken -/
  found : Option (Option Bytes) := none
  /-- no variable: what it held when the lock was released -/
  left : Option (Option Bytes) := none
  deriving DecidableEq

/-- what the surroundings answer to a step -/
structure Env where
  ioError : Bool := false
  resolved : Resolved := .inside
  deriving DecidableEq

def Write.goto (w : Write) (stage : Stage) : Write := { w with stage }

namespace Write

variable (env : Env) (f : Files) (i : CallId) (w : Write)

def tooLong : Exn :=
  let maxBytes := w.maxBytes
  .sizeLimitExceeded s!"Uppladdningen överskrider maxstorleken ({maxBytes} bytes) — avbruten."

def vanished : Exn :=
  let sha256Hex := h.hexdigest w.sent
  .storage s!"Blob {sha256Hex} försvann oväntat under publicering (utanför processens kontroll)."

def wrongSize : Exn :=
  let sha256Hex := h.hexdigest w.sent
  .integrity (s!"En blob med samma sha256 ({sha256Hex}) finns redan men har fel storlek — "
    ++ "misstänkt korruption.")

def notRepaired : Exn :=
  let sha256Hex := h.hexdigest w.sent
  .integrity (s!"Kunde inte reparera blob {sha256Hex} -- innehållet matchar fortfarande inte "
    ++ "den förväntade sha256:n efter ompublicering.")

/-- the key of the final path -/
def key : String := finalKey h w.sent

def blob : StoredBlob := ⟨w.key h, h.hexdigest w.sent, w.sent.length⟩

/-- the loop -/
def read : Files × Write :=
  match w.rest with
  | [] | some [] :: _ => (f, w.goto .syncing)
  | none :: _ => (f, w.goto (.removing (some .readChunk)))
  | some chunk :: rest =>
    let sent := w.sent ++ chunk
    if w.maxBytes < sent.length then (f, w.goto (.removing (some w.tooLong)))
    else if env.ioError then (f, w.goto (.removing (some (.osError .write))))
    else (f.setTemp i (some sent), { w with sent, rest })

/-- the next system call -/
def next : Files × Write :=
  let fails (stage : Option Exn → Stage) (call : Syscall) :=
    (f, w.goto (stage (some (.osError call))))
  match w.stage with
  | .opening =>
    if env.ioError then (f, w.goto (.done (.error (.osError .mkstemp))))
    else (f.setTemp i (some []), w.goto .reading)
  | .reading => w.read env f i
  | .syncing => if env.ioError then fails .removing .fsync else (f, w.goto .preparing)
  | .preparing =>
    match resolve env.resolved (w.key h) with
    | some e => (f, w.goto (.removing (some e)))
    | none => if env.ioError then fails .removing .mkdir else (f, w.goto .locking)
  | .locking =>
    if env.ioError then fails .removing .lock
    else (f, { w with stage := .linking, found := some (f.blobs (w.key h)) })
  | .linking =>
    if env.ioError then fails .unlocking .link
    else match f.blobs (w.key h) with
      | none => (f.setBlob (w.key h) (f.temps i), w.goto (.flushing false))
      | some _ => (f, w.goto .statting)
  | .statting =>
    if env.ioError then fails .unlocking .stat
    else match f.blobs (w.key h) with
      | none => (f, w.goto (.unlocking (some (w.vanished h))))
      | some existing =>
        if existing.length ≠ w.sent.length then (f, w.goto (.unlocking (some (w.wrongSize h))))
        else (f, w.goto .hashing)
  | .hashing =>
    if env.ioError then fails .unlocking .read
    else match f.blobs (w.key h) with
      | none => fails .unlocking .read
      | some existing =>
        if h.hexdigest existing = h.hexdigest w.sent then (f, w.goto (.unlocking none))
        else (f, w.goto .replacing)
  | .replacing =>
    if env.ioError then fails .unlocking .replace
    else ((f.setBlob (w.key h) (f.temps i)).setTemp i none, w.goto (.flushing true))
  | .flushing repair =>
    if env.ioError then fails .unlocking .fsyncDir
    else (f, w.goto (if repair then .checking else .unlocking none))
  | .checking =>
    if env.ioError then fails .unlocking .read
    else match f.blobs (w.key h) with
      | none => fails .unlocking .stat
      | some existing =>
        if existing.length ≠ w.sent.length ∨ h.hexdigest existing ≠ h.hexdigest w.sent then
          (f, w.goto (.unlocking (some (w.notRepaired h))))
        else (f, w.goto (.unlocking none))
  | .unlocking e =>
    (f, { w with
      stage := .removing (if env.ioError then some (.osError .unlock) else e)
      left := some (f.blobs (w.key h)) })
  | .removing e =>
    if env.ioError then (f, w.goto (.done (.error (.osError .unlink))))
    else (f.setTemp i none, w.goto (.done (e.elim (.ok (w.blob h)) .error)))
  | .done r => (f, w.goto (.done r))
  | .died => (f, w)

end Write

/-! ## `delete` -/

inductive DeleteStage where
  | resolving
  | locking
  | unlinking
  | unlocking (e : Option Exn)
  | done (e : Option Exn)
  | died
  deriving DecidableEq

def DeleteStage.locked : DeleteStage → Bool
  | .unlinking | .unlocking _ => true
  | _ => false

structure Delete where
  key : String
  stage : DeleteStage := .resolving
  deriving DecidableEq

def Delete.next (env : Env) (f : Files) (d : Delete) : Files × Delete :=
  let goto (f : Files) (stage : DeleteStage) : Files × Delete := (f, { d with stage })
  match d.stage with
  | .resolving =>
    match resolve env.resolved d.key with
    | some e => goto f (.done (some e))
    | none => goto f .locking
  | .locking => if env.ioError then goto f (.done (some (.osError .lock))) else goto f .unlinking
  | .unlinking =>
    if env.ioError then goto f (.unlocking (some (.osError .unlink)))
    else goto (f.setBlob d.key none) (.unlocking none)
  | .unlocking e => goto f (.done (if env.ioError then some (.osError .unlock) else e))
  | .done e => goto f (.done e)
  | .died => goto f .died

/-! ## all calls -/

inductive Call where
  | write (w : Write)
  | delete (d : Delete)
  deriving DecidableEq

namespace Call

/-- the shards whose lock the call holds -/
def holds : Call → String → Bool
  | .write w, r => w.stage.locked ∧ r = shard (h.hexdigest w.sent)
  | .delete d, r => d.stage.locked ∧ r = shard d.key

/-- the shard whose lock its next step takes -/
def takes : Call → Option String
  | .write w => if w.stage = .locking then some (shard (h.hexdigest w.sent)) else none
  | .delete d => if d.stage = .locking then some (shard d.key) else none

def next (env : Env) (f : Files) (i : CallId) : Call → Files × Call
  | .write w =>
    let r := w.next h env f i
    (r.1, .write r.2)
  | .delete d =>
    let r := d.next env f
    (r.1, .delete r.2)

/-- the process of the call dies -/
def kill : Call → Call
  | .write w => .write (w.goto .died)
  | .delete d => .delete { d with stage := .died }

end Call

structure Sys where
  files : Files
  calls : List Call := []

inductive Op where
  | writeStream (chunks : List (Option Bytes)) (maxBytes : Int)
  | delete (key : String)
  | step (i : CallId) (env : Env)
  | crash (i : CallId)

/-- one operation: a call starts, takes its next step unless another one holds the lock, or dies -/
def Op.exec (s : Sys) : Op → Sys
  | .writeStream chunks maxBytes =>
    { s with calls := s.calls ++ [.write { chunks, maxBytes, rest := chunks }] }
  | .delete key => { s with calls := s.calls ++ [.delete { key }] }
  | .step i env =>
    match s.calls[i]? with
    | none => s
    | some c =>
      if (c.takes h).any (Locks.heldByOther (Call.holds h) s.calls i) then s
      else
        let r := c.next h env s.files i
        { files := r.1, calls := s.calls.set i r.2 }
  | .crash i => { s with calls := s.calls.modify i Call.kill }

end LifeAI.Storage
