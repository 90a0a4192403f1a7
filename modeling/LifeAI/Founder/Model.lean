import LifeAI.Base
import Mathlib.Algebra.Order.Ring.Rat

/-!
# Founder memory

`founder_memory/service.py`, the notes of one owner under sessions that run at the same time.

* `Note`     a row, with the status that is committed and what has become of its INSERT;
* `Session`  a transaction: what it has written, what its identity map holds, its call;
* `Db.status` what a session sees of a note;
* `Event`, `perform`   what the statements of the calls do, one by one.

A note is named by its position, the UUIDs being fresh.  A statement that has to wait for a row lock
or for the INSERT of another session under the same key leaves everything as it is.
-/

namespace LifeAI.Founder

abbrev NoteId := ℕ
abbrev SessionId := ℕ

inductive Status where
  | active | superseded | disputed | unknown
  deriving DecidableEq

/-- the columns that `record_founder_memory` is given, without the note that is superseded -/
structure Values where
  noteType : String
  content : String
  authority : String := "unknown"
  basis : String := "unknown"
  /-- the value of the float, or of the Decimal -/
  confidence : Option ℚ := none
  source : Option String := none
  validFrom : Option Time := none
  provenance : List (String × String) := []
  deriving DecidableEq

/-- the arguments of `record_founder_memory` -/
structure Call where
  idempotencyKey : String
  supersedesNoteId : Option NoteId := none
  values : Values
  deriving DecidableEq

/-- what became of the INSERT of a row -/
inductive Home where
  | committed
  | pending (t : SessionId)
  | rolledBack
  deriving DecidableEq

/-- a row of `founder_memory_notes` -/
structure Note where
  idempotencyKey : String
  supersedesNoteId : Option NoteId
  /-- as the call gave them -/
  given : Values
  /-- as the row is read back -/
  stored : Values
  status : Status
  /-- the session that inserted it -/
  author : SessionId
  home : Home
  deriving DecidableEq

/-- the columns that no statement updates -/
def Note.written (n : Note) : String × Option NoteId × Values × Values :=
  (n.idempotencyKey, n.supersedesNoteId, n.given, n.stored)

/-- how far a call of `record_founder_memory` is: `old` is the locked note, with the status that
the session holds of it -/
inductive Stage where
  | locking
  | looking (old : Option (NoteId × Status))
  | writing (old : Option (NoteId × Status))
  deriving DecidableEq

structure Pending where
  call : Call
  stage : Stage
  deriving DecidableEq

/-- a session, with the statements of its transaction -/
structure Session where
  /-- the statuses it wrote, the last one first -/
  statuses : List (NoteId × Status) := []
  /-- the statuses in its identity map, which a commit does not expire -/
  loaded : List (NoteId × Status) := []
  pending : Option Pending := none
  /-- the notes it disputed -/
  disputed : List NoteId := []
  deriving DecidableEq

structure Db where
  notes : List Note := []
  /-- the row locks -/
  holder : NoteId → Option SessionId := fun _ => none
  sessions : SessionId → Session := fun _ => {}
  /-- the notes that were disputed, and the dispute committed -/
  disputed : List NoteId := []

/-! ## what a session sees -/

def Note.visible (t : SessionId) (n : Note) : Bool := n.home = .committed ∨ n.home = .pending t

namespace Db

variable (s : Db) (t : SessionId)

/-- the status of a note, as a statement of the session reads it -/
def status (i : NoteId) : Option Status :=
  match s.notes[i]? with
  | some n =>
    if n.visible t then some (((s.sessions t).statuses.lookup i).getD n.status) else none
  | none => none

/-- the note under a key -/
def underKey (key : String) : Option (Note × NoteId) :=
  s.notes.zipIdx.find? fun p => p.1.visible t ∧ p.1.idempotencyKey = key

/-- another session has inserted a note under the key, and not ended -/
def keyTaken (key : String) : Bool :=
  s.notes.any fun n => n.idempotencyKey = key ∧ n.home ≠ .committed ∧ n.home ≠ .rolledBack ∧
    n.home ≠ .pending t

/-- `list_current_founder_memory`, without its order -/
def listCurrent (noteType : Option String) : List NoteId :=
  (List.range s.notes.length).filter fun i =>
    s.status t i = some .active ∧
      (s.notes[i]?).any fun n => noteType.all fun k => n.stored.noteType = k

def setSession (x : Session) : Db := { s with sessions := Function.update s.sessions t x }

/-- the session ends without its writes -/
def rollback : Db where
  notes := s.notes.map fun n => if n.home = .pending t then { n with home := .rolledBack } else n
  holder := fun i => if s.holder i = some t then none else s.holder i
  sessions := Function.update s.sessions t {}
  disputed := s.disputed

/-- the session ends with its writes -/
def commit : Db where
  notes := s.notes.mapIdx fun i n => { n with
    status := ((s.sessions t).statuses.lookup i).getD n.status
    home := if n.home = .pending t then .committed else n.home }
  holder := fun i => if s.holder i = some t then none else s.holder i
  sessions := Function.update s.sessions t { loaded := (s.sessions t).loaded }
  disputed := s.disputed ++ (s.sessions t).disputed

end Db

/-! ## the statements -/

/-- `ck_founder_memory_notes_type` -/
def noteTypes : List String :=
  ["decision", "correction", "preference", "goal", "recurring_pattern", "observation", "unknown"]

/-- `ck_founder_memory_notes_authority` -/
def authorities : List String :=
  ["founder", "repeated_founder_preference", "deterministic_source", "inferred_pattern",
    "ai_interpretation", "unknown"]

/-- `ck_founder_memory_notes_basis` -/
def bases : List String :=
  ["manual", "deterministic", "imported", "inferred", "ai_interpretation", "unknown"]

/-- what the table keeps of the values, `readBack` being what its columns give back -/
def store (readBack : Values → Values) (key : String) (v : Values) : Except Err Values :=
  let w := readBack v
  if 128 < key.length then .error .dataError
  else if w.noteType ∉ noteTypes then .error (.integrityError "ck_founder_memory_notes_type")
  else if w.authority ∉ authorities then
    .error (.integrityError "ck_founder_memory_notes_authority")
  else if w.basis ∉ bases then .error (.integrityError "ck_founder_memory_notes_basis")
  else if w.confidence.any fun c => c < 0 ∨ 1 < c then
    .error (.integrityError "ck_founder_memory_notes_confidence")
  else if w.content.toList.all (· = ' ') then
    .error (.integrityError "ck_founder_memory_notes_content")
  else .ok w

inductive Event where
  /-- a query of the session loads a note, unless its identity map has it -/
  | load (t : SessionId) (i : NoteId)
  /-- the identity map drops a note that nothing refers to -/
  | forget (t : SessionId) (i : NoteId)
  | call (t : SessionId) (c : Call)
  /-- SELECT of the superseded note FOR UPDATE -/
  | lock (t : SessionId)
  /-- SELECT under the idempotency key; `held`: the identity map has what the session inserted -/
  | look (t : SessionId) (held : Bool)
  /-- the flush -/
  | flush (t : SessionId)
  | dispute (t : SessionId) (i : NoteId)
  | commit (t : SessionId)
  | rollback (t : SessionId)
  deriving DecidableEq

/-- what a call answers -/
structure Answer where
  session : SessionId
  call : Call
  result : Except Err NoteId
  deriving DecidableEq

section
variable (readBack : Values → Values) (s : Db) (t : SessionId)

/-- the session goes on with its call -/
def Db.goOn (x : Session) (c : Call) (stage : Stage) : Db :=
  s.setSession t { x with pending := some ⟨c, stage⟩ }

/-- the call is over; an exception of the service leaves the transaction open -/
def Db.over (c : Call) (result : Except Err NoteId) : Option Answer × Db :=
  (some ⟨t, c, result⟩, s.setSession t { s.sessions t with pending := none })

/-- the call is over, and so is the transaction -/
def Db.abort (c : Call) (e : Err) : Option Answer × Db := (some ⟨t, c, .error e⟩, s.rollback t)

/-- the status that the session holds of a note that it selects -/
def Session.holds (x : Session) (i : NoteId) (read : Status) : Status :=
  (x.loaded.lookup i).getD read

/-- SELECT of the superseded note FOR UPDATE -/
def lockOld (c : Call) : Option Answer × Db :=
  match c.supersedesNoteId with
  | none => (none, s.goOn t (s.sessions t) c (.looking none))
  | some i =>
    match s.status t i with
    | none => s.over t c (.error (.founderMemory
        "superseded note is missing or belongs to another owner"))
    | some read =>
      if (s.holder i).any (· ≠ t) then (none, s)
      else
        let seen := (s.sessions t).holds i read
        (none, { s with holder := Function.update s.holder i (some t) }.goOn t
          { s.sessions t with loaded := (i, seen) :: (s.sessions t).loaded } c
          (.looking (some (i, seen))))

/-- SELECT under the idempotency key, and `_same` -/
def lookUp (c : Call) (old : Option (NoteId × Status)) (held : Bool) : Option Answer × Db :=
  match s.underKey t c.idempotencyKey with
  | some (n, i) =>
    let read := if held ∧ n.author = t then n.given else n.stored
    if read = c.values ∧ n.supersedesNoteId = c.supersedesNoteId then s.over t c (.ok i)
    else s.over t c (.error (.founderMemory "idempotency key reused with different fields"))
  | none => (none, s.goOn t (s.sessions t) c (.writing old))

/-- the status of the superseded note, as the flush writes it -/
def supersede (old : Option (NoteId × Status)) (x : Session) : Session :=
  match old with
  | some (i, .active) =>
    { x with statuses := (i, .superseded) :: x.statuses, loaded := (i, .superseded) :: x.loaded }
  | _ => x

/-- the flush of the new note -/
def write (c : Call) (old : Option (NoteId × Status)) : Option Answer × Db :=
  match store readBack c.idempotencyKey c.values with
  | .error e => s.abort t c e
  | .ok stored =>
    if (s.underKey t c.idempotencyKey).isSome then
      s.abort t c (.integrityError "uq_founder_memory_notes_idem")
    else if s.keyTaken t c.idempotencyKey then (none, s)
    else
      let note : Note :=
        { idempotencyKey := c.idempotencyKey, supersedesNoteId := c.supersedesNoteId
          given := c.values, stored, status := .active, author := t, home := .pending t }
      (some ⟨t, c, .ok s.notes.length⟩,
        { s with notes := s.notes ++ [note] }.setSession t
          { supersede old (s.sessions t) with pending := none })

/-- `mark_founder_memory_disputed` -/
def markDisputed (i : NoteId) : Db :=
  match s.status t i with
  | none => s
  | some read =>
    if (s.holder i).any (· ≠ t) then s
    else
      let x := s.sessions t
      let statuses :=
        if x.holds i read = .disputed then x.statuses else (i, .disputed) :: x.statuses
      { s with holder := Function.update s.holder i (some t) }.setSession t
        { x with
          statuses, loaded := (i, .disputed) :: x.loaded, disputed := i :: x.disputed }

/-- what an event does; a statement that a session is not at does nothing -/
def perform : Event → Option Answer × Db
  | .load t i =>
    let x := s.sessions t
    match s.status t i with
    | some read => (none, s.setSession t { x with loaded := (i, x.holds i read) :: x.loaded })
    | none => (none, s)
  | .forget t i =>
    let x := s.sessions t
    (none, s.setSession t { x with loaded := x.loaded.filter fun p => p.1 ≠ i })
  | .call t c =>
    match (s.sessions t).pending with
    | none => (none, s.goOn t (s.sessions t) c .locking)
    | some _ => (none, s)
  | .lock t =>
    match (s.sessions t).pending with
    | some ⟨c, .locking⟩ => lockOld s t c
    | _ => (none, s)
  | .look t held =>
    match (s.sessions t).pending with
    | some ⟨c, .looking old⟩ => lookUp s t c old held
    | _ => (none, s)
  | .flush t =>
    match (s.sessions t).pending with
    | some ⟨c, .writing old⟩ => write readBack s t c old
    | _ => (none, s)
  | .dispute t i =>
    match (s.sessions t).pending with
    | none => (none, markDisputed s t i)
    | some _ => (none, s)
  | .commit t =>
    match (s.sessions t).pending with
    | none => (none, s.commit t)
    | some _ => (none, s)
  | .rollback t => (none, s.rollback t)

def step (e : Event) : Db := (perform readBack s e).2

def answer (e : Event) : Option Answer := (perform readBack s e).1

end

end LifeAI.Founder
