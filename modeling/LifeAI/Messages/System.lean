import LifeAI.Messages.Model

/-!
# Transactions on the messages

Sessions at READ COMMITTED: a statement sees the committed rows under what its own transaction
wrote.  A session is a writer, with inserts and deletes in any order, or a `backfill_conversation`.

* `Session.holds`  the advisory locks of a session, kept to the end of its transaction;
* `Session.lockedRows` the rows that it deleted or updated;
* `Session.view`   the rows that it sees, which is also what its commit leaves;
* `Op.exec`        one statement, commit or rollback; a statement that has to wait does nothing.

A rollback stands for an exception, also one of the callback `on_outcome`, the death of the process
and the end of a deadlock.
-/

namespace LifeAI.Messages

abbrev SessionId := Nat

inductive Stage where
  | locking
  /-- `_conversation_state` -/
  | reading
  /-- the UPDATE takes its snapshot -/
  | ordering
  /-- and goes over the rows -/
  | updating (nums : List (MessageId × Nat))
  | committing (outcome : Outcome) (nums : List (MessageId × Nat))

inductive Session where
  | writer (locks : List Int) (inserted : List Message) (deleted : List MessageId)
  | backfill (c : ConversationId) (stage : Stage)

structure Sys where
  /-- the committed rows -/
  messages : List Message
  sessions : List (Option Session) := []
  /-- what the calls of `backfill_conversation` returned -/
  returned : List (ConversationId × Outcome) := []

inductive Op where
  | begin
  | insert (i : SessionId) (id : MessageId) (c : ConversationId) (createdAt : Nat)
  | delete (i : SessionId) (id : MessageId)
  | commit (i : SessionId)
  | backfillConversation (c : ConversationId)
  /-- the next statement of a backfill -/
  | step (i : SessionId)
  | rollback (i : SessionId)

namespace Session

/-- the rows that the session sees -/
def view (rows : List Message) : Session → List Message
  | .writer _ inserted deleted => (rows.filter (·.id ∉ deleted)) ++ inserted
  | .backfill _ (.committing _ nums) => rows.map (numberRow nums)
  | .backfill _ _ => rows

/-- `hashtext` of a conversation's id is the second half of the lock's key -/
def holds (hashtext : ConversationId → Int) (key : Int) : Session → Prop
  | .writer locks _ _ => key ∈ locks
  | .backfill _ .locking => False
  | .backfill c _ => key = hashtext c

instance (hashtext : ConversationId → Int) (key : Int) (x : Session) :
    Decidable (x.holds hashtext key) := by
  unfold holds
  split <;> infer_instance

def lockedRows : Session → List MessageId
  | .writer _ _ deleted => deleted
  | .backfill _ (.committing _ nums) => nums.map (·.1)
  | .backfill _ _ => []

def inserted : Session → List Message
  | .writer _ inserted _ => inserted
  | .backfill _ _ => []

/-- the ids that it inserted -/
def insertedIds (x : Session) : List MessageId := x.inserted.map (·.id)

end Session

namespace Sys

def session (s : Sys) (i : SessionId) : Option Session := s.sessions[i]?.join

/-- another session has what this one asks for -/
def taken (s : Sys) (i : SessionId) (p : Session → Bool) : Bool :=
  (List.range s.sessions.length).any fun j => j ≠ i ∧ (s.session j).any p

def set (s : Sys) (i : SessionId) (x : Option Session) : Sys :=
  { s with sessions := s.sessions.set i x }

/-- a commit -/
def finish (s : Sys) (i : SessionId) (x : Session) : Sys :=
  { s with messages := x.view s.messages, sessions := s.sessions.set i none }

/-- the primary key -/
def idTaken (s : Sys) (id : MessageId) : Bool :=
  id ∈ s.messages.map (·.id) ∨ s.sessions.any fun x => x.any fun x => id ∈ x.insertedIds

end Sys

variable (hashtext : ConversationId → Int)

/-- `INSERT INTO messages` without an ordinal -/
def insertMessage (s : Sys) (i : SessionId) (locks : List Int) (inserted : List Message)
    (deleted : List MessageId) (m : Message) : Sys :=
  let key := hashtext m.conversationId
  if s.taken i (·.holds hashtext key) then s
  else if s.idTaken m.id then s.set i none
  else match assignSequenceNumber ((Session.writer locks inserted deleted).view s.messages) m with
    | none => s.set i none
    | some m => s.set i (some (.writer (key :: locks) (inserted ++ [m]) deleted))

/-- `DELETE FROM messages` of one row -/
def deleteMessage (s : Sys) (i : SessionId) (locks : List Int) (inserted : List Message)
    (deleted : List MessageId) (id : MessageId) : Sys :=
  if s.taken i (id ∈ ·.lockedRows) then s
  else if id ∈ inserted.map (·.id) then
    s.set i (some (.writer locks (inserted.filter (·.id ≠ id)) deleted))
  else if id ∈ s.messages.map (·.id) then s.set i (some (.writer locks inserted (id :: deleted)))
  else s

/-- the next statement of `backfill_conversation` -/
def backfillStep (s : Sys) (i : SessionId) (c : ConversationId) : Stage → Sys
  | .locking =>
    if s.taken i (·.holds hashtext (hashtext c)) then s
    else s.set i (some (.backfill c .reading))
  | .reading =>
    let (unnumbered, minAssigned) := conversationState s.messages c
    if unnumbered = 0 then s.set i (some (.backfill c (.committing (.numbered 0) [])))
    else if minAssigned.any (· ≤ unnumbered) then
      s.set i (some (.backfill c (.committing .conflict [])))
    else s.set i (some (.backfill c .ordering))
  | .ordering => s.set i (some (.backfill c (.updating (ordered s.messages c))))
  | .updating nums =>
    -- rows that were deleted since the snapshot are passed over
    let left := nums.filter fun x => x.1 ∈ (inConversation c s.messages).map (·.id)
    if s.taken i (fun x => left.any (·.1 ∈ x.lockedRows)) then s
    else if s.messages.any (denyRewrite left) ∨ left.any (maxInteger < ·.2) then s.set i none
    else s.set i (some (.backfill c (.committing (.numbered left.length) left)))
  | .committing outcome nums =>
    let t := s.finish i (.backfill c (.committing outcome nums))
    { t with returned := t.returned ++ [(c, outcome)] }

def Op.exec (s : Sys) : Op → Sys
  | .begin => { s with sessions := s.sessions ++ [some (.writer [] [] [])] }
  | .backfillConversation c => { s with sessions := s.sessions ++ [some (.backfill c .locking)] }
  | .insert i id c createdAt =>
    match s.session i with
    | some (.writer locks inserted deleted) =>
      insertMessage hashtext s i locks inserted deleted { id, conversationId := c, createdAt }
    | _ => s
  | .delete i id =>
    match s.session i with
    | some (.writer locks inserted deleted) => deleteMessage s i locks inserted deleted id
    | _ => s
  | .commit i =>
    match s.session i with
    | some (.writer locks inserted deleted) => s.finish i (.writer locks inserted deleted)
    | _ => s
  | .step i =>
    match s.session i with
    | some (.backfill c stage) => backfillStep hashtext s i c stage
    | _ => s
  | .rollback i => s.set i none

/-- conversations of before the migration: any number of messages, none with an ordinal -/
structure History where
  messages : List Message
  ids : (messages.map (·.id)).Nodup
  unnumbered : ∀ m ∈ messages, m.sequenceNumber = none

def History.start (h : History) : Sys := { messages := h.messages }

end LifeAI.Messages
