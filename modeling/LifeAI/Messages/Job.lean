import LifeAI.Jobs.Handlers
import LifeAI.Messages.Model

/-!
# The job that numbers messages

`run_message_sequence_backfill_job`, with the part of `process_claimed_mainai_job` around it.

* `Chats`               the tables that it works on, and what its commits were;
* `numberConversation`  the transaction of `backfill_conversation`, up to its callback;
* `Stage`               where a run stands, one constructor for each transaction or read;
* `backfillJob`         the handler.
-/

namespace LifeAI.Messages

structure Conversation where
  id : ConversationId
  userId : OwnerId
  createdAt : Nat
  deriving DecidableEq

structure Chats where
  conversations : List Conversation
  messages : List Message
  /-- no table: the outcomes that `backfill_conversation` committed -/
  outcomes : List (ConversationId × Outcome) := []

namespace Chats

variable (w : Chats) (owner : OwnerId)

/-- the conversations of `owner` with a message that has no ordinal -/
def unsequenced : List Conversation :=
  w.conversations.filter fun c => c.userId = owner ∧ (conversationState w.messages c.id).1 ≠ 0

/-- `count_conversations_with_unsequenced_messages` -/
def countConversations : Nat := (w.unsequenced owner).length

/-- `count_unsequenced_messages` -/
def countMessages : Nat :=
  (w.unsequenced owner).foldl (fun n c => n + (conversationState w.messages c.id).1) 0

end Chats

/-- `ORDER BY created_at ASC, id ASC` -/
def olderConversation (c d : Conversation) : Prop :=
  c.createdAt < d.createdAt ∨ (c.createdAt = d.createdAt ∧ c.id ≤ d.id)

instance : DecidableRel olderConversation := fun c d => by
  unfold olderConversation
  infer_instance

/-- `candidate_conversation_ids` -/
def candidateConversationIds (w : Chats) (owner : OwnerId) (limit : Nat)
    (exclude : List ConversationId) : List ConversationId :=
  ((((w.unsequenced owner).filter (·.id ∉ exclude)).insertionSort olderConversation).map
    (·.id)).take limit

/-- `backfill_conversation` before `on_outcome`: the rows that it has not committed yet -/
def numberConversation (rows : List Message) (c : ConversationId) :
    Except Err (List Message × Outcome) :=
  let (unnumbered, minAssigned) := conversationState rows c
  if unnumbered = 0 then .ok (rows, .numbered 0)
  else if minAssigned.any (· ≤ unnumbered) then .ok (rows, .conflict)
  else
    let nums := ordered rows c
    if rows.any (denyRewrite nums) then
      .error (.integrityError "messages_deny_sequence_number_rewrite")
    else if nums.any (maxInteger < ·.2) then .error .dataError
    else .ok (rows.map (numberRow nums), .numbered nums.length)

namespace Backfill

/-- `MAX_CONVERSATIONS_PER_RUN` -/
def maxConversationsPerRun : Nat := 2000

/-- the local variables of the loop -/
structure Counts where
  total : Nat
  processed : Nat := 0
  numberedConversations : Nat := 0
  messagesAssigned : Nat := 0
  conflicted : List ConversationId := []
  deriving DecidableEq

def Counts.after (n : Counts) (c : ConversationId) : Outcome → Counts
  | .conflict => { n with processed := n.processed + 1, conflicted := c :: n.conflicted }
  | .numbered assigned =>
    { n with
      processed := n.processed + 1
      numberedConversations := n.numberedConversations + 1
      messagesAssigned := n.messagesAssigned + assigned }

/-- the message of a run that got to its end -/
def publicMessage (n : Counts) (capped : Bool) (remaining remainingMessages : Nat) : String :=
  let assigned := n.messagesAssigned
  let conversations := n.numberedConversations
  let total := n.total
  let conflicts := n.conflicted.length
  let cap := maxConversationsPerRun
  let parts :=
    [s!"Numbered {assigned} message(s) across {conversations} of {total} conversation(s) (snapshot at job start)."]
    ++ (if conflicts = 0 then []
        else [s!"{conflicts} conversation(s) skipped as conflicting and left unchanged."])
    ++ (if capped then [s!"Stopped at this run's {cap}-conversation cap."] else [])
    ++ (if remaining = 0 then ["No unnumbered messages remain for this owner."]
        else [s!"{remaining} conversation(s) / {remainingMessages} message(s) still unnumbered — run again."])
  String.ofList ((" ".intercalate parts).toList.take 500)

inductive Stage where
  /-- `process_claimed_mainai_job` -/
  | claiming
  /-- the capability is gone -/
  | declining
  | counting
  /-- the initial progress -/
  | starting (total : Nat)
  /-- the head of the loop -/
  | looping (n : Counts)
  | cancelling
  | renewing (n : Counts)
  | choosing (n : Counts)
  | numbering (n : Counts) (c : ConversationId)
  /-- after the loop -/
  | ending (n : Counts) (capped : Bool)
  | completing (message : String)
  /-- after an exception -/
  | failing (e : Err)
  deriving DecidableEq

structure Pos where
  owner : OwnerId
  stage : Stage
  deriving DecidableEq

/-- what `require_capability` says, and `lease_seconds` -/
structure Env where
  capability : Bool := true
  leaseSeconds : Nat := 60

/-- the progress that a run is about to write: `current` and `total` -/
def Stage.progress : Stage → Option (Nat × Nat)
  | .starting total => some (0, total)
  | .numbering n _ => some (n.processed + 1, n.total)
  | _ => none

/-- `update_progress` with `phase="numbering"` -/
def writeProgress (jobs : List Job) (c : Claim) (p : Nat × Nat) : Except Err (List Job) :=
  updateProgress jobs c.job c.worker c.generation (some p.1) (some p.2) (some "numbering")

/-- the next transaction of a run -/
def step (env : Env) (db : JobDb) (w : Chats) (c : Claim) (pos : Pos) :
    List Job × Chats × Option Pos :=
  let goto (st : Stage) : Option Pos := some ⟨pos.owner, st⟩
  let write (x : Except Err (List Job)) (w' : Chats) (next : Option Pos) :=
    fenced db.jobs w x w' next (⟨pos.owner, .failing ·⟩)
  let stay (next : Option Pos) := (db.jobs, w, next)
  match pos.stage with
  | .claiming =>
    write (recordClaimed db.jobs c.job c.worker c.generation) w
      (if env.capability then goto .counting else goto .declining)
  | .declining =>
    write (markFailed db.now db.jobs c.job c.worker c.generation .capabilityUnavailable) w none
  | .counting => stay (goto (.starting (w.countConversations pos.owner)))
  | .starting total =>
    write (writeProgress db.jobs c (0, total)) w (goto (.looping { total }))
  | .looping n =>
    if maxConversationsPerRun ≤ n.processed then stay (goto (.ending n true))
    else match db.jobs[c.job]? with
      | none => stay none
      | some r => stay (goto (if r.cancelRequested then .cancelling else .renewing n))
  | .cancelling => write (markCancelled db.now db.jobs c.job c.worker c.generation) w none
  | .renewing n =>
    write (renewMainaiJobLease db.now db.jobs c.job c.worker c.generation env.leaseSeconds) w
      (goto (.choosing n))
  | .choosing n =>
    match candidateConversationIds w pos.owner 1 n.conflicted with
    | [] => stay (goto (.ending n false))
    | cand :: _ =>
      let total := if n.total < n.processed + 1 then n.processed + 1 else n.total
      stay (goto (.numbering { n with total } cand))
  | .numbering n cand =>
    -- the numbering and the progress are one transaction
    match numberConversation w.messages cand with
    | .error e => stay (goto (.failing e))
    | .ok (messages, outcome) =>
      write (writeProgress db.jobs c (n.processed + 1, n.total))
        { w with messages, outcomes := w.outcomes ++ [(cand, outcome)] }
        (goto (.looping (n.after cand outcome)))
  | .ending n capped =>
    match db.jobs[c.job]? with
    | none => stay none
    | some r =>
      if r.status ≠ .running then stay none
      else stay (goto (.completing
        (publicMessage n capped (w.countConversations pos.owner) (w.countMessages pos.owner))))
  | .completing message =>
    write (markCompleted db.now db.jobs c.job c.worker c.generation (some message)) w none
  | .failing _ =>
    -- the last resort: another exception, too, ends the run
    (transact db.jobs (markFailed db.now db.jobs c.job c.worker c.generation .unexpected), w, none)

/-- what others do to the tables -/
inductive Outside where
  | createConversation (id : ConversationId) (userId : OwnerId) (createdAt : Nat)
  | insertMessage (id : MessageId) (c : ConversationId) (createdAt : Nat)
  | deleteMessage (id : MessageId)
  | deleteConversation (c : ConversationId)
  deriving DecidableEq

def outside (w : Chats) : Outside → Chats
  | .createConversation id userId createdAt =>
    if id ∈ w.conversations.map (·.id) then w
    else { w with conversations := w.conversations ++ [⟨id, userId, createdAt⟩] }
  | .insertMessage id c createdAt =>
    if id ∈ w.messages.map (·.id) ∨ c ∉ w.conversations.map (·.id) then w
    else match assignSequenceNumber w.messages { id, conversationId := c, createdAt } with
      | none => w
      | some m => { w with messages := w.messages ++ [m] }
  | .deleteMessage id => { w with messages := w.messages.filter (·.id ≠ id) }
  | .deleteConversation c =>
    { w with
      conversations := w.conversations.filter (·.id ≠ c)
      messages := w.messages.filter (·.conversationId ≠ c) }

def backfillJob : Handler Chats Pos Env Outside where
  jobType := .messageSequenceBackfill
  start owner := ⟨owner, .claiming⟩
  step := step
  outside := outside

abbrev Op := HandlerOp Env Outside

def Op.exec (s : HandlerSys Chats Pos) (o : Op) : HandlerSys Chats Pos :=
  HandlerOp.exec backfillJob s o

end Backfill

end LifeAI.Messages
