import LifeAI.Lib.Keyed
import LifeAI.Base
import Mathlib.Data.Int.Notation

/-!
# Active context

`active_context/service.py`: the members of a context set, found from its anchor and set by hand.

* `Db`          the rows that references lead through (`ownedRow`, `edges`);
* `Search`      the bounded breadth-first search of a refresh;
* `refreshContext`, `manualState`   the calls;
* `Op`, `exec`  a call in its transaction, or a change of the data.

A context set is named by its position, a member by its set and the object it refers to.  The owner
of a member is the owner of its set (`fk_active_context_member_set_owner`).
-/

namespace LifeAI.Context

/-- the UUID of a record -/
abbrev RefId := ℕ
abbrev SetId := ℕ

/-- `SUPPORTED_TYPES` -/
inductive ObjectType where
  | conversation | message | document | knowledgeVersion | knowledgeClaim | memorySourceUnit
  | documentSourceUnit | messageSourceUnit | mainaiGoal | mainaiPlan | mainaiTask | mainaiJob
  | mainaiCheckpoint | mainaiRecovery | engineeringLesson | intelligenceExecution
  | intelligenceEvidence | intelligenceInterpretation | intelligenceIdea | project | projectNote
  | memoryThread | lifeIntent | lifeIntentBlocker | lifeProblem | lifeProblemApproach
  | lifeSolutionComponent | lifeProblemAssumption | lifeProblemDecision | lifeApproachOutcome
  | founderMemoryNote | diagnosisRecord | capabilityRecord | candidateLearningSignal
  | workCandidate | projectEntity
  deriving DecidableEq

def ObjectType.name : ObjectType → String
  | .conversation => "conversation"
  | .message => "message"
  | .document => "document"
  | .knowledgeVersion => "knowledge_version"
  | .knowledgeClaim => "knowledge_claim"
  | .memorySourceUnit => "memory_source_unit"
  | .documentSourceUnit => "document_source_unit"
  | .messageSourceUnit => "message_source_unit"
  | .mainaiGoal => "mainai_goal"
  | .mainaiPlan => "mainai_plan"
  | .mainaiTask => "mainai_task"
  | .mainaiJob => "mainai_job"
  | .mainaiCheckpoint => "mainai_checkpoint"
  | .mainaiRecovery => "mainai_recovery"
  | .engineeringLesson => "engineering_lesson"
  | .intelligenceExecution => "intelligence_execution"
  | .intelligenceEvidence => "intelligence_evidence"
  | .intelligenceInterpretation => "intelligence_interpretation"
  | .intelligenceIdea => "intelligence_idea"
  | .project => "project"
  | .projectNote => "project_note"
  | .memoryThread => "memory_thread"
  | .lifeIntent => "life_intent"
  | .lifeIntentBlocker => "life_intent_blocker"
  | .lifeProblem => "life_problem"
  | .lifeProblemApproach => "life_problem_approach"
  | .lifeSolutionComponent => "life_solution_component"
  | .lifeProblemAssumption => "life_problem_assumption"
  | .lifeProblemDecision => "life_problem_decision"
  | .lifeApproachOutcome => "life_approach_outcome"
  | .founderMemoryNote => "founder_memory_note"
  | .diagnosisRecord => "diagnosis_record"
  | .capabilityRecord => "capability_record"
  | .candidateLearningSignal => "candidate_learning_signal"
  | .workCandidate => "work_candidate"
  | .projectEntity => "project_entity"

/-- the name of a type, as a caller gives it -/
inductive TypeName where
  | supported (t : ObjectType)
  | explicitTopic
  | other (name : String)
  deriving DecidableEq

def TypeName.text : TypeName → String
  | .supported t => t.name
  | .explicitTopic => "explicit_topic"
  | .other name => name

/-- a reference as text: a UUID, or not -/
inductive ObjectRef where
  | uuid (id : RefId)
  | text (s : String)
  deriving DecidableEq

/-- `_Ref` -/
structure Ref where
  objectType : ObjectType
  objectId : RefId
  deriving DecidableEq

inductive Action where
  | pinned | unpinned | suppressed | unsuppressed | stateChanged | memberAdded | refreshed
  deriving DecidableEq

inductive Relation where
  | anchor | sameConversation | sameTask | sameGoal | recoveryEvidence | sourceOf | evidenceFor
  | reviewedBy | derivedFrom | supersedes | originatedIn | engineeringLesson | provenBy | verifiedBy
  /-- in the path of a member that was set by hand -/
  | manual (action : Action)
  deriving DecidableEq

/-- `_Edge` -/
structure Edge where
  target : Ref
  relation : Relation
  deriving DecidableEq

/-- the columns that hold references -/
inductive Column where
  | conversationId | planId | goalId | mainaiJobId | taskId | jobId | memorySourceId | messageId
  | documentId | versionId | sourceId | executionId | observerExecutionId | evidenceId | supersedesId
  | supersedesNoteId | supersedesDiagnosisId | provenEvidenceId | lastVerificationEvidenceId
  deriving DecidableEq

/-- a row of the table of a type, with its primary key -/
structure Row where
  ref : Ref
  /-- the column that names the owner, where the table has one -/
  owner : Option OwnerId := none
  columns : List (Column × RefId) := []
  deriving DecidableEq

def Row.get (r : Row) (c : Column) : Option RefId := r.columns.lookup c

/-- a row of `intelligence_idea_lessons` -/
structure IntelligenceIdeaLesson where
  ownerId : OwnerId
  ideaId : RefId
  engineeringLessonId : RefId
  deriving DecidableEq

/-- the tables, in the order in which a query without ORDER BY gives their rows -/
structure Db where
  rows : List Row
  ideaLessons : List IntelligenceIdeaLesson := []
  deriving DecidableEq

/-! ## references -/

section
variable (db : Db) (ownerId : OwnerId)

/-- `db.get` -/
def Db.row (ref : Ref) : Option Row := db.rows.find? fun r => r.ref = ref

/-- `_owned_row` -/
def ownedRow (ref : Ref) : Option Row :=
  match ref.objectType with
  | .message => (db.row ref).filter fun row => (row.get .conversationId).any fun c =>
      (db.row ⟨.conversation, c⟩).any fun conversation => conversation.owner = some ownerId
  | .engineeringLesson | .projectNote => db.row ref
  | _ => (db.row ref).filter fun row => row.owner = some ownerId

/-- `_uuid_ref` -/
def uuidRef (objectType : TypeName) (objectRef : ObjectRef) : Except Err Ref :=
  match objectType with
  | .supported t =>
    match objectRef with
    | .uuid id => .ok ⟨t, id⟩
    | .text _ => .error (.invalidContextReference (t.name ++ " requires a UUID reference"))
  | .explicitTopic | .other _ => .error
      (.invalidContextReference ("unsupported context object type: " ++ objectType.text))

/-- `_require_ref` -/
def requireRef (objectType : TypeName) (objectRef : ObjectRef) : Except Err (Ref × Row) := do
  let ref ← uuidRef objectType objectRef
  match ownedRow db ownerId ref with
  | none => .error (.invalidContextReference
      (objectType.text ++ " reference is missing or belongs to another owner"))
  | some row => .ok (ref, row)

/-- the columns that `_edges` reads from a row of the type, with what they refer to -/
def columnEdges : ObjectType → List (ObjectType × Column × Relation)
  | .message => [(.conversation, .conversationId, .sameConversation)]
  | .mainaiTask => [(.mainaiPlan, .planId, .sameTask), (.mainaiGoal, .goalId, .sameGoal),
      (.mainaiJob, .mainaiJobId, .sameTask)]
  | .mainaiPlan => [(.mainaiGoal, .goalId, .sameGoal)]
  | .mainaiCheckpoint => [(.mainaiGoal, .goalId, .sameGoal), (.mainaiTask, .taskId, .sameTask)]
  | .mainaiRecovery => [(.mainaiTask, .taskId, .sameTask), (.mainaiJob, .jobId, .recoveryEvidence)]
  | .messageSourceUnit => [(.memorySourceUnit, .memorySourceId, .sourceOf),
      (.message, .messageId, .sourceOf), (.conversation, .conversationId, .sameConversation)]
  | .documentSourceUnit => [(.memorySourceUnit, .memorySourceId, .sourceOf),
      (.document, .documentId, .sourceOf), (.knowledgeVersion, .versionId, .sourceOf)]
  | .knowledgeVersion => [(.document, .sourceId, .sourceOf)]
  | .knowledgeClaim => [(.document, .sourceId, .sourceOf), (.knowledgeVersion, .versionId, .sourceOf),
      (.memorySourceUnit, .memorySourceId, .sourceOf)]
  | .intelligenceExecution => [(.mainaiTask, .taskId, .sameTask), (.mainaiJob, .jobId, .sameTask)]
  | .intelligenceEvidence => [(.intelligenceExecution, .executionId, .evidenceFor),
      (.intelligenceExecution, .observerExecutionId, .reviewedBy)]
  | .intelligenceInterpretation => [(.intelligenceEvidence, .evidenceId, .derivedFrom),
      (.intelligenceInterpretation, .supersedesId, .supersedes)]
  | .intelligenceIdea => [(.intelligenceExecution, .executionId, .originatedIn),
      (.intelligenceEvidence, .evidenceId, .evidenceFor)]
  | .founderMemoryNote => [(.founderMemoryNote, .supersedesNoteId, .supersedes)]
  | .diagnosisRecord => [(.diagnosisRecord, .supersedesDiagnosisId, .supersedes),
      (.intelligenceEvidence, .provenEvidenceId, .provenBy)]
  | .capabilityRecord => [(.intelligenceEvidence, .lastVerificationEvidenceId, .verifiedBy)]
  | _ => []

/-- the edges that `_edges` asks the database for -/
def queriedEdges (ref : Ref) : List Edge :=
  match ref.objectType with
  | .mainaiJob => (db.rows.filter fun r => r.ref.objectType = .mainaiTask ∧
      r.owner = some ownerId ∧ r.get .mainaiJobId = some ref.objectId).map fun r => ⟨r.ref, .sameTask⟩
  | .intelligenceIdea => (db.ideaLessons.filter fun l =>
      l.ownerId = ownerId ∧ l.ideaId = ref.objectId).map fun l =>
        ⟨⟨.engineeringLesson, l.engineeringLessonId⟩, .engineeringLesson⟩
  | _ => []

/-- `_edges` -/
def edges (ref : Ref) (row : Row) : List Edge :=
  ((columnEdges ref.objectType).filterMap fun e =>
    (row.get e.2.1).map fun id => ⟨⟨e.1, id⟩, e.2.2⟩) ++ queriedEdges db ownerId ref

end

/-! ## the search -/

/-- an entry of an activation path -/
abbrev PathStep := Ref × Relation

structure Bounds where
  maxDepth : ℤ := 4
  maxMembers : ℤ := 100
  maxPerType : ℤ := 30
  deriving DecidableEq

def Bounds.accepted (b : Bounds) : Bool :=
  (0 ≤ b.maxDepth ∧ b.maxDepth ≤ 10) ∧ (1 ≤ b.maxMembers ∧ b.maxMembers ≤ 500) ∧
    (1 ≤ b.maxPerType ∧ b.maxPerType ≤ 200)

/-- an entry of `queue` -/
structure Item where
  ref : Ref
  row : Row
  depth : ℕ
  path : List PathStep
  deriving DecidableEq

/-- what `discovered` holds of an object -/
structure Found where
  rank : ℕ
  reason : Relation
  path : List PathStep
  deriving DecidableEq

/-- the variables of the loop -/
structure Search where
  queue : List Item
  discovered : List (Ref × Found) := []
  counts : ObjectType → ℕ := fun _ => 0
  visited : List Ref := []
  rank : ℕ := 0

/-- `path[-1]["relation"]`; a path has its anchor -/
def lastRelation (path : List PathStep) : Relation := (path.getLast?.map Prod.snd).getD .anchor

section
variable (db : Db) (ownerId : OwnerId) (b : Bounds)

/-- what an item puts in the queue -/
def Item.targets (visited : List Ref) (item : Item) : List Item :=
  if b.maxDepth ≤ item.depth then []
  else (edges db ownerId item.ref item.row).filterMap fun e =>
    if e.target ∈ visited then none
    else (ownedRow db ownerId e.target).map fun row =>
      ⟨e.target, row, item.depth + 1, item.path ++ [(e.target, e.relation)]⟩

/-- one round of the loop, `none` where its condition fails -/
def Search.step (s : Search) : Option Search :=
  match s.queue with
  | [] => none
  | item :: queue =>
    if b.maxMembers ≤ s.discovered.length then none
    else if item.ref ∈ s.visited then some { s with queue }
    else if b.maxPerType ≤ s.counts item.ref.objectType then
      some { s with queue, visited := item.ref :: s.visited }
    else
      some
        { queue := queue ++ item.targets db ownerId b (item.ref :: s.visited)
          discovered := s.discovered ++ [(item.ref, ⟨s.rank, lastRelation item.path, item.path⟩)]
          counts := Function.update s.counts item.ref.objectType (s.counts item.ref.objectType + 1)
          visited := item.ref :: s.visited
          rank := s.rank + 1 }

variable {db ownerId b}

/-- a round takes an item from the queue, or finds one of the members that are still allowed -/
theorem Search.step_decreases {s t : Search} (h : s.step db ownerId b = some t) :
    Prod.Lex (· < ·) (· < ·) (b.maxMembers.toNat - t.discovered.length, t.queue.length)
      (b.maxMembers.toNat - s.discovered.length, s.queue.length) := by
  unfold Search.step at h
  split at h
  · cases h
  · rename_i item queue hqueue
    split_ifs at h with htotal hvisited heach
    · cases h
      refine Prod.Lex.right _ ?_
      rw [hqueue]
      exact Nat.lt_succ_self _
    · cases h
      refine Prod.Lex.right _ ?_
      rw [hqueue]
      exact Nat.lt_succ_self _
    · cases h
      refine Prod.Lex.left _ _ ?_
      show b.maxMembers.toNat - (s.discovered ++ [_]).length < _
      rw [List.length_append, List.length_singleton]
      omega

variable (db ownerId b)

/-- the rounds, until the condition fails -/
def Search.loop (s : Search) : Search :=
  match h : s.step db ownerId b with
  | none => s
  | some t => Search.loop t
termination_by (b.maxMembers.toNat - s.discovered.length, s.queue.length)
decreasing_by exact Search.step_decreases h

/-- the objects that a refresh discovers from its roots -/
def discoverFrom (roots : List (Ref × Row)) : List (Ref × Found) :=
  (Search.loop db ownerId b
    { queue := roots.map fun r => ⟨r.1, r.2, 0, [(r.1, .anchor)]⟩ }).discovered

end

/-! ## the tables -/

inductive MemberState where
  | active | pinned | suppressed | stale | superseded
  deriving DecidableEq

inductive InclusionReason where
  | relation (r : Relation)
  | manualPin | manualSuppression
  deriving DecidableEq

/-- a row of `active_context_sets` -/
structure ActiveContextSet where
  ownerId : OwnerId
  anchorType : TypeName
  anchorRef : ObjectRef
  refreshedAt : Option Time := none
  deriving DecidableEq

/-- a row of `active_context_members` -/
structure ActiveContextMember where
  contextSetId : SetId
  ref : Ref
  inclusionReason : InclusionReason
  relevanceBasis : String
  authority : String
  rank : ℕ
  state : MemberState
  activationPath : List PathStep
  sourceProvenance : Ref
  addedAt : Time
  lastActivatedAt : Time
  deriving DecidableEq

/-- the columns of `uq_active_context_member_ref` -/
def ActiveContextMember.key (m : ActiveContextMember) : SetId × Ref := (m.contextSetId, m.ref)

inductive Detail where
  | added (reason : Relation) (path : List PathStep)
  | refreshed (bounds : Bounds) (discovered : ℕ)
  /-- of a call by hand; with the state and the reason of `mark_noncurrent` -/
  | object (ref : Ref) (noncurrent : Option (MemberState × String))
  deriving DecidableEq

/-- a row of `active_context_events` -/
structure ActiveContextEvent where
  contextSetId : SetId
  ownerId : OwnerId
  member : Option Ref
  action : Action
  actorType : String
  detail : Detail
  deriving DecidableEq

structure Tables where
  sets : List ActiveContextSet
  members : List ActiveContextMember := []
  events : List ActiveContextEvent := []
  deriving DecidableEq

/-- `ck_active_context_event_actor` -/
def actorTypes : List String := ["founder", "system", "deterministic_resolver", "unknown"]

/-- the context set of the owner, locked -/
def Tables.context (s : Tables) (ownerId : OwnerId) (setId : SetId) :
    Except Err ActiveContextSet :=
  match s.sets[setId]? with
  | some c =>
    if c.ownerId = ownerId then .ok c
    else .error (.invalidContextReference "context set is missing or belongs to another owner")
  | none => .error (.invalidContextReference "context set is missing or belongs to another owner")

/-! ## refresh -/

section
variable (now : Time) (db : Db) (ownerId : OwnerId) (setId : SetId) (b : Bounds)

/-- the roots of a context: its anchor, or nothing for a topic -/
def ActiveContextSet.roots (c : ActiveContextSet) : Except Err (List (Ref × Row)) :=
  if c.anchorType = .explicitTopic then .ok []
  else do
    let root ← requireRef db ownerId c.anchorType c.anchorRef
    return [root]

/-- `discovered`, when the loop is over -/
def discovered (c : ActiveContextSet) : Except Err (List (Ref × Found)) := do
  let roots ← c.roots db ownerId
  return discoverFrom db ownerId b roots

/-- an active member that was not discovered is stale -/
def ActiveContextMember.aged (found : List (Ref × Found)) (m : ActiveContextMember) :
    ActiveContextMember :=
  if m.contextSetId = setId ∧ m.state = .active ∧ m.ref ∉ found.map Prod.fst then
    { m with state := .stale }
  else m

/-- a member that was discovered again -/
def ActiveContextMember.found (f : Found) (m : ActiveContextMember) : ActiveContextMember :=
  if m.state = .suppressed then m
  else
    { m with
      state := if m.state = .stale then .active else m.state
      rank := f.rank
      inclusionReason := .relation f.reason
      activationPath := f.path
      lastActivatedAt := now }

/-- a member that was discovered for the first time -/
def ActiveContextMember.new (d : Ref × Found) : ActiveContextMember :=
  { contextSetId := setId, ref := d.1, inclusionReason := .relation d.2.reason
    relevanceBasis := "deterministic", authority := "deterministic_source", rank := d.2.rank
    state := .active, activationPath := d.2.path, sourceProvenance := d.1, addedAt := now
    lastActivatedAt := now }

/-- what a discovered object does to the members -/
def Tables.discover (s : Tables) (d : Ref × Found) : Tables :=
  if (setId, d.1) ∈ s.members.map ActiveContextMember.key then
    { s with members := s.members.map fun m => if m.key = (setId, d.1) then m.found now d.2 else m }
  else
    { s with
      members := s.members ++ [ActiveContextMember.new now setId d]
      events := s.events ++ [{
        contextSetId := setId, ownerId, member := some d.1, action := .memberAdded
        actorType := "deterministic_resolver", detail := .added d.2.reason d.2.path }] }

/-- the discovered objects that are no members yet -/
def fresh (members : List ActiveContextMember) (found : List (Ref × Found)) : List (Ref × Found) :=
  found.filter fun d => (setId, d.1) ∉ members.map ActiveContextMember.key

/-- `refresh_context` -/
def refreshContext (s : Tables) : Except Err Tables :=
  if ¬ b.accepted then .error .valueError
  else do
    let context ← s.context ownerId setId
    let found ← discovered db ownerId b context
    let s := found.foldl (Tables.discover now ownerId setId)
      { s with members := s.members.map (ActiveContextMember.aged setId found) }
    return { s with
      sets := s.sets.set setId { context with refreshedAt := some now }
      events := s.events ++ [{
        contextSetId := setId, ownerId, member := none, action := .refreshed
        actorType := "deterministic_resolver", detail := .refreshed b found.length }] }

/-! ## decisions by hand -/

/-- what a call by hand writes -/
structure Manual where
  objectType : TypeName
  objectRef : ObjectRef
  state : MemberState
  action : Action
  actorType : String := "founder"
  noncurrent : Option (MemberState × String) := none
  deriving DecidableEq

/-- a member that is there takes the state; a pin is the founder's -/
def ActiveContextMember.put (state : MemberState) (m : ActiveContextMember) : ActiveContextMember :=
  if state = .pinned then
    { m with
      state, lastActivatedAt := now, relevanceBasis := "manual", authority := "founder"
      inclusionReason := .manualPin }
  else { m with state, lastActivatedAt := now }

/-- a member that is not there -/
def Manual.member (a : Manual) (ref : Ref) : ActiveContextMember :=
  { contextSetId := setId, ref
    inclusionReason := if a.state = .pinned then .manualPin else .manualSuppression
    relevanceBasis := "manual", authority := "founder", rank := 0, state := a.state
    activationPath := [(ref, .manual a.action)], sourceProvenance := ref, addedAt := now
    lastActivatedAt := now }

/-- `_manual_state` -/
def manualState (a : Manual) (s : Tables) : Except Err Tables := do
  let r ← requireRef db ownerId a.objectType a.objectRef
  let _ ← s.context ownerId setId
  let members := if (setId, r.1) ∈ s.members.map ActiveContextMember.key then
      s.members.map fun m => if m.key = (setId, r.1) then m.put now a.state else m
    else s.members ++ [a.member now setId r.1]
  if a.actorType ∉ actorTypes then .error (.integrityError "ck_active_context_event_actor")
  else
    return { s with
      members
      events := s.events ++ [{
        contextSetId := setId, ownerId, member := some r.1, action := a.action
        actorType := a.actorType, detail := .object r.1 a.noncurrent }] }

variable (objectType : TypeName) (objectRef : ObjectRef)

/-- `pin_object` -/
def pinObject (s : Tables) : Except Err Tables :=
  manualState now db ownerId setId { objectType, objectRef, state := .pinned, action := .pinned } s

/-- `suppress_object` -/
def suppressObject (s : Tables) : Except Err Tables :=
  manualState now db ownerId setId
    { objectType, objectRef, state := .suppressed, action := .suppressed } s

/-- `unpin_object` -/
def unpinObject (s : Tables) : Except Err Tables :=
  manualState now db ownerId setId { objectType, objectRef, state := .active, action := .unpinned } s

/-- `unsuppress_object` -/
def unsuppressObject (s : Tables) : Except Err Tables :=
  manualState now db ownerId setId
    { objectType, objectRef, state := .stale, action := .unsuppressed } s

/-- `mark_noncurrent` -/
def markNoncurrent (state : MemberState) (reason actorType : String) (s : Tables) :
    Except Err Tables :=
  if (state ≠ .stale ∧ state ≠ .superseded) ∨ blank reason then .error .valueError
  else
    manualState now db ownerId setId
      { objectType, objectRef, state, action := .stateChanged, actorType
        noncurrent := some (state, reason) } s

end

/-! ## histories -/

inductive Op where
  /-- the data changes -/
  | data (db : Db)
  | refresh (now : Time) (ownerId : OwnerId) (setId : SetId) (b : Bounds)
  | pin (now : Time) (ownerId : OwnerId) (setId : SetId) (objectType : TypeName) (ref : ObjectRef)
  | unpin (now : Time) (ownerId : OwnerId) (setId : SetId) (objectType : TypeName) (ref : ObjectRef)
  | suppress (now : Time) (ownerId : OwnerId) (setId : SetId) (objectType : TypeName)
      (ref : ObjectRef)
  | unsuppress (now : Time) (ownerId : OwnerId) (setId : SetId) (objectType : TypeName)
      (ref : ObjectRef)
  | noncurrent (now : Time) (ownerId : OwnerId) (setId : SetId) (objectType : TypeName)
      (ref : ObjectRef) (state : MemberState) (reason actorType : String)

structure World where
  db : Db
  tables : Tables
  deriving DecidableEq

/-- what a call answers -/
def Op.call (db : Db) (s : Tables) : Op → Except Err Tables
  | .data _ => .ok s
  | .refresh now ownerId setId b => refreshContext now db ownerId setId b s
  | .pin now ownerId setId t ref => pinObject now db ownerId setId t ref s
  | .unpin now ownerId setId t ref => unpinObject now db ownerId setId t ref s
  | .suppress now ownerId setId t ref => suppressObject now db ownerId setId t ref s
  | .unsuppress now ownerId setId t ref => unsuppressObject now db ownerId setId t ref s
  | .noncurrent now ownerId setId t ref state reason actorType =>
    markNoncurrent now db ownerId setId t ref state reason actorType s

/-- a step of a history -/
def exec (w : World) (op : Op) : World where
  db := match op with
    | .data db => db
    | _ => w.db
  tables := transact w.tables (op.call w.db w.tables)

/-- context sets without members -/
def start (db : Db) (sets : List ActiveContextSet) : World := ⟨db, { sets }⟩

end LifeAI.Context
