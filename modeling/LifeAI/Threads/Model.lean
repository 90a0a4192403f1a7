import LifeAI.Lib.History
import LifeAI.Lib.Keyed
import LifeAI.Base
import Mathlib.Data.List.Sort

/-!
# Memory threads

`memory_threads/service.py`, the part that makes, fills, branches and merges threads.

* `Tables`      threads, members, relationships and events;
* `World`       the records that members refer to, as a call finds them;
* `createThread`, `addMember`, `deactivateMember`, `addRelationship`, `mergeThreads`, `branchThread`
                the calls;
* `Op`, `exec`  a call in its transaction.

A row is named by its position.  A call that raises is rolled back, so the functions give tables
only where they return.
-/

namespace LifeAI.Threads

abbrev ThreadId := ℕ
abbrev MemberId := ℕ
abbrev RelationId := ℕ
/-- the UUID of a record -/
abbrev RefId := ℕ

inductive ThreadState where
  | active | dormant | completed | superseded | archived
  deriving DecidableEq

inductive MemberState where
  | active | inactive | superseded
  deriving DecidableEq

/-- a JSON object, up to equality -/
inductive Provenance where
  | empty
  | operation (name : String)
  /-- `merged_from` or `branched_from`, with `source_member_id` -/
  | copied (key : String) (thread : ThreadId) (member : MemberId)
  | other (object : ℕ)
  deriving DecidableEq

/-- a row of `memory_threads` -/
structure MemoryThread where
  ownerId : OwnerId
  manualLabel : Option String
  systemLabel : Option String
  classificationBasis : String
  state : ThreadState := .active
  idempotencyKey : String
  lastActivityAt : Time
  deriving DecidableEq

/-- a row of `memory_thread_members` -/
structure MemoryThreadMember where
  threadId : ThreadId
  ownerId : OwnerId
  memberKind : String
  memberRefId : RefId
  membershipBasis : String
  classificationBasis : String
  state : MemberState := .active
  provenance : Provenance
  sourceOccurredAt : Option Time
  idempotencyKey : Option String
  addedAt : Time
  lastSeenAt : Time
  deriving DecidableEq

/-- `source_time_basis` -/
def MemoryThreadMember.sourceTimeBasis (m : MemoryThreadMember) : String :=
  if m.sourceOccurredAt = none then "unknown" else "source"

/-- the columns of `uq_memory_thread_member` -/
def MemoryThreadMember.ref (m : MemoryThreadMember) : ThreadId × String × RefId :=
  (m.threadId, m.memberKind, m.memberRefId)

/-- a row of `memory_thread_relationships` -/
structure MemoryThreadRelationship where
  ownerId : OwnerId
  fromThreadId : ThreadId
  toThreadId : ThreadId
  relationshipType : String
  basis : String
  provenance : Provenance
  idempotencyKey : Option String
  deriving DecidableEq

/-- the columns of `uq_memory_thread_relation` -/
def MemoryThreadRelationship.link (r : MemoryThreadRelationship) :
    OwnerId × ThreadId × ThreadId × String :=
  (r.ownerId, r.fromThreadId, r.toThreadId, r.relationshipType)

/-- a row of `memory_thread_events` -/
structure MemoryThreadEvent where
  threadId : ThreadId
  ownerId : OwnerId
  eventType : String
  memberId : Option MemberId := none
  relationshipId : Option RelationId := none
  actorType : String
  detail : List (String × String)
  deriving DecidableEq

structure Tables where
  users : List OwnerId
  threads : List MemoryThread := []
  members : List MemoryThreadMember := []
  relations : List MemoryThreadRelationship := []
  events : List MemoryThreadEvent := []
  deriving DecidableEq

/-- what `_owned_row` finds for a kind and a reference, with the `_source_time` of the row -/
abbrev World := OwnerId → String → RefId → Option (Option Time)

/-- `SUPPORTED_TYPES` -/
def supportedTypes : List String :=
  ["conversation", "message", "document", "knowledge_version", "knowledge_claim",
    "memory_source_unit", "document_source_unit", "message_source_unit", "mainai_goal",
    "mainai_plan", "mainai_task", "mainai_job", "mainai_checkpoint", "mainai_recovery",
    "engineering_lesson", "intelligence_execution", "intelligence_evidence",
    "intelligence_interpretation", "intelligence_idea", "project", "project_note", "memory_thread",
    "life_intent", "life_intent_blocker", "life_problem", "life_problem_approach",
    "life_solution_component", "life_problem_assumption", "life_problem_decision",
    "life_approach_outcome", "founder_memory_note", "diagnosis_record", "capability_record",
    "candidate_learning_signal", "work_candidate", "project_entity"]

/-- `ck_memory_thread_basis`, `ck_memory_thread_member_classification` and
`ck_memory_thread_relation_basis` -/
def classificationBases : List String := ["manual", "deterministic", "inferred", "unknown"]

/-- `ck_memory_thread_membership_basis` -/
def membershipBases : List String :=
  ["founder_added", "deterministic_relationship", "imported_structure", "same_project",
    "same_goal", "continuation", "explicit_reference", "inferred", "unknown"]

/-- `ck_memory_thread_event_actor` -/
def actorTypes : List String := ["founder", "system", "deterministic_resolver", "unknown"]

/-- `ck_memory_thread_label` -/
def labelOk (label : Option String) : Bool := label.all fun l => l.toList.any (· ≠ ' ')

/-- a CHECK or a unique key at a flush -/
def check (ok : Bool) (constraint : String) : Except Err Unit :=
  if ok then .ok () else .error (.integrityError constraint)

/-- a key that is neither missing nor empty -/
def given (key : Option String) : Option String := key.filter (· ≠ "")

/-- `_require_ref`; a reference that is no UUID is `none` -/
def requireRef (w : World) (ownerId : OwnerId) (kind : String) (ref : Option RefId) :
    Except Err (RefId × Option Time) :=
  if kind ∉ supportedTypes then
    .error (.invalidThreadOperation ("unsupported context object type: " ++ kind))
  else
    match ref with
    | none => .error (.invalidThreadOperation (kind ++ " requires a UUID reference"))
    | some ref =>
      match w ownerId kind ref with
      | none => .error (.invalidThreadOperation
          (kind ++ " reference is missing or belongs to another owner"))
      | some time => .ok (ref, time)

namespace Tables

variable (s : Tables) (ownerId : OwnerId)

/-- `_thread` -/
def thread (t : ThreadId) : Except Err MemoryThread :=
  match s.threads[t]? with
  | some row =>
    if row.ownerId = ownerId then .ok row
    else .error (.invalidThreadOperation "thread is missing or belongs to another owner")
  | none => .error (.invalidThreadOperation "thread is missing or belongs to another owner")

/-- `_event` -/
def event (e : MemoryThreadEvent) : Except Err Tables :=
  if e.actorType ∈ actorTypes then .ok { s with events := s.events ++ [e] }
  else .error (.integrityError "ck_memory_thread_event_actor")

/-- the member of a thread with this reference -/
def memberOf (t : ThreadId) (kind : String) (ref : RefId) : Option (MemberId × MemoryThreadMember) :=
  Keyed.lookup MemoryThreadMember.ref s.members (t, kind, ref)

/-- the member of a thread that was added with this key -/
def memberWithKey (t : ThreadId) (key : String) : Option (MemberId × MemoryThreadMember) :=
  Keyed.lookup (fun m => (m.ownerId, m.threadId, m.idempotencyKey)) s.members (ownerId, t, some key)

/-- the relationship with this key -/
def relationWithKey (key : String) : Option (RelationId × MemoryThreadRelationship) :=
  Keyed.lookup (fun r => (r.ownerId, r.idempotencyKey)) s.relations (ownerId, some key)

/-- the relationship of this kind between two threads -/
def relationOf (a b : ThreadId) (kind : String) : Option (RelationId × MemoryThreadRelationship) :=
  Keyed.lookup MemoryThreadRelationship.link s.relations (ownerId, a, b, kind)

/-- `ORDER BY source_occurred_at ASC NULLS LAST, added_at, id` -/
def Earlier (a b : MemberId × MemoryThreadMember) : Prop :=
  let later := a.2.addedAt < b.2.addedAt ∨ (a.2.addedAt = b.2.addedAt ∧ a.1 ≤ b.1)
  match a.2.sourceOccurredAt, b.2.sourceOccurredAt with
  | some x, some y => x < y ∨ (x = y ∧ later)
  | some _, none => True
  | none, some _ => False
  | none, none => later

instance : DecidableRel Earlier := fun a b => by
  unfold Earlier
  split
  · infer_instance
  · infer_instance
  · infer_instance
  · infer_instance

/-- `thread_members`, of a thread of the owner -/
def threadMembers (t : ThreadId) : List (MemberId × MemoryThreadMember) :=
  ((s.members.zipIdx.map Prod.swap).filter fun m =>
    m.2.threadId = t ∧ m.2.ownerId = ownerId).insertionSort Earlier

def setMember (m : MemberId) (row : MemoryThreadMember) : Tables :=
  { s with members := s.members.set m row }

def setThread (t : ThreadId) (row : MemoryThread) : Tables :=
  { s with threads := s.threads.set t row }

end Tables

/-! ## the calls -/

section
variable (now : Time) (w : World) (s : Tables) (ownerId : OwnerId)

/-- `create_thread` -/
def createThread (key : String) (manualLabel systemLabel : Option String) (basis : String) :
    Except Err (ThreadId × Tables) :=
  if ownerId ∉ s.users then .error (.invalidThreadOperation "owner does not exist")
  else
    match Keyed.lookup (fun t => (t.ownerId, t.idempotencyKey)) s.threads (ownerId, key) with
    | some (t, existing) =>
      if existing.manualLabel ≠ manualLabel ∨ existing.systemLabel ≠ systemLabel ∨
          existing.classificationBasis ≠ basis then
        .error (.invalidThreadOperation "idempotency key reused for a different thread")
      else .ok (t, s)
    | none => do
      check (basis ∈ classificationBases) "ck_memory_thread_basis"
      check (labelOk manualLabel) "ck_memory_thread_label"
      check (labelOk systemLabel) "ck_memory_thread_system_label"
      let thread : MemoryThread :=
        { ownerId, manualLabel, systemLabel, classificationBasis := basis, idempotencyKey := key
          lastActivityAt := now }
      let s ← { s with threads := s.threads ++ [thread] }.event
        { threadId := s.threads.length, ownerId, eventType := "thread_created"
          actorType := if basis = "manual" then "founder" else "system"
          detail := [("manual_label", manualLabel.getD "null"),
            ("system_label", systemLabel.getD "null"), ("basis", basis)] }
      return (s.threads.length - 1, s)

/-- the arguments of `add_member` -/
structure NewMember where
  threadId : ThreadId
  memberKind : String
  memberRefId : Option RefId
  membershipBasis : String := "unknown"
  classificationBasis : String := "unknown"
  provenance : Provenance := .empty
  idempotencyKey : Option String := none
  actorType : String := "unknown"

/-- a member that is there: it is seen, and active again -/
def seeMember (a : NewMember) (m : MemberId) (existing : MemoryThreadMember) :
    Except Err (MemberId × Tables) :=
  if existing.state = .active then .ok (m, s.setMember m { existing with lastSeenAt := now })
  else do
    let s ← (s.setMember m { existing with lastSeenAt := now, state := .active }).event
      { threadId := a.threadId, ownerId, eventType := "member_added", memberId := some m
        actorType := a.actorType, detail := [("reactivated", "true")] }
    return (m, s)

/-- a member that is not there -/
def insertMember (a : NewMember) (thread : MemoryThread) (ref : RefId) (occurred : Option Time) :
    Except Err (MemberId × Tables) := do
  let member : MemoryThreadMember :=
    { threadId := a.threadId, ownerId, memberKind := a.memberKind, memberRefId := ref
      membershipBasis := a.membershipBasis, classificationBasis := a.classificationBasis
      provenance := a.provenance, sourceOccurredAt := occurred, idempotencyKey := a.idempotencyKey
      addedAt := now, lastSeenAt := now }
  check (a.memberKind ≠ "memory_thread") "ck_memory_thread_member_kind"
  check (a.membershipBasis ∈ membershipBases) "ck_memory_thread_membership_basis"
  check (a.classificationBasis ∈ classificationBases) "ck_memory_thread_member_classification"
  check (a.idempotencyKey.all fun k => (s.memberWithKey ownerId a.threadId k).isNone)
    "uq_memory_thread_member_idem"
  let s ← ({ s with members := s.members ++ [member] }.setThread a.threadId
      { thread with lastActivityAt := now }).event
    { threadId := a.threadId, ownerId, eventType := "member_added"
      memberId := some s.members.length, actorType := a.actorType
      detail := [("member_kind", a.memberKind), ("member_ref_id", toString ref),
        ("basis", a.membershipBasis)] }
  return (s.members.length - 1, s)

/-- `add_member` -/
def addMember (a : NewMember) : Except Err (MemberId × Tables) := do
  let thread ← s.thread ownerId a.threadId
  let r ← requireRef w ownerId a.memberKind a.memberRefId
  match (given a.idempotencyKey).bind (s.memberWithKey ownerId a.threadId) with
  | some (m, idem) =>
    if idem.memberKind ≠ a.memberKind ∨ idem.memberRefId ≠ r.1 ∨
        idem.membershipBasis ≠ a.membershipBasis ∨
        idem.classificationBasis ≠ a.classificationBasis ∨ idem.provenance ≠ a.provenance then
      .error (.invalidThreadOperation "idempotency key reused for different membership")
    else .ok (m, s)
  | none =>
    match s.memberOf a.threadId a.memberKind r.1 with
    | some (m, existing) => seeMember now s ownerId a m existing
    | none => insertMember now s ownerId a thread r.1 r.2

/-- `deactivate_member` -/
def deactivateMember (t : ThreadId) (kind : String) (ref : Option RefId) (reason actorType : String) :
    Except Err (MemberId × Tables) :=
  if blank reason then .error (.invalidThreadOperation "deactivation requires a reason")
  else do
    let _ ← s.thread ownerId t
    match ref with
    | none => .error .valueError
    | some ref =>
      match s.memberOf t kind ref with
      | none => .error (.invalidThreadOperation "membership not found")
      | some (m, member) =>
        if member.state = .inactive then .ok (m, s)
        else do
          let s ← (s.setMember m { member with state := .inactive }).event
            { threadId := t, ownerId, eventType := "member_deactivated", memberId := some m
              actorType, detail := [("reason", reason)] }
          return (m, s)

/-- the arguments of `add_relationship` -/
structure NewRelation where
  fromThreadId : ThreadId
  toThreadId : ThreadId
  relationshipType : String
  basis : String
  provenance : Provenance
  idempotencyKey : Option String
  actorType : String
  deriving DecidableEq

/-- the row that stands for them -/
def NewRelation.row (a : NewRelation) (ownerId : OwnerId) : MemoryThreadRelationship :=
  { ownerId, fromThreadId := a.fromThreadId, toThreadId := a.toThreadId
    relationshipType := a.relationshipType, basis := a.basis, provenance := a.provenance
    idempotencyKey := a.idempotencyKey }

/-- `ck_memory_thread_relation_type` -/
def relationshipTypes : List String :=
  ["related", "parent", "child", "branch", "continuation", "supersedes", "merged_into"]

/-- `add_relationship` -/
def addRelationship (a : NewRelation) : Except Err (RelationId × Tables) :=
  if a.fromThreadId = a.toThreadId then
    .error (.invalidThreadOperation "a thread cannot relate to itself")
  else if (s.thread ownerId a.fromThreadId).isOk = false ∨
      (s.thread ownerId a.toThreadId).isOk = false then
    .error (.invalidThreadOperation
      "relationship thread is missing or belongs to another owner")
  else
    match (given a.idempotencyKey).bind (s.relationWithKey ownerId) with
    | some (r, idem) =>
      if { idem with idempotencyKey := a.idempotencyKey } ≠ a.row ownerId then
        .error (.invalidThreadOperation "idempotency key reused for different relationship")
      else .ok (r, s)
    | none =>
      match s.relationOf ownerId a.fromThreadId a.toThreadId a.relationshipType with
      | some (r, _) => .ok (r, s)
      | none => do
        check (a.relationshipType ∈ relationshipTypes) "ck_memory_thread_relation_type"
        check (a.basis ∈ classificationBases) "ck_memory_thread_relation_basis"
        check (a.idempotencyKey.all fun k => (s.relationWithKey ownerId k).isNone)
          "uq_memory_thread_relation_idem"
        let s ← { s with relations := s.relations ++ [a.row ownerId] }.event
          { threadId := a.fromThreadId, ownerId, eventType := "relation_added"
            relationshipId := some s.relations.length, actorType := a.actorType
            detail := [("to_thread_id", toString a.toThreadId),
              ("relationship_type", a.relationshipType)] }
        return (s.relations.length - 1, s)

/-- the members `ms` are copied to the thread `t` -/
def copyMembers (t : ThreadId) (ms : List (MemberId × MemoryThreadMember))
    (basis : String) (provenance : MemberId → Provenance) : Except Err Tables :=
  ms.foldlM (fun s m => do
    let r ← addMember now w s ownerId
      { threadId := t, memberKind := m.2.memberKind, memberRefId := some m.2.memberRefId
        membershipBasis := "continuation", classificationBasis := basis
        provenance := provenance m.1, actorType := "founder" }
    return r.2) s

/-- the relationship of a merge -/
def mergedInto (source target : ThreadId) (key : String) : NewRelation :=
  { fromThreadId := source, toThreadId := target, relationshipType := "merged_into"
    basis := "manual", provenance := .operation "merge", idempotencyKey := some key
    actorType := "founder" }

/-- the source of a merge is superseded -/
def supersedeSource (source target : ThreadId) (r : RelationId) : Except Err Tables := do
  let row ← s.thread ownerId source
  if row.state = .superseded then return s
  else do
    let s ← (s.setThread source { row with state := .superseded }).event
      { threadId := source, ownerId, eventType := "merged", relationshipId := some r
        actorType := "founder", detail := [("target", toString target)] }
    s.event
      { threadId := source, ownerId, eventType := "superseded", actorType := "founder"
        detail := [("target", toString target)] }

/-- `merge_threads` -/
def mergeThreads (source target : ThreadId) (key : String) : Except Err (ThreadId × Tables) := do
  let relation ← addRelationship s ownerId (mergedInto source target key)
  let s := relation.2
  let _ ← s.thread ownerId source
  let _ ← s.thread ownerId target
  let active := (s.threadMembers ownerId source).filter fun m => m.2.state = .active
  let s ← copyMembers now w s ownerId target active "deterministic"
    (.copied "merged_from" source ·)
  let s ← supersedeSource s ownerId source target relation.1
  return (target, s)

/-- `branch_thread` -/
def branchThread (parent : ThreadId) (key : String) (manualLabel : Option String)
    (memberIds : List MemberId) : Except Err (ThreadId × Tables) := do
  let _ ← s.thread ownerId parent
  let child ← createThread now s ownerId key manualLabel none
    (if (given manualLabel).isSome then "manual" else "unknown")
  let relation ← addRelationship child.2 ownerId
    { fromThreadId := parent, toThreadId := child.1, relationshipType := "branch"
      basis := "manual", provenance := .operation "branch"
      idempotencyKey := some (key ++ ":relation"), actorType := "founder" }
  let s := relation.2
  let selected := (s.threadMembers ownerId parent).filter fun m => m.1 ∈ memberIds
  let s ← copyMembers now w s ownerId child.1 selected "manual" (.copied "branched_from" parent ·)
  let s ← s.event
    { threadId := child.1, ownerId, eventType := "branched", relationshipId := some relation.1
      actorType := "founder", detail := [("parent", toString parent)] }
  return (child.1, s)

end

/-! ## runs -/

inductive Call where
  | create (key : String) (manualLabel systemLabel : Option String) (basis : String)
  | add (a : NewMember)
  | deactivate (t : ThreadId) (kind : String) (ref : Option RefId) (reason actorType : String)
  | branch (parent : ThreadId) (key : String) (manualLabel : Option String)
    (memberIds : List MemberId)
  | merge (source target : ThreadId) (key : String)

/-- a call of an owner, at a moment and with the records it finds -/
structure Op where
  ownerId : OwnerId
  now : Time
  world : World
  call : Call

/-- what a call answers, with the tables it leaves behind if it returns -/
def Op.result (s : Tables) (op : Op) : Except Err (ℕ × Tables) :=
  match op.call with
  | .create key manualLabel systemLabel basis =>
    createThread op.now s op.ownerId key manualLabel systemLabel basis
  | .add a => addMember op.now op.world s op.ownerId a
  | .deactivate t kind ref reason actorType =>
    deactivateMember s op.ownerId t kind ref reason actorType
  | .branch parent key manualLabel memberIds =>
    branchThread op.now op.world s op.ownerId parent key manualLabel memberIds
  | .merge source target key => mergeThreads op.now op.world s op.ownerId source target key

def exec (s : Tables) (op : Op) : Tables :=
  match op.result s with
  | .ok r => r.2
  | .error _ => s

end LifeAI.Threads
