import LifeAI.Base
import LifeAI.Lib.Keyed
import Mathlib.Algebra.Group.Nat.Defs
import Mathlib.Data.Finset.Dedup
import Mathlib.Data.List.Sort

/-!
# Strategy synthesis

`strategy_synthesis/service.py`: a recipe is put together under a synthesis case, and a ready case is
materialized as a candidate strategy.

* `SynthesisCase`, `Component`, `Conflict`, `Materialization`, `Event`, `WorkStrategy`  the rows;
* `addRecipeComponent`, `reorderRecipe`, `recordConflict`, `transitionConflict`, `transitionCase`,
  `materializeCandidate`   what a call answers, and the tables as its transaction leaves them;
* `Op`, `step`   a call, and what its caller does when it raises.

The calls on a case follow one another: `_owned` locks the row of the case until the transaction
ends.  `transition_conflict` locks the row of its conflict only; nothing makes a conflict unresolved
again, and `record_conflict` waits for the case.

`Doc` are JSON values, up to equality.
-/

namespace LifeAI.Synthesis

abbrev CaseId := ℕ
abbrev InputId := ℕ
abbrev ComponentId := ℕ
abbrev ConflictId := ℕ
abbrev MaterializationId := ℕ
abbrev EventId := ℕ
abbrev StrategyId := ℕ
abbrev AssumptionId := ℕ
abbrev EvidenceId := ℕ

/-! ## rows -/

inductive CaseStatus where
  | draft | ready | assembled | invalidated | cancelled | completed
  deriving DecidableEq

def CaseStatus.name : CaseStatus → String
  | .draft => "draft"
  | .ready => "ready"
  | .assembled => "assembled"
  | .invalidated => "invalidated"
  | .cancelled => "cancelled"
  | .completed => "completed"

inductive ConflictStatus where
  | unresolved | resolved | acceptedRisk | invalidated
  deriving DecidableEq

def ConflictStatus.name : ConflictStatus → String
  | .unresolved => "unresolved"
  | .resolved => "resolved"
  | .acceptedRisk => "accepted_risk"
  | .invalidated => "invalidated"

inductive Disposition where
  | included | excluded | modified | alternative | deferred | unknown
  deriving DecidableEq

inductive ComponentKind where
  | repositorySearch | fileSelection | codeNavigation | diagnosticStep | implementationSequence
  | testSequence | verificationObligation | stoppingCondition | escalationCondition | retryStrategy
  | concurrencyCheck | migrationReview | securityReview | simplification | specialistHandoff
  | other | unknown
  deriving DecidableEq

inductive Basis where
  | manual | deterministic | inferred | unknown
  deriving DecidableEq

inductive Severity where
  | hard | soft | unknown
  deriving DecidableEq

inductive EventType where
  | created | inputAdded | componentAdded | recipeReordered | conflictRecorded
  | conflictStateChanged | stateChanged | materialized | evaluationLinked | lessonLinked
  deriving DecidableEq

structure SynthesisCase (Doc : Type) where
  ownerId : OwnerId
  caseKey : String
  revision : ℤ
  predecessorStrategyId : Option StrategyId := none
  candidateStrategyKey : String
  candidateStrategyVersion : ℤ
  qualityInvariants : List Doc
  applicability : Doc
  status : CaseStatus := .draft
  nextComponentSequence : ℕ := 1
  deriving DecidableEq

structure SynthesisInput where
  ownerId : OwnerId
  caseId : CaseId
  deriving DecidableEq

structure Component (Doc : Type) where
  ownerId : OwnerId
  caseId : CaseId
  inputId : InputId
  sequenceNumber : ℕ
  componentKind : ComponentKind
  description : String
  modificationIntent : Option String
  disposition : Disposition
  applicability : Doc
  methodPayload : Doc
  assumptionId : Option AssumptionId
  evidenceId : Option EvidenceId
  reason : String
  basis : Basis
  idempotencyKey : String
  deriving DecidableEq

structure Conflict where
  ownerId : OwnerId
  caseId : CaseId
  leftComponentId : Option ComponentId
  rightComponentId : Option ComponentId
  assumptionId : Option AssumptionId
  severity : Severity
  status : ConflictStatus
  description : String
  resolutionReason : Option String
  evidenceId : Option EvidenceId
  idempotencyKey : String
  deriving DecidableEq

structure Materialization where
  ownerId : OwnerId
  caseId : CaseId
  strategyId : StrategyId
  recipeFingerprint : String
  idempotencyKey : String
  deriving DecidableEq

/-- the column `detail` of an event -/
inductive EventDetail where
  | empty
  | component (id : ComponentId) (sequenceNumber : ℕ) (disposition : Disposition)
  | order (before after : List ComponentId)
  | resolution (reason : Option String)
  | strategy (id : StrategyId) (recipeFingerprint : String)
  /-- any other object -/
  | other (text : String)
  deriving DecidableEq

/-- `detail.get("after")` -/
def EventDetail.after : EventDetail → Option (List ComponentId)
  | .order _ after => some after
  | _ => none

structure Event where
  ownerId : OwnerId
  caseId : CaseId
  conflictId : Option ConflictId := none
  eventType : EventType
  fromState : Option String := none
  toState : Option String := none
  detail : EventDetail := .empty
  idempotencyKey : String
  deriving DecidableEq

/-- an element of `ordered_phases` -/
structure Phase (Doc : Type) where
  componentId : ComponentId
  kind : ComponentKind
  description : String
  modificationIntent : Option String
  method : Doc
  deriving DecidableEq

/-- the column `methods` of a candidate -/
structure CandidateMethods (Doc : Type) where
  synthesisCaseId : CaseId
  recipeFingerprint : String
  qualityInvariants : List Doc
  componentIds : List ComponentId
  deriving DecidableEq

/-- the column `provenance` of a candidate -/
structure CandidateProvenance where
  kind : String
  caseId : CaseId
  recipeFingerprint : String
  deriving DecidableEq

/-- a row of `work_strategies`; a JSON column is `none` where its value has not the form that
`materialize_candidate` writes -/
structure WorkStrategy (Doc : Type) where
  ownerId : OwnerId
  strategyKey : String
  version : ℤ
  workCategory : String
  orderedPhases : Option (List (Phase Doc))
  toolSequence : List Doc
  methods : Option (CandidateMethods Doc)
  /-- the value under `applicability` -/
  environmentAssumptions : Option Doc
  classificationBasis : String
  provenance : Option CandidateProvenance
  predecessorId : Option StrategyId
  idempotencyKey : String
  deriving DecidableEq

structure Tables (Doc : Type) where
  cases : List (SynthesisCase Doc) := []
  inputs : List SynthesisInput := []
  components : List (Component Doc) := []
  conflicts : List Conflict := []
  materializations : List Materialization := []
  events : List Event := []
  strategies : List (WorkStrategy Doc) := []
  /-- the owners of `life_problem_assumptions` -/
  assumptions : List OwnerId := []
  /-- the owners of `intelligence_evidence` -/
  evidence : List OwnerId := []

/-- a component, in `_recipe_document` -/
structure RecipeEntry (Doc : Type) where
  id : ComponentId
  inputId : InputId
  sequence : ℕ
  kind : ComponentKind
  description : String
  modificationIntent : Option String
  disposition : Disposition
  applicability : Doc
  methodPayload : Doc
  assumptionId : Option AssumptionId
  evidenceId : Option EvidenceId
  deriving DecidableEq

structure RecipeDocument (Doc : Type) where
  caseId : CaseId
  caseKey : String
  revision : ℤ
  predecessorStrategyId : Option StrategyId
  qualityInvariants : List Doc
  applicability : Doc
  components : List (RecipeEntry Doc)
  deriving DecidableEq

/-- what the code asks of JSON values -/
structure Documents (Doc : Type) where
  /-- `{}` -/
  empty : Doc
  truthy : Doc → Bool
  /-- `jsonb_typeof(d)='object'` -/
  isObject : Doc → Bool
  /-- `d["tool_identity"]`, where `d.get("tool_identity")` is truthy -/
  toolIdentity : Doc → Option Doc
  /-- the SHA-256 of `json.dumps(document, sort_keys=True, separators=(",", ":"))` -/
  digest : RecipeDocument Doc → String

/-- `d or {}` -/
def Documents.orEmpty {Doc : Type} (lib : Documents Doc) (d : Option Doc) : Doc :=
  (d.filter lib.truthy).getD lib.empty

variable {Doc : Type} [DecidableEq Doc] (lib : Documents Doc)

/-! ## the queries -/

/-- `_same`, the columns in the order of their names -/
def same (raises : String → Err) (columns : List (String × Bool)) : Option Err :=
  match (columns.filter fun p => ¬ p.2).map Prod.fst with
  | [] => none
  | names => some (raises ("idempotency key reused with different fields: " ++ ", ".intercalate names))

/-- the answer of a call whose key has a row: the replay, unless the columns differ -/
def replay {α : Type} (raises : String → Err) (columns : List (String × Bool)) (answer : α) :
    Except Err α :=
  match same raises columns with
  | some e => .error e
  | none => .ok answer

/-- `_owned` -/
def owned {α : Type} (rows : List α) (owner : α → OwnerId) (raises : String → Err)
    (ownerId : OwnerId) (id : ℕ) (label : String) : Except Err α :=
  match rows[id]? with
  | some row =>
    if owner row = ownerId then .ok row
    else .error (raises (label ++ " is missing or belongs to another owner"))
  | none => .error (raises (label ++ " is missing or belongs to another owner"))

/-- `_owned` of an argument that may be `None` -/
def ownedIf {α : Type} (rows : List α) (owner : α → OwnerId) (raises : String → Err)
    (ownerId : OwnerId) (id : Option ℕ) (label : String) : Except Err (Option α) :=
  match id with
  | some id => (owned rows owner raises ownerId id label).map some
  | none => .ok none

/-- `length(btrim(text))>0` fails -/
def blankText (text : String) : Bool := text.toList.all (· = ' ')

/-- what does not fit a VARCHAR(128) -/
def tooLong (key : String) : Bool := 128 < key.length

def Component.key (c : Component Doc) : OwnerId × CaseId × String :=
  (c.ownerId, c.caseId, c.idempotencyKey)

def Conflict.key (c : Conflict) : OwnerId × String := (c.ownerId, c.idempotencyKey)

/-- the unique key by which `materialize_candidate` looks for the row of a case -/
def Materialization.key (m : Materialization) : OwnerId × CaseId := (m.ownerId, m.caseId)

def Event.key (e : Event) : OwnerId × String := (e.ownerId, e.idempotencyKey)

def WorkStrategy.key (w : WorkStrategy Doc) : OwnerId × String := (w.ownerId, w.idempotencyKey)

namespace Tables

def ownedCase (s : Tables Doc) (ownerId : OwnerId) (id : CaseId) :
    Except Err (SynthesisCase Doc) :=
  owned s.cases (·.ownerId) .strategySynthesis ownerId id "synthesis case"

/-- `ordered_recipe`, of a case that the caller owns; the numbers of a case differ, so that the order
of the ids decides nothing -/
def orderedRecipe (s : Tables Doc) (ownerId : OwnerId) (caseId : CaseId) :
    List (ComponentId × Component Doc) :=
  ((s.components.zipIdx.map Prod.swap).filter fun c =>
    c.2.ownerId = ownerId ∧ c.2.caseId = caseId).insertionSort
      fun a b => a.2.sequenceNumber ≤ b.2.sequenceNumber

/-- the unresolved conflicts of a case -/
def unresolvedConflicts (s : Tables Doc) (ownerId : OwnerId) (caseId : CaseId) :
    List (ConflictId × Conflict) :=
  (s.conflicts.zipIdx.map Prod.swap).filter fun c =>
    c.2.ownerId = ownerId ∧ c.2.caseId = caseId ∧ c.2.status = .unresolved

end Tables

/-- `row.disposition in {"included", "modified"}` -/
def Component.usable (c : Component Doc) : Bool :=
  c.disposition = .included ∨ c.disposition = .modified

structure Readiness where
  ready : Bool
  blockers : List String
  unresolvedConflictIds : List ConflictId
  deriving DecidableEq

/-- `readiness`, of a case that the caller owns -/
def readiness (s : Tables Doc) (ownerId : OwnerId) (caseId : CaseId) (c : SynthesisCase Doc) :
    Readiness :=
  let components := s.orderedRecipe ownerId caseId
  let conflicts := s.unresolvedConflicts ownerId caseId
  let blockers :=
    (if components.any fun row => row.2.usable then [] else ["no_included_or_modified_component"]) ++
    (if c.qualityInvariants = [] then ["missing_quality_invariants"] else []) ++
    (if conflicts.any fun row => row.2.severity = .hard then ["unresolved_hard_conflict"] else [])
  { ready := blockers = []
    blockers := blockers
    unresolvedConflictIds := conflicts.map Prod.fst }

/-- `_recipe_document` -/
def recipeDocument (caseId : CaseId) (c : SynthesisCase Doc)
    (components : List (ComponentId × Component Doc)) : RecipeDocument Doc where
  caseId := caseId
  caseKey := c.caseKey
  revision := c.revision
  predecessorStrategyId := c.predecessorStrategyId
  qualityInvariants := c.qualityInvariants
  applicability := c.applicability
  components := components.map fun row =>
    { id := row.1
      inputId := row.2.inputId
      sequence := row.2.sequenceNumber
      kind := row.2.componentKind
      description := row.2.description
      modificationIntent := row.2.modificationIntent
      disposition := row.2.disposition
      applicability := row.2.applicability
      methodPayload := row.2.methodPayload
      assumptionId := row.2.assumptionId
      evidenceId := row.2.evidenceId }

/-! ## the writes -/

inductive Answer where
  | component (id : ComponentId)
  | event (id : EventId)
  | conflict (id : ConflictId)
  | conflictEvent (conflict : ConflictId) (event : EventId)
  | caseEvent (caseId : CaseId) (event : EventId)
  | materialization (id : MaterializationId)
  deriving DecidableEq

/-- `_event`, in tables that are `before` once the transaction is rolled back: what a statement of
the database refuses takes the writes before it along, what `_same` raises does not -/
def Tables.event (before s : Tables Doc) (row : Event) (answer : EventId → Answer) :
    Except Err Answer × Tables Doc :=
  match Keyed.lookup Event.key s.events row.key with
  | some (id, existing) =>
    (replay .strategySynthesis [("case_id", existing.caseId = row.caseId),
      ("conflict_id", existing.conflictId = row.conflictId), ("detail", existing.detail = row.detail),
      ("event_type", existing.eventType = row.eventType),
      ("from_state", existing.fromState = row.fromState),
      ("to_state", existing.toState = row.toState)] (answer id), s)
  | none =>
    if tooLong row.idempotencyKey then (.error .dataError, before)
    else (.ok (answer s.events.length), { s with events := s.events ++ [row] })

/-! ## components -/

structure ComponentArgs (Doc : Type) where
  caseId : CaseId
  inputId : InputId
  componentKind : ComponentKind
  description : String
  disposition : Disposition
  reason : String
  idempotencyKey : String
  modificationIntent : Option String := none
  applicability : Option Doc := none
  methodPayload : Option Doc := none
  assumptionId : Option AssumptionId := none
  evidenceId : Option EvidenceId := none
  basis : Basis := .unknown
  deriving DecidableEq

namespace ComponentArgs

/-- the row that `add_recipe_component` asks for -/
def row (a : ComponentArgs Doc) (ownerId : OwnerId) (c : SynthesisCase Doc) : Component Doc where
  ownerId := ownerId
  caseId := a.caseId
  inputId := a.inputId
  sequenceNumber := c.nextComponentSequence
  componentKind := a.componentKind
  description := a.description
  modificationIntent := a.modificationIntent
  disposition := a.disposition
  applicability := lib.orEmpty a.applicability
  methodPayload := lib.orEmpty a.methodPayload
  assumptionId := a.assumptionId
  evidenceId := a.evidenceId
  reason := a.reason
  basis := a.basis
  idempotencyKey := a.idempotencyKey

/-- the event of a new component -/
def added (a : ComponentArgs Doc) (ownerId : OwnerId) (id : ComponentId) (sequenceNumber : ℕ) :
    Event where
  ownerId := ownerId
  caseId := a.caseId
  eventType := .componentAdded
  idempotencyKey := a.idempotencyKey ++ ":event"
  detail := .component id sequenceNumber a.disposition

/-- the rows that a component refers to -/
def checked (a : ComponentArgs Doc) (s : Tables Doc) (ownerId : OwnerId) :
    Except Err (SynthesisCase Doc) := do
  let c ← s.ownedCase ownerId a.caseId
  let synthesisInput ←
    owned s.inputs (·.ownerId) .strategySynthesis ownerId a.inputId "synthesis input"
  if synthesisInput.caseId ≠ a.caseId then
    .error (.strategySynthesis "synthesis input belongs to another case")
  else
    let _ ← ownedIf s.assumptions id .strategySynthesis ownerId a.assumptionId "assumption"
    let _ ← ownedIf s.evidence id .strategySynthesis ownerId a.evidenceId "evidence"
    .ok c

end ComponentArgs

/-- the comparison of `add_recipe_component`: the values without `sequence_number` -/
def Component.columns (existing values : Component Doc) : List (String × Bool) :=
  [("applicability", existing.applicability = values.applicability),
    ("assumption_id", existing.assumptionId = values.assumptionId),
    ("basis", existing.basis = values.basis), ("case_id", existing.caseId = values.caseId),
    ("component_kind", existing.componentKind = values.componentKind),
    ("description", existing.description = values.description),
    ("disposition", existing.disposition = values.disposition),
    ("evidence_id", existing.evidenceId = values.evidenceId),
    ("input_id", existing.inputId = values.inputId),
    ("method_payload", existing.methodPayload = values.methodPayload),
    ("modification_intent", existing.modificationIntent = values.modificationIntent),
    ("reason", existing.reason = values.reason)]

/-- what the database refuses of a new component -/
def Component.refusal (values : Component Doc) : Option Err :=
  if tooLong values.idempotencyKey then some .dataError
  -- `next_component_sequence` is an INTEGER
  else if 2 ^ 31 ≤ values.sequenceNumber + 1 then some .dataError
  else if blankText values.description || blankText values.reason then
    some (.integrityError "ck_synthesis_component_text")
  else if ¬ lib.isObject values.applicability || ¬ lib.isObject values.methodPayload then
    some (.integrityError "ck_synthesis_component_json")
  else none

/-- `add_recipe_component` -/
def addRecipeComponent (s : Tables Doc) (ownerId : OwnerId) (a : ComponentArgs Doc) :
    Except Err Answer × Tables Doc :=
  match a.checked s ownerId with
  | .error e => (.error e, s)
  | .ok c =>
    let values := a.row lib ownerId c
    match Keyed.lookup Component.key s.components values.key with
    | some (id, existing) =>
      (replay .strategySynthesis (existing.columns values) (.component id), s)
    | none =>
      if c.status ≠ .draft then
        (.error (.strategySynthesis "recipe components may be added only while the case is draft"), s)
      else
        match values.refusal lib with
        | some e => (.error e, s)
        | none =>
          let id := s.components.length
          s.event
            { s with
              cases := s.cases.set a.caseId
                { c with nextComponentSequence := c.nextComponentSequence + 1 }
              components := s.components ++ [values] }
            (a.added ownerId id values.sequenceNumber) fun _ => .component id

/-- `for sequence, component_id in enumerate(ordered_component_ids, 1)` -/
def resequence (components : List (Component Doc)) (orderedComponentIds : List ComponentId) :
    List (Component Doc) :=
  (orderedComponentIds.zipIdx 1).foldl
    (fun rows p => rows.modify p.1 fun row => { row with sequenceNumber := p.2 }) components

/-- every component of the recipe exactly once -/
def coversRecipe (s : Tables Doc) (ownerId : OwnerId) (caseId : CaseId)
    (orderedComponentIds : List ComponentId) : Bool :=
  let currentIds := (s.orderedRecipe ownerId caseId).map Prod.fst
  orderedComponentIds.Nodup ∧ orderedComponentIds.toFinset = currentIds.toFinset

/-- the event of a new order -/
def recipeReordered (ownerId : OwnerId) (caseId : CaseId) (before after : List ComponentId)
    (idempotencyKey : String) : Event where
  ownerId := ownerId
  caseId := caseId
  eventType := .recipeReordered
  idempotencyKey := idempotencyKey
  detail := .order before after

/-- `reorder_recipe` -/
def reorderRecipe (s : Tables Doc) (ownerId : OwnerId) (caseId : CaseId)
    (orderedComponentIds : List ComponentId) (idempotencyKey : String) :
    Except Err Answer × Tables Doc :=
  match s.ownedCase ownerId caseId with
  | .error e => (.error e, s)
  | .ok c =>
    if c.status ≠ .draft then
      (.error (.strategySynthesis "recipe may be reordered only while draft"), s)
    else if ¬ coversRecipe s ownerId caseId orderedComponentIds then
      (.error (.strategySynthesis "reorder must contain every recipe component exactly once"), s)
    else
      match Keyed.lookup Event.key s.events (ownerId, idempotencyKey) with
      | some (id, existing) =>
        match same .strategySynthesis [("case_id", existing.caseId = caseId),
            ("conflict_id", existing.conflictId = none),
            ("event_type", existing.eventType = .recipeReordered),
            ("from_state", existing.fromState = none), ("to_state", existing.toState = none)] with
        | some e => (.error e, s)
        | none =>
          if existing.detail.after ≠ some orderedComponentIds then
            (.error (.strategySynthesis "idempotency key reused with a different recipe order"), s)
          else (.ok (.event id), s)
      | none =>
        s.event { s with components := resequence s.components orderedComponentIds }
          (recipeReordered ownerId caseId ((s.orderedRecipe ownerId caseId).map Prod.fst)
            orderedComponentIds idempotencyKey) .event

/-! ## conflicts -/

structure ConflictArgs where
  caseId : CaseId
  description : String
  idempotencyKey : String
  severity : Severity := .hard
  leftComponentId : Option ComponentId := none
  rightComponentId : Option ComponentId := none
  assumptionId : Option AssumptionId := none
  evidenceId : Option EvidenceId := none
  deriving DecidableEq

namespace ConflictArgs

/-- the row that `record_conflict` asks for -/
def row (a : ConflictArgs) (ownerId : OwnerId) : Conflict where
  ownerId := ownerId
  caseId := a.caseId
  leftComponentId := a.leftComponentId
  rightComponentId := a.rightComponentId
  assumptionId := a.assumptionId
  severity := a.severity
  status := .unresolved
  description := a.description
  resolutionReason := none
  evidenceId := a.evidenceId
  idempotencyKey := a.idempotencyKey

/-- the event of a new conflict -/
def recorded (a : ConflictArgs) (ownerId : OwnerId) (id : ConflictId) : Event where
  ownerId := ownerId
  caseId := a.caseId
  conflictId := some id
  eventType := .conflictRecorded
  idempotencyKey := a.idempotencyKey ++ ":event"
  toState := some "unresolved"

/-- the rows that a conflict of a draft case refers to -/
def checked (a : ConflictArgs) (s : Tables Doc) (ownerId : OwnerId) : Except Err Unit := do
  let c ← s.ownedCase ownerId a.caseId
  if c.status ≠ .draft then
    .error (.strategySynthesis "conflicts may be recorded only while draft")
  else
    let left ←
      ownedIf s.components (·.ownerId) .strategySynthesis ownerId a.leftComponentId "left component"
    let right ←
      ownedIf s.components (·.ownerId) .strategySynthesis ownerId a.rightComponentId "right component"
    if left.any (·.caseId ≠ a.caseId) || right.any (·.caseId ≠ a.caseId) then
      .error (.strategySynthesis "conflict component belongs to another case")
    else
      let _ ← ownedIf s.assumptions id .strategySynthesis ownerId a.assumptionId "assumption"
      let _ ← ownedIf s.evidence id .strategySynthesis ownerId a.evidenceId "evidence"
      .ok ()

end ConflictArgs

def Conflict.columns (existing values : Conflict) : List (String × Bool) :=
  [("assumption_id", existing.assumptionId = values.assumptionId),
    ("case_id", existing.caseId = values.caseId),
    ("description", existing.description = values.description),
    ("evidence_id", existing.evidenceId = values.evidenceId),
    ("left_component_id", existing.leftComponentId = values.leftComponentId),
    ("resolution_reason", existing.resolutionReason = values.resolutionReason),
    ("right_component_id", existing.rightComponentId = values.rightComponentId),
    ("severity", existing.severity = values.severity), ("status", existing.status = values.status)]

/-- what the database refuses of a new conflict -/
def Conflict.refusal (values : Conflict) : Option Err :=
  if tooLong values.idempotencyKey then some .dataError
  else if values.leftComponentId = none ∧ values.rightComponentId = none ∧
      values.assumptionId = none then
    some (.integrityError "ck_synthesis_conflict_subject")
  else if values.leftComponentId ≠ none ∧ values.leftComponentId = values.rightComponentId then
    some (.integrityError "ck_synthesis_conflict_distinct")
  else if blankText values.description then some (.integrityError "ck_synthesis_conflict_text")
  else none

/-- `record_conflict` -/
def recordConflict (s : Tables Doc) (ownerId : OwnerId) (a : ConflictArgs) :
    Except Err Answer × Tables Doc :=
  match a.checked s ownerId with
  | .error e => (.error e, s)
  | .ok () =>
    let values := a.row ownerId
    match Keyed.lookup Conflict.key s.conflicts values.key with
    | some (id, existing) =>
      match same .strategySynthesis (existing.columns values) with
      | some e => (.error e, s)
      | none => s.event s (a.recorded ownerId id) fun _ => .conflict id
    | none =>
      match values.refusal with
      | some e => (.error e, s)
      | none =>
        let id := s.conflicts.length
        s.event { s with conflicts := s.conflicts ++ [values] } (a.recorded ownerId id)
          fun _ => .conflict id

/-- the statuses that a conflict may be moved to -/
def settledStatuses : List ConflictStatus := [.resolved, .acceptedRisk, .invalidated]

/-- the event of a conflict's new status -/
def conflictStateChanged (ownerId : OwnerId) (conflictId : ConflictId) (conflict : Conflict)
    (status : String) (resolutionReason : Option String) (idempotencyKey : String) : Event where
  ownerId := ownerId
  caseId := conflict.caseId
  conflictId := some conflictId
  eventType := .conflictStateChanged
  idempotencyKey := idempotencyKey
  fromState := some conflict.status.name
  toState := some status
  detail := .resolution resolutionReason

/-- `transition_conflict` -/
def transitionConflict (s : Tables Doc) (ownerId : OwnerId) (conflictId : ConflictId)
    (status : String) (resolutionReason : Option String) (idempotencyKey : String) :
    Except Err Answer × Tables Doc :=
  match owned s.conflicts (·.ownerId) .strategySynthesis ownerId conflictId "synthesis conflict" with
  | .error e => (.error e, s)
  | .ok conflict =>
    match Keyed.lookup Event.key s.events (ownerId, idempotencyKey) with
    | some (id, existing) =>
      (replay .strategySynthesis [("case_id", existing.caseId = conflict.caseId),
        ("conflict_id", existing.conflictId = some conflictId),
        ("detail", existing.detail = .resolution resolutionReason),
        ("event_type", existing.eventType = .conflictStateChanged),
        ("to_state", existing.toState = some status)] (.conflictEvent conflictId id), s)
    | none =>
      match settledStatuses.find? (·.name = status) with
      | none => (.error (.strategySynthesis "invalid synthesis conflict transition"), s)
      | some next =>
        if conflict.status ≠ .unresolved then
          (.error (.strategySynthesis "invalid synthesis conflict transition"), s)
        else if resolutionReason = none then
          (.error (.integrityError "ck_synthesis_conflict_text"), s)
        else
          s.event
            { s with
              conflicts := s.conflicts.set conflictId
                { conflict with status := next, resolutionReason := resolutionReason } }
            (conflictStateChanged ownerId conflictId conflict status resolutionReason idempotencyKey)
            (.conflictEvent conflictId)

/-! ## cases -/

/-- `CASE_TRANSITIONS` -/
def caseTransitions : CaseStatus → List CaseStatus
  | .draft => [.ready, .invalidated, .cancelled]
  | .ready => [.assembled, .invalidated, .cancelled]
  | .assembled => [.completed, .invalidated]
  | .invalidated => []
  | .cancelled => []
  | .completed => []

/-- `strategy_synthesis_case_update_guard`, of a new status -/
def caseUpdateGuard (s : Tables Doc) (caseId : CaseId) (old : SynthesisCase Doc)
    (new : CaseStatus) : Option Err :=
  if new ≠ old.status ∧ new ∉ caseTransitions old.status then
    some (.sqlException "invalid strategy synthesis transition")
  else if new = .ready ∧ old.status ≠ .ready then
    if s.conflicts.any fun c => c.ownerId = old.ownerId ∧ c.caseId = caseId ∧
        c.severity = .hard ∧ c.status = .unresolved then
      some (.sqlException "unresolved hard synthesis conflict")
    else if ¬ s.components.any fun c => c.ownerId = old.ownerId ∧ c.caseId = caseId ∧ c.usable then
      some (.sqlException "synthesis requires an included or modified component")
    else if old.qualityInvariants = [] then
      some (.sqlException "synthesis requires explicit quality invariants")
    else none
  else none

/-- the event of a case's new status -/
def stateChanged (ownerId : OwnerId) (caseId : CaseId) (old : CaseStatus) (status : String)
    (idempotencyKey : String) : Event where
  ownerId := ownerId
  caseId := caseId
  eventType := .stateChanged
  idempotencyKey := idempotencyKey
  fromState := some old.name
  toState := some status

/-- `transition_case` -/
def transitionCase (s : Tables Doc) (ownerId : OwnerId) (caseId : CaseId) (status : String)
    (idempotencyKey : String) : Except Err Answer × Tables Doc :=
  match s.ownedCase ownerId caseId with
  | .error e => (.error e, s)
  | .ok c =>
    match Keyed.lookup Event.key s.events (ownerId, idempotencyKey) with
    | some (id, existing) =>
      (replay .strategySynthesis [("case_id", existing.caseId = caseId),
        ("conflict_id", existing.conflictId = none), ("detail", existing.detail = .empty),
        ("event_type", existing.eventType = .stateChanged),
        ("to_state", existing.toState = some status)] (.caseEvent caseId id), s)
    | none =>
      match (caseTransitions c.status).find? (·.name = status) with
      | none =>
        (.error (.strategySynthesis
          ("invalid synthesis transition " ++ c.status.name ++ " -> " ++ status)), s)
      | some next =>
        let state := readiness s ownerId caseId c
        if next = .ready ∧ ¬ state.ready then
          (.error (.strategySynthesis
            ("synthesis is not ready: " ++ ", ".intercalate state.blockers)), s)
        else
          match caseUpdateGuard s caseId c next with
          | some e => (.error e, s)
          | none =>
            s.event { s with cases := s.cases.set caseId { c with status := next } }
              (stateChanged ownerId caseId c.status status idempotencyKey) (.caseEvent caseId)

/-! ## the candidate -/

def WorkStrategy.columns (existing values : WorkStrategy Doc) : List (String × Bool) :=
  [("classification_basis", existing.classificationBasis = values.classificationBasis),
    ("environment_assumptions", existing.environmentAssumptions = values.environmentAssumptions),
    ("methods", existing.methods = values.methods),
    ("ordered_phases", existing.orderedPhases = values.orderedPhases),
    ("predecessor_id", existing.predecessorId = values.predecessorId),
    ("provenance", existing.provenance = values.provenance),
    ("strategy_key", existing.strategyKey = values.strategyKey),
    ("tool_sequence", existing.toolSequence = values.toolSequence),
    ("version", existing.version = values.version),
    ("work_category", existing.workCategory = values.workCategory)]

/-- `create_strategy` of `work_intelligence`, for an owner whose row is there; the checks of the
columns are those that the row of the case has passed -/
def createStrategy (s : Tables Doc) (values : WorkStrategy Doc) :
    Except Err (StrategyId × Tables Doc) := do
  let predecessor ← ownedIf s.strategies (·.ownerId) .workIntelligence values.ownerId
    values.predecessorId "predecessor strategy"
  if predecessor.any fun p => p.strategyKey ≠ values.strategyKey ∨ values.version ≤ p.version then
    .error (.workIntelligence "predecessor must be an earlier version of the same strategy")
  else
    match Keyed.lookup WorkStrategy.key s.strategies values.key with
    | some (id, existing) => replay .workIntelligence (existing.columns values) (id, s)
    | none =>
      if s.strategies.any fun w => w.ownerId = values.ownerId ∧ w.strategyKey = values.strategyKey ∧
          w.version = values.version then
        .error (.integrityError "uq_work_strategy_version")
      else .ok (s.strategies.length, { s with strategies := s.strategies ++ [values] })

/-- the candidate that `materialize_candidate` asks `create_strategy` for -/
def candidate (ownerId : OwnerId) (caseId : CaseId) (c : SynthesisCase Doc)
    (recipe : List (ComponentId × Component Doc)) (fingerprint : String) : WorkStrategy Doc :=
  let usable := recipe.filter (·.2.usable)
  { ownerId := ownerId
    strategyKey := c.candidateStrategyKey
    version := c.candidateStrategyVersion
    workCategory := "synthesized_candidate"
    orderedPhases := some (usable.map fun row =>
      { componentId := row.1
        kind := row.2.componentKind
        description := row.2.description
        modificationIntent := row.2.modificationIntent
        method := row.2.methodPayload })
    toolSequence := usable.filterMap fun row => lib.toolIdentity row.2.methodPayload
    methods := some
      { synthesisCaseId := caseId
        recipeFingerprint := fingerprint
        qualityInvariants := c.qualityInvariants
        componentIds := usable.map Prod.fst }
    environmentAssumptions := some c.applicability
    classificationBasis := "deterministic"
    provenance := some
      { kind := "strategy_synthesis"
        caseId := caseId
        recipeFingerprint := fingerprint }
    predecessorId := c.predecessorStrategyId
    idempotencyKey := "synthesis:" ++ toString caseId ++ ":" ++ fingerprint }

/-- what the database refuses of a new materialization, of a case without one -/
def Materialization.refusal (s : Tables Doc) (values : Materialization) : Option Err :=
  if tooLong values.idempotencyKey then some .dataError
  else if s.materializations.any fun m =>
      m.ownerId = values.ownerId ∧ m.strategyId = values.strategyId then
    some (.integrityError "uq_synthesis_materialization_strategy")
  else if s.materializations.any fun m =>
      m.ownerId = values.ownerId ∧ m.idempotencyKey = values.idempotencyKey then
    some (.integrityError "uq_synthesis_materialization_idem")
  else none

/-- the event of a materialization -/
def Materialization.materialized (values : Materialization) : Event where
  ownerId := values.ownerId
  caseId := values.caseId
  eventType := .materialized
  idempotencyKey := values.idempotencyKey ++ ":event"
  fromState := some "ready"
  toState := some "assembled"
  detail := .strategy values.strategyId values.recipeFingerprint

/-- `materialize_candidate` -/
def materializeCandidate (s : Tables Doc) (ownerId : OwnerId) (caseId : CaseId)
    (idempotencyKey : String) : Except Err Answer × Tables Doc :=
  match s.ownedCase ownerId caseId with
  | .error e => (.error e, s)
  | .ok c =>
    match Keyed.lookup Materialization.key s.materializations (ownerId, caseId) with
    | some (id, existing) =>
      if existing.idempotencyKey ≠ idempotencyKey then
        (.error (.strategySynthesis
          "synthesis case is already materialized with another idempotency key"), s)
      else (.ok (.materialization id), s)
    | none =>
      let state := readiness s ownerId caseId c
      let recipe := s.orderedRecipe ownerId caseId
      let fingerprint := lib.digest (recipeDocument caseId c recipe)
      if c.status ≠ .ready then
        (.error (.strategySynthesis "only a ready synthesis case may be materialized"), s)
      else if ¬ state.ready then
        (.error (.strategySynthesis
          ("synthesis is not ready: " ++ ", ".intercalate state.blockers)), s)
      else
        match createStrategy s (candidate lib ownerId caseId c recipe fingerprint) with
        | .error e => (.error e, s)
        | .ok (strategyId, created) =>
          let values : Materialization :=
            { ownerId := ownerId
              caseId := caseId
              strategyId := strategyId
              recipeFingerprint := fingerprint
              idempotencyKey := idempotencyKey }
          match values.refusal created, caseUpdateGuard created caseId c .assembled with
          | some e, _ => (.error e, s)
          | none, some e => (.error e, s)
          | none, none =>
            let id := created.materializations.length
            s.event
              { created with
                materializations := created.materializations ++ [values]
                cases := created.cases.set caseId { c with status := .assembled } }
              values.materialized fun _ => .materialization id

/-! ## calls -/

inductive Call (Doc : Type) where
  | addRecipeComponent (ownerId : OwnerId) (a : ComponentArgs Doc)
  | reorderRecipe (ownerId : OwnerId) (caseId : CaseId) (orderedComponentIds : List ComponentId)
      (idempotencyKey : String)
  | recordConflict (ownerId : OwnerId) (a : ConflictArgs)
  | transitionConflict (ownerId : OwnerId) (conflictId : ConflictId) (status : String)
      (resolutionReason : Option String) (idempotencyKey : String)
  | transitionCase (ownerId : OwnerId) (caseId : CaseId) (status : String) (idempotencyKey : String)
  | materializeCandidate (ownerId : OwnerId) (caseId : CaseId) (idempotencyKey : String)
  deriving DecidableEq

/-- what a call answers, and the tables that it leaves to its transaction -/
def Call.exec (s : Tables Doc) : Call Doc → Except Err Answer × Tables Doc
  | .addRecipeComponent ownerId a => Synthesis.addRecipeComponent lib s ownerId a
  | .reorderRecipe ownerId caseId ids key => Synthesis.reorderRecipe s ownerId caseId ids key
  | .recordConflict ownerId a => Synthesis.recordConflict s ownerId a
  | .transitionConflict ownerId conflictId status reason key =>
    Synthesis.transitionConflict s ownerId conflictId status reason key
  | .transitionCase ownerId caseId status key => Synthesis.transitionCase s ownerId caseId status key
  | .materializeCandidate ownerId caseId key => Synthesis.materializeCandidate lib s ownerId caseId key

/-- a call, and whether its caller rolls back when it raises -/
structure Op (Doc : Type) where
  call : Call Doc
  rollsBack : Bool := true
  deriving DecidableEq

def step (s : Tables Doc) (op : Op Doc) : Tables Doc :=
  match op.call.exec lib s with
  | (.ok _, after) => after
  | (.error _, after) => if op.rollsBack then s else after

end LifeAI.Synthesis
