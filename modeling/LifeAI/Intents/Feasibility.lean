import LifeAI.Base

/-!
# Feasibility of a life intent

`life_intents/service.py`, `evaluate_feasibility`, over the tables of migration 0041.

* `Db`    the rows, with the constraints that the database keeps;
* `walk`  the inner function; `left` is `max_depth + 1 - depth`;
* `evaluateFeasibility`  the bounds, the root, and the walk from it.

The rows that a `select` without `ORDER BY` returns come in the order of the table, which is any.
-/

namespace LifeAI.Intents

abbrev IntentId := Nat
abbrev BlockerId := Nat

inductive IntentState where
  | active | blocked | waiting | future | completed | abandoned | superseded | unknown
  deriving DecidableEq

structure LifeIntent where
  id : IntentId
  ownerId : OwnerId
  state : IntentState
  deriving DecidableEq

inductive BlockerStatus where
  | active | resolved | superseded | invalidated
  deriving DecidableEq

structure LifeIntentBlocker where
  id : BlockerId
  ownerId : OwnerId
  intentId : IntentId
  category : String
  status : BlockerStatus
  deriving DecidableEq

inductive RelationshipType where
  | requires | blocks | enables | milestoneOf | supports | conflictsWith | supersedes
  deriving DecidableEq

structure LifeIntentDependency where
  ownerId : OwnerId
  fromIntentId : IntentId
  toIntentId : IntentId
  relationshipType : RelationshipType
  deriving DecidableEq

structure Db where
  intents : List LifeIntent
  blockers : List LifeIntentBlocker
  dependencies : List LifeIntentDependency
  /-- the primary key of `life_intents` -/
  ids : (intents.map LifeIntent.id).Nodup
  /-- `fk_life_dependency_to` -/
  targets : ∀ d ∈ dependencies, (d.toIntentId, d.ownerId) ∈ intents.map fun r => (r.id, r.ownerId)
  /-- `uq_life_dependency` -/
  unique : dependencies.Nodup
  /-- `ck_life_dependency_self` -/
  noSelf : ∀ d ∈ dependencies, d.fromIntentId ≠ d.toIntentId

inductive IntentError where
  | boundsOutsideLimits
  | missingIntent
  deriving DecidableEq

def IntentError.message : IntentError → String
  | .boundsOutsideLimits => "feasibility bounds outside supported limits"
  | .missingIntent => "intent is missing or belongs to another owner"

inductive Why where
  | boundReached
  | dependencyCycle
  | state (state : IntentState)
  | activeBlocker (blockerId : BlockerId) (category : String)
  deriving DecidableEq

structure Reason where
  path : List IntentId
  reason : Why
  deriving DecidableEq

structure FeasibilityResult where
  intentId : IntentId
  actionable : Bool
  state : IntentState
  reasons : List Reason
  cycles : List (List IntentId)
  deriving DecidableEq

/-- what the calls of `walk` share -/
structure Walk where
  reasons : List Reason := []
  cycles : List (List IntentId) := []
  seen : List IntentId := []
  deriving DecidableEq

/-- `non_actionable` -/
def nonActionable : List IntentState :=
  [.blocked, .waiting, .future, .completed, .abandoned, .superseded, .unknown]

variable (db : Db) (ownerId : OwnerId) (maxNodes : Nat)

/-- `_intent` -/
def intent (intentId : IntentId) : Except IntentError LifeIntent :=
  match db.intents.find? fun r => r.id = intentId ∧ r.ownerId = ownerId with
  | none => .error .missingIntent
  | some row => .ok row

/-- the active blockers of an intent -/
def blockers (intentId : IntentId) : List LifeIntentBlocker :=
  db.blockers.filter fun b => b.ownerId = ownerId ∧ b.intentId = intentId ∧ b.status = .active

/-- the dependencies that an intent requires -/
def deps (intentId : IntentId) : List LifeIntentDependency :=
  db.dependencies.filter fun d =>
    d.ownerId = ownerId ∧ d.fromIntentId = intentId ∧ d.relationshipType = .requires

/-- the reasons that a node gives -/
def nodeReasons (node : LifeIntent) (newPath : List IntentId) : List Reason :=
  (if node.state ∈ nonActionable then [⟨newPath, .state node.state⟩] else []) ++
    (blockers db ownerId node.id).map fun b => ⟨newPath, .activeBlocker b.id b.category⟩

def walk : Nat → LifeIntent → List IntentId → Walk → Except IntentError Walk
  | 0, _, path, w => .ok { w with reasons := w.reasons ++ [⟨path, .boundReached⟩] }
  | left + 1, node, path, w =>
    if maxNodes ≤ w.seen.length then
      .ok { w with reasons := w.reasons ++ [⟨path, .boundReached⟩] }
    else if node.id ∈ path then
      let cycle := path ++ [node.id]
      .ok { w with
        cycles := w.cycles ++ [cycle]
        reasons := w.reasons ++ [⟨cycle, .dependencyCycle⟩] }
    else
      let newPath := path ++ [node.id]
      let w := { w with
        seen := w.seen.insert node.id
        reasons := w.reasons ++ nodeReasons db ownerId node newPath }
      (deps db ownerId node.id).foldlM (fun w dep =>
        match intent db ownerId dep.toIntentId with
        | .error e => .error e
        | .ok next => walk left next newPath w) w

def evaluateFeasibility (intentId : IntentId) (maxDepth : Int := 20) (maxNodes : Int := 200) :
    Except IntentError FeasibilityResult :=
  if ¬ (0 ≤ maxDepth ∧ maxDepth ≤ 50 ∧ 1 ≤ maxNodes ∧ maxNodes ≤ 1000) then
    .error .boundsOutsideLimits
  else
    match intent db ownerId intentId with
    | .error e => .error e
    | .ok root =>
      match walk db ownerId maxNodes.toNat (maxDepth.toNat + 1) root [] {} with
      | .error e => .error e
      | .ok w => .ok {
          intentId := root.id
          actionable := w.reasons.isEmpty
          state := root.state
          reasons := w.reasons
          cycles := w.cycles }

end LifeAI.Intents
