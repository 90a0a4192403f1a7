import LifeAI.Base
import LifeAI.Lib.JsonReader
import Mathlib.Data.List.DropRight

/-!
# The backfill of claim types

The part of `rag/claims.py` that types claims in place.

* `KnowledgeClaim`      a row of `knowledge_claims`;
* `parseBackfillTypes`  what an answer of the provider means for the claims of a request;
* `Call`                a call, with the answers that it gets;
* `State.turn`          one turn of the loop;
* `backfillClaimTypes`  the loop.

The columns that this part neither reads nor writes are one value, `others`.  The claims that are
candidates are read in the order of `created_at`; among equals the database chooses.
-/

namespace LifeAI.Rag.Claims
open JsonReader

inductive ClaimType where
  | idea | decision | taskReference | vision | technical | historical | uncategorized
  deriving DecidableEq

def ClaimType.value : ClaimType → String
  | .idea => "idea"
  | .decision => "decision"
  | .taskReference => "task_reference"
  | .vision => "vision"
  | .technical => "technical"
  | .historical => "historical"
  | .uncategorized => "uncategorized"

/-- `_coerce_claim_type` -/
def coerceClaimType (value : Doc) : ClaimType :=
  match value with
  | .str text =>
    ([ClaimType.idea, .decision, .taskReference, .vision, .technical, .historical,
      .uncategorized].find? fun t => codePoints t.value = text).getD .uncategorized
  | _ => .uncategorized

abbrev ClaimId := ℕ

structure KnowledgeClaim (ρ : Type) where
  id : ClaimId
  ownerId : OwnerId
  claimText : String
  claimType : ClaimType
  extractionVersion : String
  createdAt : Time
  others : ρ

/-- `knowledge_claims` -/
structure Table (ρ : Type) where
  rows : List (KnowledgeClaim ρ)
  primaryKey : (rows.map (·.id)).Nodup

/-- `EXTRACTION_VERSION` -/
def currentExtractionVersion : String := "claims-v2"

/-! ## answers -/

/-- `re.search(r"\[.*\]", raw, re.DOTALL)`: from the first `[` to the last `]` -/
def bracketed (raw : List Char) : Option (List Char) :=
  let found := (raw.dropWhile (· ≠ '[')).rdropWhile (· ≠ ']')
  if found = [] then none else some found

/-- `_parse_backfill_types`; of the failures of `json.loads` it catches each `ValueError` -/
def parseBackfillTypes (levels : ℕ) (raw : List Char) (expectedCount : ℕ) :
    Except Err (Option (List ClaimType)) :=
  match bracketed raw with
  | none => .ok none
  | some text =>
    match loads levels text with
    | .error .depth => .error .recursionError
    | .error .malformed => .ok none
    | .error .digits => .ok none
    | .ok (.arr items) =>
      if items.length ≠ expectedCount then .ok none else .ok (some (items.map coerceClaimType))
    | .ok _ => .ok none

/-- how `chat_with_fallback` ends -/
inductive Answer where
  | providerError
  | content (raw : List Char)
  deriving DecidableEq

/-- the types that an answer gives to `count` claims, if it can be trusted -/
def Answer.types (answer : Answer) (levels count : ℕ) : Except Err (Option (List ClaimType)) :=
  match answer with
  | .providerError => .ok none
  | .content raw => parseBackfillTypes levels raw count

/-! ## the loop -/

/-- a call: its arguments, the answers to its requests, and the order in which each of its queries
finds the candidates -/
structure Call (ρ : Type) where
  levels : ℕ
  ownerId : OwnerId
  batchSize : ℕ
  positive : 0 < batchSize
  maxBatches : Option ℤ
  answers : ℕ → Answer
  ordered : ℕ → List (KnowledgeClaim ρ) → List (KnowledgeClaim ρ)
  perm : ∀ k rows, (ordered k rows).Perm rows
  byCreatedAt : ∀ k rows, (ordered k rows).Pairwise fun a b => a.createdAt ≤ b.createdAt

structure ClaimTypeBackfillResult where
  candidatesTotal : ℕ := 0
  typed : ℕ := 0
  stillUncategorized : ℕ := 0
  failed : ℕ := 0
  deriving DecidableEq

/-- the rows and the variables of the call; `sent` are the claims of its requests -/
structure State (ρ : Type) where
  rows : List (KnowledgeClaim ρ)
  result : ClaimTypeBackfillResult := {}
  batchesDone : ℕ := 0
  failedIds : List ClaimId := []
  sent : List (List (KnowledgeClaim ρ)) := []

variable {ρ : Type}

/-- the filter of the candidates -/
def KnowledgeClaim.open? (ownerId : OwnerId) (r : KnowledgeClaim ρ) : Bool :=
  r.ownerId = ownerId ∧ r.claimType = .uncategorized ∧
    r.extractionVersion ≠ currentExtractionVersion

def KnowledgeClaim.settled (r : KnowledgeClaim ρ) (t : ClaimType) : KnowledgeClaim ρ :=
  { r with claimType := t, extractionVersion := currentExtractionVersion }

namespace State

variable (c : Call ρ) (s : State ρ)

/-- the query of a turn -/
def candidates : List (KnowledgeClaim ρ) :=
  (c.ordered s.batchesDone
    (s.rows.filter fun r => r.open? c.ownerId ∧ r.id ∉ s.failedIds)).take c.batchSize

/-- a claim and its type -/
def assign (x : KnowledgeClaim ρ × ClaimType) : State ρ :=
  { s with
    rows := s.rows.map fun r => if r.id = x.1.id then r.settled x.2 else r
    result :=
      if x.2 = .uncategorized then
        { s.result with stillUncategorized := s.result.stillUncategorized + 1 }
      else { s.result with typed := s.result.typed + 1 } }

/-- the claims are counted and sent -/
def ask (batch : List (KnowledgeClaim ρ)) : State ρ :=
  { s with
    result := { s.result with candidatesTotal := s.result.candidatesTotal + batch.length }
    sent := s.sent ++ [batch] }

/-- a request without an answer that can be trusted -/
def fail (batch : List (KnowledgeClaim ρ)) : State ρ :=
  { s with
    result := { s.result with failed := s.result.failed + batch.length }
    failedIds := s.failedIds ++ batch.map (·.id)
    batchesDone := s.batchesDone + 1 }

def settle (batch : List (KnowledgeClaim ρ)) (types : List ClaimType) : State ρ :=
  let s := (batch.zip types).foldl assign s
  { s with batchesDone := s.batchesDone + 1 }

end State

inductive Turn (ρ : Type) where
  /-- the loop ends -/
  | done
  | raised (e : Err) (s : State ρ)
  | next (s : State ρ)

def State.turn (c : Call ρ) (s : State ρ) : Turn ρ :=
  if c.maxBatches.all fun m => (s.batchesDone : ℤ) < m then
    let batch := s.candidates c
    if batch.isEmpty then .done
    else
      match (c.answers s.batchesDone).types c.levels batch.length with
      | .error e => .raised e (s.ask batch)
      | .ok none => .next ((s.ask batch).fail batch)
      | .ok (some types) => .next ((s.ask batch).settle batch types)
  else .done

/-- how a call ends -/
inductive Ended (ρ : Type) where
  | returned (s : State ρ)
  | raised (e : Err) (s : State ρ)

def Ended.state : Ended ρ → State ρ
  | .returned s => s
  | .raised _ s => s

/-- the turns of the loop, at most `fuel` -/
def loop (c : Call ρ) : ℕ → State ρ → Option (Ended ρ)
  | 0, _ => none
  | fuel + 1, s =>
    match s.turn c with
    | .done => some (.returned s)
    | .raised e s => some (.raised e s)
    | .next s => loop c fuel s

/-- `backfill_claim_types` -/
def backfillClaimTypes (c : Call ρ) (rows : List (KnowledgeClaim ρ)) (fuel : ℕ) :
    Option (Ended ρ) :=
  loop c fuel { rows }

end LifeAI.Rag.Claims
