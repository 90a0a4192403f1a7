import LifeAI.Tasks.Model

/-!
# Execution scope proposals and authorization envelopes

* `ScopeProposal`, `Envelope`  the rows of migration 0057;
* `Authorization`     the arguments of `authorize_execution_scope`;
* `Authorization.grant`  its inserts and updates, once the rows it locks are at hand.
-/

namespace LifeAI

abbrev ProposalId := Nat

inductive ProposalStatus where
  | unreviewed | authorized | rejected
  deriving DecidableEq

def ProposalStatus.value : ProposalStatus → String
  | unreviewed => "unreviewed"
  | authorized => "authorized"
  | rejected => "rejected"

/-- a row of `execution_scope_proposals`, with the columns that an authorization reads or
writes -/
structure ScopeProposal where
  ownerId : OwnerId
  goalId : GoalId
  repositoryIdentity : Option String := none
  status : ProposalStatus := .unreviewed
  authorizedEnvelopeId : Option EnvelopeId := none
  deriving DecidableEq

inductive EnvelopeStatus where
  | active | superseded
  deriving DecidableEq

/-- a row of `execution_authorization_envelopes`; its id is its position in the table -/
structure Envelope where
  ownerId : OwnerId
  goalId : GoalId
  sourceProposalId : Option ProposalId
  repositoryIdentity : Option String := none
  authorizedPaths : List String := []
  authorizedCapabilities : List String := []
  authorizedRisk : String
  authorizedBy : String
  status : EnvelopeStatus := .active
  supersedesEnvelopeId : Option EnvelopeId := none
  idempotencyKey : String
  deriving DecidableEq

/-- `ck_execution_authorization_envelopes_risk` -/
def Envelope.checks (e : Envelope) : Bool := e.authorizedRisk ∈ ["low", "medium", "high"]

structure EnvelopeDb where
  proposals : List ScopeProposal := []
  envelopes : List Envelope := []
  deriving DecidableEq

/-- the arguments of `authorize_execution_scope` -/
structure Authorization where
  ownerId : OwnerId
  proposalId : ProposalId
  authorizedBy : String
  authorizedPaths : List String := []
  authorizedCapabilities : List String := []
  authorizedRisk : String
  envelopeIdempotencyKey : String
  deriving DecidableEq

namespace EnvelopeDb

/-- the query of the worker's tick: any envelope of the goal -/
def governs (db : EnvelopeDb) (g : GoalId) : Bool := db.envelopes.any (·.goalId = g)

/-- `goal_has_ever_been_envelope_governed` -/
def goalHasEverBeenEnvelopeGoverned (db : EnvelopeDb) (owner : OwnerId) (g : GoalId) : Bool :=
  db.envelopes.any fun e => e.ownerId = owner ∧ e.goalId = g

/-- the active envelopes of a goal, by id -/
def activeEnvelopes (db : EnvelopeDb) (owner : OwnerId) (g : GoalId) : List EnvelopeId :=
  (List.range db.envelopes.length).filter fun i =>
    (db.envelopes[i]?).any fun e => e.ownerId = owner ∧ e.goalId = g ∧ e.status = .active

/-- `scalar_one_or_none()` over the active envelopes of a goal: `get_current_execution_envelope`,
and the prior envelope of an authorization -/
def currentEnvelope (db : EnvelopeDb) (owner : OwnerId) (g : GoalId) :
    Except Err (Option EnvelopeId) :=
  match db.activeEnvelopes owner g with
  | [] => .ok none
  | [i] => .ok (some i)
  | _ => .error .multipleResultsFound

end EnvelopeDb

namespace Authorization

/-- the proposal row, locked and found unreviewed -/
def proposal (a : Authorization) (db : EnvelopeDb) : Except Err ScopeProposal :=
  match db.proposals[a.proposalId]? with
  | none => .error (.executionEnvelope
      "execution scope proposal is missing or belongs to another owner")
  | some p =>
    if p.ownerId ≠ a.ownerId then .error (.executionEnvelope
      "execution scope proposal is missing or belongs to another owner")
    else if p.status ≠ .unreviewed then .error (.executionEnvelope
      ("execution scope proposal is already " ++ p.status.value ++ ", not unreviewed"))
    else .ok p

def envelope (a : Authorization) (p : ScopeProposal) (prior : Option EnvelopeId) : Envelope where
  ownerId := a.ownerId
  goalId := p.goalId
  sourceProposalId := some a.proposalId
  repositoryIdentity := p.repositoryIdentity
  authorizedPaths := a.authorizedPaths
  authorizedCapabilities := a.authorizedCapabilities
  authorizedRisk := a.authorizedRisk
  authorizedBy := a.authorizedBy
  supersedesEnvelopeId := prior
  idempotencyKey := a.envelopeIdempotencyKey

/-- `prior_envelope.status = "superseded"` -/
def supersede (prior : Option EnvelopeId) (es : List Envelope) : List Envelope :=
  match prior with
  | none => es
  | some i => es.modify i ({ · with status := .superseded })

/-- the new envelope, the supersession of the prior one, and the proposal marked authorized -/
def grant (a : Authorization) (p : ScopeProposal) (prior : Option EnvelopeId) (db : EnvelopeDb) :
    Except Err EnvelopeDb :=
  if ¬ (a.envelope p prior).checks then
    .error (.integrityError "ck_execution_authorization_envelopes_risk")
  else if db.envelopes.any fun e =>
      e.ownerId = a.ownerId ∧ e.idempotencyKey = a.envelopeIdempotencyKey then
    .error (.integrityError "uq_execution_authorization_envelopes_idem")
  else .ok {
    envelopes := supersede prior db.envelopes ++ [a.envelope p prior]
    proposals := db.proposals.set a.proposalId { p with
      status := .authorized, authorizedEnvelopeId := some db.envelopes.length } }

variable {a : Authorization} {p : ScopeProposal} {prior : Option EnvelopeId} {db db' : EnvelopeDb}

theorem grant_ok : a.grant p prior db = .ok db' ↔ (a.envelope p prior).checks ∧
    (db.envelopes.any fun e => e.ownerId = a.ownerId ∧
      e.idempotencyKey = a.envelopeIdempotencyKey) = false ∧
    db' = {
      envelopes := supersede prior db.envelopes ++ [a.envelope p prior]
      proposals := db.proposals.set a.proposalId { p with
        status := .authorized, authorizedEnvelopeId := some db.envelopes.length } } := by
  unfold grant
  rw [guard_eq_ok, guard_eq_ok, not_not, Bool.not_eq_true]
  refine and_congr_right fun _ => and_congr_right fun _ => ?_
  simp only [Except.ok.injEq]
  exact eq_comm

/-- the owners and the goals of the envelopes stay -/
theorem supersede_goals (es : List Envelope) :
    (supersede prior es).map (fun e => (e.ownerId, e.goalId)) =
      es.map fun e => (e.ownerId, e.goalId) := by
  cases prior with
  | none => rfl
  | some i =>
    refine List.ext_getElem? fun k => ?_
    simp only [supersede, List.getElem?_map, List.getElem?_modify]
    cases es[k]? with
    | none => rfl
    | some e => by_cases hik : i = k <;> simp [hik]

theorem grant_goals (h : a.grant p prior db = .ok db') :
    db'.envelopes.map (fun e => (e.ownerId, e.goalId)) =
      db.envelopes.map (fun e => (e.ownerId, e.goalId)) ++ [(a.ownerId, p.goalId)] := by
  obtain ⟨-, -, rfl⟩ := grant_ok.1 h
  rw [List.map_append, supersede_goals]
  rfl

end Authorization

end LifeAI
