import LifeAI.Provider.Request
import LifeAI.Spend.Model

/-!
# Planning with a provider

`planWithProvider` reserves spend, sends the payload through the egress gate, calls the adapter
and accounts for what came back.  It is split where the source has its external effect:

* `PlanningCall.held`          everything before the egress gate, the hold placed last;
* `PlanningCall.gate`          everything before `adapter.propose` is entered;
* `PlanningCall.afterPropose`  what follows, on the adapter's outcome.

What lies outside these tables is a field of the call: the classification of the founder's
request, the safe planner's verdict, the adapter's answer, and the checkpoints that may raise.
-/

namespace LifeAI

/-! ## evidence rows -/

/-- `record_execution`, `record_evidence`, `record_idea`: the row under the key, or a new one; a
row with other values under the key is a conflict -/
def recordOnce {κ β : Type} [DecidableEq κ] [DecidableEq β] (rows : List (κ × β)) (key : κ)
    (values : β) (conflict : Err) : Except Err (Nat × List (κ × β)) :=
  match findRow (fun r => r.1 = key) rows with
  | some (i, r) => if r.2 = values then .ok (i, rows) else .error conflict
  | none => .ok (rows.length, rows ++ [(key, values)])

structure ExecutionValues where
  taskId : TaskId
  jobId : JobId
  provider : String
  model : String
  modelVersion : Option String
  deriving DecidableEq

structure EvidenceValues where
  disposition : String
  reason : String
  confidence : Option String
  capabilityGaps : List String
  latencyMs : Nat
  goalId : GoalId
  deriving DecidableEq

structure IdeaValues where
  ideaKind : String
  content : String
  evidenceId : Nat
  disposition : String
  dispositionReason : Option String
  confidence : Option String
  deriving DecidableEq

structure ContributionValues where
  specialistExecutionId : Nat
  contribution : String
  source : String
  evidenceId : Nat
  durationMs : Nat
  deriving DecidableEq

/-- the rows that `_record_participation` writes, under their keys; a digest in a key or a value
stands for what it is taken of -/
structure EvidenceDb where
  executions : List ((OwnerId × String × String) × ExecutionValues) := []
  evidence : List ((OwnerId × Nat × String) × EvidenceValues) := []
  ideas : List ((OwnerId × Nat × String × String) × IdeaValues) := []
  contributions : List ((OwnerId × Nat × String × String) × ContributionValues) := []
  deriving DecidableEq

structure PlanDb where
  spend : SpendDb := {}
  evidence : EvidenceDb := {}
  disclosures : List Disclosure := []
  deriving DecidableEq

/-! ## the adapter's answer -/

/-- `int(usage.get(..., 0) or 0)` of both token counts may raise -/
structure ProviderResponse where
  content : String
  provider : String
  model : String
  modelVersion : Option String := none
  rawUsage : Except Err (Int × Int) := .ok (0, 0)
  deriving DecidableEq

structure CandidateComponent where
  componentId : String
  kind : String
  content : String
  disposition : String := "unknown"
  reason : Option String := none
  deriving DecidableEq

structure ProviderCandidateEnvelope where
  capabilityGaps : List String := []
  usefulComponents : List CandidateComponent := []
  confidence : Option String := none
  deriving DecidableEq

/-- what `parse_provider_envelope` and `plan_founder_request` make of the content -/
inductive Judged where
  /-- a `CandidateValidationError` of the parser -/
  | malformed
  /-- an exception that no handler expects -/
  | raises (e : Err)
  | judged (disposition reason : String) (envelope : ProviderCandidateEnvelope)
  deriving DecidableEq

inductive ProposeOutcome where
  /-- the process died inside the call, or it was cancelled -/
  | died
  /-- an exception, with its `provider_request_may_have_left` -/
  | failed (mayHaveLeft : Option Bool)
  | answered (response : ProviderResponse) (judged : Judged)
  deriving DecidableEq

inductive PlanningMode where
  | terminal (classification : String)
  | deterministicPlanAvailable
  | providerAssistanceRequired
  deriving DecidableEq

/-- what the latest `provider_planning` checkpoint of the task and job says -/
structure PriorCheckpoint where
  requestHash : String
  disposition : String
  candidate : Bool
  deriving DecidableEq

structure PlanningCall where
  request : FounderPlanningRequest
  operatorContext : OperatorContext
  limits : ProviderPlanningLimits := {}
  members : List ContextMember := []
  /-- `planning_mode`, or what it raised -/
  mode : Except Err PlanningMode := .ok .providerAssistanceRequired
  prior : Option PriorCheckpoint := none
  /-- `plan_founder_request` on the deterministic recipe or the replayed candidate -/
  founderPlan : Except Err String := .ok "ACCEPTED"
  providerName : Option String := none
  model : Option String := none
  /-- the adapter's `provider_name`, else its `default_provider`; and so for the model -/
  adapterProvider : Option String := none
  adapterModel : Option String := none
  env : SpendEnv
  /-- the `WorkStrategyExecution` of the operator context: its id and its execution -/
  binding : Option (Nat × Nat)
  outcome : ProposeOutcome
  latencyMs : Nat := 0
  /-- what the first and the last checkpoint raise -/
  openingFault : Option Err := none
  closingFault : Option Err := none

/-- one time `adapter.propose` was entered -/
structure Entry where
  ownerId : OwnerId
  sourceRef : String
  /-- `false` for a failure marked `provider_request_may_have_left=False` -/
  mayHaveLeft : Bool
  deriving DecidableEq

namespace PlanningCall

/-! ## before the adapter is entered -/

/-- `a or b` -/
def orElse (a b : Option String) : Option String :=
  (a.filter (· ≠ "")).or (b.filter (· ≠ ""))

def plannedProvider (c : PlanningCall) : Option String := orElse c.providerName c.adapterProvider
def plannedModel (c : PlanningCall) : Option String := orElse c.model c.adapterModel

def hint : Option String → Json
  | none => .null
  | some s => .str s

/-- `_request_hash`: the text the digest is taken of -/
def requestHash (c : PlanningCall) (payload : Json) : String :=
  String.ofList (Json.dumps (.obj [("task_id", .str (toString c.request.taskId)),
    ("source_sha256", .str c.request.originalInstruction), ("payload", payload),
    ("provider_hint", hint c.providerName), ("model_hint", hint c.model)]))

/-- the accepted candidate of an earlier call with the same hash is replayed -/
def replays (c : PlanningCall) (hash : String) : Bool :=
  c.prior.any fun p => p.requestHash = hash ∧ "ACCEPTED".toList <+: p.disposition.toList ∧
    p.candidate

def spendBaseRef (c : PlanningCall) (hash : String) : String :=
  "provider-planning:" ++ toString c.request.ownerId ++ ":" ++ toString c.request.taskId ++ ":" ++
    toString c.request.jobId ++ ":" ++ hash

/-- the closing checkpoint, then the classification is returned -/
def close (c : PlanningCall) (classification : String) (w : PlanDb) :
    Except Err (String × PlanDb) :=
  match c.closingFault with
  | some e => .error e
  | none => .ok (classification, w)

end PlanningCall

/-- no event stands under the key, or a reserved one -/
def reservable (events : List Usage) (owner : OwnerId) (ref : String) : Bool :=
  match findRow (Usage.keyed owner ref) events with
  | none => true
  | some (_, e) => e.status = .reserved

def attemptRef (base : String) (n : Nat) : String := base ++ ":a" ++ toString n

/-- `_allocate_provider_spend_source_ref` -/
def allocateProviderSpendSourceRef (events : List Usage) (owner : OwnerId) (base : String) :
    Except Err String :=
  if reservable events owner base then .ok base
  else
    match (List.range' 1 999).find? fun n => reservable events owner (attemptRef base n) with
    | some n => .ok (attemptRef base n)
    | none => .error (.providerSpend
        "exhausted provider spend source_ref attempt space for this request")

/-- a stage that ends the call, or lets it pass -/
inductive Gate (α : Type) where
  | stopped (end_ : Except Err (String × PlanDb))
  | passed (a : α)

/-- a call with its hold placed -/
structure Held where
  sourceRef : String
  hash : String
  provider : String
  model : String
  payload : Json
  w : PlanDb

/-- a call that `adapter.propose` is entered with -/
structure Cleared where
  sourceRef : String
  hash : String
  payload : Json
  w : PlanDb

namespace PlanningCall

variable (c : PlanningCall)

def egressCall (provider model : String) (payload : Json) : EgressCall where
  ownerId := c.request.ownerId
  provider := provider
  model := model
  purpose := "development_planning"
  requestedBy := "provider_planning.plan_with_provider"
  payload := payload
  taskId := some c.request.taskId
  goalId := some c.request.goalId
  jobId := some c.request.jobId

def reserveCall (ref provider model : String) : ReserveCall where
  ownerId := c.request.ownerId
  goalId := c.request.goalId
  sourceRef := ref
  provider := provider
  model := model

/-- an unresolved reservation counts as spent, and the provider is not called -/
def reconcile (w : PlanDb) (ref : String) (e : Usage) : Except Err (String × PlanDb) := do
  let (_, spend) ← settleProviderSpendCall c.env w.spend
    { ownerId := c.request.ownerId, sourceRef := ref, promptTokens := e.reservedPromptTokens
      completionTokens := e.reservedCompletionTokens, costUsd := ⟨e.reservedCostUsd, 6⟩ }
  c.close "WAITING_PROVIDER" { w with spend := spend }

/-- the spend gate: a call goes on only with a hold that it has just placed -/
def spendGate (w : PlanDb) (ref hash provider model : String) (payload : Json) : Gate Held :=
  let preexisting := findRow (Usage.keyed c.request.ownerId ref) w.spend.events
  match reserveProviderSpendCall c.env w.spend (c.reserveCall ref provider model) with
  | (spend, .error _) =>
    .stopped (c.close "PROVIDER_SPEND_NOT_AUTHORIZED" { w with spend := spend })
  | (spend, .ok (i, created)) =>
    match spend.events[i]? with
    | none => .stopped (.error .noResultFound)
    | some e =>
      if preexisting.any (·.2.status = .reserved) ∧ e.status = .reserved then
        .stopped (c.reconcile { w with spend := spend } ref e)
      else if ¬ created ∧ e.status = .reserved then
        .stopped (c.close "WAITING_PROVIDER" { w with spend := spend })
      else .passed ⟨ref, hash, provider, model, payload, { w with spend := spend }⟩

/-- everything before the egress gate -/
def held (w : PlanDb) : Gate Held :=
  match c.mode with
  | .error e => .stopped (.error e)
  | .ok (.terminal classification) => .stopped (.ok (classification, w))
  | .ok .deterministicPlanAvailable => .stopped (c.founderPlan.map (·, w))
  | .ok .providerAssistanceRequired =>
    match buildProviderRequest c.request c.operatorContext c.limits c.members with
    | .error e => .stopped (.error e)
    | .ok payload =>
      let hash := c.requestHash payload
      if c.replays hash then .stopped (c.founderPlan.map (·, w))
      else
        match c.openingFault with
        | some e => .stopped (.error e)
        | none =>
          match allocateProviderSpendSourceRef w.spend.events c.request.ownerId
              (c.spendBaseRef hash) with
          | .error e => .stopped (.error e)
          | .ok ref =>
            match c.plannedProvider, c.plannedModel with
            | some provider, some model => c.spendGate w ref hash provider model payload
            | _, _ => .stopped (c.close "PROVIDER_SPEND_NOT_AUTHORIZED" w)

/-- the egress gate: a denial releases the hold -/
def egressGate (h : Held) : Gate Cleared :=
  match enforceEgressPolicy h.w.disclosures (c.egressCall h.provider h.model h.payload) with
  | (disclosures, .ok payload) =>
    .passed ⟨h.sourceRef, h.hash, payload, { h.w with disclosures := disclosures }⟩
  | (disclosures, .error _) =>
    .stopped (do
      let (_, spend) ← releaseProviderSpendUsage h.w.spend c.request.ownerId h.sourceRef
      c.close "EGRESS_DENIED" { h.w with spend := spend, disclosures := disclosures })

/-- everything before `adapter.propose` is entered -/
def gate (w : PlanDb) : Gate Cleared :=
  match c.held w with
  | .stopped r => .stopped r
  | .passed h => c.egressGate h

/-! ## after -/

/-- the idea kinds that a component may name -/
def ideaKinds : List String :=
  ["idea", "proposal", "approach", "risk", "test_strategy", "architectural_pattern",
    "optimization", "assumption"]

/-- the first `n` characters of the redacted text -/
def redactedUpTo (n : Nat) (s : String) : String := String.ofList ((redact s).toList.take n)

/-- the idea row of a component -/
def recordComponent (r : ProviderResponse) (confidence : Option String) (execution evidence : Nat)
    (db : EvidenceDb) (x : CandidateComponent) : Except Err EvidenceDb := do
  let (_, ideas) ← recordOnce db.ideas (c.request.ownerId, execution, r.content, x.componentId)
    { ideaKind := if x.kind ∈ ideaKinds then x.kind else "idea"
      content := redactedUpTo 2000 x.content, evidenceId := evidence, disposition := x.disposition
      dispositionReason := x.reason.map (redactedUpTo 1000)
      confidence := confidence } .intelligenceConflict
  return { db with ideas := ideas }

/-- `_record_participation` -/
def recordParticipation (db : EvidenceDb) (r : ProviderResponse) (hash disposition reason : String)
    (envelope : ProviderCandidateEnvelope) : Except Err EvidenceDb := do
  let (specialist, executions) ← recordOnce db.executions (c.request.ownerId, hash, r.content)
    { taskId := c.request.taskId, jobId := c.request.jobId, provider := r.provider
      model := r.model, modelVersion := r.modelVersion } .intelligenceConflict
  let (evidence, evidenceRows) ← recordOnce db.evidence (c.request.ownerId, specialist, r.content)
    { disposition := disposition, reason := reason, confidence := envelope.confidence
      capabilityGaps := envelope.capabilityGaps, latencyMs := c.latencyMs
      goalId := c.request.goalId } .intelligenceConflict
  let db ← envelope.usefulComponents.foldlM
    (c.recordComponent r envelope.confidence specialist evidence)
    { db with executions := executions, evidence := evidenceRows }
  match c.binding with
  | none => .error .noResultFound
  | some (strategy, execution) =>
    if specialist = execution then
      .error (.workIntelligence "specialist contribution must use a distinct execution")
    else
      let (_, contributions) ← recordOnce db.contributions
        (c.request.ownerId, strategy, hash, r.content)
        { specialistExecutionId := specialist
          contribution := if "ACCEPTED".toList <+: disposition.toList then "confirmed_finding"
            else "no_contribution"
          source := c.request.originalInstruction, evidenceId := evidence
          durationMs := c.latencyMs }
        (.workIntelligence "idempotency key reused with different fields")
      return { db with contributions := contributions }

/-- what the response cost -/
def settleCall (ref : String) (r : ProviderResponse) (prompt completion : Int) : SettleCall where
  ownerId := c.request.ownerId
  sourceRef := ref
  promptTokens := prompt
  completionTokens := completion
  costUsd := ⟨(estimateCost r.provider r.model prompt completion).getD 0, 6⟩

/-- the content is judged and recorded -/
def judge (w : PlanDb) (hash : String) (r : ProviderResponse) :
    Judged → Except Err (String × PlanDb)
  | .malformed => c.close "PROVIDER_FAILED" w
  | .raises e => .error e
  | .judged disposition reason envelope => do
    let evidence ← c.recordParticipation w.evidence r hash disposition reason envelope
    c.close disposition { w with evidence := evidence }

/-- an answer: the hold is settled, then the content is judged and recorded -/
def answered (w : PlanDb) (ref hash : String) (r : ProviderResponse) (judged : Judged) :
    Except Err (String × PlanDb) := do
  let (prompt, completion) ← r.rawUsage
  let (_, spend) ← settleProviderSpendCall c.env w.spend (c.settleCall ref r prompt completion)
  c.judge { w with spend := spend } hash r judged

/-- everything after `adapter.propose` was entered -/
def afterPropose (w : PlanDb) (ref hash : String) : Except Err (String × PlanDb) :=
  match c.outcome with
  | .died => .error .died
  | .failed (some false) => do
    let (_, spend) ← releaseProviderSpendUsage w.spend c.request.ownerId ref
    c.close "WAITING_PROVIDER" { w with spend := spend }
  | .failed _ => c.close "WAITING_PROVIDER" w
  | .answered r judged => c.answered w ref hash r judged

/-- no failure, or one that is not marked `provider_request_may_have_left=False` -/
def mayHaveLeft : Bool := c.outcome ≠ .failed (some false)

end PlanningCall

structure PlanRun where
  entry : Option Entry
  end_ : Except Err (String × PlanDb)

/-- `plan_with_provider` -/
def planWithProvider (w : PlanDb) (c : PlanningCall) : PlanRun :=
  match c.gate w with
  | .stopped r => ⟨none, r⟩
  | .passed p => ⟨some ⟨c.request.ownerId, p.sourceRef, c.mayHaveLeft⟩,
      c.afterPropose p.w p.sourceRef p.hash⟩

/-! ## what a call with a hold went through -/

/-- the stages that a call with a hold has passed -/
structure PlanningCall.Holds (c : PlanningCall) (w : PlanDb) (h : Held) : Prop where
  built : buildProviderRequest c.request c.operatorContext c.limits c.members = .ok h.payload
  hash : h.hash = c.requestHash h.payload
  ref : allocateProviderSpendSourceRef w.spend.events c.request.ownerId
    (c.spendBaseRef h.hash) = .ok h.sourceRef
  provider : c.plannedProvider = some h.provider
  model : c.plannedModel = some h.model
  others : h.w = { w with spend := h.w.spend }
  reserved : ∃ i created e, reserveProviderSpendCall c.env w.spend
      (c.reserveCall h.sourceRef h.provider h.model) = (h.w.spend, .ok (i, created)) ∧
    h.w.spend.events[i]? = some e ∧
    (e.status = .reserved → created ∧ (findRow (Usage.keyed c.request.ownerId h.sourceRef)
      w.spend.events).all (·.2.status ≠ .reserved))

namespace PlanningCall

variable {c : PlanningCall} {w : PlanDb}

theorem spendGate_passed {ref hash provider model : String} {payload : Json} {h : Held}
    (hp : c.spendGate w ref hash provider model payload = .passed h) :
    ∃ i created e spend, h = ⟨ref, hash, provider, model, payload, { w with spend := spend }⟩ ∧
      reserveProviderSpendCall c.env w.spend (c.reserveCall ref provider model)
        = (spend, .ok (i, created)) ∧
      spend.events[i]? = some e ∧
      (e.status = .reserved → created ∧ (findRow (Usage.keyed c.request.ownerId ref)
        w.spend.events).all (·.2.status ≠ .reserved)) := by
  unfold spendGate at hp
  dsimp only at hp
  split at hp
  · cases hp
  next spend i created hres =>
  split at hp
  · cases hp
  next e he =>
  split at hp
  · cases hp
  next hpre =>
  split at hp
  · cases hp
  next hcreated =>
  cases hp
  refine ⟨i, created, e, spend, rfl, hres, he, fun hs => ⟨?_, ?_⟩⟩
  · by_contra hc
    exact hcreated ⟨hc, hs⟩
  · cases hf : findRow (Usage.keyed c.request.ownerId ref) w.spend.events with
    | none => rfl
    | some x =>
      simp only [hf, Option.any_some, decide_eq_true_eq, hs, and_true] at hpre
      simp [hpre]

theorem held_passed {h : Held} (hp : c.held w = .passed h) : c.Holds w h := by
  unfold held at hp
  split at hp
  · cases hp
  · cases hp
  · cases hp
  split at hp
  · cases hp
  next payload hbuilt =>
  dsimp only at hp
  split at hp
  · cases hp
  split at hp
  · cases hp
  split at hp
  · cases hp
  next ref href =>
  split at hp
  · next provider model hprovider hmodel =>
    obtain ⟨i, created, e, spend, rfl, hres, he, hnew⟩ := spendGate_passed hp
    exact ⟨hbuilt, rfl, href, hprovider, hmodel, rfl, i, created, e, hres, he, hnew⟩
  · cases hp

/-- a call that nothing stops before the spend gate -/
theorem held_eq {payload : Json} {ref provider model : String}
    (assistance : c.mode = .ok .providerAssistanceRequired)
    (built : buildProviderRequest c.request c.operatorContext c.limits c.members = .ok payload)
    (fresh : c.replays (c.requestHash payload) = false) (opened : c.openingFault = none)
    (allocated : allocateProviderSpendSourceRef w.spend.events c.request.ownerId
      (c.spendBaseRef (c.requestHash payload)) = .ok ref)
    (hprovider : c.plannedProvider = some provider) (hmodel : c.plannedModel = some model) :
    c.held w = c.spendGate w ref (c.requestHash payload) provider model payload := by
  unfold held
  simp [assistance, built, fresh, opened, allocated, hprovider, hmodel]

/-- a planned provider or model has a name -/
theorem orElse_ne_empty {a b : Option String} {s : String} (h : orElse a b = some s) : s ≠ "" := by
  unfold orElse at h
  rw [Option.or_eq_some_iff, Option.filter_eq_some_iff, Option.filter_eq_some_iff] at h
  rcases h with ⟨-, h⟩ | ⟨-, -, h⟩
  · simpa using h
  · simpa using h

end PlanningCall

end LifeAI
