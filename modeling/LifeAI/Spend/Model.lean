import LifeAI.Spend.Amounts

/-!
# Provider-spend grants and usage events

The service of `provider_spend/service.py` and the two SQL functions of migration 0060 that it
settles and releases through.  A grant is a row of `provider_spend_authorizations`, a usage event
a row of `provider_spend_usage_events`.  `reserveProviderSpendCall` returns the tables also when
it raises: what it flushed before the exception is committed by `plan_with_provider`.
-/

namespace LifeAI

abbrev GrantId := Nat
abbrev UsageId := Nat
abbrev EnvelopeId := Nat

inductive GrantStatus where
  | active | superseded | exhausted | expired | revoked
  deriving DecidableEq

def GrantStatus.value : GrantStatus → String
  | .active => "active"
  | .superseded => "superseded"
  | .exhausted => "exhausted"
  | .expired => "expired"
  | .revoked => "revoked"

inductive UsageStatus where
  | reserved | settled | released
  deriving DecidableEq

/-- a row of `provider_spend_authorizations`; `spent` and `reserved` are the `spent_*` and
`reserved_*` columns -/
structure Grant where
  ownerId : OwnerId
  goalId : GoalId
  executionEnvelopeId : EnvelopeId
  authorizedBy : String
  status : GrantStatus := .active
  maxCostUsd : Int
  maxRequests : Int
  maxPromptTokens : Option Int
  maxCompletionTokens : Option Int
  maxCostPerRequestUsd : Option Int
  allowedProviders : List String
  allowedModels : List String
  expiresAt : Option Time
  spent : Amounts := 0
  reserved : Amounts := 0
  supersedesAuthorizationId : Option GrantId
  idempotencyKey : String
  deriving DecidableEq

/-- a row of `provider_spend_usage_events` -/
structure Usage where
  ownerId : OwnerId
  authorizationId : GrantId
  goalId : GoalId
  provider : String
  model : String
  promptTokens : Int := 0
  completionTokens : Int := 0
  costUsd : Int := 0
  reservedPromptTokens : Int
  reservedCompletionTokens : Int
  reservedCostUsd : Int
  status : UsageStatus := .reserved
  sourceRef : String
  deriving DecidableEq

structure SpendDb where
  grants : List Grant := []
  events : List Usage := []
  deriving DecidableEq

/-- What a call reads outside the two tables: the clock, whether the goal is the owner's, and
the goal's current execution envelope. -/
structure SpendEnv where
  now : Time
  goalOwned : Bool := true
  envelope : Option EnvelopeId
  deriving DecidableEq

/-- one request and the tokens and cost held for it -/
def Usage.hold (e : Usage) : Amounts :=
  ⟨1, e.reservedPromptTokens, e.reservedCompletionTokens, e.reservedCostUsd⟩
/-- one request and the tokens and cost it took -/
def Usage.actual (e : Usage) : Amounts :=
  ⟨1, e.promptTokens, e.completionTokens, e.costUsd⟩

namespace Grant

/-- `ck_provider_spend_authorizations_ceilings` -/
def checks (g : Grant) : Bool :=
  0 ≤ g.maxCostUsd ∧ 0 ≤ g.maxRequests ∧ 0 ≤ g.spent ∧ 0 ≤ g.reserved ∧
    (∀ n ∈ g.maxPromptTokens, 0 ≤ n) ∧ (∀ n ∈ g.maxCompletionTokens, 0 ≤ n) ∧
    (∀ n ∈ g.maxCostPerRequestUsd, 0 ≤ n)

/-- `_committed_requests`, `_committed_cost`, `_committed_prompt`, `_committed_completion` -/
def committed (g : Grant) : Amounts := g.spent + g.reserved

/-- a settled counter has reached its ceiling -/
def settledCeiling (g : Grant) : Bool :=
  g.spent.requests ≥ g.maxRequests ∨ g.spent.costUsd ≥ g.maxCostUsd ∨
    (∃ n ∈ g.maxPromptTokens, g.spent.promptTokens ≥ n) ∨
    (∃ n ∈ g.maxCompletionTokens, g.spent.completionTokens ≥ n)

/-- `expires_at` has passed -/
def pastExpiry (g : Grant) (now : Time) : Bool := ∃ t ∈ g.expiresAt, t ≤ now

/-- `_mark_terminal_if_needed` -/
def markTerminalIfNeeded (now : Time) (g : Grant) : Grant :=
  if g.status ≠ .active then g
  else if g.pastExpiry now then { g with status := .expired }
  else if g.settledCeiling then { g with status := .exhausted }
  else g

/-- `_provider_allowed` -/
def providerAllowed (g : Grant) (provider model : String) : Bool :=
  (g.allowedProviders = [] ∨ provider ∈ g.allowedProviders) ∧
    (g.allowedModels = [] ∨ model ∈ g.allowedModels)

end Grant

/-! ## pricing -/

/-- `PRICING_PER_1K_TOKENS`, in micro-dollars for 1000 tokens (input, output) -/
def pricingPer1kTokens (provider model : String) : Option (Int × Int) :=
  match provider, model with
  | "openai", "gpt-4o-mini" => some (150, 600)
  | "openai", "gpt-4o" => some (2500, 10000)
  | "openai", "text-embedding-3-small" => some (20, 0)
  | "anthropic", "claude-sonnet-5" => some (3000, 15000)
  | "anthropic", "claude-haiku-4-5-20251001" => some (800, 4000)
  | "anthropic", "claude-opus-4-8" => some (15000, 75000)
  | "gemini", "gemini-2.5-flash" => some (75, 300)
  | "gemini", "gemini-2.5-pro" => some (1250, 5000)
  | "deepseek", "deepseek-chat" => some (270, 1100)
  | _, _ => none

/-- `estimate_cost`: `none` for an unknown price -/
def estimateCost (provider model : String) (promptTokens completionTokens : Int) : Option Int :=
  if provider = "ollama" then some 0
  else (pricingPer1kTokens provider model).map fun (inputRate, outputRate) =>
    Decimal.quantized ⟨promptTokens * inputRate + completionTokens * outputRate, 9⟩

/-! ## granting -/

structure SpendAuthority where
  ownerId : OwnerId
  goalId : GoalId
  executionEnvelopeId : EnvelopeId
  authorizedBy : String
  maxCostUsd : Decimal
  maxRequests : Int
  idempotencyKey : String
  maxPromptTokens : Option Int := none
  maxCompletionTokens : Option Int := none
  maxCostPerRequestUsd : Option Decimal := none
  allowedProviders : List String := []
  allowedModels : List String := []
  expiresAt : Option Time := none
  deriving DecidableEq

/-- `_authority_fingerprint` of a request: money is quantized, lists are sets -/
def SpendAuthority.matchesRow (a : SpendAuthority) (g : Grant) : Bool :=
  a.goalId = g.goalId ∧ a.executionEnvelopeId = g.executionEnvelopeId ∧
    a.authorizedBy = g.authorizedBy ∧ a.maxCostUsd.quantized = g.maxCostUsd ∧
    a.maxRequests = g.maxRequests ∧ a.maxPromptTokens = g.maxPromptTokens ∧
    a.maxCompletionTokens = g.maxCompletionTokens ∧
    a.maxCostPerRequestUsd.map Decimal.quantized = g.maxCostPerRequestUsd ∧
    (∀ p ∈ a.allowedProviders, p ∈ g.allowedProviders) ∧
    (∀ p ∈ g.allowedProviders, p ∈ a.allowedProviders) ∧
    (∀ m ∈ a.allowedModels, m ∈ g.allowedModels) ∧
    (∀ m ∈ g.allowedModels, m ∈ a.allowedModels) ∧ a.expiresAt = g.expiresAt

/-- the position of the first row that satisfies `p`, and the row -/
def findRow {α : Type} (p : α → Bool) (rows : List α) : Option (Nat × α) :=
  (rows.findIdx? p).bind fun i => (rows[i]?).map (i, ·)

theorem findRow_eq_some {α : Type} {p : α → Bool} {rows : List α} {i : Nat} {r : α}
    (h : findRow p rows = some (i, r)) : rows[i]? = some r ∧ p r = true := by
  unfold findRow at h
  cases hi : rows.findIdx? p with
  | none => simp [hi] at h
  | some k =>
    obtain ⟨hk, hp, -⟩ := List.findIdx?_eq_some_iff_getElem.1 hi
    simp only [hi, Option.bind_some, List.getElem?_eq_getElem hk, Option.map_some,
      Option.some.injEq, Prod.mk.injEq] at h
    obtain ⟨rfl, rfl⟩ := h
    exact ⟨List.getElem?_eq_getElem hk, hp⟩

theorem findRow_eq_none {α : Type} {p : α → Bool} {rows : List α} :
    findRow p rows = none ↔ ∀ r ∈ rows, p r = false := by
  unfold findRow
  cases hi : rows.findIdx? p with
  | none => simpa using List.findIdx?_eq_none_iff.1 hi
  | some k =>
    obtain ⟨hk, hp, -⟩ := List.findIdx?_eq_some_iff_getElem.1 hi
    have hsome : ((some k).bind fun i => (rows[i]?).map (i, ·)) = some (k, rows[k]) := by
      simp [List.getElem?_eq_getElem hk]
    rw [hsome]
    refine ⟨fun h => absurd h (by simp), fun h => ?_⟩
    rw [h rows[k] (List.getElem_mem hk)] at hp
    exact absurd hp (by simp)

theorem findRow_snoc {α : Type} {p : α → Bool} {rows : List α} {x : α} (h : findRow p rows = none)
    (hx : p x = true) : findRow p (rows ++ [x]) = some (rows.length, x) := by
  have hno : rows.findIdx? p = none := List.findIdx?_eq_none_iff.2 (findRow_eq_none.1 h)
  unfold findRow
  rw [List.findIdx?_append, hno]
  simp [hx]

/-- the active grant of an owner's goal -/
def Grant.activeFor (owner : OwnerId) (goal : GoalId) (g : Grant) : Bool :=
  g.ownerId = owner ∧ g.goalId = goal ∧ g.status = .active

/-- the usage event under a key -/
def Usage.keyed (owner : OwnerId) (sourceRef : String) (e : Usage) : Bool :=
  e.ownerId = owner ∧ e.sourceRef = sourceRef

/-- the refusals of `authorize_provider_spend` before it takes a lock -/
def SpendAuthority.refusal (a : SpendAuthority) : Option String :=
  if a.maxCostUsd.digits < 0 ∨ a.maxRequests < 0 then some "ceilings must be non-negative"
  else if a.maxPromptTokens.any (· < 0) then some "max_prompt_tokens must be non-negative"
  else if a.maxCompletionTokens.any (· < 0) then
    some "max_completion_tokens must be non-negative"
  else if a.maxCostPerRequestUsd.any (·.digits < 0) then
    some "max_cost_per_request_usd must be non-negative"
  else none

/-- the row that `authorize_provider_spend` inserts -/
def SpendAuthority.row (a : SpendAuthority) (prior : Option GrantId) : Grant where
  ownerId := a.ownerId
  goalId := a.goalId
  executionEnvelopeId := a.executionEnvelopeId
  authorizedBy := a.authorizedBy
  maxCostUsd := a.maxCostUsd.stored
  maxRequests := a.maxRequests
  maxPromptTokens := a.maxPromptTokens
  maxCompletionTokens := a.maxCompletionTokens
  maxCostPerRequestUsd := a.maxCostPerRequestUsd.map Decimal.stored
  allowedProviders := a.allowedProviders
  allowedModels := a.allowedModels
  expiresAt := a.expiresAt
  supersedesAuthorizationId := prior
  idempotencyKey := a.idempotencyKey

/-- `authorize_provider_spend`, up to the wake of parked tasks at its end -/
def authorizeProviderSpend (env : SpendEnv) (db : SpendDb) (a : SpendAuthority) :
    Except Err (GrantId × SpendDb) :=
  match a.refusal with
  | some msg => .error (.providerSpend msg)
  | none =>
    if ¬ env.goalOwned then .error (.providerSpend ("goal_id=" ++ toString a.goalId ++
      " does not belong to owner_id=" ++ toString a.ownerId))
    else if env.envelope ≠ some a.executionEnvelopeId then
      .error (.providerSpend
        "execution_envelope_id must be the goal's current active execution authorization envelope")
    else
      match findRow (fun g => g.ownerId = a.ownerId ∧ g.idempotencyKey = a.idempotencyKey)
        db.grants with
      | some (i, g) =>
        if a.matchesRow g then .ok (i, db)
        else .error (.providerSpend "idempotency key reused with different authority fields")
      | none =>
        match findRow (Grant.activeFor a.ownerId a.goalId) db.grants with
        | none => .ok (db.grants.length, { db with grants := db.grants ++ [a.row none] })
        | some (i, prior) =>
          -- supersede before inserting: one active grant per owner and goal
          .ok (db.grants.length,
            { db with grants :=
                db.grants.set i { prior with status := .superseded } ++ [a.row (some i)] })

/-- `revoke_provider_spend` -/
def revokeProviderSpend (db : SpendDb) (owner : OwnerId) (a : GrantId) : Except Err SpendDb :=
  match db.grants[a]? with
  | none => .error (.providerSpend
      "provider spend authorization missing or belongs to another owner")
  | some g =>
    if g.ownerId ≠ owner then .error (.providerSpend
      "provider spend authorization missing or belongs to another owner")
    else if g.status ≠ .active then
      .error (.providerSpend ("provider spend authorization is already " ++ g.status.value))
    else .ok { db with grants := db.grants.set a { g with status := .revoked } }

/-! ## reserving -/

/-- `get_current_provider_spend_authorization`: an expired or used-up grant is marked on the way -/
def getCurrentProviderSpendAuthorization (env : SpendEnv) (db : SpendDb) (owner : OwnerId)
    (goal : GoalId) : SpendDb × Option (GrantId × Grant) :=
  match findRow (Grant.activeFor owner goal) db.grants with
  | none => (db, none)
  | some (a, g) =>
    let g' := g.markTerminalIfNeeded env.now
    if g'.status ≠ .active then ({ db with grants := db.grants.set a g' }, none)
    else if env.envelope ≠ some g.executionEnvelopeId then (db, none)
    else (db, some (a, g))

/-- `_bound_reservation`: `none` when the cost cannot be bounded -/
def boundReservation (g : Grant) (provider model : String) : Option (Int × Int × Int) :=
  let prompt := match g.maxPromptTokens with
    | none => 8000
    | some n => min n (max 0 (n - g.committed.promptTokens))
  let completion := match g.maxCompletionTokens with
    | none => 4000
    | some n => min n (max 0 (n - g.committed.completionTokens))
  let remaining := max 0 (g.maxCostUsd - g.committed.costUsd)
  match g.maxCostPerRequestUsd with
  | some c => some (prompt, completion, min c remaining)
  | none => (estimateCost provider model prompt completion).map fun c =>
      (prompt, completion, min c remaining)

structure ReserveCall where
  ownerId : OwnerId
  goalId : GoalId
  sourceRef : String
  provider : String
  model : String
  /-- the unlocked lookup ran before a concurrent twin of the same key committed -/
  lookupMissed : Bool := false
  deriving DecidableEq

/-- the row that a reservation inserts -/
def ReserveCall.event (r : ReserveCall) (a : GrantId) (prompt completion cost : Int) : Usage where
  ownerId := r.ownerId
  authorizationId := a
  goalId := r.goalId
  provider := r.provider
  model := r.model
  reservedPromptTokens := prompt
  reservedCompletionTokens := completion
  reservedCostUsd := cost
  sourceRef := r.sourceRef

def SpendDb.setGrant (db : SpendDb) (a : GrantId) (g : Grant) : SpendDb :=
  { db with grants := db.grants.set a g }

/-- the INSERT at the end of `reserve_provider_spend_call`; a twin of the same key wins -/
def insertReservation (now : Time) (db : SpendDb) (r : ReserveCall) (a : GrantId) (g : Grant)
    (prompt completion cost : Int) : SpendDb × Except Err (UsageId × Bool) :=
  match findRow (Usage.keyed r.ownerId r.sourceRef) db.events with
  | some (i, _) => (db, .ok (i, false))
  | none =>
    let e := r.event a prompt completion cost
    let g' := { g with reserved := g.reserved + e.hold }.markTerminalIfNeeded now
    ({ grants := db.grants.set a g', events := db.events ++ [e] }, .ok (db.events.length, true))

/-- the part of `reserve_provider_spend_call` under the lock of the live grant -/
def reserveOnGrant (now : Time) (db : SpendDb) (r : ReserveCall) (a : GrantId) (g : Grant) :
    SpendDb × Except Err (UsageId × Bool) :=
  let exhaust := db.setGrant a { g with status := .exhausted }
  if ¬ g.providerAllowed r.provider r.model then
    (db, .error (.providerSpend
      ("provider/model not allowlisted on this spend grant: " ++ r.provider ++ "/" ++ r.model)))
  else if g.committed.requests + 1 > g.maxRequests then
    (exhaust, .error (.providerSpend "provider spend request ceiling exhausted"))
  else
    match boundReservation g r.provider r.model with
    | none => (db, .error (.providerSpend
        ("cannot bound USD cost before provider call: set max_cost_per_request_usd " ++
          "or allowlist a provider/model with known pricing")))
    | some (prompt, completion, cost) =>
      if cost ≤ 0 ∧ g.maxCostUsd > 0 ∧ g.committed.costUsd ≥ g.maxCostUsd then
        (exhaust, .error (.providerSpend "provider spend cost ceiling exhausted"))
      else if g.committed.costUsd + cost > g.maxCostUsd then
        (exhaust, .error (.providerSpend "provider spend cost ceiling exhausted"))
      else if g.maxPromptTokens.any (g.committed.promptTokens + prompt > ·) then
        (exhaust, .error (.providerSpend "provider spend prompt-token ceiling exhausted"))
      else if g.maxCompletionTokens.any (g.committed.completionTokens + completion > ·) then
        (exhaust, .error (.providerSpend "provider spend completion-token ceiling exhausted"))
      else insertReservation now db r a g prompt completion cost

/-- `reserve_provider_spend_call` -/
def reserveProviderSpendCall (env : SpendEnv) (db : SpendDb) (r : ReserveCall) :
    SpendDb × Except Err (UsageId × Bool) :=
  let prior := if r.lookupMissed then none
    else findRow (Usage.keyed r.ownerId r.sourceRef) db.events
  match prior with
  | some (i, e) =>
    if e.status = .released then (db, .error (.providerSpend
      "provider spend source_ref was already released; a new source_ref is required"))
    else (db, .ok (i, false))
  | none =>
    match getCurrentProviderSpendAuthorization env db r.ownerId r.goalId with
    | (db', none) =>
      (db', .error (.providerSpend "no live provider spend authorization for this goal"))
    | (db', some (a, g)) => reserveOnGrant env.now db' r a g

/-! ## settling and releasing -/

structure SettleCall where
  ownerId : OwnerId
  sourceRef : String
  promptTokens : Int := 0
  completionTokens : Int := 0
  costUsd : Decimal := ⟨0, 0⟩
  deriving DecidableEq

/-- the event after a settlement -/
def SettleCall.settled (s : SettleCall) (e : Usage) : Usage :=
  { e with
    status := .settled
    promptTokens := s.promptTokens
    completionTokens := s.completionTokens
    costUsd := s.costUsd.stored }

/-- `settle_provider_spend_usage` -/
def settleProviderSpendUsage (db : SpendDb) (s : SettleCall) : Except Err (UsageId × SpendDb) :=
  if s.promptTokens < 0 ∨ s.completionTokens < 0 ∨ s.costUsd.digits < 0 then
    .error (.sqlException "settle amounts must be non-negative")
  else
    match findRow (Usage.keyed s.ownerId s.sourceRef) db.events with
    | none => .error (.sqlException "provider spend usage event missing for settle")
    | some (i, e) =>
      if e.status = .settled then .ok (i, db)
      else if e.status ≠ .reserved then
        .error (.sqlException "provider spend usage event is released, cannot settle")
      else
        match db.grants[e.authorizationId]? with
        | none => .error (.sqlException "provider spend authorization missing for settle")
        | some g =>
          if g.ownerId ≠ s.ownerId then
            .error (.sqlException "provider spend authorization missing for settle")
          else if s.promptTokens > e.reservedPromptTokens ∨
              s.completionTokens > e.reservedCompletionTokens ∨
              ¬ s.costUsd.leMicros e.reservedCostUsd then
            .error (.sqlException "settle actuals exceed reservation hold")
          else
            let e' := s.settled e
            let g' := { g with reserved := g.reserved - e.hold, spent := g.spent + e'.actual }
            if ¬ g'.checks then
              .error (.integrityError "ck_provider_spend_authorizations_ceilings")
            else .ok (i, { grants := db.grants.set e.authorizationId g'
                           events := db.events.set i e' })

/-- `release_provider_spend_usage` -/
def releaseProviderSpendUsage (db : SpendDb) (owner : OwnerId) (sourceRef : String) :
    Except Err (UsageId × SpendDb) :=
  match findRow (Usage.keyed owner sourceRef) db.events with
  | none => .error (.sqlException "provider spend usage event missing for release")
  | some (i, e) =>
    if e.status = .released then .ok (i, db)
    else if e.status = .settled then
      .error (.sqlException "cannot release an already-settled provider spend usage event")
    else
      let events := db.events.set i { e with status := .released }
      match db.grants[e.authorizationId]? with
      | none => .ok (i, { db with events := events })
      | some g =>
        if g.ownerId ≠ owner then .ok (i, { db with events := events })
        else
          let g' := { g with reserved := g.reserved - e.hold }
          if ¬ g'.checks then
            .error (.integrityError "ck_provider_spend_authorizations_ceilings")
          else .ok (i, { grants := db.grants.set e.authorizationId g', events := events })

/-- `settle_provider_spend_call`: the SQL function, then `_mark_terminal_if_needed` -/
def settleProviderSpendCall (env : SpendEnv) (db : SpendDb) (s : SettleCall) :
    Except Err (UsageId × SpendDb) := do
  let (i, db') ← settleProviderSpendUsage db s
  match db'.events[i]? with
  | none => .error .noResultFound
  | some e =>
    match db'.grants[e.authorizationId]? with
    | none => return (i, db')
    | some g => return (i, db'.setGrant e.authorizationId (g.markTerminalIfNeeded env.now))

end LifeAI
