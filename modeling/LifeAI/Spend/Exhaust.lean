import LifeAI.Spend.Ledger

/-!
# When a grant is exhausted

`_mark_terminal_if_needed` exhausts a grant on settled spend only, so that a released hold reopens
the grant.  `reserve_provider_spend_call` itself also exhausts it when holds stand at a ceiling;
`exhaustion_settled_only` says that this is the only way the rule breaks, and
`exhausted_by_a_hold` is a run that breaks it.
-/

namespace LifeAI

/-- an exhausted grant has settled spend at a ceiling -/
def ExhaustedSettled (db : SpendDb) : Prop :=
  ∀ (a : GrantId) (g : Grant), db.grants[a]? = some g → g.status = .exhausted → g.settledCeiling

theorem Grant.settledCeiling_iff {g : Grant} : g.settledCeiling ↔
    g.maxRequests ≤ g.spent.requests ∨ g.maxCostUsd ≤ g.spent.costUsd ∨
      (∃ n ∈ g.maxPromptTokens, n ≤ g.spent.promptTokens) ∨
      (∃ n ∈ g.maxCompletionTokens, n ≤ g.spent.completionTokens) := by
  simp [settledCeiling]

/-- a ceiling that was reached stays reached while spend grows -/
theorem Grant.settledCeiling_add {g : Grant} {m r : Amounts} (hm : 0 ≤ m)
    (h : g.settledCeiling) : ({ g with reserved := r, spent := g.spent + m } : Grant).settledCeiling := by
  obtain ⟨k1, k2, k3, k4⟩ := Amounts.le_iff.1 hm
  simp only [Amounts.requests_zero, Amounts.promptTokens_zero, Amounts.completionTokens_zero,
    Amounts.costUsd_zero] at k1 k2 k3 k4
  rw [settledCeiling_iff] at *
  simp only [Amounts.requests_add, Amounts.promptTokens_add, Amounts.completionTokens_add,
    Amounts.costUsd_add]
  rcases h with h | h | ⟨n, hn, h⟩ | ⟨n, hn, h⟩
  · exact .inl (by omega)
  · exact .inr (.inl (by omega))
  · exact .inr (.inr (.inl ⟨n, hn, by omega⟩))
  · exact .inr (.inr (.inr ⟨n, hn, by omega⟩))

theorem ExhaustedSettled.set {db : SpendDb} (h : ExhaustedSettled db) {a : GrantId}
    {g g' : Grant} {events : List Usage} (row : db.grants[a]? = some g)
    (hg : g'.status = .exhausted → g'.settledCeiling) :
    ExhaustedSettled { grants := db.grants.set a g', events := events } := by
  intro b q hq hs
  simp only [getElem?_set_row row] at hq
  split at hq
  · cases hq
    exact hg hs
  · exact h b q hq hs

/-- every move but an overlapping one keeps the rule -/
theorem SpendMove.exhaustedSettled {db db' : SpendDb} (h : ExhaustedSettled db)
    (hm : SpendMove False db db') : ExhaustedSettled db' := by
  cases hm with
  | mark st row live terminal why => exact h.set row why
  | exhaust held row live => exact held.elim
  | grant a prior ok free =>
    intro b q hq hs
    rcases getElem?_insert hq with hq | ⟨-, rfl⟩
    · exact h b q hq hs
    · exact absurd hs (by simp [SpendAuthority.row])
  | reserve e row link fits =>
    exact h.set row fun hs => absurd (hs.symm.trans fits.live) (by simp)
  | settle s event reserved row nonneg le =>
    exact h.set row fun hs => Grant.settledCeiling_add nonneg (h _ _ row hs)
  | @release _ e g event reserved row =>
    exact h.set row fun hs => h e.authorizationId g row hs

theorem SpendMoves.exhaustedSettled {db db' : SpendDb} (h : ExhaustedSettled db)
    (hm : SpendMoves False db db') : ExhaustedSettled db' := by
  induction hm with
  | refl => exact h
  | tail _ hm ih => exact hm.exhaustedSettled ih

/-- no reservation of the run overlaps the holds of a live grant at a ceiling -/
def NoOverlap (os : List SpendOp) : Prop :=
  Run.Meets SpendOp.step (fun db o => Overlaps db o = false) {} os

instance (os : List SpendOp) : Decidable (NoOverlap os) :=
  inferInstanceAs (Decidable (Run.Meets _ _ _ _))

theorem NoOverlap.exhaustedSettled {os : List SpendOp} (h : NoOverlap os) :
    ExhaustedSettled (spendRun os) := by
  have hboth : SpendInv (spendRun os) ∧ ExhaustedSettled (spendRun os) := by
    refine Run.inv (I := fun db => SpendInv db ∧ ExhaustedSettled db) (fun db o hi ho => ?_)
      ⟨.init, fun a g hg => by simp at hg⟩ h
    have hm := step_moves hi.1 o
    exact ⟨hm.inv hi.1, (hm.mono (by simp [ho])).exhaustedSettled hi.2⟩
  exact hboth.2

/-- a live grant below its settled ceilings with no hold left on it takes a new reservation -/
theorem reserve_accepted {db : SpendDb} (hi : SpendInv db) {a : GrantId} {g : Grant}
    {env : SpendEnv} {r : ReserveCall} (row : db.grants[a]? = some g)
    (live : g.status = .active) (unexpired : g.pastExpiry env.now = false)
    (below : g.settledCeiling = false)
    (free : ∀ e ∈ db.events, e.authorizationId = a → e.status ≠ .reserved)
    (hand : env.envelope = some g.executionEnvelopeId)
    (owner : r.ownerId = g.ownerId) (goal : r.goalId = g.goalId)
    (fresh : findRow (Usage.keyed r.ownerId r.sourceRef) db.events = none)
    (allowed : g.providerAllowed r.provider r.model)
    (priced : (boundReservation g r.provider r.model).isSome) :
    (reserveProviderSpendCall env db r).2 = .ok (db.events.length, true) := by
  -- the lookup finds this grant, the only active one
  have hfind : findRow (Grant.activeFor r.ownerId r.goalId) db.grants = some (a, g) := by
    cases hf : findRow (Grant.activeFor r.ownerId r.goalId) db.grants with
    | none =>
      have := findRow_eq_none.1 hf g (List.mem_of_getElem? row)
      simp [Grant.activeFor, owner, goal, live] at this
    | some p =>
      obtain ⟨b, q⟩ := p
      obtain ⟨hb, hp⟩ := findRow_eq_some hf
      obtain ⟨k1, k2, k3⟩ : q.ownerId = r.ownerId ∧ q.goalId = r.goalId ∧ q.status = .active := by
        simpa [Grant.activeFor] using hp
      obtain rfl := hi.oneActive a b g q row hb live k3 (by rw [k1, owner]) (by rw [k2, goal])
      rw [row] at hb
      cases hb
      rfl
  have hmark : g.markTerminalIfNeeded env.now = g := by
    simp [Grant.markTerminalIfNeeded, live, unexpired, below]
  have hcur : getCurrentProviderSpendAuthorization env db r.ownerId r.goalId
      = (db, some (a, g)) := by
    simp [getCurrentProviderSpendAuthorization, hfind, hmark, live, hand]
  -- nothing is held, so what is committed is what is settled
  have hheld : g.reserved = 0 := by
    rw [(hi.books a g row).reserved]
    refine Ledger.total_eq_zero _ _ fun e he => ?_
    simpa [Usage.under] using free e he
  have hcom : g.committed = g.spent := by rw [Grant.committed, hheld, add_zero]
  have hbelow : ¬ g.settledCeiling := by simp [below]
  rw [Grant.settledCeiling_iff] at hbelow
  simp only [not_or, not_le] at hbelow
  obtain ⟨l1, l2, -, -⟩ := hbelow
  obtain ⟨⟨p, c, n⟩, hb⟩ := Option.isSome_iff_exists.1 priced
  obtain ⟨h1, h2, h3, h4, h5, h6⟩ := boundReservation_spec hi row hb
  have hreq : ¬ g.committed.requests + 1 > g.maxRequests := by
    rw [hcom]
    omega
  have hcost : ¬ (n ≤ 0 ∧ g.maxCostUsd > 0 ∧ g.committed.costUsd ≥ g.maxCostUsd) := by
    rw [hcom]
    omega
  have hcost' : ¬ g.committed.costUsd + n > g.maxCostUsd := by omega
  have hp : ¬ g.maxPromptTokens.any (g.committed.promptTokens + p > ·) := by
    cases hm : g.maxPromptTokens with
    | none => simp
    | some m => simpa using h5 m hm
  have hc : ¬ g.maxCompletionTokens.any (g.committed.completionTokens + c > ·) := by
    cases hm : g.maxCompletionTokens with
    | none => simp
    | some m => simpa using h6 m hm
  have hnone : (if r.lookupMissed = true then none
      else findRow (Usage.keyed r.ownerId r.sourceRef) db.events) = none := by
    split
    · rfl
    · exact fresh
  simp only [reserveProviderSpendCall, hnone, hcur, reserveOnGrant]
  rw [if_neg (by simp [allowed]), if_neg hreq, hb]
  dsimp only
  rw [if_neg hcost, if_neg hcost', if_neg hp, if_neg hc, insertReservation, fresh]

/-- **Exhaustion is settled-spend only**, in every run without an overlapping reservation: a
grant is exhausted only once settled spend has reached a ceiling, and a grant that was neither
expired, revoked nor superseded, whose settled spend is below its ceilings and on which no hold
is outstanding, accepts a new reservation. -/
theorem exhaustion_settled_only (os : List SpendOp) (h : NoOverlap os) :
    (∀ (a : GrantId) (g : Grant), (spendRun os).grants[a]? = some g → g.status = .exhausted →
      g.settledCeiling) ∧
    ∀ (a : GrantId) (g : Grant) (env : SpendEnv) (r : ReserveCall),
      (spendRun os).grants[a]? = some g →
      g.status ≠ .expired → g.pastExpiry env.now = false → g.status ≠ .revoked →
      g.status ≠ .superseded → g.settledCeiling = false →
      (∀ e ∈ (spendRun os).events, e.authorizationId = a → e.status ≠ .reserved) →
      env.envelope = some g.executionEnvelopeId → r.ownerId = g.ownerId → r.goalId = g.goalId →
      findRow (Usage.keyed r.ownerId r.sourceRef) (spendRun os).events = none →
      g.providerAllowed r.provider r.model → (boundReservation g r.provider r.model).isSome →
      (reserveProviderSpendCall env (spendRun os) r).2 =
        .ok ((spendRun os).events.length, true) := by
  refine ⟨h.exhaustedSettled, ?_⟩
  intro a g env r row hexp unexpired hrev hsup below free hand owner goal fresh allowed priced
  have live : g.status = .active := by
    cases hs : g.status with
    | active => rfl
    | superseded => exact absurd hs hsup
    | exhausted =>
      have := h.exhaustedSettled a g row hs
      rw [below] at this
      exact absurd this (by simp)
    | expired => exact absurd hs hexp
    | revoked => exact absurd hs hrev
  exact reserve_accepted (SpendInv.run os) row live unexpired below free hand owner goal fresh
    allowed priced

/-! ## runs on one grant -/

/-- a grant of one request on goal 0 under envelope 0 -/
def oneRequest : SpendAuthority where
  ownerId := 0
  goalId := 0
  executionEnvelopeId := 0
  authorizedBy := "founder"
  maxCostUsd := ⟨10, 0⟩
  maxRequests := 1
  idempotencyKey := "grant-1"
  maxCostPerRequestUsd := some ⟨1, 0⟩

def atTime (now : Time) : SpendEnv := { now := now, envelope := some 0 }

def callOf (sourceRef : String) : ReserveCall where
  ownerId := 0
  goalId := 0
  sourceRef := sourceRef
  provider := "openai"
  model := "gpt-4o"

/-- the one request is made and settled, then the live check runs -/
def settledRun : List SpendOp :=
  [.authorize (atTime 0) oneRequest, .reserve (atTime 1) (callOf "a"),
    .settle { ownerId := 0, sourceRef := "a", promptTokens := 10 }, .current (atTime 2) 0 0]

theorem exhaustion_settled_only_settledRun :
    ∃ g, (spendRun settledRun).grants[0]? = some g ∧ g.status = .exhausted ∧ g.settledCeiling :=
  ⟨_, rfl, by decide, (exhaustion_settled_only settledRun (by decide)).1 0 _ rfl (by decide)⟩

/-- a second call overlaps the first one's hold; then the first one fails and is released -/
def overlapRun : List SpendOp :=
  [.authorize (atTime 0) oneRequest, .reserve (atTime 1) (callOf "a"),
    .reserve (atTime 2) (callOf "b"), .release 0 "a"]

theorem exhausted_by_a_hold :
    ∃ g, (spendRun overlapRun).grants[0]? = some g ∧ g.status = .exhausted ∧
      g.settledCeiling = false ∧ g.spent = 0 ∧ g.reserved = 0 ∧
      (reserveProviderSpendCall (atTime 3) (spendRun overlapRun) (callOf "c")).2
        = .error (.providerSpend "no live provider spend authorization for this goal") :=
  ⟨_, rfl, by decide, by decide, by decide, by decide, by decide⟩

end LifeAI
