import LifeAI.Spend.Moves

/-!
# The spend ledger is exact and stays under its ceilings

`step_moves` takes each call apart into the moves of `Spend.Moves`; so the books of every grant
balance in every reachable state (`spend_ledger`).
-/

namespace LifeAI

section
variable {overlap : Prop} {db : SpendDb}

/-! ## marking -/

theorem SpendDb.setGrant_self {a : GrantId} {g : Grant} (row : db.grants[a]? = some g) :
    db.setGrant a g = db := by
  obtain ⟨ha, rfl⟩ := List.getElem?_eq_some_iff.1 row
  simp [SpendDb.setGrant, List.set_getElem_self]

/-- `_mark_terminal_if_needed` leaves a grant alone or takes it out of `active` -/
theorem Grant.mark_cases (g : Grant) (now : Time) :
    g.markTerminalIfNeeded now = g ∨
      (g.status = .active ∧ ∃ st, st ≠ .active ∧ g.markTerminalIfNeeded now = { g with status := st } ∧
        (st = .exhausted → g.settledCeiling)) := by
  unfold markTerminalIfNeeded
  by_cases hs : g.status = .active
  · rw [if_neg (by simp [hs])]
    by_cases he : g.pastExpiry now
    · exact .inr ⟨hs, .expired, by simp, by rw [if_pos he], by simp⟩
    · rw [if_neg he]
      by_cases hc : g.settledCeiling
      · exact .inr ⟨hs, .exhausted, by simp, by rw [if_pos hc], fun _ => hc⟩
      · exact .inl (if_neg hc)
  · exact .inl (if_pos hs)

theorem mark_moves {a : GrantId} {g : Grant} (row : db.grants[a]? = some g) (now : Time) :
    SpendMoves overlap db (db.setGrant a (g.markTerminalIfNeeded now)) := by
  rcases g.mark_cases now with h | ⟨hs, st, ht, h, why⟩
  · rw [h, SpendDb.setGrant_self row]
  · rw [h]
    exact .single (.mark st row hs ht why)

/-- the live grant that `get_current_provider_spend_authorization` returns -/
structure LiveGrant (env : SpendEnv) (db : SpendDb) (owner : OwnerId) (goal : GoalId)
    (a : GrantId) (g : Grant) : Prop where
  row : db.grants[a]? = some g
  owner : g.ownerId = owner
  goal : g.goalId = goal
  active : g.status = .active
  unexpired : g.pastExpiry env.now = false
  below : g.settledCeiling = false
  envelope : env.envelope = some g.executionEnvelopeId

theorem Grant.mark_active {g : Grant} {now : Time}
    (h : (g.markTerminalIfNeeded now).status = .active) :
    g.pastExpiry now = false ∧ g.settledCeiling = false := by
  unfold markTerminalIfNeeded at h
  split at h
  · next hs => exact absurd h hs
  split at h
  · exact absurd h (by simp)
  split at h
  · exact absurd h (by simp)
  · next h1 h2 => exact ⟨by simpa using h1, by simpa using h2⟩

/-- what `get_current_provider_spend_authorization` does: it finds the live grant and writes
nothing, or it finds none and has marked at most one grant -/
theorem getCurrent_cases (overlap : Prop) (env : SpendEnv) (db : SpendDb) (owner : OwnerId)
    (goal : GoalId) :
    (∃ a g, getCurrentProviderSpendAuthorization env db owner goal = (db, some (a, g)) ∧
        LiveGrant env db owner goal a g) ∨
      ((getCurrentProviderSpendAuthorization env db owner goal).2 = none ∧
        SpendMoves overlap db (getCurrentProviderSpendAuthorization env db owner goal).1) := by
  unfold getCurrentProviderSpendAuthorization
  cases hf : findRow (Grant.activeFor owner goal) db.grants with
  | none => exact .inr ⟨rfl, .refl⟩
  | some p =>
    obtain ⟨a, g⟩ := p
    obtain ⟨row, hp⟩ := findRow_eq_some hf
    obtain ⟨ho, hg, hs⟩ : g.ownerId = owner ∧ g.goalId = goal ∧ g.status = .active := by
      simpa [Grant.activeFor] using hp
    dsimp only
    split
    · exact .inr ⟨rfl, mark_moves row env.now⟩
    · next hm =>
      split
      · exact .inr ⟨rfl, .refl⟩
      · next he =>
        obtain ⟨h1, h2⟩ := Grant.mark_active (by simpa using hm)
        exact .inl ⟨a, g, rfl, row, ho, hg, hs, h1, h2, by simpa using he⟩

/-! ## granting -/

theorem authorize_moves (h : SpendInv db) (env : SpendEnv) (a : SpendAuthority) :
    SpendMoves overlap db (SpendOp.step db (.authorize env a)) := by
  simp only [SpendOp.step, authorizeProviderSpend]
  cases hr : a.refusal with
  | some msg => exact .refl
  | none =>
    dsimp only
    split
    · exact .refl
    split
    · exact .refl
    split
    · split <;> exact .refl
    · split
      · next hfree => exact .single (.grant a none hr (findRow_eq_none.1 hfree))
      · next i prior hprior =>
        obtain ⟨row, hp⟩ := findRow_eq_some hprior
        obtain ⟨ho, hg, hs⟩ :
            prior.ownerId = a.ownerId ∧ prior.goalId = a.goalId ∧ prior.status = .active := by
          simpa [Grant.activeFor] using hp
        refine .tail (.single (.mark .superseded row hs (by simp) (by simp)))
          (.grant a (some i) hr fun q hq => ?_)
        -- the superseded grant was the only active one
        obtain ⟨j, hj⟩ := List.getElem?_of_mem hq
        simp only [SpendDb.setGrant, getElem?_set_row row] at hj
        split at hj
        · cases hj
          simp [Grant.activeFor]
        · next hij =>
          by_contra hact
          obtain ⟨k1, k2, k3⟩ :
              q.ownerId = a.ownerId ∧ q.goalId = a.goalId ∧ q.status = .active := by
            simpa [Grant.activeFor] using hact
          exact hij (h.oneActive i j prior q row hj hs k3 (by rw [ho, k1]) (by rw [hg, k2]))

/-! ## reserving -/

theorem pricing_nonneg {provider model : String} {x y : Int}
    (h : pricingPer1kTokens provider model = some (x, y)) : 0 ≤ x ∧ 0 ≤ y := by
  unfold pricingPer1kTokens at h
  split at h <;> simp at h <;> omega

theorem Decimal.quantized_nonneg {d : Decimal} (h : 0 ≤ d.digits) : 0 ≤ d.quantized := by
  unfold quantized
  split
  · positivity
  · have hq : 0 ≤ d.digits / 10 ^ (d.scale - 6) := Int.ediv_nonneg h (by positivity)
    dsimp only
    split <;> omega

theorem estimateCost_nonneg {provider model : String} {p c n : Int} (hp : 0 ≤ p) (hc : 0 ≤ c)
    (h : estimateCost provider model p c = some n) : 0 ≤ n := by
  unfold estimateCost at h
  split at h
  · cases h
    exact le_refl 0
  · obtain ⟨⟨x, y⟩, hxy, rfl⟩ := Option.map_eq_some_iff.1 h
    obtain ⟨h1, h2⟩ := pricing_nonneg hxy
    exact Decimal.quantized_nonneg (by positivity)

/-- the hold in one token column: the default, or what is left of the ceiling -/
def tokenHold (ceiling : Option Int) (default used : Int) : Int :=
  match ceiling with
  | none => default
  | some n => min n (max 0 (n - used))

theorem boundReservation_parts {g : Grant} {provider model : String} {p c n : Int}
    (h : boundReservation g provider model = some (p, c, n)) :
    p = tokenHold g.maxPromptTokens 8000 g.committed.promptTokens ∧
      c = tokenHold g.maxCompletionTokens 4000 g.committed.completionTokens ∧
        ∃ x, n = min x (max 0 (g.maxCostUsd - g.committed.costUsd)) ∧
          (g.maxCostPerRequestUsd = some x ∨ estimateCost provider model p c = some x) := by
  unfold boundReservation at h
  dsimp only at h
  cases hr : g.maxCostPerRequestUsd with
  | some x =>
    rw [hr] at h
    simp only [Option.some.injEq, Prod.mk.injEq] at h
    obtain ⟨rfl, rfl, rfl⟩ := h
    exact ⟨rfl, rfl, x, rfl, .inl rfl⟩
  | none =>
    rw [hr] at h
    obtain ⟨x, hx, heq⟩ := Option.map_eq_some_iff.1 h
    simp only [Prod.mk.injEq] at heq
    obtain ⟨rfl, rfl, rfl⟩ := heq
    exact ⟨rfl, rfl, x, rfl, .inr hx⟩

theorem tokenHold_nonneg {o : Option Int} {d u : Int} (hd : 0 ≤ d) (ho : ∀ m ∈ o, 0 ≤ m) :
    0 ≤ tokenHold o d u := by
  cases o with
  | none => exact hd
  | some m =>
    have hm := ho m rfl
    show 0 ≤ min m (max 0 (m - u))
    omega

theorem tokenHold_fits {o : Option Int} {d u : Int} (hu : 0 ≤ u) (ho : ∀ m ∈ o, u ≤ m) :
    ∀ m ∈ o, u + tokenHold o d u ≤ m := by
  intro m hm
  have hle := ho m hm
  obtain rfl := Option.mem_def.1 hm
  show u + min m (max 0 (m - u)) ≤ m
  omega

/-- a bounded hold is non-negative and fits what is left of the cost and token ceilings -/
theorem boundReservation_spec (h : SpendInv db) {a : GrantId} {g : Grant}
    (row : db.grants[a]? = some g) {provider model : String} {p c n : Int}
    (hb : boundReservation g provider model = some (p, c, n)) :
    0 ≤ p ∧ 0 ≤ c ∧ 0 ≤ n ∧ g.committed.costUsd + n ≤ g.maxCostUsd ∧
      (∀ m ∈ g.maxPromptTokens, g.committed.promptTokens + p ≤ m) ∧
      (∀ m ∈ g.maxCompletionTokens, g.committed.completionTokens + c ≤ m) := by
  have books := h.books a g row
  have hnn : 0 ≤ g.committed := add_nonneg (books.spent_nonneg h) (books.reserved_nonneg h)
  obtain ⟨k1, k2, k3, k4⟩ := Amounts.le_iff.1 hnn
  simp only [Amounts.requests_zero, Amounts.promptTokens_zero, Amounts.completionTokens_zero,
    Amounts.costUsd_zero] at k1 k2 k3 k4
  have hcost := books.cost
  obtain ⟨rfl, rfl, x, rfl, hx⟩ := boundReservation_parts hb
  have hp := tokenHold_nonneg (d := 8000) (u := g.committed.promptTokens) (by decide)
    fun m hm => k2.trans (books.promptTokens m hm)
  have hc := tokenHold_nonneg (d := 4000) (u := g.committed.completionTokens) (by decide)
    fun m hm => k3.trans (books.completionTokens m hm)
  have hx0 : 0 ≤ x := by
    rcases hx with hx | hx
    · exact books.perRequest x hx
    · exact estimateCost_nonneg hp hc hx
  exact ⟨hp, hc, by omega, by omega, tokenHold_fits k2 books.promptTokens,
    tokenHold_fits k3 books.completionTokens⟩

theorem insertReservation_moves (now : Time) {r : ReserveCall} {a : GrantId} {g : Grant}
    {p c n : Int} (row : db.grants[a]? = some g) (fits : Fits g (r.event a p c n)) :
    SpendMoves overlap db (insertReservation now db r a g p c n).1 := by
  unfold insertReservation
  split
  · exact .refl
  · refine .trans (.single (.reserve (r.event a p c n) row rfl fits)) ?_
    have hrow : (db.grants.set a { g with reserved := g.reserved + (r.event a p c n).hold })[a]?
        = some { g with reserved := g.reserved + (r.event a p c n).hold } := by
      rw [getElem?_set_row row, if_pos rfl]
    let held : SpendDb :=
      { grants := db.grants.set a { g with reserved := g.reserved + (r.event a p c n).hold }
        events := db.events ++ [r.event a p c n] }
    have hm : SpendMoves overlap held _ := mark_moves hrow now
    simpa only [held, SpendDb.setGrant, List.set_set] using hm

theorem reserveOnGrant_moves (h : SpendInv db) {env : SpendEnv} {r : ReserveCall} {a : GrantId}
    {g : Grant} (hl : LiveGrant env db r.ownerId r.goalId a g) :
    SpendMoves (g.providerAllowed r.provider r.model ∧ g.heldToTheCeiling r.provider r.model) db
      (reserveOnGrant env.now db r a g).1 := by
  unfold reserveOnGrant
  dsimp only
  split
  · exact .refl
  next hallow =>
  have hallow' : g.providerAllowed r.provider r.model := by simpa using hallow
  split
  · next hreq =>
    exact .single (.exhaust ⟨hallow', by simp [Grant.heldToTheCeiling]; omega⟩ hl.row hl.active)
  next hreq =>
  split
  · exact .refl
  next p c n hb =>
  obtain ⟨h1, h2, h3, h4, h5, h6⟩ := boundReservation_spec h hl.row hb
  split
  · next hcost =>
    refine .single (.exhaust ⟨hallow', ?_⟩ hl.row hl.active)
    simp [Grant.heldToTheCeiling, hb, hcost.2.2]
  split
  · next hover => exact absurd h4 (by omega)
  split
  · next hover =>
    cases hm : g.maxPromptTokens with
    | none => simp [hm] at hover
    | some m =>
      have := h5 m hm
      simp only [hm, Option.any_some, decide_eq_true_eq] at hover
      omega
  split
  · next hover =>
    cases hm : g.maxCompletionTokens with
    | none => simp [hm] at hover
    | some m =>
      have := h6 m hm
      simp only [hm, Option.any_some, decide_eq_true_eq] at hover
      omega
  · exact insertReservation_moves env.now hl.row
      { live := hl.active
        owner := hl.owner.symm
        reserved := rfl
        nonneg := by simp [Amounts.le_iff, Usage.hold, ReserveCall.event, h1, h2, h3]
        unspent := ⟨rfl, rfl, rfl⟩
        requests := by simp [Usage.hold]; omega
        cost := h4
        promptTokens := h5
        completionTokens := h6 }

theorem reserve_moves (h : SpendInv db) (env : SpendEnv) (r : ReserveCall) :
    SpendMoves (Overlaps db (.reserve env r)) db (SpendOp.step db (.reserve env r)) := by
  simp only [SpendOp.step, reserveProviderSpendCall]
  cases hp : (if r.lookupMissed then none
      else findRow (Usage.keyed r.ownerId r.sourceRef) db.events) with
  | some q =>
    dsimp only
    split <;> exact .refl
  | none =>
    have hnew : (r.lookupMissed || (findRow (Usage.keyed r.ownerId r.sourceRef)
        db.events).isNone) = true := by
      cases hm : r.lookupMissed <;> simp_all
    rcases getCurrent_cases _ env db r.ownerId r.goalId with ⟨a, g, hc, hl⟩ | ⟨hc, hm⟩
    · simp only [hc]
      refine (reserveOnGrant_moves h hl).mono ?_
      rintro ⟨k1, k2⟩
      simp [Overlaps, hnew, hc, k1, k2]
    · cases hg : getCurrentProviderSpendAuthorization env db r.ownerId r.goalId with
      | mk db' o =>
        rw [hg] at hc hm
        obtain rfl : o = none := hc
        exact hm

/-! ## settling and releasing -/

/-- `settle_provider_spend_usage` finds a reserved event within its hold, or writes nothing -/
theorem settle_cases {s : SettleCall} {i : UsageId} {db' : SpendDb}
    (h : settleProviderSpendUsage db s = .ok (i, db')) :
    db' = db ∨ SpendMove overlap db db' := by
  unfold settleProviderSpendUsage at h
  rw [guard_eq_ok] at h
  obtain ⟨hnn, h⟩ := h
  split at h
  · exact absurd h (by simp)
  next j e hf =>
  split at h
  · cases h
    exact .inl rfl
  split at h
  · exact absurd h (by simp)
  next hres =>
  split at h
  · exact absurd h (by simp)
  next g hg =>
  rw [guard_eq_ok, guard_eq_ok] at h
  obtain ⟨-, hle, h⟩ := h
  dsimp only at h
  split at h
  · exact absurd h (by simp)
  · cases h
    simp only [not_or, not_lt, not_not] at hnn hle
    obtain ⟨n1, n2, n3⟩ := hnn
    obtain ⟨l1, l2, l3⟩ := hle
    refine .inr (.settle s (findRow_eq_some hf).1 (by simpa using hres) hg ?_ ?_)
    · simp [Amounts.le_iff, Usage.actual, SettleCall.settled, n1, n2, Decimal.stored_nonneg n3]
    · simp [Amounts.le_iff, Usage.actual, Usage.hold, SettleCall.settled, l1, l2,
        Decimal.stored_le n3 l3]

theorem release_cases {owner : OwnerId} {ref : String} {i : UsageId} {db' : SpendDb}
    (hi : SpendInv db) (h : releaseProviderSpendUsage db owner ref = .ok (i, db')) :
    db' = db ∨ SpendMove overlap db db' := by
  unfold releaseProviderSpendUsage at h
  split at h
  · exact absurd h (by simp)
  next j e hf =>
  obtain ⟨he, hk⟩ := findRow_eq_some hf
  split at h
  · cases h
    exact .inl rfl
  next hrel =>
  split at h
  · exact absurd h (by simp)
  next hset =>
  have hres : e.status = .reserved := by
    cases hs : e.status with
    | reserved => rfl
    | settled => exact absurd hs hset
    | released => exact absurd hs hrel
  -- an event's grant exists and has its owner
  obtain ⟨q, hq, ho⟩ := hi.linked e (List.mem_of_getElem? he)
  have howner : q.ownerId = owner := by
    have : e.ownerId = owner ∧ e.sourceRef = ref := by simpa [Usage.keyed] using hk
    rw [ho, this.1]
  rw [hq] at h
  dsimp only at h
  rw [if_neg (by simp [howner])] at h
  split at h
  · exact absurd h (by simp)
  · cases h
    exact .inr (.release he hres hq)

theorem settleCall_moves (env : SpendEnv) (s : SettleCall) :
    SpendMoves overlap db (SpendOp.step db (.settleCall env s)) := by
  simp only [SpendOp.step]
  cases hc : settleProviderSpendCall env db s with
  | error e => exact .refl
  | ok p =>
    obtain ⟨j, db2⟩ := p
    unfold settleProviderSpendCall at hc
    obtain ⟨⟨i, db1⟩, h1, h2⟩ := bind_eq_ok.1 hc
    have hm : SpendMoves overlap db db1 := by
      rcases (settle_cases h1 : db1 = db ∨ SpendMove overlap db db1) with rfl | hm
      · exact .refl
      · exact .single hm
    show SpendMoves overlap db db2
    dsimp only at h2
    split at h2
    · exact absurd h2 (by simp)
    · split at h2
      · cases h2
        exact hm
      · next g hg =>
        cases h2
        exact hm.trans (mark_moves hg env.now)

theorem revoke_moves (owner : OwnerId) (a : GrantId) :
    SpendMoves overlap db (SpendOp.step db (.revoke owner a)) := by
  simp only [SpendOp.step, revokeProviderSpend]
  split
  · exact .refl
  next g hg =>
  split
  · exact .refl
  split
  · exact .refl
  · next hs => exact .single (.mark .revoked hg (by simpa using hs) (by simp) (by simp))

/-- **What one call can do**: a sequence of moves. -/
theorem step_moves (h : SpendInv db) (o : SpendOp) :
    SpendMoves (Overlaps db o) db (o.step db) := by
  cases o with
  | authorize env a => exact authorize_moves h env a
  | reserve env r => exact reserve_moves h env r
  | settle s =>
    simp only [SpendOp.step]
    cases hs : settleProviderSpendUsage db s with
    | error e => exact .refl
    | ok p =>
      obtain ⟨i, db'⟩ := p
      rcases settle_cases hs with rfl | hm
      · exact .refl
      · exact .single hm
  | settleCall env s => exact settleCall_moves env s
  | release owner ref =>
    simp only [SpendOp.step]
    cases hs : releaseProviderSpendUsage db owner ref with
    | error e => exact .refl
    | ok p =>
      obtain ⟨i, db'⟩ := p
      rcases release_cases h hs with rfl | hm
      · exact .refl
      · exact .single hm
  | revoke owner a => exact revoke_moves owner a
  | current env owner goal =>
    rcases getCurrent_cases (Overlaps db (.current env owner goal)) env db owner goal
      with ⟨a, g, hc, -⟩ | ⟨-, hm⟩
    · simp only [SpendOp.step, hc]
      exact .refl
    · exact hm

end

/-! ## the ledger along a run -/

/-- the tables after the calls `os`, from empty tables -/
def spendRun (os : List SpendOp) : SpendDb := Run.run SpendOp.step {} os

theorem SpendInv.run (os : List SpendOp) : SpendInv (spendRun os) :=
  Run.inv_all (I := SpendInv) (fun _ o h => (step_moves h o).inv h) .init os

/-- an event that is not reserved any more is not touched again -/
theorem closed_event {db : SpendDb} {owner : OwnerId} {ref : String} {i : UsageId} {e : Usage}
    (hf : findRow (Usage.keyed owner ref) db.events = some (i, e)) (hs : e.status ≠ .reserved) :
    (∀ s : SettleCall, s.ownerId = owner → s.sourceRef = ref → SpendOp.step db (.settle s) = db) ∧
      SpendOp.step db (.release owner ref) = db := by
  constructor
  · rintro s rfl rfl
    simp only [SpendOp.step, settleProviderSpendUsage, hf]
    split
    · rfl
    · split
      · rfl
      · rfl
  · simp only [SpendOp.step, releaseProviderSpendUsage, hf]
    split
    · rfl
    · next hr =>
      have : e.status = .settled := by
        cases h : e.status with
        | reserved => exact absurd h hs
        | settled => rfl
        | released => exact absurd h hr
      rw [if_pos this]
      rfl

/-- **The spend ledger.**  After any sequence of calls, every grant's reserved counters are the
count and the sums of the holds of its reserved events, its spent counters the count and the
sums of the actuals of its settled events, nothing is negative, what is spent and reserved
together stays within every ceiling; and a settled or released event is closed for good. -/
theorem spend_ledger (os : List SpendOp) :
    (∀ (a : GrantId) (g : Grant), (spendRun os).grants[a]? = some g →
      g.reserved = (((spendRun os).events.filter (Usage.under a .reserved)).map Usage.hold).sum ∧
      g.spent = (((spendRun os).events.filter (Usage.under a .settled)).map Usage.actual).sum ∧
      0 ≤ g.reserved ∧ 0 ≤ g.spent ∧
      g.spent.requests + g.reserved.requests ≤ g.maxRequests ∧
      g.spent.costUsd + g.reserved.costUsd ≤ g.maxCostUsd ∧
      (∀ n ∈ g.maxPromptTokens, g.spent.promptTokens + g.reserved.promptTokens ≤ n) ∧
      (∀ n ∈ g.maxCompletionTokens,
        g.spent.completionTokens + g.reserved.completionTokens ≤ n)) ∧
    ∀ (owner : OwnerId) (ref : String) (i : UsageId) (e : Usage),
      findRow (Usage.keyed owner ref) (spendRun os).events = some (i, e) → e.status ≠ .reserved →
      (∀ s : SettleCall, s.ownerId = owner → s.sourceRef = ref →
        SpendOp.step (spendRun os) (.settle s) = spendRun os) ∧
      SpendOp.step (spendRun os) (.release owner ref) = spendRun os := by
  have h := SpendInv.run os
  refine ⟨fun a g hg => ?_, fun owner ref i e hf hs => closed_event hf hs⟩
  have hb := h.books a g hg
  refine ⟨?_, ?_, hb.reserved_nonneg h, hb.spent_nonneg h, hb.requests, hb.cost, hb.promptTokens,
    hb.completionTokens⟩
  · rw [hb.reserved, Ledger.total_eq_sum_filter]
  · rw [hb.spent, Ledger.total_eq_sum_filter]

end LifeAI
