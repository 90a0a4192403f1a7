import LifeAI.Spend.Model

/-!
# What an operation does to the spend tables

Whatever the order of calls, the tables change by five kinds of moves (`SpendMove`): a grant
leaves `active`, a grant is added, a hold is placed, settled or released.  `step_moves` takes
every operation apart into moves; the only move that marks a grant exhausted on account of its
*holds* needs the call to overlap them (`Overlaps`).
-/

namespace LifeAI

/-! ## operations -/

inductive SpendOp where
  | authorize (env : SpendEnv) (a : SpendAuthority)
  | reserve (env : SpendEnv) (r : ReserveCall)
  | settle (s : SettleCall)
  | settleCall (env : SpendEnv) (s : SettleCall)
  | release (owner : OwnerId) (sourceRef : String)
  | revoke (owner : OwnerId) (a : GrantId)
  | current (env : SpendEnv) (owner : OwnerId) (goal : GoalId)
  deriving DecidableEq

/-- one call, committed by its caller -/
def SpendOp.step (db : SpendDb) : SpendOp → SpendDb
  | .authorize env a => transact db ((authorizeProviderSpend env db a).map Prod.snd)
  | .reserve env r => (reserveProviderSpendCall env db r).1
  | .settle s => transact db ((settleProviderSpendUsage db s).map Prod.snd)
  | .settleCall env s => transact db ((settleProviderSpendCall env db s).map Prod.snd)
  | .release owner ref => transact db ((releaseProviderSpendUsage db owner ref).map Prod.snd)
  | .revoke owner a => transact db (revokeProviderSpend db owner a)
  | .current env owner goal => (getCurrentProviderSpendAuthorization env db owner goal).1

/-- settled spend and holds together leave no request or no budget for another call -/
def Grant.heldToTheCeiling (g : Grant) (provider model : String) : Bool :=
  g.committed.requests ≥ g.maxRequests ∨
    ((boundReservation g provider model).isSome ∧ g.committed.costUsd ≥ g.maxCostUsd)

/-- the operation is a new reservation that gets as far as the ceilings of a live grant whose
settled spend and holds have reached them -/
def Overlaps (db : SpendDb) : SpendOp → Bool
  | .reserve env r =>
    (r.lookupMissed || (findRow (Usage.keyed r.ownerId r.sourceRef) db.events).isNone) &&
      match (getCurrentProviderSpendAuthorization env db r.ownerId r.goalId).2 with
      | none => false
      | some (_, g) =>
        g.providerAllowed r.provider r.model && g.heldToTheCeiling r.provider r.model
  | _ => false

/-! ## moves -/

/-- a hold fits the grant -/
structure Fits (g : Grant) (e : Usage) : Prop where
  live : g.status = .active
  owner : e.ownerId = g.ownerId
  reserved : e.status = .reserved
  nonneg : 0 ≤ e.hold
  unspent : e.promptTokens = 0 ∧ e.completionTokens = 0 ∧ e.costUsd = 0
  requests : (g.committed + e.hold).requests ≤ g.maxRequests
  cost : (g.committed + e.hold).costUsd ≤ g.maxCostUsd
  promptTokens : ∀ n ∈ g.maxPromptTokens, (g.committed + e.hold).promptTokens ≤ n
  completionTokens : ∀ n ∈ g.maxCompletionTokens, (g.committed + e.hold).completionTokens ≤ n

inductive SpendMove (overlap : Prop) : SpendDb → SpendDb → Prop where
  /-- an active grant reaches a terminal status; exhausted only at a settled ceiling -/
  | mark {db : SpendDb} {a : GrantId} {g : Grant} (st : GrantStatus)
      (row : db.grants[a]? = some g) (live : g.status = .active) (terminal : st ≠ .active)
      (why : st = .exhausted → g.settledCeiling) :
      SpendMove overlap db (db.setGrant a { g with status := st })
  /-- a live grant is marked exhausted because of its holds -/
  | exhaust {db : SpendDb} {a : GrantId} {g : Grant} (held : overlap)
      (row : db.grants[a]? = some g) (live : g.status = .active) :
      SpendMove overlap db (db.setGrant a { g with status := .exhausted })
  | grant {db : SpendDb} (a : SpendAuthority) (prior : Option GrantId) (ok : a.refusal = none)
      (free : ∀ g ∈ db.grants, g.activeFor a.ownerId a.goalId = false) :
      SpendMove overlap db { db with grants := db.grants ++ [a.row prior] }
  | reserve {db : SpendDb} {a : GrantId} {g : Grant} (e : Usage)
      (row : db.grants[a]? = some g) (link : e.authorizationId = a) (fits : Fits g e) :
      SpendMove overlap db
        { grants := db.grants.set a { g with reserved := g.reserved + e.hold }
          events := db.events ++ [e] }
  | settle {db : SpendDb} {i : UsageId} {e : Usage} {g : Grant} (s : SettleCall)
      (event : db.events[i]? = some e) (reserved : e.status = .reserved)
      (row : db.grants[e.authorizationId]? = some g)
      (nonneg : 0 ≤ (s.settled e).actual) (le : (s.settled e).actual ≤ e.hold) :
      SpendMove overlap db
        { grants := db.grants.set e.authorizationId
            { g with reserved := g.reserved - e.hold
                     spent := g.spent + (s.settled e).actual }
          events := db.events.set i (s.settled e) }
  | release {db : SpendDb} {i : UsageId} {e : Usage} {g : Grant}
      (event : db.events[i]? = some e) (reserved : e.status = .reserved)
      (row : db.grants[e.authorizationId]? = some g) :
      SpendMove overlap db
        { grants := db.grants.set e.authorizationId { g with reserved := g.reserved - e.hold }
          events := db.events.set i { e with status := .released } }

/-- any number of moves -/
abbrev SpendMoves (overlap : Prop) : SpendDb → SpendDb → Prop :=
  Relation.ReflTransGen (SpendMove overlap)

theorem SpendMoves.mono {p q : Prop} {db db' : SpendDb} (h : SpendMoves p db db')
    (hpq : p → q) : SpendMoves q db db' := by
  refine Relation.ReflTransGen.mono (fun x y hxy => ?_) _ _ h
  cases hxy with
  | mark st row live terminal why => exact .mark st row live terminal why
  | exhaust held row live => exact .exhaust (hpq held) row live
  | grant a prior ok free => exact .grant a prior ok free
  | reserve e row link fits => exact .reserve e row link fits
  | settle s event reserved row nonneg le => exact .settle s event reserved row nonneg le
  | release event reserved row => exact .release event reserved row

/-! ## the invariant the moves keep -/

/-- the usage events of a grant in one status -/
def Usage.under (a : GrantId) (st : UsageStatus) (e : Usage) : Bool :=
  e.authorizationId = a ∧ e.status = st

/-- the books of one grant -/
structure Books (db : SpendDb) (a : GrantId) (g : Grant) : Prop where
  reserved : g.reserved = Ledger.total (Usage.under a .reserved) Usage.hold db.events
  spent : g.spent = Ledger.total (Usage.under a .settled) Usage.actual db.events
  requests : g.committed.requests ≤ g.maxRequests
  cost : g.committed.costUsd ≤ g.maxCostUsd
  promptTokens : ∀ n ∈ g.maxPromptTokens, g.committed.promptTokens ≤ n
  completionTokens : ∀ n ∈ g.maxCompletionTokens, g.committed.completionTokens ≤ n
  perRequest : ∀ n ∈ g.maxCostPerRequestUsd, 0 ≤ n

structure SpendInv (db : SpendDb) : Prop where
  books : ∀ (a : GrantId) (g : Grant), db.grants[a]? = some g → Books db a g
  linked : ∀ e ∈ db.events, ∃ g, db.grants[e.authorizationId]? = some g ∧ g.ownerId = e.ownerId
  nonneg : ∀ e ∈ db.events, 0 ≤ e.hold ∧ 0 ≤ e.actual
  oneActive : ∀ (a b : GrantId) (g h : Grant), db.grants[a]? = some g → db.grants[b]? = some h →
    g.status = .active → h.status = .active → g.ownerId = h.ownerId → g.goalId = h.goalId → a = b

theorem SpendInv.init : SpendInv {} where
  books a g h := by simp at h
  linked e h := by simp at h
  nonneg e h := by simp at h
  oneActive a b g h hg := by simp at hg

theorem Books.reserved_nonneg {db : SpendDb} {a : GrantId} {g : Grant} (hb : Books db a g)
    (h : SpendInv db) : 0 ≤ g.reserved := by
  rw [hb.reserved]
  exact Ledger.total_nonneg _ _ fun e he => (h.nonneg e he).1

theorem Books.spent_nonneg {db : SpendDb} {a : GrantId} {g : Grant} (hb : Books db a g)
    (h : SpendInv db) : 0 ≤ g.spent := by
  rw [hb.spent]
  exact Ledger.total_nonneg _ _ fun e he => (h.nonneg e he).2

/-! ## every move keeps the books -/

section
variable {overlap : Prop} {db : SpendDb}

/-- the columns that the books read -/
theorem Books.congr {db' : SpendDb} {a : GrantId} {g g' : Grant} (h : Books db a g)
    (he : db'.events = db.events) (h1 : g'.reserved = g.reserved) (h2 : g'.spent = g.spent)
    (h3 : g'.maxRequests = g.maxRequests) (h4 : g'.maxCostUsd = g.maxCostUsd)
    (h5 : g'.maxPromptTokens = g.maxPromptTokens)
    (h6 : g'.maxCompletionTokens = g.maxCompletionTokens)
    (h7 : g'.maxCostPerRequestUsd = g.maxCostPerRequestUsd) : Books db' a g' := by
  have hc : g'.committed = g.committed := by rw [Grant.committed, Grant.committed, h1, h2]
  exact
    { reserved := by rw [he, h1]; exact h.reserved
      spent := by rw [he, h2]; exact h.spent
      requests := by rw [hc, h3]; exact h.requests
      cost := by rw [hc, h4]; exact h.cost
      promptTokens := by rw [hc, h5]; exact h.promptTokens
      completionTokens := by rw [hc, h6]; exact h.completionTokens
      perRequest := by rw [h7]; exact h.perRequest }

/-- taking an active grant out of `active` keeps the books -/
theorem SpendInv.mark (h : SpendInv db) {a : GrantId} {g : Grant} {st : GrantStatus}
    (row : db.grants[a]? = some g) (ht : st ≠ .active) :
    SpendInv (db.setGrant a { g with status := st }) where
  books b q hq := by
    simp only [SpendDb.setGrant, getElem?_set_row row] at hq
    split at hq
    · next hb =>
      subst hb
      cases hq
      exact (h.books a g row).congr rfl rfl rfl rfl rfl rfl rfl rfl
    · exact (h.books b q hq).congr rfl rfl rfl rfl rfl rfl rfl rfl
  linked e he := by
    obtain ⟨q, hq, ho⟩ := h.linked e he
    simp only [SpendDb.setGrant, getElem?_set_row row]
    by_cases hb : a = e.authorizationId
    · rw [← hb, row] at hq
      cases hq
      exact ⟨_, if_pos hb, ho⟩
    · exact ⟨q, by rw [if_neg hb, hq], ho⟩
  nonneg := h.nonneg
  oneActive b c q r hq hr hqa hra := by
    simp only [SpendDb.setGrant, getElem?_set_row row] at hq hr
    split at hq
    · cases hq
      exact absurd hqa ht
    · split at hr
      · cases hr
        exact absurd hra ht
      · exact h.oneActive b c q r hq hr hqa hra

/-- what a request's checks say about the limits of the new grant -/
theorem SpendAuthority.row_books {a : SpendAuthority} (ok : a.refusal = none)
    (prior : Option GrantId) {i : GrantId} (hnew : ∀ e ∈ db.events, e.authorizationId ≠ i) :
    Books db i (a.row prior) := by
  have hzero : ∀ st v, Ledger.total (Usage.under i st) v db.events = (0 : Amounts) := by
    intro st v
    exact Ledger.total_eq_zero _ _ fun e he => by simp [Usage.under, hnew e he]
  unfold refusal at ok
  split at ok
  · exact absurd ok (by simp)
  next h1 =>
  split at ok
  · exact absurd ok (by simp)
  next h2 =>
  split at ok
  · exact absurd ok (by simp)
  next h3 =>
  split at ok
  · exact absurd ok (by simp)
  next h4 =>
  simp only [not_or, not_lt] at h1
  exact
    { reserved := (hzero _ _).symm
      spent := (hzero _ _).symm
      requests := by simpa [row, Grant.committed] using h1.2
      cost := by simpa [row, Grant.committed] using Decimal.stored_nonneg h1.1
      promptTokens := by
        intro n hn
        have hn' : a.maxPromptTokens = some n := hn
        simpa [row, Grant.committed, hn'] using h2
      completionTokens := by
        intro n hn
        have hn' : a.maxCompletionTokens = some n := hn
        simpa [row, Grant.committed, hn'] using h3
      perRequest := by
        intro n hn
        obtain ⟨d, hd, rfl⟩ := Option.map_eq_some_iff.1 (show a.maxCostPerRequestUsd.map
          Decimal.stored = some n from hn)
        exact Decimal.stored_nonneg (by simpa [hd] using h4) }

theorem SpendInv.grant (h : SpendInv db) {a : SpendAuthority} (prior : Option GrantId)
    (ok : a.refusal = none) (free : ∀ g ∈ db.grants, g.activeFor a.ownerId a.goalId = false) :
    SpendInv { db with grants := db.grants ++ [a.row prior] } where
  books b q hq := by
    rcases getElem?_insert hq with hq | ⟨rfl, rfl⟩
    · exact (h.books b q hq).congr rfl rfl rfl rfl rfl rfl rfl rfl
    · refine SpendAuthority.row_books ok prior fun e he heq => ?_
      -- an event's grant exists, so it is not the new one
      obtain ⟨g, hg, -⟩ := h.linked e he
      rw [heq] at hg
      simp at hg
  linked e he := by
    obtain ⟨q, hq, ho⟩ := h.linked e he
    have hlt := (List.getElem?_eq_some_iff.1 hq).1
    exact ⟨q, by rw [List.getElem?_append_left hlt, hq], ho⟩
  nonneg := h.nonneg
  oneActive b c q r hq hr hqa hra ho hg := by
    have hclash : ∀ {x : Grant}, x ∈ db.grants → x.status = .active → x.ownerId = a.ownerId →
        x.goalId = a.goalId → False := by
      intro x hx h1 h2 h3
      have := free x hx
      simp [Grant.activeFor, h1, h2, h3] at this
    rcases getElem?_insert hq with hq | ⟨rfl, rfl⟩ <;> rcases getElem?_insert hr with hr | ⟨rfl, rfl⟩
    · exact h.oneActive b c q r hq hr hqa hra ho hg
    · exact (hclash (List.mem_of_getElem? hq) hqa ho hg).elim
    · exact (hclash (List.mem_of_getElem? hr) hra ho.symm hg.symm).elim
    · rfl

/-- an UPDATE of a grant that keeps its owner keeps the events linked -/
theorem linked_set {a : GrantId} {g g' : Grant}
    (row : db.grants[a]? = some g) (ho : g'.ownerId = g.ownerId) {e : Usage} {b : GrantId}
    {o : OwnerId} (hb : e.authorizationId = b) (heo : e.ownerId = o)
    (he : ∃ q, db.grants[b]? = some q ∧ q.ownerId = o) :
    ∃ q, (db.grants.set a g')[e.authorizationId]? = some q ∧ q.ownerId = e.ownerId := by
  obtain ⟨q, hq, hqo⟩ := he
  rw [getElem?_set_row row, hb, heo]
  by_cases hab : a = b
  · rw [← hab, row] at hq
    cases hq
    exact ⟨g', by rw [if_pos hab], by rw [ho, hqo]⟩
  · exact ⟨q, by rw [if_neg hab, hq], hqo⟩

/-- an UPDATE of a grant's counters keeps one active grant per owner and goal -/
theorem SpendInv.oneActive_set (h : SpendInv db) {a : GrantId} {g g' : Grant}
    (row : db.grants[a]? = some g) (h1 : g'.status = g.status) (h2 : g'.ownerId = g.ownerId)
    (h3 : g'.goalId = g.goalId) (b c : GrantId) (q r : Grant)
    (hq : (db.grants.set a g')[b]? = some q) (hr : (db.grants.set a g')[c]? = some r)
    (hqa : q.status = .active) (hra : r.status = .active) (ho : q.ownerId = r.ownerId)
    (hg : q.goalId = r.goalId) : b = c := by
  -- the rows before the UPDATE agree on the three columns
  have back : ∀ {d : GrantId} {x : Grant}, (db.grants.set a g')[d]? = some x →
      ∃ y, db.grants[d]? = some y ∧ x.status = y.status ∧ x.ownerId = y.ownerId ∧
        x.goalId = y.goalId := by
    intro d x hx
    rw [getElem?_set_row row] at hx
    split at hx
    · next hd =>
      cases hx
      exact ⟨g, hd ▸ row, h1, h2, h3⟩
    · exact ⟨x, hx, rfl, rfl, rfl⟩
  obtain ⟨q', hq', k1, k2, k3⟩ := back hq
  obtain ⟨r', hr', l1, l2, l3⟩ := back hr
  exact h.oneActive b c q' r' hq' hr' (k1 ▸ hqa) (l1 ▸ hra) (by rw [← k2, ← l2, ho])
    (by rw [← k3, ← l3, hg])

theorem SpendInv.reserve (h : SpendInv db) {a : GrantId} {g : Grant} (e : Usage)
    (row : db.grants[a]? = some g) (link : e.authorizationId = a) (fits : Fits g e) :
    SpendInv { grants := db.grants.set a { g with reserved := g.reserved + e.hold }
               events := db.events ++ [e] } where
  books b q hq := by
    have hres : ∀ c, Usage.under c .reserved e = decide (a = c) := by
      intro c
      simp [Usage.under, link, fits.reserved]
    have hset : ∀ c, Usage.under c .settled e = false := by
      intro c
      simp [Usage.under, fits.reserved]
    simp only [getElem?_set_row row] at hq
    split at hq
    · next hb =>
      subst hb
      cases hq
      have hb := h.books a g row
      have hc : g.spent + (g.reserved + e.hold) = g.committed + e.hold := (add_assoc _ _ _).symm
      exact
        { reserved := by
            rw [Ledger.total_snoc, hres, ← hb.reserved]
            simp
          spent := by
            rw [Ledger.total_snoc, hset, ← hb.spent]
            simp
          requests := by
            rw [Grant.committed, hc]
            exact fits.requests
          cost := by
            rw [Grant.committed, hc]
            exact fits.cost
          promptTokens := by
            rw [Grant.committed, hc]
            exact fits.promptTokens
          completionTokens := by
            rw [Grant.committed, hc]
            exact fits.completionTokens
          perRequest := hb.perRequest }
    · next hb =>
      have hq' := h.books b q hq
      exact
        { hq' with
          reserved := by
            rw [Ledger.total_snoc, hres, ← hq'.reserved]
            simp [hb]
          spent := by
            rw [Ledger.total_snoc, hset, ← hq'.spent]
            simp }
  linked x hx := by
    rcases List.mem_append.1 hx with hx | hx
    · exact linked_set row (by rfl) rfl rfl (h.linked x hx)
    · obtain rfl := List.mem_singleton.1 hx
      exact linked_set row (by rfl) link rfl ⟨g, row, fits.owner.symm⟩
  nonneg x hx := by
    rcases List.mem_append.1 hx with hx | hx
    · exact h.nonneg x hx
    · obtain rfl := List.mem_singleton.1 hx
      obtain ⟨h1, h2, h3⟩ := fits.unspent
      exact ⟨fits.nonneg, by simp [Usage.actual, Amounts.le_iff, h1, h2, h3]⟩
  oneActive := h.oneActive_set row rfl rfl rfl

/-- a hold that ends: what the event was and what becomes of it -/
theorem SpendInv.close (h : SpendInv db) {i : UsageId} {e : Usage} {g : Grant} (e' : Usage)
    (m : Amounts) (event : db.events[i]? = some e) (reserved : e.status = .reserved)
    (row : db.grants[e.authorizationId]? = some g) (link : e'.authorizationId = e.authorizationId)
    (owner : e'.ownerId = e.ownerId) (done : e'.status ≠ .reserved) (hold : e'.hold = e.hold)
    (nonneg : 0 ≤ e'.actual)
    (spent : m = if e'.status = .settled then e'.actual else 0) (le : m ≤ e.hold) :
    SpendInv { grants := db.grants.set e.authorizationId
                 { g with reserved := g.reserved - e.hold, spent := g.spent + m }
               events := db.events.set i e' } where
  books b q hq := by
    have hres : Usage.under b .reserved e' = false := by simp [Usage.under, done]
    have hset : Usage.under b .settled e = false := by simp [Usage.under, reserved]
    simp only [getElem?_set_row row] at hq
    split at hq
    · next hb =>
      subst hb
      cases hq
      have hb := h.books _ g row
      have hc : g.spent + m + (g.reserved - e.hold) = g.committed - (e.hold - m) := by
        simp only [Grant.committed]
        abel
      -- what was held is at least what is spent, so nothing committed grows
      obtain ⟨k1, k2, k3, k4⟩ := Amounts.le_iff.1 le
      have hu : Usage.under e.authorizationId .reserved e = true := by simp [Usage.under, reserved]
      have hu' : Usage.under e.authorizationId .settled e' = decide (e'.status = .settled) := by
        simp [Usage.under, link]
      exact
        { reserved := by
            rw [Ledger.total_set _ _ event, hres, hu, ← hb.reserved]
            simp
          spent := by
            rw [Ledger.total_set _ _ event, hset, hu', ← hb.spent, spent]
            simp
          requests := by
            have := hb.requests
            simp only [Grant.committed, hc, Amounts.requests_sub] at this ⊢
            omega
          cost := by
            have := hb.cost
            simp only [Grant.committed, hc, Amounts.costUsd_sub] at this ⊢
            omega
          promptTokens := by
            intro n hn
            have := hb.promptTokens n hn
            simp only [Grant.committed, hc, Amounts.promptTokens_sub] at this ⊢
            omega
          completionTokens := by
            intro n hn
            have := hb.completionTokens n hn
            simp only [Grant.committed, hc, Amounts.completionTokens_sub] at this ⊢
            omega
          perRequest := hb.perRequest }
    · next hb =>
      have hq' := h.books b q hq
      have hu : Usage.under b .reserved e = false := by simp [Usage.under, hb]
      have hu' : Usage.under b .settled e' = false := by simp [Usage.under, link, hb]
      exact
        { hq' with
          reserved := by
            rw [Ledger.total_set _ _ event, hres, hu, ← hq'.reserved]
            simp
          spent := by
            rw [Ledger.total_set _ _ event, hset, hu', ← hq'.spent]
            simp }
  linked x hx := by
    rcases List.mem_or_eq_of_mem_set hx with hx | rfl
    · exact linked_set row (by rfl) rfl rfl (h.linked x hx)
    · exact linked_set row (by rfl) link owner (h.linked e (List.mem_of_getElem? event))
  nonneg x hx := by
    rcases List.mem_or_eq_of_mem_set hx with hx | rfl
    · exact h.nonneg x hx
    · rw [hold]
      exact ⟨(h.nonneg e (List.mem_of_getElem? event)).1, nonneg⟩
  oneActive := h.oneActive_set row rfl rfl rfl

theorem SpendMove.inv {db' : SpendDb} (h : SpendInv db) (hm : SpendMove overlap db db') :
    SpendInv db' := by
  cases hm with
  | mark st row live terminal why => exact h.mark row terminal
  | exhaust held row live => exact h.mark row (by simp)
  | grant a prior ok free => exact h.grant prior ok free
  | reserve e row link fits => exact h.reserve e row link fits
  | settle s event reserved row nonneg le =>
    exact h.close _ _ event reserved row rfl rfl (by simp [SettleCall.settled]) rfl nonneg
      (by simp [SettleCall.settled]) le
  | @release i e g event reserved row =>
    have hn := h.nonneg e (List.mem_of_getElem? event)
    simpa using h.close { e with status := .released } 0 event reserved row rfl rfl (by simp) rfl
      hn.2 (by simp) hn.1

theorem SpendMoves.inv {db' : SpendDb} (h : SpendInv db) (hm : SpendMoves overlap db db') :
    SpendInv db' := by
  induction hm with
  | refl => exact h
  | tail _ hm ih => exact hm.inv ih

end

end LifeAI
