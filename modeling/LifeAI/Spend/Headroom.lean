import LifeAI.Spend.Keys
import LifeAI.Spend.Exhaust

/-!
# The headroom of a reservation

* `Grant.Admits`              what a new reservation should find and hold;
* `Grant.tokensLeft`      the condition: the holds and the spend do not meet a token ceiling exactly;
* `reservation_headroom`  every reservation on every grant that satisfies its CHECK.
-/

namespace LifeAI

variable {env : SpendEnv} {db db' : SpendDb} {r : ReserveCall} {a : GrantId} {g : Grant}
  {e : Usage} {i : UsageId} {now : Time}

/-- the grant before the call had headroom under every ceiling, and the hold can be settled -/
structure Grant.Admits (g : Grant) (e : Usage) (db' : SpendDb) : Prop where
  requests : g.committed.requests < g.maxRequests
  cost : g.committed.costUsd < g.maxCostUsd
  promptTokens : ∀ n ∈ g.maxPromptTokens, g.committed.promptTokens < n
  completionTokens : ∀ n ∈ g.maxCompletionTokens, g.committed.completionTokens < n
  /-- one prompt token and one completion token are within the hold -/
  held : 1 ≤ e.reservedPromptTokens ∧ 1 ≤ e.reservedCompletionTokens
  /-- what is within the hold is settled -/
  settles : ∀ s : SettleCall, s.ownerId = e.ownerId → s.sourceRef = e.sourceRef → s.within e →
    ∃ x, settleProviderSpendUsage db' s = .ok x

/-- the new usage event `i` was admitted under the live grant -/
def Headroom (env : SpendEnv) (db : SpendDb) (r : ReserveCall) (db' : SpendDb) (i : UsageId) :
    Prop :=
  ∃ a g e, LiveGrant env db r.ownerId r.goalId a g ∧ db'.events[i]? = some e ∧
    e.authorizationId = a ∧ Grant.Admits g e db'

/-- no token ceiling is met exactly by what is spent and held -/
def Grant.tokensLeft (g : Grant) : Bool :=
  (∀ n ∈ g.maxPromptTokens, g.committed.promptTokens ≠ n) ∧
    ∀ n ∈ g.maxCompletionTokens, g.committed.completionTokens ≠ n

/-- the grant that the call would use has tokens left -/
def TokensLeft (db : SpendDb) (r : ReserveCall) : Bool :=
  (findRow (Grant.activeFor r.ownerId r.goalId) db.grants).all fun (_, g) => g.tokensLeft

/-! ## what a reservation goes through -/

theorem reserve_created (h : reserveProviderSpendCall env db r = (db', .ok (i, true))) :
    ∃ a g, findRow (Grant.activeFor r.ownerId r.goalId) db.grants = some (a, g) ∧
      LiveGrant env db r.ownerId r.goalId a g ∧
        reserveOnGrant env.now db r a g = (db', .ok (i, true)) := by
  unfold reserveProviderSpendCall at h
  dsimp only at h
  split at h
  · split at h <;> simp at h
  · rcases getCurrent_cases False env db r.ownerId r.goalId with ⟨a, g, hc, hl⟩ | ⟨hc, -⟩
    · rw [hc] at h
      refine ⟨a, g, ?_, hl, h⟩
      unfold getCurrentProviderSpendAuthorization at hc
      split at hc
      · exact absurd (congrArg Prod.snd hc) (by simp)
      · next b q hf =>
        dsimp only at hc
        split at hc
        · exact absurd (congrArg Prod.snd hc) (by simp)
        · split at hc
          · exact absurd (congrArg Prod.snd hc) (by simp)
          · rw [hf]
            exact congrArg Prod.snd hc
    · cases hg : getCurrentProviderSpendAuthorization env db r.ownerId r.goalId with
      | mk db1 o =>
        rw [hg] at hc h
        obtain rfl : o = none := hc
        simp at h

/-- the tests that a new reservation has passed, and what it leaves -/
structure Placed (now : Time) (db : SpendDb) (r : ReserveCall) (a : GrantId) (g : Grant)
    (db' : SpendDb) (i : UsageId) (p c n : Int) : Prop where
  bound : boundReservation g r.provider r.model = some (p, c, n)
  requests : g.committed.requests + 1 ≤ g.maxRequests
  cost : ¬ (n ≤ 0 ∧ g.maxCostUsd > 0 ∧ g.committed.costUsd ≥ g.maxCostUsd)
  costFits : g.committed.costUsd + n ≤ g.maxCostUsd
  promptTokens : ∀ m ∈ g.maxPromptTokens, g.committed.promptTokens + p ≤ m
  completionTokens : ∀ m ∈ g.maxCompletionTokens, g.committed.completionTokens + c ≤ m
  free : findRow (Usage.keyed r.ownerId r.sourceRef) db.events = none
  index : i = db.events.length
  leaves : db' = { grants := db.grants.set a
                     ({ g with reserved := g.reserved + (r.event a p c n).hold }.markTerminalIfNeeded now)
                   events := db.events ++ [r.event a p c n] }

theorem fits_of_not_any {o : Option Int} {x : Int} (h : ¬ o.any (x > ·) = true) : ∀ m ∈ o, x ≤ m := by
  intro m hm
  rw [Option.mem_def.1 hm, Option.any_some, decide_eq_true_eq] at h
  omega

theorem reserveOnGrant_placed (h : reserveOnGrant now db r a g = (db', .ok (i, true))) :
    ∃ p c n, Placed now db r a g db' i p c n := by
  unfold reserveOnGrant at h
  dsimp only at h
  split at h
  · simp at h
  split at h
  · simp at h
  next hreq =>
  split at h
  · simp at h
  next p c n hb =>
  split at h
  · simp at h
  next hcost =>
  split at h
  · simp at h
  next hfits =>
  split at h
  · simp at h
  next hp =>
  split at h
  · simp at h
  next hc =>
  unfold insertReservation at h
  split at h
  · simp at h
  next hfree =>
  simp only [Prod.mk.injEq, Except.ok.injEq, and_true] at h
  exact ⟨p, c, n, hb, by omega, hcost, by omega, fits_of_not_any hp, fits_of_not_any hc, hfree,
    h.2.symm, h.1.symm⟩

/-! ## the arithmetic of a hold -/

/-- a hold is empty only when nothing is left of the ceiling -/
theorem tokenHold_pos {o : Option Int} {d u : Int} (hd : 0 < d) (ho : ∀ m ∈ o, 0 < m)
    (hu : ∀ m ∈ o, u < m) : 0 < tokenHold o d u := by
  cases o with
  | none => exact hd
  | some m =>
    have hm := ho m rfl
    have hum := hu m rfl
    show 0 < min m (max 0 (m - u))
    omega

/-- the counters of a live grant have room for settled spend -/
theorem Grant.below_ceilings (hc : g.checks) (hb : g.settledCeiling = false) :
    0 < g.maxCostUsd ∧ (∀ n ∈ g.maxPromptTokens, 0 < n) ∧ ∀ n ∈ g.maxCompletionTokens, 0 < n := by
  have hbelow : ¬ g.settledCeiling := by simp [hb]
  rw [settledCeiling_iff] at hbelow
  simp only [not_or, not_le, not_exists, not_and] at hbelow
  obtain ⟨-, hcost, hp, hcm⟩ := hbelow
  simp only [checks, decide_eq_true_eq] at hc
  obtain ⟨-, -, hspent, -⟩ := hc
  obtain ⟨-, k2, k3, k4⟩ := Amounts.le_iff.1 hspent
  simp only [Amounts.promptTokens_zero, Amounts.completionTokens_zero, Amounts.costUsd_zero]
    at k2 k3 k4
  refine ⟨by omega, fun n hn => ?_, fun n hn => ?_⟩
  · have := hp n hn
    omega
  · have := hcm n hn
    omega

/-! ## what a reservation leaves can be settled -/

/-- settling a use within the hold gives the hold back and keeps the CHECK -/
theorem Grant.checks_settled {m : Amounts} {st : GrantStatus} (hc : g.checks) (hm : 0 ≤ m)
    (x : Amounts) : ({ g with status := st, reserved := g.reserved + x - x, spent := g.spent + m } :
      Grant).checks := by
  simp only [checks, decide_eq_true_eq] at hc ⊢
  obtain ⟨h1, h2, h3, h4, h5⟩ := hc
  exact ⟨h1, h2, add_nonneg h3 hm, by rw [add_sub_cancel_right]; exact h4, h5⟩

theorem Placed.settles {p c n : Int} (h : Placed now db r a g db' i p c n) (hc : g.checks)
    (row : db.grants[a]? = some g) (howner : g.ownerId = r.ownerId) {s : SettleCall}
    (hso : s.ownerId = r.ownerId) (hsr : s.sourceRef = r.sourceRef)
    (hw : s.within (r.event a p c n)) : ∃ x, settleProviderSpendUsage db' s = .ok x := by
  rw [h.leaves]
  have hfind : findRow (Usage.keyed s.ownerId s.sourceRef) (db.events ++ [r.event a p c n]) =
      some (db.events.length, r.event a p c n) := by
    rw [hso, hsr]
    exact findRow_snoc h.free (decide_eq_true ⟨rfl, rfl⟩)
  have hin := hw
  simp only [SettleCall.within, decide_eq_true_eq] at hin
  have hactual : 0 ≤ (s.settled (r.event a p c n)).actual := by
    simp [Amounts.le_iff, Usage.actual, SettleCall.settled, hin.1, hin.2.2.1,
      Decimal.stored_nonneg hin.2.2.2.2.1]
  -- marking changes the status at most
  obtain ⟨st, hmark⟩ : ∃ st, { g with reserved := g.reserved + (r.event a p c n).hold
      }.markTerminalIfNeeded now = { g with
        status := st, reserved := g.reserved + (r.event a p c n).hold } := by
    rcases Grant.mark_cases { g with reserved := g.reserved + (r.event a p c n).hold } now with
      hm | ⟨-, st, -, hm, -⟩
    · exact ⟨g.status, hm⟩
    · exact ⟨st, hm⟩
  rw [hmark]
  exact ⟨_, settleUsage_within hfind rfl ((getElem?_set_row row).trans (if_pos rfl))
    (howner.trans hso.symm) hw (Grant.checks_settled hc hactual _)⟩

/-! ## every reservation -/

theorem Placed.admits {p c n : Int} (h : Placed now db r a g db' i p c n) (hc : g.checks)
    (row : db.grants[a]? = some g) (howner : g.ownerId = r.ownerId)
    (hbelow : g.settledCeiling = false) (hleft : g.tokensLeft) :
    g.Admits (r.event a p c n) db' := by
  obtain ⟨hmax, hp0, hc0⟩ := Grant.below_ceilings hc hbelow
  obtain ⟨hp, hcm, x, hn, -⟩ := boundReservation_parts h.bound
  obtain ⟨hleftp, hleftc⟩ := of_decide_eq_true hleft
  have hpn : 0 ≤ p := hp ▸ tokenHold_nonneg (by decide) fun m hm => (hp0 m hm).le
  have hcn : 0 ≤ c := hcm ▸ tokenHold_nonneg (by decide) fun m hm => (hc0 m hm).le
  have hprompt : ∀ m ∈ g.maxPromptTokens, g.committed.promptTokens < m := by
    intro m hm
    have hfits := h.promptTokens m hm
    have hne := hleftp m hm
    omega
  have hcompletion : ∀ m ∈ g.maxCompletionTokens, g.committed.completionTokens < m := by
    intro m hm
    have hfits := h.completionTokens m hm
    have hne := hleftc m hm
    omega
  have hreq := h.requests
  have hcost := h.cost
  refine ⟨by omega, by omega, hprompt, hcompletion, ⟨?_, ?_⟩,
    fun s hso hsr hw => h.settles hc row howner hso hsr hw⟩
  · show 0 < p
    rw [hp]
    exact tokenHold_pos (by decide) hp0 hprompt
  · show 0 < c
    rw [hcm]
    exact tokenHold_pos (by decide) hc0 hcompletion

theorem Headroom.tokensLeft (hr : reserveProviderSpendCall env db r = (db', .ok (i, true)))
    (h : Headroom env db r db' i) : TokensLeft db r := by
  obtain ⟨a, g, hfind, hlive, hreserve⟩ := reserve_created hr
  obtain ⟨p, c, n, hplaced⟩ := reserveOnGrant_placed hreserve
  obtain ⟨b, q, e, hq, he, hb, hadmits⟩ := h
  have hevent : db'.events[i]? = some (r.event a p c n) := by
    rw [hplaced.leaves, hplaced.index]
    exact List.getElem?_concat_length
  obtain rfl := Option.some.inj (hevent.symm.trans he)
  obtain rfl : a = b := hb
  obtain rfl := Option.some.inj (hlive.row.symm.trans hq.row)
  unfold TokensLeft
  rw [hfind, Option.all_some]
  refine decide_eq_true ⟨fun m hm => ?_, fun m hm => ?_⟩
  · exact (hadmits.promptTokens m hm).ne
  · exact (hadmits.completionTokens m hm).ne

/-- **A reservation had headroom in every bounded dimension, and holds a token of each kind,
exactly when spend and holds do not meet a token ceiling of the grant.** -/
theorem reservation_headroom (env : SpendEnv) (db : SpendDb) (r : ReserveCall) (db' : SpendDb)
    (i : UsageId) (hchecks : ∀ g ∈ db.grants, g.checks)
    (h : reserveProviderSpendCall env db r = (db', .ok (i, true))) :
    Headroom env db r db' i ↔ TokensLeft db r := by
  constructor
  · exact Headroom.tokensLeft h
  · intro hleft
    obtain ⟨a, g, hfind, hlive, hreserve⟩ := reserve_created h
    obtain ⟨p, c, n, hplaced⟩ := reserveOnGrant_placed hreserve
    have hg : g.tokensLeft := by
      unfold TokensLeft at hleft
      rw [hfind, Option.all_some] at hleft
      exact hleft
    refine ⟨a, g, r.event a p c n, hlive, ?_, rfl, hplaced.admits
      (hchecks g (List.mem_of_getElem? hlive.row)) hlive.row hlive.owner hlive.below hg⟩
    rw [hplaced.leaves, hplaced.index]
    exact List.getElem?_concat_length

/-- a grant of two requests and 1000 prompt tokens -/
def twoRequests : SpendAuthority :=
  { oneRequest with maxRequests := 2, maxPromptTokens := some 1000 }

/-- the first call -/
theorem reservation_headroom_first :
    Headroom (atTime 1) (spendRun [.authorize (atTime 0) twoRequests]) (callOf "a")
      (SpendOp.step (spendRun [.authorize (atTime 0) twoRequests])
        (.reserve (atTime 1) (callOf "a"))) 0 :=
  (reservation_headroom _ _ _ _ _ (by decide) rfl).2 (by decide)

/-- the first call holds all of the prompt tokens -/
def heldPrompt : List SpendOp :=
  [.authorize (atTime 0) twoRequests, .reserve (atTime 1) (callOf "a")]

/-- The second call is admitted with no prompt tokens left. -/
theorem heldPrompt_no_headroom :
    ¬ ∀ (env : SpendEnv) (db : SpendDb) (r : ReserveCall) (db' : SpendDb) (i : UsageId),
      (∀ g ∈ db.grants, g.checks) →
        reserveProviderSpendCall env db r = (db', .ok (i, true)) → Headroom env db r db' i := by
  intro h
  have hcreated : reserveProviderSpendCall (atTime 2) (spendRun heldPrompt) (callOf "b") =
      (SpendOp.step (spendRun heldPrompt) (.reserve (atTime 2) (callOf "b")), .ok (1, true)) := rfl
  have hno : TokensLeft (spendRun heldPrompt) (callOf "b") = false := by decide
  have hyes := (h _ _ _ _ _ (by decide) hcreated).tokensLeft hcreated
  rw [hno] at hyes
  cases hyes

end LifeAI
