import LifeAI.Spend.Ledger

/-!
# Usage events by their key

What reserving, settling and releasing do to the event under one `(owner_id, source_ref)`.

* `Accounted`      an event stands under the key, reserved or settled;
* `reserve_cases`  a reservation finds the event, adds it, or leaves the events alone;
* `settle_ok_iff`  a hold is settled exactly by amounts within it;
* `release_ok`     a hold can always be released.
-/

namespace LifeAI

/-- an event stands under the key, reserved or settled -/
def Accounted (events : List Usage) (owner : OwnerId) (ref : String) : Prop :=
  ∃ e ∈ events, Usage.keyed owner ref e ∧ e.status ≠ .released

variable {db db' : SpendDb} {owner o : OwnerId} {ref r : String} {i : UsageId} {e : Usage}

/-- no event stands under the key -/
theorem not_accounted (h : findRow (Usage.keyed owner ref) db.events = none) :
    ¬ Accounted db.events owner ref := by
  rintro ⟨e, he, hk, -⟩
  rw [findRow_eq_none.1 h e he] at hk
  exact absurd hk (by simp)

/-- overwriting an event, unless it releases the key's own -/
theorem Accounted.set {events : List Usage} {e' : Usage} (h : Accounted events owner ref)
    (event : events[i]? = some e) (key : Usage.keyed owner ref e' = Usage.keyed owner ref e)
    (status : Usage.keyed owner ref e → e'.status ≠ .released) :
    Accounted (events.set i e') owner ref := by
  obtain ⟨x, hx, hk, hs⟩ := h
  obtain ⟨j, hj⟩ := List.getElem?_of_mem hx
  by_cases hij : i = j
  · subst hij
    rw [event] at hj
    cases hj
    have hlt : i < events.length := (List.getElem?_eq_some_iff.1 event).1
    exact ⟨e', List.mem_set hlt e', key ▸ hk, status hk⟩
  · refine ⟨x, List.mem_of_getElem? (i := j) ?_, hk, hs⟩
    rw [List.getElem?_set_ne hij, hj]

/-! ## reserving -/

theorem getCurrent_events (env : SpendEnv) (db : SpendDb) (owner : OwnerId) (goal : GoalId) :
    (getCurrentProviderSpendAuthorization env db owner goal).1.events = db.events := by
  unfold getCurrentProviderSpendAuthorization
  split
  · rfl
  dsimp only
  split
  · rfl
  split <;> rfl

/-- what the reservation under a locked grant does to the events -/
inductive Reserved (db : SpendDb) (c : ReserveCall) :
    SpendDb × Except Err (UsageId × Bool) → Prop where
  | refused {db' : SpendDb} (err : Err) (same : db'.events = db.events) :
      Reserved db c (db', .error err)
  | found {i : UsageId} {e : Usage}
      (row : findRow (Usage.keyed c.ownerId c.sourceRef) db.events = some (i, e))
      (live : e.status ≠ .released) : Reserved db c (db, .ok (i, false))
  | placed {db' : SpendDb} (e : Usage)
      (free : findRow (Usage.keyed c.ownerId c.sourceRef) db.events = none)
      (key : Usage.keyed c.ownerId c.sourceRef e) (status : e.status = .reserved)
      (added : db'.events = db.events ++ [e]) :
      Reserved db c (db', .ok (db.events.length, true))

theorem reserveOnGrant_reserved (now : Time) {c : ReserveCall} (a : GrantId) (g : Grant)
    (same : db'.events = db.events)
    (free : findRow (Usage.keyed c.ownerId c.sourceRef) db.events = none) :
    Reserved db c (reserveOnGrant now db' c a g) := by
  unfold reserveOnGrant
  dsimp only
  split
  · exact .refused _ same
  split
  · exact .refused _ same
  split
  · exact .refused _ same
  next prompt completion cost _ =>
  split
  · exact .refused _ same
  split
  · exact .refused _ same
  split
  · exact .refused _ same
  split
  · exact .refused _ same
  · unfold insertReservation
    rw [same, free]
    exact .placed (c.event a prompt completion cost) free (by simp [Usage.keyed, ReserveCall.event])
      rfl rfl

/-- a reservation finds the event, adds it, or leaves the events alone -/
theorem reserve_cases (env : SpendEnv) {c : ReserveCall} (seen : c.lookupMissed = false) :
    Reserved db c (reserveProviderSpendCall env db c) := by
  unfold reserveProviderSpendCall
  rw [seen]
  simp only [Bool.false_eq_true, if_false]
  cases hf : findRow (Usage.keyed c.ownerId c.sourceRef) db.events with
  | some x =>
    dsimp only
    split
    · exact .refused _ rfl
    · next hlive => exact .found hf hlive
  | none =>
    have hsame := getCurrent_events env db c.ownerId c.goalId
    dsimp only
    split
    · next hg =>
      rw [hg] at hsame
      exact .refused _ hsame
    · next hg =>
      rw [hg] at hsame
      exact reserveOnGrant_reserved env.now _ _ hsame hf

/-! ## settling and releasing -/

/-- the amounts are nonnegative and within the hold -/
def SettleCall.within (s : SettleCall) (e : Usage) : Bool :=
  0 ≤ s.promptTokens ∧ s.promptTokens ≤ e.reservedPromptTokens ∧ 0 ≤ s.completionTokens ∧
    s.completionTokens ≤ e.reservedCompletionTokens ∧ 0 ≤ s.costUsd.digits ∧
    s.costUsd.leMicros e.reservedCostUsd

/-- the books of a grant satisfy the CHECK constraint -/
theorem Books.checks {a : GrantId} {g : Grant} (hb : Books db a g) (h : SpendInv db) :
    g.checks := by
  have hr := Amounts.le_iff.1 (hb.reserved_nonneg h)
  have hs := Amounts.le_iff.1 (hb.spent_nonneg h)
  have h1 := hb.requests
  have h2 := hb.cost
  have h3 := hb.promptTokens
  have h4 := hb.completionTokens
  simp only [Grant.committed, Amounts.requests_add, Amounts.costUsd_add, Amounts.promptTokens_add,
    Amounts.completionTokens_add, Amounts.requests_zero, Amounts.promptTokens_zero,
    Amounts.completionTokens_zero, Amounts.costUsd_zero] at hr hs h1 h2 h3 h4
  unfold Grant.checks
  simp only [decide_eq_true_eq]
  refine ⟨by omega, by omega, hb.spent_nonneg h, hb.reserved_nonneg h, fun n hn => ?_,
    fun n hn => ?_, hb.perRequest⟩
  · have := h3 n hn
    omega
  · have := h4 n hn
    omega

variable {env : SpendEnv} {s : SettleCall}

theorem settleUsage_events (h : settleProviderSpendUsage db s = .ok (i, db')) :
    db'.events = db.events ∨
      ∃ e, db.events[i]? = some e ∧ db'.events = db.events.set i (s.settled e) := by
  unfold settleProviderSpendUsage at h
  rw [guard_eq_ok] at h
  obtain ⟨-, h⟩ := h
  split at h
  · exact absurd h (by simp)
  next hf =>
  split at h
  · cases h
    exact .inl rfl
  split at h
  · exact absurd h (by simp)
  split at h
  · exact absurd h (by simp)
  rw [guard_eq_ok, guard_eq_ok] at h
  obtain ⟨-, -, h⟩ := h
  dsimp only at h
  split at h
  · exact absurd h (by simp)
  · cases h
    exact .inr ⟨_, (findRow_eq_some hf).1, rfl⟩

theorem settleCall_usage (h : settleProviderSpendCall env db s = .ok (i, db')) :
    ∃ db1, settleProviderSpendUsage db s = .ok (i, db1) ∧ db'.events = db1.events := by
  unfold settleProviderSpendCall at h
  obtain ⟨⟨j, db1⟩, h1, h2⟩ := bind_eq_ok.1 h
  dsimp only at h2
  split at h2
  · exact absurd h2 (by simp)
  split at h2
  · cases h2
    exact ⟨_, h1, rfl⟩
  · cases h2
    exact ⟨_, h1, rfl⟩

/-- settling keeps every key accounted -/
theorem Accounted.settle (ha : Accounted db.events owner ref)
    (h : settleProviderSpendCall env db s = .ok (i, db')) : Accounted db'.events owner ref := by
  obtain ⟨db1, h1, hev⟩ := settleCall_usage h
  rw [hev]
  rcases settleUsage_events h1 with hsame | ⟨e, he, hset⟩
  · rw [hsame]
    exact ha
  · rw [hset]
    exact ha.set he rfl fun _ => by simp [SettleCall.settled]

/-- amounts within the hold are settled when the grant then satisfies its CHECK -/
theorem settleUsage_within {g : Grant}
    (row : findRow (Usage.keyed s.ownerId s.sourceRef) db.events = some (i, e))
    (status : e.status = .reserved) (hg : db.grants[e.authorizationId]? = some g)
    (howner : g.ownerId = s.ownerId) (hw : s.within e)
    (hchecks : ({ g with reserved := g.reserved - e.hold, spent := g.spent + (s.settled e).actual }
      : Grant).checks) :
    settleProviderSpendUsage db s = .ok (i,
      { grants := db.grants.set e.authorizationId
          { g with reserved := g.reserved - e.hold, spent := g.spent + (s.settled e).actual }
        events := db.events.set i (s.settled e) }) := by
  simp only [SettleCall.within, decide_eq_true_eq] at hw
  obtain ⟨n1, l1, n2, l2, n3, l3⟩ := hw
  unfold settleProviderSpendUsage
  rw [if_neg (by simp [n1, n2, n3]), row]
  simp only [status, hg, reduceCtorEq, if_false, ne_eq, not_true_eq_false, hchecks]
  rw [if_neg (by simp [howner]), if_neg (by simp [l1, l2, l3])]

/-- amounts within the hold are settled: the grant satisfies its CHECK, since its books are kept -/
theorem settleUsage_ok (h : SpendInv db)
    (row : findRow (Usage.keyed s.ownerId s.sourceRef) db.events = some (i, e))
    (status : e.status = .reserved) (hw : s.within e) :
    ∃ db1 g, settleProviderSpendUsage db s = .ok (i, db1) ∧
      db1.events[i]? = some (s.settled e) ∧ db1.grants[e.authorizationId]? = some g := by
  obtain ⟨event, key⟩ := findRow_eq_some row
  obtain ⟨g, hg, howner⟩ := h.linked e (List.mem_of_getElem? event)
  have hkey : e.ownerId = s.ownerId ∧ e.sourceRef = s.sourceRef := by
    simpa [Usage.keyed] using key
  have hin := hw
  simp only [SettleCall.within, decide_eq_true_eq] at hin
  obtain ⟨n1, l1, n2, l2, n3, l3⟩ := hin
  have hmove : SpendMove False db
      { grants := db.grants.set e.authorizationId
          { g with reserved := g.reserved - e.hold, spent := g.spent + (s.settled e).actual }
        events := db.events.set i (s.settled e) } := by
    refine .settle s event status hg ?_ ?_
    · simp [Amounts.le_iff, Usage.actual, SettleCall.settled, n1, n2, Decimal.stored_nonneg n3]
    · simp [Amounts.le_iff, Usage.actual, Usage.hold, SettleCall.settled, l1, l2,
        Decimal.stored_le n3 l3]
  have hinv := hmove.inv h
  have hrow (g' : Grant) : (db.grants.set e.authorizationId g')[e.authorizationId]? = some g' := by
    rw [getElem?_set_row hg, if_pos rfl]
  have hevent : (db.events.set i (s.settled e))[i]? = some (s.settled e) := by
    rw [getElem?_set_row event, if_pos rfl]
  exact ⟨_, _, settleUsage_within row status hg (howner.trans hkey.1) hw
    ((hinv.books _ _ (hrow _)).checks hinv), hevent, hrow _⟩

/-- a hold is settled exactly by amounts within it -/
theorem settle_ok_iff (h : SpendInv db)
    (row : findRow (Usage.keyed s.ownerId s.sourceRef) db.events = some (i, e))
    (status : e.status = .reserved) :
    (∃ r, settleProviderSpendCall env db s = .ok r) ↔ s.within e := by
  constructor
  · rintro ⟨⟨j, db'⟩, hr⟩
    obtain ⟨db1, h1, -⟩ := settleCall_usage hr
    obtain ⟨g, hg, -⟩ := h.linked e (List.mem_of_getElem? (findRow_eq_some row).1)
    unfold settleProviderSpendUsage at h1
    rw [guard_eq_ok, row] at h1
    obtain ⟨hnn, h1⟩ := h1
    simp only [status, hg, reduceCtorEq, if_false, ne_eq, not_true_eq_false] at h1
    rw [guard_eq_ok, guard_eq_ok] at h1
    obtain ⟨-, hle, -⟩ := h1
    simp only [not_or, not_lt, not_not] at hnn hle
    simp only [SettleCall.within, decide_eq_true_eq]
    exact ⟨hnn.1, hle.1, hnn.2.1, hle.2.1, hnn.2.2, hle.2.2⟩
  · intro hw
    obtain ⟨db1, g, h1, hevent, hgrant⟩ := settleUsage_ok h row status hw
    have hauth : (s.settled e).authorizationId = e.authorizationId := rfl
    unfold settleProviderSpendCall
    refine ⟨(i, db1.setGrant e.authorizationId (g.markTerminalIfNeeded env.now)),
      bind_eq_ok.2 ⟨(i, db1), h1, ?_⟩⟩
    simp only [hevent, hauth, hgrant]
    rfl

/-- a hold can always be released -/
theorem release_ok (h : SpendInv db)
    (row : findRow (Usage.keyed owner ref) db.events = some (i, e)) (status : e.status = .reserved) :
    ∃ r, releaseProviderSpendUsage db owner ref = .ok r := by
  obtain ⟨event, key⟩ := findRow_eq_some row
  obtain ⟨g, hg, howner⟩ := h.linked e (List.mem_of_getElem? event)
  have hkey : e.ownerId = owner ∧ e.sourceRef = ref := by simpa [Usage.keyed] using key
  obtain ⟨g', hg'⟩ : ∃ g', g' = { g with reserved := g.reserved - e.hold } := ⟨_, rfl⟩
  have hinv : SpendInv { grants := db.grants.set e.authorizationId g'
                         events := db.events.set i { e with status := .released } } := by
    have hmove : SpendMove False db { grants := db.grants.set e.authorizationId g'
                                      events := db.events.set i { e with status := .released } } := by
      rw [hg']
      exact .release event status hg
    exact hmove.inv h
  have hrow : (db.grants.set e.authorizationId g')[e.authorizationId]? = some g' := by
    rw [getElem?_set_row hg, if_pos rfl]
  have hchecks := (hinv.books _ _ hrow).checks hinv
  unfold releaseProviderSpendUsage
  rw [row]
  simp only [status, hg, reduceCtorEq, if_false, ← hg', hchecks, not_true_eq_false]
  rw [if_neg (by simp [howner, hkey.1])]
  exact ⟨_, rfl⟩

/-- a release ends its own key only -/
theorem Accounted.release (ha : Accounted db.events o r)
    (other : ¬ (o = owner ∧ r = ref))
    (h : releaseProviderSpendUsage db owner ref = .ok (i, db')) : Accounted db'.events o r := by
  unfold releaseProviderSpendUsage at h
  split at h
  · exact absurd h (by simp)
  next j e hf =>
  obtain ⟨event, key⟩ := findRow_eq_some hf
  have hkey : e.ownerId = owner ∧ e.sourceRef = ref := by simpa [Usage.keyed] using key
  have hset : Accounted (db.events.set j { e with status := .released }) o r := by
    refine ha.set event rfl fun hk => absurd ?_ other
    have hk' : e.ownerId = o ∧ e.sourceRef = r := by simpa [Usage.keyed] using hk
    exact ⟨hk'.1.symm.trans hkey.1, hk'.2.symm.trans hkey.2⟩
  split at h
  · cases h
    exact ha
  split at h
  · exact absurd h (by simp)
  dsimp only at h
  split at h
  · cases h
    exact hset
  split at h
  · cases h
    exact hset
  split at h
  · exact absurd h (by simp)
  · cases h
    exact hset

end LifeAI
