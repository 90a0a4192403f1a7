import LifeAI.Provider.Planning
import LifeAI.Spend.Keys

/-!
# What one planning call does to the usage events

* `plan_keeps`  a call that returns loses no accounted event;
* `plan_entry`  the adapter is entered under a key without an event, and a call that returns
                leaves the event there, unless the failure is marked;
* `raises_iff`  when a call raises, in terms of the adapter's answer and the rows it meets.
-/

namespace LifeAI

/-- the books stand, and no accounted event is lost -/
structure Keeps (w w' : PlanDb) : Prop where
  books : SpendInv w'.spend
  accounted : ∀ o r, Accounted w.spend.events o r → Accounted w'.spend.events o r

variable {w w' : PlanDb} {c : PlanningCall} {classification : String}

theorem Keeps.rfl (h : SpendInv w.spend) : Keeps w w := ⟨h, fun _ _ h => h⟩

theorem Keeps.trans {w1 w2 w3 : PlanDb} (h1 : Keeps w1 w2) (h2 : Keeps w2 w3) : Keeps w1 w3 :=
  ⟨h2.books, fun o r h => h2.accounted o r (h1.accounted o r h)⟩

/-- the events are the ones before -/
theorem Keeps.of_events (h : SpendInv w'.spend) (same : w'.spend.events = w.spend.events) :
    Keeps w w' := ⟨h, fun _ _ ha => same ▸ ha⟩

theorem close_ok {r : String × PlanDb} (h : c.close classification w = .ok r) :
    r = (classification, w) ∧ c.closingFault = none := by
  unfold PlanningCall.close at h
  split at h
  · cases h
  · next hf =>
    cases h
    exact ⟨rfl, hf⟩

/-! ## the stages -/

section
variable {db db' : SpendDb} {i : UsageId}

theorem reserve_books (h : SpendInv db) (env : SpendEnv) (r : ReserveCall) :
    SpendInv (reserveProviderSpendCall env db r).1 := (reserve_moves h env r).inv h

theorem settle_books (h : SpendInv db) {env : SpendEnv} {s : SettleCall}
    (hs : settleProviderSpendCall env db s = .ok (i, db')) : SpendInv db' := by
  have hm := (settleCall_moves env s : SpendMoves False db _).inv h
  simp only [SpendOp.step, hs] at hm
  exact hm

theorem release_books (h : SpendInv db) {owner : OwnerId} {ref : String}
    (hr : releaseProviderSpendUsage db owner ref = .ok (i, db')) : SpendInv db' := by
  rcases (release_cases h hr : db' = db ∨ SpendMove False db db') with rfl | hm
  · exact h
  · exact hm.inv h

end

theorem reserve_keeps (h : SpendInv w.spend) {ref provider model : String} {spend : SpendDb}
    {res : Except Err (UsageId × Bool)}
    (hr : reserveProviderSpendCall c.env w.spend (c.reserveCall ref provider model)
      = (spend, res)) : Keeps w { w with spend := spend } := by
  have hbooks := reserve_books h c.env (c.reserveCall ref provider model)
  have hres : Reserved w.spend (c.reserveCall ref provider model) (spend, res) := by
    rw [← hr]
    exact reserve_cases c.env rfl
  rw [hr] at hbooks
  cases hres with
  | refused err same => exact .of_events hbooks same
  | found row live => exact .rfl h
  | placed e free key status added =>
    refine ⟨hbooks, fun o r ⟨x, hx, hk⟩ => ⟨x, ?_, hk⟩⟩
    rw [added]
    exact List.mem_append_left _ hx

theorem reconcile_keeps (h : SpendInv w.spend) {ref : String} {e : Usage} {r : String × PlanDb}
    (hr : c.reconcile w ref e = .ok r) : Keeps w r.2 := by
  unfold PlanningCall.reconcile at hr
  obtain ⟨⟨i, spend⟩, hs, hc⟩ := bind_eq_ok.1 hr
  rw [(close_ok hc).1]
  exact ⟨settle_books h hs, fun o r ha => ha.settle hs⟩

/-- a call that stops before the egress gate -/
theorem held_stopped_keeps (h : SpendInv w.spend) {r : String × PlanDb}
    (hr : c.held w = .stopped (.ok r)) : Keeps w r.2 := by
  have hplan : ∀ {r : String × PlanDb}, c.founderPlan.map (·, w) = .ok r → r.2 = w := by
    intro r hr
    cases hf : c.founderPlan with
    | error e =>
      rw [hf] at hr
      cases hr
    | ok x =>
      rw [hf] at hr
      cases hr
      rfl
  unfold PlanningCall.held at hr
  split at hr
  · cases hr
  · cases hr
    exact .rfl h
  · injection hr with hr
    rw [hplan hr]
    exact .rfl h
  split at hr
  · cases hr
  dsimp only at hr
  split at hr
  · injection hr with hr
    rw [hplan hr]
    exact .rfl h
  split at hr
  · cases hr
  split at hr
  · cases hr
  split at hr
  · unfold PlanningCall.spendGate at hr
    dsimp only at hr
    split at hr
    · next hres =>
      injection hr with hr
      rw [(close_ok hr).1]
      exact reserve_keeps h hres
    next hres =>
    split at hr
    · cases hr
    split at hr
    · injection hr with hr
      have hk := reserve_keeps h hres
      exact hk.trans (reconcile_keeps hk.books hr)
    split at hr
    · injection hr with hr
      rw [(close_ok hr).1]
      exact reserve_keeps h hres
    · cases hr
  · injection hr with hr
    rw [(close_ok hr).1]
    exact .rfl h

/-- the hold that a call brings to the egress gate: no event stood under its key -/
structure NewHold (w : PlanDb) (owner : OwnerId) (h : Held) (e : Usage) : Prop where
  books : SpendInv h.w.spend
  free : findRow (Usage.keyed owner h.sourceRef) w.spend.events = none
  added : h.w.spend.events = w.spend.events ++ [e]
  key : Usage.keyed owner h.sourceRef e
  status : e.status = .reserved

/-- an allocated key has no event, or a reserved one -/
theorem allocate_reservable {events : List Usage} {owner : OwnerId} {base ref : String}
    (h : allocateProviderSpendSourceRef events owner base = .ok ref) :
    reservable events owner ref := by
  unfold allocateProviderSpendSourceRef at h
  split at h
  · next hb =>
    cases h
    exact hb
  split at h
  · next n hn =>
    cases h
    have hfree := List.find?_some hn
    exact hfree
  · cases h

theorem held_new (hi : SpendInv w.spend) {h : Held} (hp : c.held w = .passed h) :
    ∃ e, NewHold w c.request.ownerId h e := by
  obtain ⟨-, -, href, -, -, -, i, created, x, hres, hx, hnew⟩ := PlanningCall.held_passed hp
  have hbooks := reserve_books hi c.env (c.reserveCall h.sourceRef h.provider h.model)
  have hcases : Reserved w.spend (c.reserveCall h.sourceRef h.provider h.model)
      (h.w.spend, .ok (i, created)) := by
    rw [← hres]
    exact reserve_cases c.env rfl
  rw [hres] at hbooks
  generalize hspend : h.w.spend = spend at hcases hbooks hx
  cases hcases with
  | placed e free key status added =>
    exact ⟨e, hspend ▸ hbooks, free, hspend ▸ added, key, status⟩
  | @found _ e row live =>
    -- a key that may be reserved has no settled event, and a reserved one is not called again
    have hreservable := allocate_reservable href
    unfold reservable at hreservable
    change findRow (Usage.keyed c.request.ownerId h.sourceRef) w.spend.events = some (i, e) at row
    rw [row] at hreservable
    have hx' := (findRow_eq_some row).1
    rw [hx] at hx'
    cases hx'
    exact absurd (hnew (by simpa using hreservable)).1 (by simp)

/-- a call that enters the adapter: no event stood under its key, and now a hold stands there -/
structure Entering (w : PlanDb) (c : PlanningCall) (p : Cleared) (n : UsageId) (e : Usage) :
    Prop where
  books : SpendInv p.w.spend
  free : ¬ Accounted w.spend.events c.request.ownerId p.sourceRef
  row : findRow (Usage.keyed c.request.ownerId p.sourceRef) p.w.spend.events = some (n, e)
  status : e.status = .reserved
  kept : ∀ o r, Accounted w.spend.events o r → Accounted p.w.spend.events o r

theorem gate_passed (hi : SpendInv w.spend) {p : Cleared} (hg : c.gate w = .passed p) :
    ∃ n e, Entering w c p n e := by
  unfold PlanningCall.gate at hg
  split at hg
  · cases hg
  next h hh =>
  obtain ⟨e, hnew⟩ := held_new hi hh
  unfold PlanningCall.egressGate at hg
  split at hg
  · cases hg
    refine ⟨w.spend.events.length, e, hnew.books, not_accounted hnew.free, ?_, hnew.status,
      fun o r ⟨x, hx, hk⟩ => ⟨x, ?_, hk⟩⟩
    · show findRow _ h.w.spend.events = _
      rw [hnew.added]
      exact findRow_snoc hnew.free hnew.key
    · show x ∈ h.w.spend.events
      rw [hnew.added]
      exact List.mem_append_left _ hx
  · cases hg

theorem gate_stopped_keeps (hi : SpendInv w.spend) {r : String × PlanDb}
    (hg : c.gate w = .stopped (.ok r)) : Keeps w r.2 := by
  unfold PlanningCall.gate at hg
  split at hg
  · next hh =>
    injection hg with hg
    rw [hg] at hh
    exact held_stopped_keeps hi hh
  next h hh =>
  obtain ⟨e, hnew⟩ := held_new hi hh
  unfold PlanningCall.egressGate at hg
  split at hg
  · cases hg
  · injection hg with hg
    obtain ⟨⟨i, spend⟩, hrel, hc⟩ := bind_eq_ok.1 hg
    rw [(close_ok hc).1]
    refine ⟨release_books hnew.books hrel, fun o k ha => ?_⟩
    have hother : ¬ (o = c.request.ownerId ∧ k = h.sourceRef) := by
      rintro ⟨rfl, rfl⟩
      exact not_accounted hnew.free ha
    obtain ⟨x, hx, hk⟩ := ha
    refine Accounted.release ⟨x, ?_, hk⟩ hother hrel
    rw [hnew.added]
    exact List.mem_append_left _ hx

/-! ## after the adapter -/

/-- judging leaves the spend tables alone -/
theorem judge_spend {hash : String} {res : ProviderResponse} {judged : Judged}
    {r : String × PlanDb} (hr : c.judge w hash res judged = .ok r) : r.2.spend = w.spend := by
  unfold PlanningCall.judge at hr
  split at hr
  · rw [(close_ok hr).1]
  · cases hr
  · obtain ⟨evidence, -, hc⟩ := bind_eq_ok.1 hr
    rw [(close_ok hc).1]

/-- a call that returns keeps every key accounted, its own unless the failure is marked -/
theorem afterPropose_keeps (h : SpendInv w.spend) {ref hash : String} {r : String × PlanDb}
    (hr : c.afterPropose w ref hash = .ok r) : SpendInv r.2.spend ∧
    ∀ o k, Accounted w.spend.events o k →
      ¬ (o = c.request.ownerId ∧ k = ref) ∨ c.mayHaveLeft → Accounted r.2.spend.events o k := by
  unfold PlanningCall.afterPropose at hr
  split at hr
  · cases hr
  · next hout =>
    obtain ⟨⟨i, spend⟩, hrel, hc⟩ := bind_eq_ok.1 hr
    rw [(close_ok hc).1]
    have hmarked : ¬ c.mayHaveLeft := by simp [PlanningCall.mayHaveLeft, hout]
    exact ⟨release_books h hrel, fun o k ha hk => ha.release (hk.resolve_right hmarked) hrel⟩
  · rw [(close_ok hr).1]
    exact ⟨h, fun _ _ ha _ => ha⟩
  · unfold PlanningCall.answered at hr
    obtain ⟨⟨prompt, completion⟩, -, hr⟩ := bind_eq_ok.1 hr
    obtain ⟨⟨i, spend⟩, hs, hr⟩ := bind_eq_ok.1 hr
    rw [judge_spend hr]
    exact ⟨settle_books h hs, fun o k ha _ => ha.settle hs⟩

/-! ## the call -/

/-- a call that returns loses no accounted event -/
theorem plan_keeps (hi : SpendInv w.spend) {r : String × PlanDb}
    (hr : (planWithProvider w c).end_ = .ok r) : Keeps w r.2 := by
  unfold planWithProvider at hr
  cases hg : c.gate w with
  | stopped res =>
    rw [hg] at hr
    rw [show res = .ok r from hr] at hg
    exact gate_stopped_keeps hi hg
  | passed p =>
    rw [hg] at hr
    obtain ⟨n, e, hent⟩ := gate_passed hi hg
    obtain ⟨hbooks, hkeep⟩ := afterPropose_keeps hent.books hr
    refine ⟨hbooks, fun o k ha => hkeep o k (hent.kept o k ha) (.inl ?_)⟩
    rintro ⟨rfl, rfl⟩
    exact hent.free ha

/-- the adapter is entered under a key without an event, and a call that returns leaves the event
there, unless the failure is marked -/
theorem plan_entry (hi : SpendInv w.spend) {x : Entry}
    (hx : (planWithProvider w c).entry = some x) :
    x.mayHaveLeft = c.mayHaveLeft ∧ ¬ Accounted w.spend.events x.ownerId x.sourceRef ∧
      ∀ r, (planWithProvider w c).end_ = .ok r → x.mayHaveLeft →
        Accounted r.2.spend.events x.ownerId x.sourceRef := by
  unfold planWithProvider at hx ⊢
  split at hx
  · cases hx
  · next p hg =>
    obtain ⟨n, e, hent⟩ := gate_passed hi hg
    cases hx
    refine ⟨rfl, hent.free, fun r hr hleft => ?_⟩
    obtain ⟨hrow, hkey⟩ := findRow_eq_some hent.row
    have hheld : Accounted p.w.spend.events c.request.ownerId p.sourceRef :=
      ⟨e, List.mem_of_getElem? hrow, hkey, by simp [hent.status]⟩
    exact (afterPropose_keeps hent.books hr).2 _ _ hheld (.inr hleft)

/-! ## when a call raises -/

namespace PlanningCall

variable (c)

/-- the usage that the answer reports is within the hold under the key -/
def withinHold (p : Cleared) (r : ProviderResponse) (prompt completion : Int) : Bool :=
  (findRow (Usage.keyed c.request.ownerId p.sourceRef) p.w.spend.events).any fun x =>
    (c.settleCall p.sourceRef r prompt completion).within x.2

/-- recording the judged content raises: an unexpected exception, a row of an earlier recording
with other values under the same key, or the last checkpoint -/
def judgementRaises (p : Cleared) (r : ProviderResponse) : Judged → Bool
  | .malformed => c.closingFault.isSome
  | .raises _ => true
  | .judged disposition reason envelope =>
    match c.recordParticipation p.w.evidence r p.hash disposition reason envelope with
    | .error _ => true
    | .ok _ => c.closingFault.isSome

/-- the call raises once the adapter has been entered -/
def raisesAfter (p : Cleared) : Bool :=
  match c.outcome with
  | .died => true
  | .failed _ => c.closingFault.isSome
  | .answered r judged =>
    match r.rawUsage with
    | .error _ => true
    | .ok (prompt, completion) =>
      ! c.withinHold p r prompt completion || c.judgementRaises p r judged

/-- the call raises -/
def raises (w : PlanDb) : Bool :=
  match c.gate w with
  | .stopped (.error _) => true
  | .stopped (.ok _) => false
  | .passed p => c.raisesAfter p

end PlanningCall

theorem close_ok_iff : (∃ r, c.close classification w = .ok r) ↔ c.closingFault.isSome = false := by
  unfold PlanningCall.close
  cases c.closingFault with
  | none => simp
  | some e => simp

theorem judge_ok_iff {p : Cleared} (spend : SpendDb) (r : ProviderResponse) (judged : Judged) :
    (∃ x, c.judge { p.w with spend := spend } p.hash r judged = .ok x) ↔
      c.judgementRaises p r judged = false := by
  unfold PlanningCall.judgementRaises PlanningCall.judge
  cases judged with
  | malformed => exact close_ok_iff
  | raises e => simp
  | judged disposition reason envelope =>
    dsimp only
    cases hrec : c.recordParticipation p.w.evidence r p.hash disposition reason envelope with
    | error e => simp [bind, Except.bind]
    | ok evidence => exact close_ok_iff

theorem answered_ok_iff {p : Cleared} {n : UsageId} {e : Usage} (h : Entering w c p n e)
    (r : ProviderResponse) (judged : Judged) :
    (∃ x, c.answered p.w p.sourceRef p.hash r judged = .ok x) ↔ ∃ q, r.rawUsage = .ok q ∧
      c.withinHold p r q.1 q.2 = true ∧ c.judgementRaises p r judged = false := by
  unfold PlanningCall.answered
  cases hu : r.rawUsage with
  | error e => simp [bind, Except.bind]
  | ok q =>
    obtain ⟨prompt, completion⟩ := q
    have hs : (∃ x, settleProviderSpendCall c.env p.w.spend
        (c.settleCall p.sourceRef r prompt completion) = .ok x) ↔
          c.withinHold p r prompt completion = true := by
      unfold PlanningCall.withinHold
      rw [h.row]
      exact settle_ok_iff h.books h.row h.status
    simp only [Except.ok.injEq, exists_eq_left', ← hs]
    cases hset : settleProviderSpendCall c.env p.w.spend
        (c.settleCall p.sourceRef r prompt completion) with
    | error e => simp [bind, Except.bind, hset]
    | ok x =>
      obtain ⟨i, spend⟩ := x
      rw [← judge_ok_iff spend]
      simp [bind, Except.bind, hset]

/-- when a call raises, in terms of the adapter's answer and the rows it meets -/
theorem raises_iff (hi : SpendInv w.spend) :
    c.raises w = false ↔ ∃ r, (planWithProvider w c).end_ = .ok r := by
  unfold PlanningCall.raises planWithProvider
  cases hg : c.gate w with
  | stopped res =>
    cases res with
    | error e => simp
    | ok r => simp
  | passed p =>
    obtain ⟨n, e, hent⟩ := gate_passed hi hg
    dsimp only
    unfold PlanningCall.raisesAfter PlanningCall.afterPropose
    cases c.outcome with
    | died => simp
    | failed flag =>
      obtain ⟨⟨i, spend⟩, hrel⟩ := release_ok hent.books hent.row hent.status
      rcases flag with _ | _ | _
      · exact close_ok_iff.symm
      · dsimp only
        rw [hrel]
        exact close_ok_iff.symm
      · exact close_ok_iff.symm
    | answered r judged =>
      dsimp only
      rw [answered_ok_iff hent]
      cases r.rawUsage with
      | error e => simp
      | ok q => simp

end LifeAI
