import LifeAI.Provider.Settling
import LifeAI.Provider.Refusal

/-!
# Provider calls over a run of supervisor ticks

A tick plans in one transaction: the worker commits a tick that returns and rolls back a tick that
raises; when the process dies, the database rolls back.  The ticks of a goal follow each other,
since reserving locks the goal's grant until the transaction ends; the founder's grants and
revocations wait for that lock.

* `Lawful`  an adapter call of an ended transaction has its event in the database, reserved or
            settled, and no key is called again, failures marked as not sent apart;
* `PlanOp.Fits`  an operation does not end a transaction with such a call by a rollback;
* `provider_calls_accounted`  **every state of a run is lawful exactly when every operation
            fits**.
-/

namespace LifeAI

structure PlanSystem where
  /-- what is committed -/
  durable : PlanDb := {}
  /-- what the open transaction reads -/
  work : PlanDb := {}
  /-- the adapter calls of the transactions that have ended -/
  ended : List Entry := []
  /-- the adapter calls of the open transaction -/
  flight : List Entry := []
  inTick : Bool := false

inductive PlanOp where
  | authorize (env : SpendEnv) (a : SpendAuthority)
  | revoke (owner : OwnerId) (a : GrantId)
  | plan (c : PlanningCall)
  | commit
  /-- the tick raised outside of the planning call, or the process died -/
  | rollback

namespace PlanSystem

variable (s : PlanSystem)

/-- every adapter call so far -/
def entries : List Entry := s.ended ++ s.flight

def rolledBack (flight : List Entry) : PlanSystem where
  durable := s.durable
  work := s.durable
  ended := s.ended ++ flight

/-- a founder's transaction, which waits for an open one -/
def founder (o : SpendOp) : PlanSystem :=
  if s.inTick then s
  else
    let db := { s.durable with spend := o.step s.durable.spend }
    { s with durable := db, work := db }

/-- the adapter calls of the open transaction, with that of the planning call `c` -/
def flightAfter (c : PlanningCall) : List Entry :=
  s.flight ++ (planWithProvider s.work c).entry.toList

/-- a planning call of the tick; an exception is not caught before the worker rolls back -/
def planned (c : PlanningCall) : PlanSystem :=
  match (planWithProvider s.work c).end_ with
  | .ok (_, w) => { s with work := w, flight := s.flightAfter c, inTick := true }
  | .error _ => s.rolledBack (s.flightAfter c)

end PlanSystem

def PlanOp.step (s : PlanSystem) : PlanOp → PlanSystem
  | .authorize env a => s.founder (.authorize env a)
  | .revoke owner a => s.founder (.revoke owner a)
  | .plan c => s.planned c
  | .commit => { durable := s.work, work := s.work, ended := s.entries }
  | .rollback => s.rolledBack s.flight

/-- the two calls were made under one key -/
def Entry.SameKey (x y : Entry) : Prop := x.ownerId = y.ownerId ∧ x.sourceRef = y.sourceRef

/-- an adapter call of an ended transaction has its event in the database, reserved or settled,
and no key is called again, failures marked as not sent apart -/
structure Lawful (s : PlanSystem) : Prop where
  accounted : ∀ x ∈ s.ended, x.mayHaveLeft →
    Accounted s.durable.spend.events x.ownerId x.sourceRef
  once : s.entries.Pairwise fun x y => x.mayHaveLeft → ¬ x.SameKey y

/-- the adapter is entered, and its failure is not marked -/
def PlanningCall.sends (c : PlanningCall) (w : PlanDb) : Bool :=
  match c.gate w with
  | .stopped _ => false
  | .passed _ => c.mayHaveLeft

/-- the operation does not roll an adapter call back, failures marked as not sent apart -/
def PlanOp.Fits (s : PlanSystem) : PlanOp → Prop
  | .plan c => c.raises s.work → (∀ x ∈ s.flight, ¬ x.mayHaveLeft) ∧ ¬ c.sends s.work
  | .rollback => ∀ x ∈ s.flight, ¬ x.mayHaveLeft
  | .authorize .. | .revoke .. | .commit => True

/-! ## the invariant of the runs that fit -/

structure PlanInv (s : PlanSystem) : Prop where
  books : SpendInv s.durable.spend
  workBooks : SpendInv s.work.spend
  sub : ∀ o r, Accounted s.durable.spend.events o r → Accounted s.work.spend.events o r
  fresh : ∀ x ∈ s.flight, ¬ Accounted s.durable.spend.events x.ownerId x.sourceRef
  flying : ∀ x ∈ s.flight, x.mayHaveLeft → Accounted s.work.spend.events x.ownerId x.sourceRef
  ended : ∀ x ∈ s.ended, x.mayHaveLeft → Accounted s.durable.spend.events x.ownerId x.sourceRef
  once : s.entries.Pairwise fun x y => x.mayHaveLeft → ¬ x.SameKey y
  idle : s.inTick = false → s.work = s.durable ∧ s.flight = []

variable {s : PlanSystem}

theorem PlanInv.init : PlanInv {} where
  books := .init
  workBooks := .init
  sub _ _ h := h
  fresh x hx := absurd hx (by simp)
  flying x hx := absurd hx (by simp)
  ended x hx := absurd hx (by simp)
  once := .nil
  idle _ := ⟨rfl, rfl⟩

theorem PlanInv.lawful (h : PlanInv s) : Lawful s := ⟨h.ended, h.once⟩

/-- every unmarked call so far is accounted for in what the open transaction reads -/
theorem PlanInv.entries_accounted (h : PlanInv s) : ∀ x ∈ s.entries, x.mayHaveLeft →
    Accounted s.work.spend.events x.ownerId x.sourceRef := by
  intro x hx hleft
  rcases List.mem_append.1 hx with hx | hx
  · exact h.sub _ _ (h.ended x hx hleft)
  · exact h.flying x hx hleft

/-- a rollback of calls that are all marked -/
theorem PlanInv.rolledBack (h : PlanInv s) {flight : List Entry}
    (hmarked : ∀ x ∈ flight, ¬ x.mayHaveLeft)
    (honce : (s.ended ++ flight).Pairwise fun x y => x.mayHaveLeft → ¬ x.SameKey y) :
    PlanInv (s.rolledBack flight) where
  books := h.books
  workBooks := h.books
  sub _ _ ha := ha
  fresh x hx := absurd hx (by simp [PlanSystem.rolledBack])
  flying x hx := absurd hx (by simp [PlanSystem.rolledBack])
  ended x hx hleft := by
    rcases List.mem_append.1 hx with hx | hx
    · exact h.ended x hx hleft
    · exact absurd hleft (hmarked x hx)
  once := by
    have : (s.rolledBack flight).entries = s.ended ++ flight := List.append_nil _
    rw [this]
    exact honce
  idle _ := ⟨rfl, rfl⟩

/-! ## the steps -/

theorem authorize_events {env : SpendEnv} {db db' : SpendDb} {a : SpendAuthority} {i : GrantId}
    (h : authorizeProviderSpend env db a = .ok (i, db')) : db'.events = db.events := by
  unfold authorizeProviderSpend at h
  split at h
  · cases h
  rw [guard_eq_ok, guard_eq_ok] at h
  obtain ⟨-, -, h⟩ := h
  split at h
  · split at h
    · cases h
      rfl
    · cases h
  · split at h
    · cases h
      rfl
    · cases h
      rfl

theorem revoke_events {db db' : SpendDb} {owner : OwnerId} {a : GrantId}
    (h : revokeProviderSpend db owner a = .ok db') : db'.events = db.events := by
  unfold revokeProviderSpend at h
  split at h
  · cases h
  split at h
  · cases h
  split at h
  · cases h
  · cases h
    rfl

/-- a founder's transaction leaves the events alone -/
theorem PlanInv.founder (h : PlanInv s) {o : SpendOp}
    (same : (o.step s.durable.spend).events = s.durable.spend.events) :
    PlanInv (s.founder o) := by
  unfold PlanSystem.founder
  cases hin : s.inTick with
  | true => exact h
  | false =>
    obtain ⟨hwork, hflight⟩ := h.idle hin
    have hbooks : SpendInv (o.step s.durable.spend) := (step_moves h.books o).inv h.books
    exact
      { books := hbooks
        workBooks := hbooks
        sub := fun _ _ ha => ha
        fresh := fun x hx => absurd hx (by simp [hflight])
        flying := fun x hx => absurd hx (by simp [hflight])
        ended := fun x hx hleft => by
          show Accounted (o.step s.durable.spend).events _ _
          rw [same]
          exact h.ended x hx hleft
        once := h.once
        idle := fun _ => ⟨rfl, hflight⟩ }

/-- the key of a new call is none of the unmarked calls so far -/
theorem PlanInv.once_after (h : PlanInv s) (c : PlanningCall) :
    (s.ended ++ s.flightAfter c).Pairwise fun x y => x.mayHaveLeft → ¬ x.SameKey y := by
  unfold PlanSystem.flightAfter
  cases hx : (planWithProvider s.work c).entry with
  | none =>
    rw [Option.toList_none, List.append_nil]
    exact h.once
  | some x =>
    rw [Option.toList_some, ← List.append_assoc, List.pairwise_append]
    refine ⟨h.once, List.pairwise_singleton _ _, fun y hy z hz hleft hsame => ?_⟩
    obtain rfl := List.mem_singleton.1 hz
    obtain ⟨-, hfree, -⟩ := plan_entry h.workBooks hx
    have hheld := h.entries_accounted y hy hleft
    rw [hsame.1, hsame.2] at hheld
    exact hfree hheld

/-- no call in flight has its event in the database yet -/
theorem PlanInv.fresh_after (h : PlanInv s) (c : PlanningCall) : ∀ x ∈ s.flightAfter c,
    ¬ Accounted s.durable.spend.events x.ownerId x.sourceRef := by
  intro x hx
  rcases List.mem_append.1 hx with hx | hx
  · exact h.fresh x hx
  · obtain ⟨-, hfree, -⟩ := plan_entry h.workBooks (Option.mem_toList.1 hx)
    exact fun ha => hfree (h.sub _ _ ha)

theorem sends_iff {w : PlanDb} {c : PlanningCall} :
    c.sends w ↔ ∃ x, (planWithProvider w c).entry = some x ∧ x.mayHaveLeft := by
  unfold PlanningCall.sends planWithProvider
  cases c.gate w with
  | stopped r => simp
  | passed p => simp

/-- a planning call that returns -/
theorem PlanInv.plan_ok (h : PlanInv s) {c : PlanningCall} {r : String × PlanDb}
    (hr : (planWithProvider s.work c).end_ = .ok r) :
    PlanInv { s with work := r.2, flight := s.flightAfter c, inTick := true } := by
  have hkeep := plan_keeps h.workBooks hr
  refine ⟨h.books, hkeep.books, fun o k ha => hkeep.accounted o k (h.sub o k ha),
    h.fresh_after c, fun x hx hleft => ?_, h.ended, h.once_after c, fun hidle => ?_⟩
  · rcases List.mem_append.1 hx with hx | hx
    · exact hkeep.accounted _ _ (h.flying x hx hleft)
    · exact (plan_entry h.workBooks (Option.mem_toList.1 hx)).2.2 r hr hleft
  · exact absurd hidle (by simp)

/-- a planning call that raises has its transaction rolled back -/
theorem planned_raises {c : PlanningCall} (h : PlanInv s) (hr : c.raises s.work) :
    s.planned c = s.rolledBack (s.flightAfter c) := by
  unfold PlanSystem.planned
  cases he : (planWithProvider s.work c).end_ with
  | ok r =>
    have := (raises_iff h.workBooks).2 ⟨r, he⟩
    rw [this] at hr
    exact absurd hr (by simp)
  | error e => rfl

theorem planned_returns {c : PlanningCall} (h : PlanInv s) (hr : c.raises s.work = false) :
    ∃ r, (planWithProvider s.work c).end_ = .ok r ∧
      s.planned c = { s with work := r.2, flight := s.flightAfter c, inTick := true } := by
  obtain ⟨r, he⟩ := (raises_iff h.workBooks).1 hr
  refine ⟨r, he, ?_⟩
  unfold PlanSystem.planned
  rw [he]

/-- an operation that fits keeps the invariant -/
theorem PlanInv.step (h : PlanInv s) {o : PlanOp} (hf : o.Fits s) : PlanInv (o.step s) := by
  cases o with
  | authorize env a =>
    refine h.founder ?_
    simp only [SpendOp.step]
    cases ha : authorizeProviderSpend env s.durable.spend a with
    | error e => rfl
    | ok p => exact authorize_events ha
  | revoke owner a =>
    refine h.founder ?_
    simp only [SpendOp.step]
    cases ha : revokeProviderSpend s.durable.spend owner a with
    | error e => rfl
    | ok p => exact revoke_events ha
  | plan c =>
    show PlanInv (s.planned c)
    cases hr : c.raises s.work with
    | true =>
      obtain ⟨hmarked, hsend⟩ := hf hr
      rw [planned_raises h hr]
      refine h.rolledBack (fun x hx hleft => ?_) (h.once_after c)
      rcases List.mem_append.1 hx with hx | hx
      · exact hmarked x hx hleft
      · exact hsend (sends_iff.2 ⟨x, Option.mem_toList.1 hx, hleft⟩)
    | false =>
      obtain ⟨r, he, hstep⟩ := planned_returns h hr
      rw [hstep]
      exact h.plan_ok he
  | commit =>
    exact
      { books := h.workBooks
        workBooks := h.workBooks
        sub := fun _ _ ha => ha
        fresh := fun x hx => absurd hx (by simp [PlanOp.step])
        flying := fun x hx => absurd hx (by simp [PlanOp.step])
        ended := fun x hx hleft => h.entries_accounted x hx hleft
        once := by
          have : (PlanOp.step s .commit).entries = s.entries := List.append_nil _
          rw [this]
          exact h.once
        idle := fun _ => ⟨rfl, rfl⟩ }
  | rollback => exact h.rolledBack hf h.once

end LifeAI
