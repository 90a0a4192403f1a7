import LifeAI.Base
import Mathlib.Algebra.Order.BigOperators.Group.List
import Mathlib.Tactic.Linarith

/-!
# Workforce budgets

`cost.py` on the budget of one scope, with exact amounts.

* `setCostBudget`, `reserveAgainstBudget`, `settleBudgetReservation`, `releaseBudgetReservation`
             what a call makes of the row that its query found;
* `Budgets`  the committed row, the calls in flight, and what was really reserved and settled;
* `step`     a query, a commit or a rollback; a flush writes the columns that the call changed;
* `Exact`    the row says what was reserved and settled, no reservation went past the cap, and a
             budget with room accepts;
* `Undisturbed`   a commit finds the row that the call read, and no release or settlement gives room
             to a budget that is not active;
* `exact_of_undisturbed`   the budget is exact along every run of such commits.

`updated_at` is left out.  Nothing here can break the checks of the table: all amounts stay
non-negative.
-/

namespace LifeAI.Cost
open Run

inductive BudgetStatus where
  | active | exhausted | revoked | expired
  deriving DecidableEq

/-- a row of `workforce_cost_budgets` -/
structure WorkforceCostBudget where
  capUsd : ℚ
  spentUsd : ℚ := 0
  reservedUsd : ℚ := 0
  periodStart : Option Time := none
  periodEnd : Option Time := none
  status : BudgetStatus := .active
  deriving DecidableEq

structure Scope where
  kind : String
  ref : String
  deriving DecidableEq

def Scope.shown (scope : Scope) : String := scope.kind ++ ":" ++ scope.ref

def scopeKinds : List String := ["assignment", "agent", "team", "goal", "period", "provider"]

/-- `budget_remaining` -/
def WorkforceCostBudget.remaining (b : WorkforceCostBudget) : ℚ :=
  b.capUsd - b.spentUsd - b.reservedUsd

/-- `budget_is_live` -/
def WorkforceCostBudget.isLive (b : WorkforceCostBudget) (now : Time) : Bool :=
  b.status = .active ∧ ¬ b.periodEnd.any (· ≤ now) ∧ ¬ b.remaining ≤ 0

section
variable (scope : Scope) (row : Option WorkforceCostBudget)

/-- `set_cost_budget` -/
def setCostBudget (capUsd : ℚ) (periodStart periodEnd : Option Time) :
    Except Err WorkforceCostBudget :=
  if scope.kind ∉ scopeKinds then
    .error (.costGovernance ("invalid scope_kind: " ++ scope.kind))
  else if capUsd < 0 then .error (.costGovernance "cap_usd must be >= 0")
  else match row with
    | some existing => .ok { existing with
        capUsd := capUsd, periodStart := periodStart, periodEnd := periodEnd, status := .active }
    | none => .ok { capUsd := capUsd, periodStart := periodStart, periodEnd := periodEnd }

/-- `reserve_against_budget`: what it raises, and the row as it was flushed by then -/
def reserveAgainstBudget (now : Time) (amountUsd : ℚ) :
    Option Err × Option WorkforceCostBudget :=
  if amountUsd < 0 then (some (.costGovernance "amount must be >= 0"), row)
  else match row with
    | none => (some (.costGovernance ("no budget for " ++ scope.shown)), none)
    | some b =>
      if ¬ b.isLive now then
        (some (.costGovernance "budget not live / exhausted"),
          some { b with status := if b.remaining ≤ 0 then .exhausted else b.status })
      else if b.remaining < amountUsd then
        (some (.costGovernance "insufficient budget remaining"), some b)
      else (none, some { b with reservedUsd := b.reservedUsd + amountUsd })

/-- `settle_budget_reservation` -/
def settleBudgetReservation (reservedUsd actualUsd : ℚ) : Except Err WorkforceCostBudget :=
  match row with
  | none => .error (.costGovernance "budget missing at settle")
  | some b =>
    let b := { b with
      reservedUsd := max 0 (b.reservedUsd - reservedUsd)
      spentUsd := b.spentUsd + max 0 actualUsd }
    .ok { b with status := if b.remaining ≤ 0 then .exhausted else b.status }

/-- `release_budget_reservation` -/
def releaseBudgetReservation (amountUsd : ℚ) : Except Err WorkforceCostBudget :=
  match row with
  | none => .error (.costGovernance "budget missing at release")
  | some b => .ok { b with reservedUsd := max 0 (b.reservedUsd - amountUsd) }

end

inductive Op where
  | set (capUsd : ℚ) (periodStart periodEnd : Option Time)
  | reserve (now : Time) (amountUsd : ℚ)
  | settle (reservedUsd actualUsd : ℚ)
  | release (amountUsd : ℚ)
  deriving DecidableEq

/-- a call that raises before its flush leaves the row as it found it -/
def flushed (row : Option WorkforceCostBudget) :
    Except Err WorkforceCostBudget → Option Err × Option WorkforceCostBudget
  | .ok b => (none, some b)
  | .error e => (some e, row)

/-- what a call raises, and the row as it leaves it -/
def Op.effect (scope : Scope) (row : Option WorkforceCostBudget) :
    Op → Option Err × Option WorkforceCostBudget
  | .set capUsd periodStart periodEnd =>
    flushed row (setCostBudget scope row capUsd periodStart periodEnd)
  | .reserve now amountUsd => reserveAgainstBudget scope row now amountUsd
  | .settle reservedUsd actualUsd => flushed row (settleBudgetReservation row reservedUsd actualUsd)
  | .release amountUsd => flushed row (releaseBudgetReservation row amountUsd)

/-! ## calls in flight -/

/-- the columns of `current` after an `UPDATE` of those that a session changed from `old` to
`new` -/
def WorkforceCostBudget.update (old new current : WorkforceCostBudget) : WorkforceCostBudget where
  capUsd := if new.capUsd = old.capUsd then current.capUsd else new.capUsd
  spentUsd := if new.spentUsd = old.spentUsd then current.spentUsd else new.spentUsd
  reservedUsd := if new.reservedUsd = old.reservedUsd then current.reservedUsd else new.reservedUsd
  periodStart := if new.periodStart = old.periodStart then current.periodStart else new.periodStart
  periodEnd := if new.periodEnd = old.periodEnd then current.periodEnd else new.periodEnd
  status := if new.status = old.status then current.status else new.status

/-- the table after the flush of a session that read `old` and left `new`: the unique key of the
scope refuses a second row -/
def commitRow (current old new : Option WorkforceCostBudget) : Except Err (Option WorkforceCostBudget) :=
  match old, new with
  | some old, some new => .ok (current.map (old.update new))
  | none, some new =>
    if current.isSome then .error (.integrityError "uq_workforce_cost_budgets_scope")
    else .ok (some new)
  | _, none => .ok current

/-- a call that has found its row -/
structure Call where
  op : Op
  read : Option WorkforceCostBudget
  deriving DecidableEq

/-- the committed row and the calls in flight; what was really reserved and settled; and for every
reservation that was admitted the sum that it led to, and the cap in force -/
structure Budgets where
  row : Option WorkforceCostBudget := none
  calls : List (Option Call) := []
  outstanding : List ℚ := []
  settled : ℚ := 0
  admitted : List (ℚ × ℚ) := []
  deriving DecidableEq

namespace Budgets

def call? (s : Budgets) (n : Nat) : Option Call := s.calls[n]?.join

/-- what a call that returned has done, apart from the table -/
def record (s : Budgets) : Op → Budgets
  | .set .. => s
  | .reserve _ amountUsd =>
    { s with
      outstanding := amountUsd :: s.outstanding
      admitted := s.admitted ++ (s.row.map fun b =>
        (s.settled + (amountUsd :: s.outstanding).sum, b.capUsd)).toList }
  | .settle reservedUsd actualUsd =>
    { s with
      outstanding := s.outstanding.erase reservedUsd
      settled := s.settled + actualUsd }
  | .release amountUsd => { s with outstanding := s.outstanding.erase amountUsd }

inductive Event where
  | query (op : Op)
  | commit (call : Nat)
  | rollback (call : Nat)
  deriving DecidableEq

/-- the commit of a call, whose caller may commit after an exception too -/
def commit (scope : Scope) (s : Budgets) (c : Call) : Budgets :=
  let (raised, new) := c.op.effect scope c.read
  match commitRow s.row c.read new with
  | .error _ => s
  | .ok row => if raised.isSome then { s with row := row } else { s.record c.op with row := row }

def step (scope : Scope) (s : Budgets) : Event → Budgets
  | .query op => { s with calls := s.calls ++ [some ⟨op, s.row⟩] }
  | .commit n =>
    (s.call? n).elim s fun c => s.commit scope c |> fun s' => { s' with calls := s.calls.set n none }
  | .rollback n => { s with calls := s.calls.set n none }

end Budgets

/-- the row says what was reserved and settled, no reservation was admitted past the cap, and a
budget with room accepts -/
structure Exact (scope : Scope) (s : Budgets) : Prop where
  reserved : ∀ b ∈ s.row, b.reservedUsd = s.outstanding.sum
  spent : ∀ b ∈ s.row, b.spentUsd = s.settled
  unset : s.row = none → s.outstanding = [] ∧ s.settled = 0
  capped : ∀ p ∈ s.admitted, p.1 ≤ p.2
  accepts : ∀ b ∈ s.row, ∀ now amountUsd, 0 ≤ amountUsd → amountUsd ≤ b.remaining →
    0 < b.remaining → (∀ e ∈ b.periodEnd, now < e) →
    (reserveAgainstBudget scope s.row now amountUsd).1 = none

/-- the reserved amount that a settlement or a release names -/
def Op.named? : Op → Option ℚ
  | .settle reservedUsd _ => some reservedUsd
  | .release amountUsd => some amountUsd
  | _ => none

/-- the actual amount of a settlement -/
def Op.actual? : Op → Option ℚ
  | .settle _ actualUsd => some actualUsd
  | _ => none

/-- a settlement or a release names an amount that was reserved and is neither settled nor released
yet -/
def Named (s : Budgets) : Budgets.Event → Prop
  | .commit n => ∀ c ∈ s.call? n, ∀ amount ∈ c.op.named?, amount ∈ s.outstanding
  | _ => True

/-- a call commits on the row that it read, with an actual amount that is not negative; and what it
gives back leaves a budget that is not active without room -/
structure Call.Undisturbed (s : Budgets) (c : Call) : Prop where
  unchanged : c.read = s.row
  actual : ∀ actual ∈ c.op.actual?, 0 ≤ actual
  room : ∀ b ∈ s.row, b.status ≠ .active → ∀ amount ∈ c.op.named?,
    b.remaining + amount - c.op.actual?.getD 0 ≤ 0

def Undisturbed (s : Budgets) : Budgets.Event → Prop
  | .commit n => ∀ c ∈ s.call? n, c.Undisturbed s
  | _ => True

instance (s : Budgets) : DecidablePred (Named s)
  | .commit n => inferInstanceAs (Decidable (∀ c ∈ s.call? n, ∀ amount ∈ c.op.named?, _))
  | .query _ => inferInstanceAs (Decidable True)
  | .rollback _ => inferInstanceAs (Decidable True)

instance (s : Budgets) (c : Call) : Decidable (c.Undisturbed s) :=
  decidable_of_iff (c.read = s.row ∧ (∀ actual ∈ c.op.actual?, 0 ≤ actual) ∧
      ∀ b ∈ s.row, b.status ≠ .active → ∀ amount ∈ c.op.named?,
        b.remaining + amount - c.op.actual?.getD 0 ≤ 0)
    ⟨fun h => ⟨h.1, h.2.1, h.2.2⟩, fun h => ⟨h.unchanged, h.actual, h.room⟩⟩

instance (s : Budgets) : DecidablePred (Undisturbed s)
  | .commit n => inferInstanceAs (Decidable (∀ c ∈ s.call? n, c.Undisturbed s))
  | .query _ => inferInstanceAs (Decidable True)
  | .rollback _ => inferInstanceAs (Decidable True)

/-! ## one commit -/

variable {scope : Scope} {s : Budgets} {c : Call} {row : Option WorkforceCostBudget}
  {b b' : WorkforceCostBudget}

/-- an `UPDATE` of a row that has not changed leaves it as the session has it -/
theorem update_self (old new : WorkforceCostBudget) : old.update new old = new := by
  have hcol : ∀ {α : Type} [DecidableEq α] (x y : α), (if x = y then y else x) = x := by
    intro α _ x y
    split_ifs with h
    · exact h.symm
    · rfl
  unfold WorkforceCostBudget.update
  simp only [hcol]

theorem commitRow_same (new : Option WorkforceCostBudget) (h : new = none → row = none) :
    commitRow row row new = .ok new := by
  cases new with
  | none =>
    rw [h rfl]
    rfl
  | some new =>
    cases row with
    | none => rfl
    | some old =>
      show Except.ok (some (old.update new old)) = _
      rw [update_self]

/-- a session does not lose the row that it found -/
theorem effect_some (scope : Scope) (op : Op) (b : WorkforceCostBudget) :
    ∃ b', (op.effect scope (some b)).2 = some b' := by
  cases op with
  | set capUsd periodStart periodEnd =>
    show ∃ b', (flushed (some b) (setCostBudget scope (some b) capUsd periodStart periodEnd)).2 =
      some b'
    cases setCostBudget scope (some b) capUsd periodStart periodEnd with
    | ok b' => exact ⟨b', rfl⟩
    | error e => exact ⟨b, rfl⟩
  | reserve now amountUsd =>
    show ∃ b', (reserveAgainstBudget scope (some b) now amountUsd).2 = some b'
    unfold reserveAgainstBudget
    dsimp only
    split_ifs <;> exact ⟨_, rfl⟩
  | settle reservedUsd actualUsd => exact ⟨_, rfl⟩
  | release amountUsd => exact ⟨_, rfl⟩

/-- what the commit of a call leaves that read the row as it is -/
theorem commit_unchanged (h : c.read = s.row) : s.commit scope c =
    if (c.op.effect scope s.row).1.isSome then { s with row := (c.op.effect scope s.row).2 }
    else { s.record c.op with row := (c.op.effect scope s.row).2 } := by
  have hrow : commitRow s.row c.read (c.op.effect scope c.read).2 =
      .ok (c.op.effect scope s.row).2 := by
    rw [h]
    refine commitRow_same _ fun hnone => ?_
    cases hs : s.row with
    | none => rfl
    | some b =>
      obtain ⟨b', hb'⟩ := effect_some scope c.op b
      rw [hs, hb'] at hnone
      cases hnone
  unfold Budgets.commit
  dsimp only
  rw [hrow, h]

/-- what the commits keep: a budget that is not active has no room -/
structure Inv (s : Budgets) : Prop where
  reserved : ∀ b ∈ s.row, b.reservedUsd = s.outstanding.sum
  spent : ∀ b ∈ s.row, b.spentUsd = s.settled
  unset : s.row = none → s.outstanding = [] ∧ s.settled = 0
  capped : ∀ p ∈ s.admitted, p.1 ≤ p.2
  positive : ∀ amount ∈ s.outstanding, 0 ≤ amount
  active : ∀ b ∈ s.row, 0 < b.remaining → b.status = .active

theorem Inv.exact (h : Inv s) : Exact scope s where
  reserved := h.reserved
  spent := h.spent
  unset := h.unset
  capped := h.capped
  accepts b hb now amountUsd hpos hle hroom hperiod := by
    have hrow : s.row = some b := hb
    have hlive : b.isLive now = true := by
      unfold WorkforceCostBudget.isLive
      refine decide_eq_true ⟨h.active b hb hroom, ?_, not_le.2 hroom⟩
      rw [Option.any_eq_true]
      intro ⟨e, he, hend⟩
      exact absurd (of_decide_eq_true hend) (Nat.not_le.2 (hperiod e he))
    rw [hrow]
    unfold reserveAgainstBudget
    dsimp only
    rw [if_neg (not_lt.2 hpos), if_neg (not_not.2 hlive), if_neg (not_lt.2 hle)]

theorem flushed_raised {x : Except Err WorkforceCostBudget} (h : (flushed row x).1.isSome) :
    (flushed row x).2 = row := by
  cases x with
  | ok b => cases h
  | error e => rfl

/-- a call that raises has at most marked a budget without room -/
theorem effect_raised {op : Op} (h : (op.effect scope row).1.isSome) :
    (op.effect scope row).2 = row ∨ ∃ b, row = some b ∧ b.remaining ≤ 0 ∧
      (op.effect scope row).2 = some { b with status := .exhausted } := by
  cases op with
  | set capUsd periodStart periodEnd => exact .inl (flushed_raised h)
  | settle reservedUsd actualUsd => exact .inl (flushed_raised h)
  | release amountUsd => exact .inl (flushed_raised h)
  | reserve now amountUsd =>
    revert h
    show (reserveAgainstBudget scope row now amountUsd).1.isSome = true →
      (reserveAgainstBudget scope row now amountUsd).2 = row ∨ ∃ b, row = some b ∧
        b.remaining ≤ 0 ∧ (reserveAgainstBudget scope row now amountUsd).2 =
          some { b with status := .exhausted }
    unfold reserveAgainstBudget
    by_cases hneg : amountUsd < 0
    · rw [if_pos hneg]
      exact fun _ => .inl rfl
    rw [if_neg hneg]
    cases row with
    | none => exact fun _ => .inl rfl
    | some b =>
      dsimp only
      by_cases hlive : b.isLive now = true
      · rw [if_neg (not_not.2 hlive)]
        by_cases hless : b.remaining < amountUsd
        · rw [if_pos hless]
          exact fun _ => .inl rfl
        · rw [if_neg hless]
          exact nofun
      · rw [if_pos hlive]
        by_cases hroom : b.remaining ≤ 0
        · rw [if_pos hroom]
          exact fun _ => .inr ⟨b, rfl, hroom, rfl⟩
        · rw [if_neg hroom]
          exact fun _ => .inl rfl

theorem Inv.raised (h : Inv s) {op : Op} (hraised : (op.effect scope s.row).1.isSome) :
    Inv { s with row := (op.effect scope s.row).2 } := by
  rcases effect_raised hraised with hsame | ⟨b, hb, hroom, hmarked⟩
  · rw [hsame]
    exact h
  · rw [hmarked]
    refine ⟨fun b' hb' => ?_, fun b' hb' => ?_, nofun, h.capped, h.positive, fun b' hb' hpos => ?_⟩
    · cases hb'
      exact h.reserved b hb
    · cases hb'
      exact h.spent b hb
    · cases hb'
      exact absurd hroom (not_le.2 hpos)

/-- `set_cost_budget` that returns -/
theorem setCostBudget_ok {capUsd : ℚ} {periodStart periodEnd : Option Time}
    (h : setCostBudget scope row capUsd periodStart periodEnd = .ok b') :
    b'.reservedUsd = (row.map (·.reservedUsd)).getD 0 ∧
      b'.spentUsd = (row.map (·.spentUsd)).getD 0 ∧ b'.status = .active := by
  unfold setCostBudget at h
  obtain ⟨-, h⟩ := guard_eq_ok.1 h
  obtain ⟨-, h⟩ := guard_eq_ok.1 h
  cases row <;> cases h <;> exact ⟨rfl, rfl, rfl⟩

/-- `reserve_against_budget` that returns -/
theorem reserveAgainstBudget_ok {now : Time} {amountUsd : ℚ}
    (h : (reserveAgainstBudget scope row now amountUsd).1 = none) :
    ∃ b, row = some b ∧ 0 ≤ amountUsd ∧ amountUsd ≤ b.remaining ∧ b.status = .active ∧
      (reserveAgainstBudget scope row now amountUsd).2 =
        some { b with reservedUsd := b.reservedUsd + amountUsd } := by
  unfold reserveAgainstBudget at h ⊢
  split_ifs at h ⊢ with hneg
  · cases row with
    | none => cases h
    | some b =>
      dsimp only at h ⊢
      split_ifs at h ⊢ with hlive hless
      have hstatus := (of_decide_eq_true hlive).1
      exact ⟨b, rfl, not_lt.1 hneg, not_lt.1 hless, hstatus, rfl⟩

/-- a reserved amount that is taken back out -/
theorem max_sub_of_mem {outstanding : List ℚ} (hpos : ∀ x ∈ outstanding, 0 ≤ x) {amount : ℚ}
    (h : amount ∈ outstanding) :
    max 0 (outstanding.sum - amount) = (outstanding.erase amount).sum := by
  have herase : amount + (outstanding.erase amount).sum = outstanding.sum := List.sum_erase h
  have hnonneg : 0 ≤ (outstanding.erase amount).sum :=
    List.sum_nonneg fun x hx => hpos x (List.mem_of_mem_erase hx)
  have hsub : outstanding.sum - amount = (outstanding.erase amount).sum := by linarith
  rw [hsub, max_eq_right hnonneg]

theorem Inv.set (h : Inv s) {capUsd : ℚ} {periodStart periodEnd : Option Time}
    (hset : setCostBudget scope s.row capUsd periodStart periodEnd = .ok b') :
    Inv { s with row := some b' } := by
  obtain ⟨hreserved, hspent, hstatus⟩ := setCostBudget_ok hset
  have hboth : b'.reservedUsd = s.outstanding.sum ∧ b'.spentUsd = s.settled := by
    cases hrow : s.row with
    | none =>
      obtain ⟨hnone, hzero⟩ := h.unset hrow
      rw [hreserved, hspent, hrow, hnone, hzero]
      exact ⟨rfl, rfl⟩
    | some b =>
      rw [hreserved, hspent, hrow]
      exact ⟨h.reserved b hrow, h.spent b hrow⟩
  refine ⟨fun x hx => ?_, fun x hx => ?_, nofun, h.capped, h.positive, fun x hx _ => ?_⟩
  · cases hx
    exact hboth.1
  · cases hx
    exact hboth.2
  · cases hx
    exact hstatus

theorem Inv.reserve (h : Inv s) {amountUsd : ℚ} (hrow : s.row = some b) (hpos : 0 ≤ amountUsd)
    (hle : amountUsd ≤ b.remaining) (hstatus : b.status = .active) {now : Time} :
    Inv { s.record (.reserve now amountUsd) with
      row := some { b with reservedUsd := b.reservedUsd + amountUsd } } := by
  have hreserved := h.reserved b hrow
  have hspent := h.spent b hrow
  refine ⟨fun x hx => ?_, fun x hx => ?_, nofun, fun p hp => ?_, ?_, fun x hx _ => ?_⟩
  · cases hx
    show b.reservedUsd + amountUsd = (amountUsd :: s.outstanding).sum
    rw [List.sum_cons, hreserved, add_comm]
  · cases hx
    exact hspent
  · have hp' : p ∈ s.admitted ++ [(s.settled + (amountUsd :: s.outstanding).sum, b.capUsd)] := by
      have hrecord : (s.record (.reserve now amountUsd)).admitted =
          s.admitted ++ [(s.settled + (amountUsd :: s.outstanding).sum, b.capUsd)] := by
        unfold Budgets.record
        rw [hrow]
        rfl
      rw [← hrecord]
      exact hp
    rcases List.mem_append.1 hp' with hp' | hp'
    · exact h.capped p hp'
    · rw [List.mem_singleton.1 hp', List.sum_cons, ← hreserved, ← hspent]
      unfold WorkforceCostBudget.remaining at hle
      show b.spentUsd + (amountUsd + b.reservedUsd) ≤ b.capUsd
      linarith
  · exact List.forall_mem_cons.2 ⟨hpos, h.positive⟩
  · cases hx
    exact hstatus

theorem Inv.settle (h : Inv s) (hrow : s.row = some b) {reservedUsd actualUsd : ℚ}
    (hmem : reservedUsd ∈ s.outstanding) (hpos : 0 ≤ actualUsd)
    (hroom : b.status ≠ .active → b.remaining + reservedUsd - actualUsd ≤ 0)
    (hsettle : settleBudgetReservation s.row reservedUsd actualUsd = .ok b') :
    Inv { s.record (.settle reservedUsd actualUsd) with row := some b' } := by
  have hreserved := max_sub_of_mem h.positive hmem
  have hsum : reservedUsd + (s.outstanding.erase reservedUsd).sum = s.outstanding.sum :=
    List.sum_erase hmem
  have hspent := h.spent b hrow
  rw [← h.reserved b hrow] at hreserved hsum
  rw [hrow] at hsettle
  cases hsettle
  refine ⟨fun x hx => ?_, fun x hx => ?_, nofun, h.capped,
    fun x hx => h.positive x (List.mem_of_mem_erase hx), fun x hx hleft => ?_⟩
  · cases hx
    exact hreserved
  · cases hx
    show b.spentUsd + max 0 actualUsd = s.settled + actualUsd
    rw [hspent, max_eq_right hpos]
  · cases hx
    have hleft' : 0 < b.capUsd - (b.spentUsd + max 0 actualUsd) -
        max 0 (b.reservedUsd - reservedUsd) := hleft
    -- what is left is what was left before, with the difference given back
    have hmore : 0 < b.remaining + reservedUsd - actualUsd := by
      unfold WorkforceCostBudget.remaining
      rw [hreserved, max_eq_right hpos] at hleft'
      linarith
    have hactive : b.status = .active := by
      by_contra hstatus
      exact absurd (hroom hstatus) (not_le.2 hmore)
    show (if b.capUsd - (b.spentUsd + max 0 actualUsd) - max 0 (b.reservedUsd - reservedUsd) ≤ 0
      then BudgetStatus.exhausted else b.status) = .active
    rw [if_neg (not_le.2 hleft'), hactive]

theorem Inv.release (h : Inv s) (hrow : s.row = some b) {amountUsd : ℚ}
    (hmem : amountUsd ∈ s.outstanding)
    (hroom : b.status ≠ .active → b.remaining + amountUsd ≤ 0)
    (hrelease : releaseBudgetReservation s.row amountUsd = .ok b') :
    Inv { s.record (.release amountUsd) with row := some b' } := by
  have hreserved := max_sub_of_mem h.positive hmem
  have hsum : amountUsd + (s.outstanding.erase amountUsd).sum = s.outstanding.sum :=
    List.sum_erase hmem
  rw [← h.reserved b hrow] at hreserved hsum
  rw [hrow] at hrelease
  cases hrelease
  refine ⟨fun x hx => ?_, fun x hx => ?_, nofun, h.capped,
    fun x hx => h.positive x (List.mem_of_mem_erase hx), fun x hx hleft => ?_⟩
  · cases hx
    exact hreserved
  · cases hx
    exact h.spent b hrow
  · cases hx
    have hleft' : 0 < b.capUsd - b.spentUsd - max 0 (b.reservedUsd - amountUsd) := hleft
    have hmore : 0 < b.remaining + amountUsd := by
      unfold WorkforceCostBudget.remaining
      rw [hreserved] at hleft'
      linarith
    by_contra hstatus
    exact absurd (hroom hstatus) (not_le.2 hmore)

theorem flushed_returned {x : Except Err WorkforceCostBudget} (h : (flushed row x).1 = none) :
    ∃ b', x = .ok b' ∧ (flushed row x).2 = some b' := by
  cases x with
  | ok b' => exact ⟨b', rfl, rfl⟩
  | error e => cases h

/-- a settlement or a release of what is reserved finds the budget -/
theorem Inv.exists_row (h : Inv s) {amount : ℚ} (hmem : amount ∈ s.outstanding) :
    ∃ b, s.row = some b := by
  cases hrow : s.row with
  | none =>
    rw [(h.unset hrow).1] at hmem
    cases hmem
  | some b => exact ⟨b, rfl⟩

/-- a call that returns, on the row as it is -/
theorem Inv.returned (h : Inv s) (hc : c.Undisturbed s)
    (hnamed : ∀ amount ∈ c.op.named?, amount ∈ s.outstanding)
    (hreturned : (c.op.effect scope s.row).1 = none) :
    Inv { s.record c.op with row := (c.op.effect scope s.row).2 } := by
  obtain ⟨op, read⟩ := c
  cases op with
  | set capUsd periodStart periodEnd =>
    obtain ⟨b', hok, hrow⟩ := flushed_returned hreturned
    have heffect : ((Op.set capUsd periodStart periodEnd).effect scope s.row).2 = some b' := hrow
    dsimp only
    rw [heffect]
    exact h.set hok
  | reserve now amountUsd =>
    obtain ⟨b, hrow, hpos, hle, hstatus, heq⟩ := reserveAgainstBudget_ok hreturned
    have heffect : ((Op.reserve now amountUsd).effect scope s.row).2 =
        some { b with reservedUsd := b.reservedUsd + amountUsd } := heq
    dsimp only
    rw [heffect]
    exact h.reserve hrow hpos hle hstatus
  | settle reservedUsd actualUsd =>
    obtain ⟨b', hok, heq⟩ := flushed_returned hreturned
    have heffect : ((Op.settle reservedUsd actualUsd).effect scope s.row).2 = some b' := heq
    have hmem := hnamed reservedUsd rfl
    obtain ⟨b, hrow⟩ := h.exists_row hmem
    dsimp only
    rw [heffect]
    exact h.settle hrow hmem (hc.actual actualUsd rfl)
      (fun hstatus => hc.room b hrow hstatus reservedUsd rfl) hok
  | release amountUsd =>
    obtain ⟨b', hok, heq⟩ := flushed_returned hreturned
    have heffect : ((Op.release amountUsd).effect scope s.row).2 = some b' := heq
    have hmem := hnamed amountUsd rfl
    obtain ⟨b, hrow⟩ := h.exists_row hmem
    dsimp only
    rw [heffect]
    refine h.release hrow hmem (fun hstatus => ?_) hok
    have hroom : b.remaining + amountUsd - 0 ≤ 0 := hc.room b hrow hstatus amountUsd rfl
    rwa [sub_zero] at hroom

theorem Inv.commit (h : Inv s) (hc : c.Undisturbed s)
    (hnamed : ∀ amount ∈ c.op.named?, amount ∈ s.outstanding) : Inv (s.commit scope c) := by
  rw [commit_unchanged hc.unchanged]
  split_ifs with hraised
  · exact h.raised hraised
  · exact h.returned hc hnamed (Option.not_isSome_iff_eq_none.1 hraised)

/-! ## runs -/

theorem Inv.of_calls (h : Inv s) (calls : List (Option Call)) : Inv { s with calls := calls } :=
  ⟨h.reserved, h.spent, h.unset, h.capped, h.positive, h.active⟩

theorem Inv.step (h : Inv s) {e : Budgets.Event} (hnamed : Named s e) (hc : Undisturbed s e) :
    Inv (s.step scope e) := by
  cases e with
  | query op => exact h.of_calls _
  | rollback n => exact h.of_calls _
  | commit n =>
    show Inv ((s.call? n).elim s fun c =>
      { s.commit scope c with calls := s.calls.set n none })
    cases hcall : s.call? n with
    | none => exact h
    | some c => exact (h.commit (hc c hcall) (hnamed c hcall)).of_calls _

theorem inv_empty : Inv {} :=
  ⟨nofun, nofun, fun _ => ⟨rfl, rfl⟩, fun _ h => absurd h List.not_mem_nil,
    fun _ h => absurd h List.not_mem_nil, nofun⟩

theorem meets_and {σ ι : Type} {step : σ → ι → σ} {C D : σ → ι → Prop} {s : σ} {os : List ι}
    (hC : Meets step C s os) (hD : Meets step D s os) :
    Meets step (fun s o => C s o ∧ D s o) s os := by
  induction os generalizing s with
  | nil => trivial
  | cons o os ih => exact ⟨⟨hC.1, hD.1⟩, ih hC.2 hD.2⟩

/-- **budgets are exact** along every run whose settlements and releases name amounts that are
reserved, when no call commits over a row that has changed since it read it, no actual amount is
negative, and no settlement or release gives room back to a budget that is not active -/
theorem exact_of_undisturbed (scope : Scope) (es : List Budgets.Event)
    (hnamed : Meets (Budgets.step scope) Named {} es)
    (hundisturbed : Meets (Budgets.step scope) Undisturbed {} es) :
    Always (Budgets.step scope) (Exact scope) {} es :=
  always (I := Inv) (fun _ h => h.exact) (fun _ _ h hc => h.step hc.1 hc.2) inv_empty
    (meets_and hnamed hundisturbed)

/-- one call after the other: three dollars of ten are reserved and settled for two -/
def oneByOne : List Budgets.Event :=
  [.query (.set 10 none none), .commit 0, .query (.reserve 1 3), .commit 1,
    .query (.settle 3 2), .commit 2]

theorem exact_one_by_one :
    Always (Budgets.step ⟨"team", "t"⟩) (Exact ⟨"team", "t"⟩) {} oneByOne :=
  exact_of_undisturbed _ _ (by decide +kernel) (by decide +kernel)

/-- two reservations read the row before either commits -/
def overlapping : List Budgets.Event :=
  [.query (.set 10 none none), .commit 0, .query (.reserve 1 3), .query (.reserve 1 4),
    .commit 1, .commit 2]

/-- the first of the two is lost -/
theorem overlapping_not_exact : Meets (Budgets.step ⟨"team", "t"⟩) Named {} overlapping ∧
    ¬ Always (Budgets.step ⟨"team", "t"⟩) (Exact ⟨"team", "t"⟩) {} overlapping := by
  refine ⟨by decide +kernel, fun h => ?_⟩
  have hlast : (run (Budgets.step ⟨"team", "t"⟩) {} overlapping).row =
      some { capUsd := 10, reservedUsd := 4 } := by decide +kernel
  have hsum : (run (Budgets.step ⟨"team", "t"⟩) {} overlapping).outstanding = [4, 3] := by
    decide +kernel
  have hreserved := h.run.reserved _ hlast
  rw [hsum] at hreserved
  revert hreserved
  decide +kernel

/-- a release after the budget was found exhausted: it has room again, and refuses -/
example : (run (Budgets.step ⟨"team", "t"⟩) {}
    [.query (.set 10 none none), .commit 0, .query (.reserve 1 10), .commit 1,
      .query (.reserve 2 1), .commit 2, .query (.release 10), .commit 3]).row =
    some { capUsd := 10, status := .exhausted } := by decide +kernel

end LifeAI.Cost
