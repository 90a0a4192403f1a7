import LifeAI.Lib.Ledger
import LifeAI.Base
import Mathlib.Tactic.Positivity
import Mathlib.Tactic.Linarith
import Mathlib.Tactic.Ring

/-!
# Amounts of provider spend

`Amounts` is one request count, two token counts and a cost in micro-dollars, added and compared
column by column.  `Decimal` is the amount as a caller writes it; a `numeric(14,6)` column rounds
it half away from zero (`Decimal.stored`), `quantize` in Python rounds it half to even
(`Decimal.quantized`).
-/

namespace LifeAI

@[ext]
structure Amounts where
  requests : Int
  promptTokens : Int
  completionTokens : Int
  costUsd : Int
  deriving DecidableEq

namespace Amounts

instance : Zero Amounts := ⟨⟨0, 0, 0, 0⟩⟩
instance : Add Amounts := ⟨fun a b => ⟨a.requests + b.requests, a.promptTokens + b.promptTokens,
  a.completionTokens + b.completionTokens, a.costUsd + b.costUsd⟩⟩
instance : Neg Amounts :=
  ⟨fun a => ⟨-a.requests, -a.promptTokens, -a.completionTokens, -a.costUsd⟩⟩
instance : Sub Amounts := ⟨fun a b => ⟨a.requests - b.requests, a.promptTokens - b.promptTokens,
  a.completionTokens - b.completionTokens, a.costUsd - b.costUsd⟩⟩
/-- column by column -/
instance : LE Amounts := ⟨fun a b => a.requests ≤ b.requests ∧ a.promptTokens ≤ b.promptTokens ∧
  a.completionTokens ≤ b.completionTokens ∧ a.costUsd ≤ b.costUsd⟩

@[simp] theorem requests_zero : (0 : Amounts).requests = 0 := rfl
@[simp] theorem promptTokens_zero : (0 : Amounts).promptTokens = 0 := rfl
@[simp] theorem completionTokens_zero : (0 : Amounts).completionTokens = 0 := rfl
@[simp] theorem costUsd_zero : (0 : Amounts).costUsd = 0 := rfl
@[simp] theorem requests_add (a b : Amounts) : (a + b).requests = a.requests + b.requests := rfl
@[simp] theorem promptTokens_add (a b : Amounts) :
    (a + b).promptTokens = a.promptTokens + b.promptTokens := rfl
@[simp] theorem completionTokens_add (a b : Amounts) :
    (a + b).completionTokens = a.completionTokens + b.completionTokens := rfl
@[simp] theorem costUsd_add (a b : Amounts) : (a + b).costUsd = a.costUsd + b.costUsd := rfl
@[simp] theorem requests_sub (a b : Amounts) : (a - b).requests = a.requests - b.requests := rfl
@[simp] theorem promptTokens_sub (a b : Amounts) :
    (a - b).promptTokens = a.promptTokens - b.promptTokens := rfl
@[simp] theorem completionTokens_sub (a b : Amounts) :
    (a - b).completionTokens = a.completionTokens - b.completionTokens := rfl
@[simp] theorem costUsd_sub (a b : Amounts) : (a - b).costUsd = a.costUsd - b.costUsd := rfl
@[simp] theorem requests_neg (a : Amounts) : (-a).requests = -a.requests := rfl
@[simp] theorem promptTokens_neg (a : Amounts) : (-a).promptTokens = -a.promptTokens := rfl
@[simp] theorem completionTokens_neg (a : Amounts) :
    (-a).completionTokens = -a.completionTokens := rfl
@[simp] theorem costUsd_neg (a : Amounts) : (-a).costUsd = -a.costUsd := rfl

theorem le_iff {a b : Amounts} : a ≤ b ↔ a.requests ≤ b.requests ∧
    a.promptTokens ≤ b.promptTokens ∧ a.completionTokens ≤ b.completionTokens ∧
    a.costUsd ≤ b.costUsd := Iff.rfl

instance : DecidableLE Amounts := fun a b => decidable_of_iff _ (le_iff (a := a) (b := b)).symm

instance : AddCommGroup Amounts where
  add_assoc a b c := by ext <;> simp [Int.add_assoc]
  zero_add a := by ext <;> simp
  add_zero a := by ext <;> simp
  add_comm a b := by ext <;> simp [Int.add_comm]
  neg_add_cancel a := by ext <;> simp
  sub_eq_add_neg a b := by ext <;> simp <;> omega
  nsmul := nsmulRec
  zsmul := zsmulRec

instance : PartialOrder Amounts where
  le_refl a := by simp [le_iff]
  le_trans a b c h1 h2 := by
    rw [le_iff] at *
    omega
  le_antisymm a b h1 h2 := by
    rw [le_iff] at h1 h2
    ext <;> omega

instance : IsOrderedAddMonoid Amounts where
  add_le_add_left a b h c := by
    rw [le_iff] at *
    simp only [requests_add, promptTokens_add, completionTokens_add, costUsd_add]
    omega

end Amounts

/-! ## decimal amounts -/

/-- `digits · 10^(-scale)` dollars -/
structure Decimal where
  digits : Int
  scale : Nat := 0
  deriving DecidableEq

namespace Decimal

/-- how a `numeric(14,6)` column stores the amount: micro-dollars, half away from zero -/
def stored (d : Decimal) : Int :=
  if d.scale ≤ 6 then d.digits * 10 ^ (6 - d.scale)
  else
    let m : Int := 10 ^ (d.scale - 6)
    if 0 ≤ d.digits then (2 * d.digits + m) / (2 * m) else -((2 * (-d.digits) + m) / (2 * m))

/-- `quantize(Decimal("0.000001"))`: micro-dollars, half to even -/
def quantized (d : Decimal) : Int :=
  if d.scale ≤ 6 then d.digits * 10 ^ (6 - d.scale)
  else
    let m : Int := 10 ^ (d.scale - 6)
    let q := d.digits / m
    let r := d.digits % m
    if 2 * r < m ∨ (2 * r = m ∧ q % 2 = 0) then q else q + 1

/-- the amount is at most `n` micro-dollars -/
def leMicros (d : Decimal) (n : Int) : Bool := d.digits * 10 ^ 6 ≤ n * 10 ^ d.scale

theorem stored_nonneg {d : Decimal} (h : 0 ≤ d.digits) : 0 ≤ d.stored := by
  unfold stored
  split
  · positivity
  · exact Int.ediv_nonneg (by positivity) (by positivity)

/-- storing never rounds past a stored bound -/
theorem stored_le {d : Decimal} {n : Int} (h0 : 0 ≤ d.digits) (h : d.leMicros n) :
    d.stored ≤ n := by
  have hle : d.digits * 10 ^ 6 ≤ n * 10 ^ d.scale := by simpa [leMicros] using h
  unfold stored
  split
  · next hs =>
    have hp : (10 : Int) ^ 6 = 10 ^ (6 - d.scale) * 10 ^ d.scale := by
      rw [← pow_add, Nat.sub_add_cancel hs]
    rw [hp, ← mul_assoc] at hle
    exact le_of_mul_le_mul_right hle (by positivity)
  · next hs =>
    show (2 * d.digits + 10 ^ (d.scale - 6)) / (2 * 10 ^ (d.scale - 6)) ≤ n
    have hm : (0 : Int) < 10 ^ (d.scale - 6) := by positivity
    have hp : (10 : Int) ^ d.scale = 10 ^ (d.scale - 6) * 10 ^ 6 := by
      rw [← pow_add, Nat.sub_add_cancel (by omega)]
    rw [hp, ← mul_assoc] at hle
    have h1 : d.digits ≤ n * 10 ^ (d.scale - 6) := le_of_mul_le_mul_right hle (by positivity)
    rw [Int.ediv_le_iff_le_mul (by linarith)]
    nlinarith

end Decimal

end LifeAI
