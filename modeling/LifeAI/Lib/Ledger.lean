import Mathlib.Algebra.Order.BigOperators.Group.List
import Mathlib.Tactic.Abel

/-!
# Sums over the rows of a table

`total p v es` is the sum of `v` over the entries that satisfy `p`.  A counter kept beside the
table equals such a total as long as every append and every overwrite of an entry moves it by
what `total_append` and `total_set` say.
-/

namespace Ledger

variable {ε M : Type*}

section
variable [AddCommMonoid M]

/-- the sum of `v` over the entries that satisfy `p` -/
def total (p : ε → Bool) (v : ε → M) (es : List ε) : M :=
  (es.map fun e => if p e then v e else 0).sum

variable (p : ε → Bool) (v : ε → M)

theorem total_nil : total p v [] = 0 := rfl
theorem total_cons (e : ε) (es : List ε) :
    total p v (e :: es) = (if p e then v e else 0) + total p v es := by
  simp [total]
theorem total_append (a b : List ε) : total p v (a ++ b) = total p v a + total p v b := by
  simp [total, List.sum_append]
theorem total_snoc (es : List ε) (e : ε) :
    total p v (es ++ [e]) = total p v es + if p e then v e else 0 := by
  rw [total_append, total_cons, total_nil, add_zero]

/-- nothing satisfies `p` -/
theorem total_eq_zero {es : List ε} (h : ∀ e ∈ es, p e = false) : total p v es = 0 := by
  induction es with
  | nil => rfl
  | cons e es ih =>
    rw [total_cons, h e (by simp), ih fun x hx => h x (by simp [hx])]
    simp

theorem total_eq_sum_filter (es : List ε) : total p v es = ((es.filter p).map v).sum := by
  induction es with
  | nil => rfl
  | cons e es ih =>
    rw [total_cons, ih]
    cases h : p e <;> simp [h]

theorem total_nonneg [PartialOrder M] [IsOrderedAddMonoid M] {es : List ε}
    (h : ∀ e ∈ es, 0 ≤ v e) : 0 ≤ total p v es := by
  refine List.sum_nonneg fun x hx => ?_
  obtain ⟨e, he, rfl⟩ := List.mem_map.1 hx
  split
  · exact h e he
  · exact le_refl 0

end

/-- overwriting one entry takes its old share out and puts its new share in -/
theorem total_set [AddCommGroup M] (p : ε → Bool) (v : ε → M) {es : List ε} {i : Nat} {e : ε}
    (he : es[i]? = some e) (e' : ε) :
    total p v (es.set i e')
      = total p v es - (if p e then v e else 0) + (if p e' then v e' else 0) := by
  induction es generalizing i with
  | nil => exact absurd he (by simp)
  | cons x xs ih =>
    cases i with
    | zero =>
      obtain rfl : x = e := by simpa using he
      rw [List.set_cons_zero, total_cons, total_cons]
      abel
    | succ i =>
      rw [List.set_cons_succ, total_cons, total_cons, ih (by simpa using he)]
      abel

end Ledger
