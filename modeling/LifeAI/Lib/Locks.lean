import Mathlib.Data.List.Basic

/-!
# Row locks

Transactions stand in a list, and `holds x r` says that a transaction at the stage `x` has locked
the row `r`.

* `heldByOther`  another transaction holds the row: who asks for it waits;
* `Exclusive`    no row is held twice; kept by `Exclusive.append`, and by `Exclusive.set` when the
                 rows that a transaction newly locks are free.
-/

namespace Locks

variable {τ ρ : Type*} (holds : τ → ρ → Bool)

/-- a transaction other than the `n`-th holds the row -/
def heldByOther (txs : List τ) (n : Nat) (r : ρ) : Bool :=
  (List.range txs.length).any fun m => m ≠ n ∧ (txs[m]?).any (holds · r)

/-- no row is held by two transactions -/
def Exclusive (txs : List τ) : Prop :=
  ∀ (m n : Nat) (x y : τ) (r : ρ), txs[m]? = some x → txs[n]? = some y → holds x r → holds y r →
    m = n

variable {holds} {txs : List τ} {n : Nat} {x x' : τ}

theorem heldByOther_iff {r : ρ} :
    heldByOther holds txs n r ↔ ∃ (m : Nat) (y : τ), m ≠ n ∧ txs[m]? = some y ∧ holds y r := by
  unfold heldByOther
  rw [List.any_eq_true]
  constructor
  · rintro ⟨m, -, hm⟩
    obtain ⟨hne, hany⟩ := of_decide_eq_true hm
    obtain ⟨y, hy, hr⟩ := (Option.any_eq_true _ _).1 hany
    exact ⟨m, y, hne, hy, hr⟩
  · rintro ⟨m, y, hne, hy, hr⟩
    refine ⟨m, List.mem_range.2 (List.getElem?_eq_some_iff.1 hy).1, decide_eq_true ⟨hne, ?_⟩⟩
    exact (Option.any_eq_true _ _).2 ⟨y, hy, hr⟩

theorem Exclusive.nil : Exclusive holds [] := by
  intro m n x y r hx
  exact absurd hx (by simp)

/-- a transaction that starts holds nothing -/
theorem Exclusive.append (h : Exclusive holds txs) (hx : ∀ r, ¬ holds x r) :
    Exclusive holds (txs ++ [x]) := by
  have hold : ∀ (m : Nat) (y : τ) (r : ρ), (txs ++ [x])[m]? = some y → holds y r →
      txs[m]? = some y := by
    intro m y r hy hr
    rw [List.getElem?_append] at hy
    split at hy
    · exact hy
    · have : y = x := by simpa using (List.mem_of_getElem? hy)
      exact absurd (this ▸ hr) (hx r)
  intro m n y z r hy hz hyr hzr
  exact h m n y z r (hold m y r hy hyr) (hold n z r hz hzr) hyr hzr

/-- a transaction goes on with rows that it held, or that no other one holds -/
theorem Exclusive.set (h : Exclusive holds txs) (hn : txs[n]? = some x)
    (hfree : ∀ r, holds x' r → holds x r ∨ ¬ heldByOther holds txs n r) :
    Exclusive holds (txs.set n x') := by
  have hlt : n < txs.length := (List.getElem?_eq_some_iff.1 hn).1
  have hother : ∀ (m : Nat) (y : τ) (r : ρ), m ≠ n → txs[m]? = some y → holds y r →
      ¬ holds x' r := by
    intro m y r hmn hy hyr hr
    rcases hfree r hr with hxr | hno
    · exact hmn (h m n y x r hy hn hyr hxr)
    · exact hno (heldByOther_iff.2 ⟨m, y, hmn, hy, hyr⟩)
  have hrow : ∀ (m : Nat) (y : τ), (txs.set n x')[m]? = some y → m ≠ n → txs[m]? = some y := by
    intro m y hy hmn
    rwa [List.getElem?_set_ne (Ne.symm hmn)] at hy
  have hself : ∀ y : τ, (txs.set n x')[n]? = some y → y = x' := by
    intro y hy
    rw [List.getElem?_set_self hlt] at hy
    exact (Option.some.inj hy).symm
  intro m l y z r hy hz hyr hzr
  by_cases hm : m = n
  · subst hm
    by_cases hl : l = m
    · exact hl.symm
    · exact absurd (hself y hy ▸ hyr) (hother l z r hl (hrow l z hz hl) hzr)
  · by_cases hl : l = n
    · subst hl
      exact absurd (hself z hz ▸ hzr) (hother m y r hm (hrow m y hy hm) hyr)
    · exact h m l y z r (hrow m y hy hm) (hrow l z hz hl) hyr hzr

/-- what a transaction holds, no other one holds -/
theorem Exclusive.eq_of_holds (h : Exclusive holds txs) {m : Nat} {y : τ} {r : ρ}
    (hn : txs[n]? = some x) (hm : txs[m]? = some y) (hx : holds x r) (hy : holds y r) : n = m :=
  h n m x y r hn hm hx hy

end Locks
