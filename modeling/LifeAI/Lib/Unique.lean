import Mathlib.Data.List.Pairwise

/-!
# A unique index under concurrent inserts

`clash a b` says that two rows may not both stand in the table.  A transaction that has inserted
a row and has not yet committed holds it as a pending one; an insert waits for the transaction
that holds a clashing row, and fails on a committed one.

* `Guarded`  no two committed or pending rows clash; kept by `insert`, `commit` and `drop`;
* `Guarded.eq_of_clash`  clashing committed rows are the same row.
-/

namespace Unique

variable {ρ κ : Type*} {clash : ρ → ρ → Prop}

/-- no two rows, committed or pending, clash -/
structure Guarded (clash : ρ → ρ → Prop) (rows : List ρ) (pending : κ → Option ρ) : Prop where
  distinct : rows.Pairwise fun a b => ¬ clash a b
  free : ∀ k p, pending k = some p → ∀ r ∈ rows, ¬ clash r p
  apart : ∀ k l p q, k ≠ l → pending k = some p → pending l = some q → ¬ clash p q

namespace Guarded

variable {rows : List ρ} {pending pending' : κ → Option ρ}

theorem empty : Guarded clash [] fun _ : κ => none := by
  refine ⟨.nil, fun _ _ h => ?_, fun _ _ _ _ _ h => ?_⟩
  · exact absurd h (by simp)
  · exact absurd h (by simp)

/-- pending rows may vanish -/
theorem drop (h : Guarded clash rows pending)
    (hsub : ∀ k p, pending' k = some p → pending k = some p) : Guarded clash rows pending' :=
  ⟨h.distinct, fun k p hp => h.free k p (hsub k p hp),
    fun k l p q hkl hp hq => h.apart k l p q hkl (hsub k p hp) (hsub l q hq)⟩

/-- a row that clashes with no other one becomes pending -/
theorem insert [Std.Symm clash] (h : Guarded clash rows pending) {k : κ} {p : ρ} (hrows : ∀ r ∈ rows, ¬ clash r p)
    (hpend : ∀ l q, l ≠ k → pending l = some q → ¬ clash q p)
    (hk : pending' k = some p) (hother : ∀ l, l ≠ k → pending' l = pending l) :
    Guarded clash rows pending' := by
  refine ⟨h.distinct, fun l q hq => ?_, fun l m q q' hlm hq hq' => ?_⟩
  · by_cases hl : l = k
    · subst hl
      rw [hk] at hq
      cases hq
      exact hrows
    · exact h.free l q (hother l hl ▸ hq)
  · by_cases hl : l = k
    · subst hl
      rw [hk] at hq
      cases hq
      have hm : m ≠ l := Ne.symm hlm
      exact fun hc => hpend m q' hm (hother m hm ▸ hq') (Std.Symm.symm _ _ hc)
    · by_cases hm : m = k
      · subst hm
        rw [hk] at hq'
        cases hq'
        exact hpend l q hl (hother l hl ▸ hq)
      · exact h.apart l m q q' hlm (hother l hl ▸ hq) (hother m hm ▸ hq')

/-- a pending row is committed -/
theorem commit (h : Guarded clash rows pending) {k : κ} {p : ρ} (hp : pending k = some p)
    (hk : pending' k = none) (hother : ∀ l, l ≠ k → pending' l = pending l) :
    Guarded clash (rows ++ [p]) pending' := by
  have hne : ∀ l q, pending' l = some q → l ≠ k ∧ pending l = some q := by
    intro l q hq
    have hl : l ≠ k := by
      rintro rfl
      rw [hk] at hq
      exact absurd hq (by simp)
    exact ⟨hl, hother l hl ▸ hq⟩
  refine ⟨?_, fun l q hq => ?_, fun l m q q' hlm hq hq' =>
    h.apart l m q q' hlm (hne l q hq).2 (hne m q' hq').2⟩
  · rw [List.pairwise_append]
    refine ⟨h.distinct, List.pairwise_singleton _ _, fun r hr s hs => ?_⟩
    rw [List.mem_singleton.1 hs]
    exact h.free k p hp r hr
  · obtain ⟨hl, hq⟩ := hne l q hq
    intro r hr
    rcases List.mem_append.1 hr with hr | hr
    · exact h.free l q hq r hr
    · rw [List.mem_singleton.1 hr]
      exact h.apart k l p q (Ne.symm hl) hp hq

theorem eq_of_clash [Std.Symm clash] (h : Guarded clash rows pending) {a b : ρ} (ha : a ∈ rows)
    (hb : b ∈ rows) (hc : clash a b) : a = b := by
  have : Std.Symm fun a b => ¬ clash a b := ⟨fun _ _ hab hba => hab (Std.Symm.symm _ _ hba)⟩
  by_contra hne
  exact h.distinct.forall ha hb hne hc

end Guarded

end Unique
