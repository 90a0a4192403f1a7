import Mathlib.Data.List.Pairwise
import Mathlib.Data.List.Sort

/-!
# A sequence that two rules number

Rows carry an ordinal or none; a new row gets the `next` ordinal at once, and the rows that had
none are ranked later, all of them together.  `early` rows are the ranked ones.

* `missing`  how many rows have no ordinal;
* `next`     the ordinal of a new row: one more than every ordinal and than the number of rows;
* `Sound`    the ordinals are positive and distinct, those of new rows exceed `missing` and the
             ranks, and a ranked row leaves none without;
* `Sound.sublist`, `Sound.snoc`, `Sound.rank`   rows go, a row comes, the rest is ranked;
* `Ranks`    what a ranking needs.
-/

namespace Ordinals

variable {ρ : Type*} (num : ρ → Option ℕ) (early : ρ → Bool)

/-- how many rows have no ordinal -/
def missing (rows : List ρ) : ℕ := rows.countP fun r => (num r).isNone

/-- the ordinals that are given -/
def given (rows : List ρ) : List ℕ := rows.filterMap num

/-- the ordinal of a new row -/
def next (rows : List ρ) : ℕ := max ((given num rows).max?.getD 0) rows.length + 1

structure Sound (rows : List ρ) : Prop where
  positive : ∀ r ∈ rows, ∀ n, num r = some n → 0 < n
  distinct : rows.Pairwise fun r r' => ∀ n, num r = some n → num r' ≠ some n
  above : ∀ r ∈ rows, ¬ early r → ∀ n, num r = some n → missing num rows < n
  below : ∀ r ∈ rows, ∀ r' ∈ rows, early r → ¬ early r' →
    ∀ n n', num r = some n → num r' = some n' → n < n'
  complete : ∀ r ∈ rows, early r → num r ≠ none → missing num rows = 0

variable {num early} {rows rows' : List ρ} {r : ρ} {n : ℕ}

theorem mem_given : n ∈ given num rows ↔ ∃ r ∈ rows, num r = some n := List.mem_filterMap

theorem missing_le_length : missing num rows ≤ rows.length := List.countP_le_length

theorem missing_le (h : rows'.Sublist rows) : missing num rows' ≤ missing num rows :=
  h.countP_le

theorem missing_append (rows rows' : List ρ) :
    missing num (rows ++ rows') = missing num rows + missing num rows' := List.countP_append

theorem missing_pos (hr : r ∈ rows) (hn : num r = none) : 0 < missing num rows :=
  List.countP_pos_iff.2 ⟨r, hr, by rw [hn]; rfl⟩

/-- every ordinal that is given is below the next one -/
theorem lt_next (hr : r ∈ rows) (hn : num r = some n) : n < next num rows := by
  have hmem : n ∈ given num rows := mem_given.2 ⟨r, hr, hn⟩
  have hle : n ≤ (given num rows).max?.getD 0 := by
    cases hmax : (given num rows).max? with
    | none =>
      rw [List.max?_eq_none_iff] at hmax
      rw [hmax] at hmem
      cases hmem
    | some k => exact (List.max?_eq_some_iff.1 hmax).2 n hmem
  have hmax : (given num rows).max?.getD 0 ≤ max ((given num rows).max?.getD 0) rows.length :=
    le_max_left _ _
  exact Nat.lt_succ_of_le (hle.trans hmax)

/-- so is the number of rows without one -/
theorem missing_lt_next : missing num rows < next num rows := by
  have hmax : rows.length ≤ max ((given num rows).max?.getD 0) rows.length := le_max_right _ _
  exact Nat.lt_succ_of_le (missing_le_length.trans hmax)

namespace Sound

theorem sublist (h : Sound num early rows) (hsub : rows'.Sublist rows) :
    Sound num early rows' := by
  have hmiss : missing num rows' ≤ missing num rows := missing_le hsub
  refine ⟨fun r hr => h.positive r (hsub.mem hr), h.distinct.sublist hsub, ?_, ?_, ?_⟩
  · intro r hr he n hn
    exact lt_of_le_of_lt hmiss (h.above r (hsub.mem hr) he n hn)
  · intro r hr r' hr'
    exact h.below r (hsub.mem hr) r' (hsub.mem hr')
  · intro r hr he hn
    have hzero := h.complete r (hsub.mem hr) he hn
    omega

theorem of_unnumbered (h : ∀ r ∈ rows, num r = none) : Sound num early rows := by
  have hno : ∀ r ∈ rows, ∀ n, num r ≠ some n := fun r hr n hn => by simp [h r hr] at hn
  refine ⟨?_, ?_, ?_, ?_, ?_⟩
  · intro r hr n hn
    exact absurd hn (hno r hr n)
  · exact List.pairwise_of_forall_mem_list fun r hr _ _ n hn => absurd hn (hno r hr n)
  · intro r hr _ n hn
    exact absurd hn (hno r hr n)
  · intro r hr _ _ _ _ n _ hn
    exact absurd hn (hno r hr n)
  · intro r hr _ hn
    exact absurd (h r hr) hn

/-- a new row with the next ordinal -/
theorem snoc (h : Sound num early rows) (hn : num r = some (next num rows)) (he : ¬ early r) :
    Sound num early (rows ++ [r]) := by
  have hmiss : missing num (rows ++ [r]) = missing num rows := by
    rw [missing_append]
    show missing num rows + List.countP _ [r] = _
    rw [List.countP_singleton, hn]
    rfl
  have hmem : ∀ q ∈ rows ++ [r], q ∈ rows ∨ q = r := by
    intro q hq
    rcases List.mem_append.1 hq with hq | hq
    · exact .inl hq
    · exact .inr (List.mem_singleton.1 hq)
  refine ⟨?_, ?_, ?_, ?_, ?_⟩
  · intro q hq k hk
    rcases hmem q hq with hq | rfl
    · exact h.positive q hq k hk
    · obtain rfl : next num rows = k := Option.some.inj (hn.symm.trans hk)
      exact Nat.succ_pos _
  · refine List.pairwise_append.2 ⟨h.distinct, List.pairwise_singleton _ _, ?_⟩
    intro q hq q' hq' k hk hk'
    rw [List.mem_singleton.1 hq', hn] at hk'
    have hlt : k < next num rows := lt_next hq hk
    have hkk : next num rows = k := Option.some.inj hk'
    omega
  · intro q hq hlate k hk
    rw [hmiss]
    rcases hmem q hq with hq | rfl
    · exact h.above q hq hlate k hk
    · obtain rfl : next num rows = k := Option.some.inj (hn.symm.trans hk)
      exact missing_lt_next
  · intro q hq q' hq' hearly hlate k k' hk hk'
    rcases hmem q hq with hold | rfl
    · rcases hmem q' hq' with hold' | rfl
      · exact h.below q hold q' hold' hearly hlate k k' hk hk'
      · obtain rfl : next num rows = k' := Option.some.inj (hn.symm.trans hk')
        exact lt_next hold hk
    · exact absurd hearly he
  · intro q hq hearly hnum
    rw [hmiss]
    rcases hmem q hq with hq | rfl
    · exact h.complete q hq hearly hnum
    · exact absurd hearly he

/-- no two rows share an ordinal -/
theorem eq_of_num (h : Sound num early rows) {q : ρ} (hr : r ∈ rows) (hq : q ∈ rows)
    (hn : num r = some n) (hn' : num q = some n) : r = q := by
  by_contra hne
  have hsymm : Std.Symm fun r r' => ∀ n, num r = some n → num r' ≠ some n :=
    ⟨fun _ _ hrel k hk hk' => hrel k hk' hk⟩
  exact h.distinct.forall hr hq hne n hn hn'

/-- while a row has no ordinal, the ordinals that are given exceed the number of such rows -/
theorem missing_lt (h : Sound num early rows) {q : ρ} (hq : q ∈ rows) (hnone : num q = none)
    (hr : r ∈ rows) (hn : num r = some n) : missing num rows < n := by
  by_cases he : early r
  · have hzero := h.complete r hr he (by rw [hn]; exact Option.some_ne_none n)
    have hpos := missing_pos hq hnone
    omega
  · exact h.above r hr he n hn

end Sound

/-! ## ranks -/

variable {κ : Type*}

/-- `rank` is fit to number the rows without an ordinal: it is positive, below the ordinals that are
given, and tells the rows apart -/
structure Ranks (num : ρ → Option ℕ) (rank : ρ → Option ℕ) (rows : List ρ) : Prop where
  covers : ∀ r ∈ rows, num r = none → ∃ k, rank r = some k ∧ 0 < k
  fits : ∀ r ∈ rows, num r = none → ∀ k, rank r = some k → ∀ q ∈ rows, ∀ n, num q = some n → k < n
  apart : rows.Pairwise fun r q => num r = none → num q = none → ∀ k, rank r = some k → rank q ≠ some k

theorem Ranks.sublist {rank : ρ → Option ℕ} (h : Ranks num rank rows)
    (hsub : rows'.Sublist rows) : Ranks num rank rows' := by
  refine ⟨fun r hr => h.covers r (hsub.mem hr), fun r hr hn k hk q hq => ?_, h.apart.sublist hsub⟩
  exact h.fits r (hsub.mem hr) hn k hk q (hsub.mem hq)

/-- the rows without an ordinal get their ranks -/
theorem Sound.rank {rank : ρ → Option ℕ} {f : ρ → ρ} (h : Sound num early rows)
    (hrank : Ranks num rank rows)
    (hsome : ∀ r ∈ rows, num r ≠ none → f r = r)
    (hnone : ∀ r ∈ rows, num r = none → num (f r) = rank r ∧ early (f r)) :
    Sound num early (rows.map f) := by
  have hcase : ∀ r ∈ rows, ∀ n, num (f r) = some n →
      num r = some n ∧ f r = r ∨ num r = none ∧ rank r = some n ∧ early (f r) := by
    intro r hr n hn
    cases hnum : num r with
    | none =>
      obtain ⟨hk, he⟩ := hnone r hr hnum
      exact .inr ⟨rfl, hk.symm.trans hn, he⟩
    | some k =>
      have hf : f r = r := hsome r hr (by rw [hnum]; exact Option.some_ne_none k)
      rw [hf, hnum] at hn
      exact .inl ⟨hn, hf⟩
  have hmiss : missing num (rows.map f) = 0 := by
    unfold missing
    rw [List.countP_eq_zero]
    intro q hq hnull
    obtain ⟨r, hr, rfl⟩ := List.mem_map.1 hq
    rw [Option.isNone_iff_eq_none] at hnull
    cases hnum : num r with
    | none =>
      obtain ⟨k, hk, -⟩ := hrank.covers r hr hnum
      rw [(hnone r hr hnum).1, hk] at hnull
      cases hnull
    | some k =>
      rw [hsome r hr (by rw [hnum]; exact Option.some_ne_none k), hnum] at hnull
      cases hnull
  refine ⟨?_, ?_, ?_, ?_, fun _ _ _ _ => hmiss⟩
  · intro q hq n hn
    obtain ⟨r, hr, rfl⟩ := List.mem_map.1 hq
    rcases hcase r hr n hn with ⟨hn, -⟩ | ⟨hnum, hk, -⟩
    · exact h.positive r hr n hn
    · obtain ⟨k, hk', hpos⟩ := hrank.covers r hr hnum
      obtain rfl : k = n := Option.some.inj (hk'.symm.trans hk)
      exact hpos
  · rw [List.pairwise_map]
    refine (h.distinct.and hrank.apart).imp_of_mem fun {r q} hr hq hrq n hn hn' => ?_
    obtain ⟨hd, ha⟩ := hrq
    rcases hcase r hr n hn with ⟨hn, -⟩ | ⟨hnum, hk, -⟩ <;>
      rcases hcase q hq n hn' with ⟨hn', -⟩ | ⟨hnum', hk', -⟩
    · exact hd n hn hn'
    · exact absurd (hrank.fits q hq hnum' n hk' r hr n hn) (lt_irrefl n)
    · exact absurd (hrank.fits r hr hnum n hk q hq n hn') (lt_irrefl n)
    · exact ha hnum hnum' n hk hk'
  · intro q hq _ n hn
    rw [hmiss]
    obtain ⟨r, hr, rfl⟩ := List.mem_map.1 hq
    rcases hcase r hr n hn with ⟨hn, -⟩ | ⟨hnum, hk, -⟩
    · exact h.positive r hr n hn
    · obtain ⟨k, hk', hpos⟩ := hrank.covers r hr hnum
      obtain rfl : k = n := Option.some.inj (hk'.symm.trans hk)
      exact hpos
  · intro q hq q' hq' hearly hlate n n' hn hn'
    obtain ⟨r, hr, rfl⟩ := List.mem_map.1 hq
    obtain ⟨r', hr', rfl⟩ := List.mem_map.1 hq'
    rcases hcase r' hr' n' hn' with ⟨hn', hf'⟩ | ⟨-, -, he⟩
    · rcases hcase r hr n hn with ⟨hn, hf⟩ | ⟨hnum, hk, -⟩
      · rw [hf] at hearly
        rw [hf'] at hlate
        exact h.below r hr r' hr' hearly hlate n n' hn hn'
      · exact hrank.fits r hr hnum n hk r' hr' n' hn'
    · exact absurd he hlate

end Ordinals
