import Mathlib.Data.List.Infix

/-!
# Parts around a separator

A separator of two elements `a`, `b` that differ.

* `split`      the parts between the separators, found from the left;
* `split_append`  a part that does not hold the separator is found before one;
* `mem_split`  no part holds it;
* `split_intercalate_iff`  parts that are joined come back exactly if none of them holds it.
-/

namespace Separator

variable {α : Type*} [DecidableEq α] (a b : α)

/-- `s.split(sep)` -/
def split : List α → List (List α)
  | [] => [[]]
  | [x] => [[x]]
  | x :: y :: s =>
    if x = a ∧ y = b then [] :: split s else (split (y :: s)).modifyHead (x :: ·)

variable {a b} {part s t : List α} {parts : List (List α)} {x : α}

omit [DecidableEq α] in
theorem not_infix_of_cons (h : ¬ [a, b] <:+: x :: s) : ¬ [a, b] <:+: s :=
  fun hs => h (hs.trans (List.suffix_cons x s).isInfix)

/-- the separator does not begin at `x` -/
theorem split_cons (h : ¬ [a, b] <+: x :: s) (hs : s ≠ []) :
    split a b (x :: s) = (split a b s).modifyHead (x :: ·) := by
  obtain ⟨y, s, rfl⟩ := List.exists_cons_of_ne_nil hs
  refine if_neg ?_
  intro hab
  obtain ⟨rfl, rfl⟩ := hab
  exact h ⟨s, rfl⟩

theorem split_sep (a b : α) (s : List α) : split a b (a :: b :: s) = [] :: split a b s :=
  if_pos ⟨rfl, rfl⟩

/-! ## parts without the separator -/

theorem split_of_not_infix (h : ¬ [a, b] <:+: s) : split a b s = [s] := by
  induction s with
  | nil => rfl
  | cons x s ih =>
    by_cases hs : s = []
    · rw [hs]; rfl
    · rw [split_cons (fun hp => h hp.isInfix) hs, ih (not_infix_of_cons h)]
      rfl

theorem split_append (hab : a ≠ b) (h : ¬ [a, b] <:+: s) :
    split a b (s ++ a :: b :: t) = s :: split a b t := by
  induction s with
  | nil => exact split_sep a b t
  | cons x s ih =>
    -- the separator cannot begin at `x` and end in what follows the part
    have hhead : ¬ [a, b] <+: x :: (s ++ a :: b :: t) := by
      intro hp
      obtain ⟨rfl, htail⟩ := List.cons_prefix_cons.1 hp
      cases s with
      | nil =>
        obtain ⟨hba, -⟩ := List.cons_prefix_cons.1 htail
        exact hab hba.symm
      | cons y s =>
        obtain ⟨rfl, -⟩ := List.cons_prefix_cons.1 htail
        exact h ⟨[], s, rfl⟩
    rw [List.cons_append, split_cons hhead (by simp), ih (not_infix_of_cons h)]
    rfl

/-! ## every part -/

theorem split_eq_cons (a b : α) (s : List α) :
    ∃ part parts, split a b s = part :: parts ∧ part <+: s := by
  fun_induction split a b s with
  | case1 => exact ⟨[], [], rfl, List.nil_prefix⟩
  | case2 x => exact ⟨[x], [], rfl, List.prefix_rfl⟩
  | case3 x y s hsep ih => exact ⟨[], split a b s, rfl, List.nil_prefix⟩
  | case4 x y s hno ih =>
    obtain ⟨part, parts, hsplit, hpart⟩ := ih
    rw [hsplit]
    exact ⟨x :: part, parts, rfl, List.cons_prefix_cons.2 ⟨rfl, hpart⟩⟩

theorem mem_split (h : part ∈ split a b s) : ¬ [a, b] <:+: part := by
  fun_induction split a b s generalizing part with
  | case1 =>
    obtain rfl := List.mem_singleton.1 h
    simp
  | case2 x =>
    obtain rfl := List.mem_singleton.1 h
    intro hheld
    have hlength := hheld.length_le
    simp at hlength
  | case3 x y s hsep ih =>
    rcases List.mem_cons.1 h with rfl | hrest
    · simp
    · exact ih hrest
  | case4 x y s hno ih =>
    obtain ⟨first, parts, hsplit, hfirst⟩ := split_eq_cons a b (y :: s)
    rw [hsplit] at h ih
    rcases List.mem_cons.1 h with rfl | hrest
    · intro hheld
      rcases List.infix_cons_iff.1 hheld with hp | hheld
      · obtain ⟨rfl, htail⟩ := List.cons_prefix_cons.1 hp
        obtain ⟨rfl, -⟩ := List.cons_prefix_cons.1 (htail.trans hfirst)
        exact hno ⟨rfl, rfl⟩
      · exact ih List.mem_cons_self hheld
    · exact ih (List.mem_cons_of_mem _ hrest)

/-- parts that are joined come back exactly if none of them holds the separator -/
theorem split_intercalate_iff (hab : a ≠ b) (hparts : parts ≠ []) :
    split a b ([a, b].intercalate parts) = parts ↔ ∀ part ∈ parts, ¬ [a, b] <:+: part := by
  constructor
  · intro h part hpart
    rw [← h] at hpart
    exact mem_split hpart
  · intro h
    induction parts with
    | nil => exact absurd rfl hparts
    | cons part parts ih =>
      obtain ⟨hpart, hrest⟩ := List.forall_mem_cons.1 h
      cases parts with
      | nil => rw [List.intercalate_singleton, split_of_not_infix hpart]
      | cons next parts =>
        rw [List.intercalate_cons_cons, List.append_assoc]
        show split a b (part ++ a :: b :: [a, b].intercalate (next :: parts)) = _
        rw [split_append hab hpart, ih (List.cons_ne_nil _ _) hrest]

end Separator
