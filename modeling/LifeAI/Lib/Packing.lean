import Mathlib.Data.List.Chain
import Mathlib.Algebra.BigOperators.Group.List.Basic
import Mathlib.Algebra.GroupWithZero.Nat

/-!
# Consecutive groups of limited weight

* `Packed`  a list is split into consecutive groups; one of two or more is within the limit, and a
            group is closed only where the next item does not fit;
* `pack`    the groups, filled one after the other;
* `packed_pack`, `Packed.unique`   these are the groups, and there are no others.
-/

namespace Packing

variable {α : Type*} (weight : α → ℕ) (cap : ℕ)

/-- the weight of a group -/
def total (g : List α) : ℕ := (g.map weight).sum

structure Packed (items : List α) (groups : List (List α)) : Prop where
  flatten : groups.flatten = items
  nonempty : ∀ g ∈ groups, g ≠ []
  fits : ∀ g ∈ groups, 2 ≤ g.length → total weight g ≤ cap
  closed : groups.IsChain fun g h => ∀ x ∈ h.head?, cap < total weight g + weight x

/-- the groups of the items that are to come, after the group `g` that is open -/
def pack : List α → List α → List (List α)
  | g, [] => if g.isEmpty then [] else [g]
  | g, x :: items =>
    if ¬ g.isEmpty ∧ cap < total weight g + weight x then g :: pack [x] items
    else pack (g ++ [x]) items

variable {weight cap} {items g h : List α} {groups groups' : List (List α)} {x : α}

theorem total_append (g h : List α) : total weight (g ++ h) = total weight g + total weight h := by
  unfold total
  rw [List.map_append, List.sum_append]

theorem total_cons (x : α) (g : List α) : total weight (x :: g) = weight x + total weight g := rfl

/-- an open group begins the first group -/
theorem pack_open (hg : g ≠ []) (items : List α) :
    ∃ rest groups, pack weight cap g items = (g ++ rest) :: groups := by
  induction items generalizing g with
  | nil =>
    refine ⟨[], [], ?_⟩
    unfold pack
    rw [if_neg (by simpa using hg), List.append_nil]
  | cons x items ih =>
    unfold pack
    split_ifs with hfull
    · exact ⟨[], _, by rw [List.append_nil]⟩
    · obtain ⟨rest, groups, heq⟩ := ih (List.append_ne_nil_of_right_ne_nil g (List.cons_ne_nil x []))
      exact ⟨x :: rest, groups, by rw [heq, List.append_assoc, List.singleton_append]⟩

/-- **the groups are packed**, where the open group is -/
theorem packed_pack (hg : 2 ≤ g.length → total weight g ≤ cap) (items : List α) :
    Packed weight cap (g ++ items) (pack weight cap g items) := by
  induction items generalizing g with
  | nil =>
    unfold pack
    split_ifs with hempty
    · obtain rfl := List.isEmpty_iff.1 hempty
      exact ⟨rfl, nofun, nofun, .nil⟩
    · refine ⟨by simp, fun h hh => ?_, fun h hh => ?_, .singleton g⟩
      · rw [List.mem_singleton.1 hh]
        exact fun hnil => hempty (List.isEmpty_iff.2 hnil)
      · rw [List.mem_singleton.1 hh]
        exact hg
  | cons x items ih =>
    unfold pack
    split_ifs with hfull
    · obtain ⟨hne, hover⟩ := hfull
      have hrest : Packed weight cap ([x] ++ items) (pack weight cap [x] items) :=
        ih fun hlen => absurd hlen (by simp)
      obtain ⟨rest, groups, heq⟩ :
          ∃ rest groups, pack weight cap [x] items = ([x] ++ rest) :: groups :=
        pack_open (List.cons_ne_nil x []) items
      refine ⟨?_, fun h hh => ?_, fun h hh => ?_, ?_⟩
      · rw [List.flatten_cons, hrest.flatten, List.singleton_append]
      · rcases List.mem_cons.1 hh with rfl | hh
        · exact fun hnil => hne (List.isEmpty_iff.2 hnil)
        · exact hrest.nonempty h hh
      · rcases List.mem_cons.1 hh with rfl | hh
        · exact hg
        · exact hrest.fits h hh
      · have hclosed := hrest.closed
        rw [heq] at hclosed ⊢
        refine List.isChain_cons_cons.2 ⟨fun y hy => ?_, hclosed⟩
        obtain rfl := Option.some.inj hy
        exact hover
    · have hopen : 2 ≤ (g ++ [x]).length → total weight (g ++ [x]) ≤ cap := by
        intro hlen
        have hne : ¬ g.isEmpty = true := by
          intro hempty
          rw [List.isEmpty_iff.1 hempty] at hlen
          simp at hlen
        have hfits : ¬ cap < total weight g + weight x := fun hover => hfull ⟨hne, hover⟩
        rw [total_append, total_cons]
        exact Nat.not_lt.1 hfits
      rw [List.append_cons]
      exact ih hopen

theorem packed_pack_nil (items : List α) : Packed weight cap items (pack weight cap [] items) := by
  have hnil : 2 ≤ ([] : List α).length → total weight ([] : List α) ≤ cap := nofun
  exact packed_pack hnil items

theorem Packed.tail (hp : Packed weight cap items (g :: groups)) :
    Packed weight cap groups.flatten groups where
  flatten := rfl
  nonempty h hh := hp.nonempty h (List.mem_cons_of_mem _ hh)
  fits h hh := hp.fits h (List.mem_cons_of_mem _ hh)
  closed := hp.closed.tail

/-- a first group is not longer than another one -/
theorem Packed.first_le (hp : Packed weight cap items (g :: groups))
    (hp' : Packed weight cap items (h :: groups')) : h.length ≤ g.length := by
  by_contra hlt
  have hlt : g.length < h.length := Nat.not_le.1 hlt
  have hpre : g <+: h := by
    have heq : g ++ groups.flatten = h ++ groups'.flatten := hp.flatten.trans hp'.flatten.symm
    exact List.prefix_of_prefix_length_le ⟨_, rfl⟩ (heq ▸ List.prefix_append h _) hlt.le
  obtain ⟨rest, rfl⟩ := hpre
  obtain ⟨x, rest, rfl⟩ : ∃ x r, rest = x :: r := by
    cases rest with
    | nil => simp at hlt
    | cons x r => exact ⟨x, r, rfl⟩
  -- the group after `g` begins with `x`, which did not fit
  have hnext : groups.flatten = x :: rest ++ groups'.flatten := by
    have heq := hp.flatten.trans hp'.flatten.symm
    rw [List.flatten_cons, List.flatten_cons, List.append_assoc] at heq
    exact List.append_cancel_left heq
  cases groups with
  | nil => simp at hnext
  | cons k groups =>
    have hk : k ≠ [] := hp.nonempty k (by simp)
    obtain ⟨y, k, rfl⟩ := List.exists_cons_of_ne_nil hk
    obtain rfl : y = x := (List.cons.inj hnext).1
    have hover := (List.isChain_cons_cons.1 hp.closed).1 y rfl
    have hne : g ≠ [] := hp.nonempty g List.mem_cons_self
    have hlen : 2 ≤ (g ++ y :: rest).length := by
      have hpos := List.length_pos_iff.2 hne
      rw [List.length_append, List.length_cons]
      omega
    have hfits := hp'.fits _ List.mem_cons_self hlen
    rw [total_append, total_cons] at hfits
    omega

/-- **there is one way to pack** -/
theorem Packed.unique (hp : Packed weight cap items groups) (hp' : Packed weight cap items groups') :
    groups = groups' := by
  induction groups generalizing items groups' with
  | nil =>
    cases groups' with
    | nil => rfl
    | cons h groups' =>
      have hnil : h ++ groups'.flatten = [] := hp'.flatten.trans hp.flatten.symm
      exact absurd (List.append_eq_nil_iff.1 hnil).1 (hp'.nonempty h List.mem_cons_self)
  | cons g groups ih =>
    cases groups' with
    | nil =>
      have hnil : g ++ groups.flatten = [] := hp.flatten.trans hp'.flatten.symm
      exact absurd (List.append_eq_nil_iff.1 hnil).1 (hp.nonempty g List.mem_cons_self)
    | cons h groups' =>
      have heq : g ++ groups.flatten = h ++ groups'.flatten := hp.flatten.trans hp'.flatten.symm
      have hlen : g.length = h.length := Nat.le_antisymm (hp'.first_le hp) (hp.first_le hp')
      obtain ⟨rfl, hrest⟩ := List.append_inj heq hlen
      have hp'' : Packed weight cap groups.flatten groups' := hrest ▸ hp'.tail
      rw [ih hp.tail hp'']

end Packing
