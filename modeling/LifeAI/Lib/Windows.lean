import Mathlib.Data.List.Chain
import Mathlib.Data.List.Flatten
import Mathlib.Algebra.Order.Group.Nat

/-!
# Windows and pieces of a list

* `slide`       windows of one size over `n` places, each starting `overlap` places before the end
                of the one before;
* `Sliding`     what such windows are;
* `slide_some`  they are found after at most `n` steps;
* `pieces`      a list cut every `size` elements.
-/

namespace Windows

/-! ## windows -/

/-- the windows from `start` on, for at most `fuel` steps -/
def slide (size overlap n : ℕ) : ℕ → ℕ → Option (List (ℕ × ℕ))
  | 0, _ => none
  | fuel + 1, start =>
    if n ≤ start + size then some [(start, n)]
    else (slide size overlap n fuel (start + size - overlap)).map ((start, start + size) :: ·)

/-- every window but the last is of full size and ends before the last place, where the last one
ends -/
structure Sliding (size overlap n start : ℕ) (windows : List (ℕ × ℕ)) : Prop where
  first : ∀ w ∈ windows.head?, w.1 = start
  next : windows.IsChain fun v w => w.1 + overlap = v.2
  proper : ∀ w ∈ windows, w.1 < w.2 ∧ w.2 ≤ w.1 + size ∧ w.2 ≤ n
  full : ∀ w ∈ windows.dropLast, w.2 = w.1 + size ∧ w.2 < n
  last : ∀ w ∈ windows.getLast?, w.2 = n
  covers : ∀ i, start ≤ i → i < n → ∃ w ∈ windows, w.1 ≤ i ∧ i < w.2

variable {size overlap n fuel start : ℕ} {windows : List (ℕ × ℕ)}

theorem Sliding.nil (size overlap start : ℕ) : Sliding size overlap 0 start [] where
  first := nofun
  next := .nil
  proper := nofun
  full := nofun
  last := nofun
  covers := nofun

/-- the window that reaches the last place -/
theorem Sliding.single (hstart : start < n) (hsize : n ≤ start + size) :
    Sliding size overlap n start [(start, n)] where
  first := by
    intro w hw
    obtain rfl := Option.some.inj hw
    rfl
  next := .singleton _
  proper := by
    intro w hw
    obtain rfl := List.mem_singleton.1 hw
    exact ⟨hstart, hsize, Nat.le_refl n⟩
  full := nofun
  last := by
    intro w hw
    obtain rfl := Option.some.inj hw
    rfl
  covers i hi hin := ⟨(start, n), List.mem_cons_self, hi, hin⟩

/-- a full window before the others -/
theorem Sliding.cons (hoverlap : overlap < size) (hn : start + size < n)
    (h : Sliding size overlap n (start + size - overlap) windows) :
    Sliding size overlap n start ((start, start + size) :: windows) := by
  -- the others are not empty, since they hold the place after the window
  obtain ⟨w, rest, rfl⟩ : ∃ w rest, windows = w :: rest := by
    obtain ⟨w, hw, -⟩ := h.covers (start + size) (Nat.sub_le _ _) hn
    exact List.exists_cons_of_ne_nil (List.ne_nil_of_mem hw)
  have hfirst : w.1 = start + size - overlap := h.first w rfl
  exact {
    first := by
      intro v hv
      obtain rfl := Option.some.inj hv
      rfl
    next := by
      refine .cons_cons ?_ h.next
      show w.1 + overlap = start + size
      omega
    proper := by
      intro v hv
      rcases List.mem_cons.1 hv with rfl | hrest
      · show start < start + size ∧ start + size ≤ start + size ∧ start + size ≤ n
        omega
      · exact h.proper v hrest
    full := by
      intro v hv
      rw [List.dropLast_cons_of_ne_nil (List.cons_ne_nil _ _)] at hv
      rcases List.mem_cons.1 hv with rfl | hrest
      · exact ⟨rfl, hn⟩
      · exact h.full v hrest
    last := by
      intro v hv
      rw [List.getLast?_cons_cons] at hv
      exact h.last v hv
    covers := by
      intro i hi hin
      by_cases hwindow : i < start + size
      · exact ⟨(start, start + size), List.mem_cons_self, hi, hwindow⟩
      · obtain ⟨v, hv, hplace⟩ := h.covers i (by omega) hin
        exact ⟨v, List.mem_cons_of_mem _ hv, hplace⟩ }

/-- a step moves the start on by `size - overlap` at least -/
theorem slide_some (hoverlap : overlap < size) (hstart : start < n) (hfuel : n ≤ start + fuel) :
    ∃ windows, slide size overlap n fuel start = some windows ∧
      Sliding size overlap n start windows := by
  induction fuel generalizing start with
  | zero => omega
  | succ fuel ih =>
    unfold slide
    by_cases hlast : n ≤ start + size
    · rw [if_pos hlast]
      exact ⟨_, rfl, .single hstart hlast⟩
    · rw [if_neg hlast]
      have hnext : start + size - overlap < n := by omega
      obtain ⟨windows, hslide, h⟩ := ih hnext (by omega)
      rw [hslide]
      exact ⟨_, rfl, h.cons hoverlap (by omega)⟩

/-- more steps find the same windows -/
theorem slide_mono {more : ℕ} (h : slide size overlap n fuel start = some windows)
    (hmore : fuel ≤ more) : slide size overlap n more start = some windows := by
  induction fuel generalizing more start windows with
  | zero => cases h
  | succ fuel ih =>
    obtain ⟨k, rfl⟩ := Nat.exists_eq_add_of_le hmore
    rw [Nat.add_right_comm]
    unfold slide at h ⊢
    split_ifs at h ⊢
    · exact h
    · obtain ⟨rest, hrest, rfl⟩ := Option.map_eq_some_iff.1 h
      rw [ih hrest (Nat.le_add_right fuel k)]
      rfl

/-! ## pieces -/

variable {α : Type*} {xs piece : List α}

/-- `[xs[i : i + size] for i in range(0, len(xs), size)]` -/
def pieces (size : ℕ) (xs : List α) : List (List α) :=
  (List.range ((xs.length + size - 1) / size)).map fun i => (xs.drop (size * i)).take size

theorem flatten_range_pieces (size k : ℕ) (xs : List α) :
    ((List.range k).map fun i => (xs.drop (size * i)).take size).flatten = xs.take (size * k) := by
  induction k with
  | zero => rw [Nat.mul_zero, List.take_zero]; rfl
  | succ k ih =>
    rw [List.range_succ, List.map_append, List.flatten_append, ih, List.map_singleton,
      List.flatten_singleton, Nat.mul_succ, List.take_add]

theorem flatten_pieces (hsize : 0 < size) (xs : List α) : (pieces size xs).flatten = xs := by
  unfold pieces
  rw [flatten_range_pieces]
  refine List.take_of_length_le ?_
  have hdiv := Nat.div_add_mod (xs.length + size - 1) size
  have hmod := Nat.mod_lt (xs.length + size - 1) hsize
  omega

theorem mem_pieces (hsize : 0 < size) (h : piece ∈ pieces size xs) :
    piece ≠ [] ∧ piece.length ≤ size := by
  obtain ⟨i, hi, rfl⟩ := List.mem_map.1 h
  refine ⟨?_, List.length_take_le _ _⟩
  -- the piece starts before the end of the list
  have hplace : size * i < xs.length := by
    have hlt := List.mem_range.1 hi
    have hle := (Nat.le_div_iff_mul_le hsize).1 (Nat.succ_le_of_lt hlt)
    rw [Nat.succ_mul, Nat.mul_comm i size] at hle
    omega
  refine List.ne_nil_of_length_pos ?_
  rw [List.length_take, List.length_drop]
  omega

end Windows
