import LifeAI.Lib.Keyed

/-!
# Rows that transactions insert under a key

A row is in the table from its INSERT on, with what became of the INSERT (`Home`).  A transaction
sees what is committed and what it inserted; a key has a unique index.

* `visible`, `underKey`  what a transaction sees, and the row that it finds under a key;
* `keyTaken`             another transaction has inserted a row under the key, and not ended;
* `Home.committing`, `Home.rollingBack`   the ends of a transaction;
* `Unique`               at most one row that is not rolled back under a key, and what keeps this.
-/

namespace Inserts

/-- what became of the INSERT of a row -/
inductive Home (σ : Type*) where
  | committed
  | pending (t : σ)
  | rolledBack
  deriving DecidableEq

/-! ## the unique index -/

section
variable {σ α κ : Type*} {home : α → Home σ} {key : α → κ} {rows rows' : List α} {y : α}

/-- at most one row that is not rolled back is under a key -/
def Unique (home : α → Home σ) (key : α → κ) (rows : List α) : Prop :=
  ∀ (i j : Nat) (x y : α), rows[i]? = some x → rows[j]? = some y → home x ≠ .rolledBack →
    home y ≠ .rolledBack → key x = key y → i = j

theorem unique_nil : Unique home key [] := fun _ _ _ _ hx => by
  rw [List.getElem?_nil] at hx
  cases hx

/-- rows that keep their keys, of which none comes back after it was rolled back -/
theorem Unique.of_rows (hu : Unique home key rows)
    (h : ∀ (i : Nat) (y : α), rows'[i]? = some y → ∃ x, rows[i]? = some x ∧ key y = key x ∧
      (home y ≠ .rolledBack → home x ≠ .rolledBack)) : Unique home key rows' := by
  intro i j y y' hy hy' hlive hlive' hk
  obtain ⟨x, hx, hkx, hback⟩ := h i y hy
  obtain ⟨x', hx', hkx', hback'⟩ := h j y' hy'
  refine hu i j x x' hx hx' (hback hlive) (hback' hlive') ?_
  rw [← hkx, ← hkx', hk]

theorem Unique.append (hu : Unique home key rows)
    (hfree : ∀ (i : Nat) (x : α), rows[i]? = some x → home x ≠ .rolledBack → key x ≠ key y) :
    Unique home key (rows ++ [y]) := by
  have hcase : ∀ (i : Nat) (x : α), (rows ++ [y])[i]? = some x →
      rows[i]? = some x ∨ i = rows.length ∧ x = y := by
    intro i x hx
    rcases Nat.lt_or_ge i rows.length with hlt | hge
    · exact .inl (List.getElem?_append_left hlt ▸ hx)
    · rw [List.getElem?_append_right hge, List.getElem?_singleton] at hx
      split at hx
      · rename_i hzero
        exact .inr ⟨by omega, (Option.some.inj hx).symm⟩
      · cases hx
  intro i j x x' hx hx' hlive hlive' hk
  rcases hcase i x hx with hi | ⟨hi, hxy⟩
  · rcases hcase j x' hx' with hj | ⟨-, hxy⟩
    · exact hu i j x x' hi hj hlive hlive' hk
    · exact absurd (hxy ▸ hk) (hfree i x hi hlive)
  · rcases hcase j x' hx' with hj | ⟨hj, -⟩
    · exact absurd (hxy ▸ hk.symm) (hfree j x' hj hlive')
    · rw [hi, hj]

end

/-! ## what a transaction sees -/

variable {σ α κ : Type*} [DecidableEq σ] [DecidableEq κ]

namespace Home

def visible (t : σ) (h : Home σ) : Bool := h = .committed ∨ h = .pending t

def committing (t : σ) (h : Home σ) : Home σ := if h = .pending t then .committed else h

def rollingBack (t : σ) (h : Home σ) : Home σ := if h = .pending t then .rolledBack else h

variable {t u : σ} {h : Home σ}

theorem visible_iff : h.visible t ↔ h = .committed ∨ h = .pending t := decide_eq_true_iff

theorem ne_rolledBack (hv : h.visible t) : h ≠ .rolledBack := fun heq => by
  rw [heq] at hv
  cases visible_iff.1 hv with
  | inl hc => cases hc
  | inr hp => cases hp

theorem of_committing (hlive : h.committing t ≠ .rolledBack) : h ≠ .rolledBack := fun heq => by
  rw [heq] at hlive
  exact hlive rfl

theorem of_rollingBack (hlive : h.rollingBack t ≠ .rolledBack) :
    h ≠ .rolledBack ∧ h ≠ .pending t := by
  unfold rollingBack at hlive
  split at hlive
  · exact absurd rfl hlive
  · rename_i hne
    exact ⟨hlive, hne⟩

/-- the other transactions see what they saw, and what is committed now -/
theorem visible_committing : (h.committing t).visible u ↔ h.visible u ∨ h = .pending t := by
  unfold committing
  split
  · rename_i hp
    exact ⟨fun _ => .inr hp, fun _ => visible_iff.2 (.inl rfl)⟩
  · rename_i hne
    exact ⟨.inl, fun hv => hv.resolve_right hne⟩

theorem visible_rollingBack : (h.rollingBack t).visible u ↔ h.visible u ∧ h ≠ .pending t := by
  unfold rollingBack
  split
  · rename_i hp
    exact ⟨fun hv => absurd rfl (ne_rolledBack hv), fun hv => absurd hp hv.2⟩
  · rename_i hne
    exact ⟨fun hv => ⟨hv, hne⟩, And.left⟩

end Home

variable (home : α → Home σ) (key : α → κ)

/-- the row that a transaction finds under a key, with its position -/
def underKey (t : σ) (k : κ) (rows : List α) : Option (α × Nat) :=
  rows.zipIdx.find? fun p => (home p.1).visible t ∧ key p.1 = k

/-- an INSERT of another transaction under the key has not ended -/
def keyTaken (t : σ) (k : κ) (rows : List α) : Bool :=
  rows.any fun x => key x = k ∧ home x ≠ .committed ∧ home x ≠ .rolledBack ∧ home x ≠ .pending t

variable {home key} {rows rows' : List α} {t : σ} {k : κ} {i j : Nat} {x y : α}

theorem of_underKey {p : α × Nat} (h : underKey home key t k rows = some p) :
    rows[p.2]? = some p.1 ∧ (home p.1).visible t ∧ key p.1 = k := by
  unfold underKey at h
  have hrow := List.mem_zipIdx_iff_getElem?.1 (List.mem_of_find?_eq_some h)
  have hfound := List.find?_some h
  rw [decide_eq_true_iff] at hfound
  exact ⟨hrow, hfound⟩

theorem underKey_none (h : underKey home key t k rows = none) (hx : rows[i]? = some x)
    (hv : (home x).visible t) : key x ≠ k := fun hk => by
  unfold underKey at h
  have hno := List.find?_eq_none.1 h (x, i) (List.mem_zipIdx_iff_getElem?.2 hx)
  exact hno (decide_eq_true ⟨hv, hk⟩)

theorem not_keyTaken (h : ¬ keyTaken home key t k rows) (hx : rows[i]? = some x) (hk : key x = k)
    (hlive : home x ≠ .rolledBack) : (home x).visible t := by
  unfold keyTaken at h
  rw [List.any_eq_true] at h
  by_contra hno
  rw [Home.visible_iff, not_or] at hno
  exact h ⟨x, List.mem_of_getElem? hx, decide_eq_true ⟨hk, hno.1, hlive, hno.2⟩⟩

/-- nothing is under a key that the transaction does not find, and that is not taken -/
theorem key_free (hnone : underKey home key t k rows = none) (hfree : ¬ keyTaken home key t k rows)
    (hx : rows[i]? = some x) (hlive : home x ≠ .rolledBack) : key x ≠ k := fun hk =>
  underKey_none hnone hx (not_keyTaken hfree hx hk hlive) hk

end Inserts
