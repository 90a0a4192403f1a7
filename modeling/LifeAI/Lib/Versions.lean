import Mathlib.Data.List.Basic

/-!
# Row versions under READ COMMITTED

A row has the version that is committed, and the one that an open transaction has written, if any;
transactions are numbered.  Rows are never deleted, an insert that is rolled back leaves a row
without versions.

* `Slot`, `Table`  the versions of a row, the rows of a table;
* `Table.committed`  what every new statement of another transaction reads;
* `Table.view`     what a transaction reads: its own writes over what is committed;
* `Table.top`      the newest version, whoever has written it;
* `Table.write`, `Table.insert`, `Table.commit`, `Table.rollback`  the statements, with one lemma
                   for each of them and each way of reading.
-/

namespace Versions

/-- the versions of one row -/
structure Slot (ρ : Type*) where
  committed : Option ρ := none
  /-- the transaction that has written the row, and what it has written -/
  pending : Option (Nat × ρ) := none
  deriving DecidableEq

abbrev Table (ρ : Type*) := List (Slot ρ)

variable {ρ : Type*}

namespace Slot

def top (s : Slot ρ) : Option ρ :=
  match s.pending with
  | some (_, r) => some r
  | none => s.committed

def view (n : Nat) (s : Slot ρ) : Option ρ :=
  match s.pending with
  | some (m, r) => if m = n then some r else s.committed
  | none => s.committed

/-- another transaction has written the row and is still open -/
def heldByOther (n : Nat) (s : Slot ρ) : Bool := s.pending.any fun p => p.1 ≠ n

def commit (n : Nat) (s : Slot ρ) : Slot ρ :=
  match s.pending with
  | some (m, r) => if m = n then { committed := some r } else s
  | none => s

def rollback (n : Nat) (s : Slot ρ) : Slot ρ :=
  match s.pending with
  | some (m, _) => if m = n then { committed := s.committed } else s
  | none => s

theorem view_eq_top {n : Nat} {s : Slot ρ} (h : s.heldByOther n = false) : s.view n = s.top := by
  obtain ⟨c, p⟩ := s
  cases p with
  | none => rfl
  | some p =>
    have hp : p.1 = n := by simpa [heldByOther] using h
    simp [view, top, hp]

theorem heldByOther_of_pending {n : Nat} {s : Slot ρ} {p : Nat × ρ} (hp : s.pending = some p)
    (h : s.heldByOther n = false) : p.1 = n := by
  unfold heldByOther at h
  rw [hp] at h
  simpa using h

end Slot

namespace Table

/-- the transaction and the version of an open write -/
def pending (t : Table ρ) (i : Nat) : Option (Nat × ρ) := t[i]?.bind Slot.pending
def committed (t : Table ρ) (i : Nat) : Option ρ := t[i]?.bind Slot.committed
def top (t : Table ρ) (i : Nat) : Option ρ := t[i]?.bind Slot.top
def view (t : Table ρ) (n i : Nat) : Option ρ := t[i]?.bind (Slot.view n)

/-- a statement of the `n`-th transaction that writes the row waits -/
def heldByOther (t : Table ρ) (n i : Nat) : Bool := t[i]?.any (Slot.heldByOther n)

def write (t : Table ρ) (n i : Nat) (r : ρ) : Table ρ :=
  t.modify i fun s => { s with pending := some (n, r) }

def insert (t : Table ρ) (n : Nat) (r : ρ) : Table ρ := t ++ [{ pending := some (n, r) }]

def commit (t : Table ρ) (n : Nat) : Table ρ := t.map (Slot.commit n)
def rollback (t : Table ρ) (n : Nat) : Table ρ := t.map (Slot.rollback n)

variable {t : Table ρ} {n i j : Nat} {r : ρ}

theorem lt_of_top (h : t.top i = some r) : i < t.length := by
  by_contra hi
  rw [top, List.getElem?_eq_none (Nat.not_lt.1 hi)] at h
  cases h

theorem lt_of_view (h : t.view n i = some r) : i < t.length := by
  by_contra hi
  rw [view, List.getElem?_eq_none (Nat.not_lt.1 hi)] at h
  cases h

/-- the newest version is the open write, or else the committed one -/
theorem top_eq : t.top i = ((t.pending i).map (·.2)).or (t.committed i) := by
  unfold top pending committed
  cases t[i]? with
  | none => rfl
  | some s =>
    obtain ⟨c, p⟩ := s
    cases p with
    | none => simp [Slot.top]
    | some p => simp [Slot.top]

theorem top_of_pending {p : Nat × ρ} (h : t.pending i = some p) : t.top i = some p.2 := by
  rw [top_eq, h]
  rfl

theorem top_of_quiet (h : t.pending i = none) : t.top i = t.committed i := by
  rw [top_eq, h]
  rfl

/-- without open writes of others a transaction reads the newest version -/
theorem view_eq_top (h : t.heldByOther n i = false) : t.view n i = t.top i := by
  unfold heldByOther at h
  unfold view top
  cases ht : t[i]? with
  | none => rfl
  | some s =>
    rw [ht] at h
    exact Slot.view_eq_top h

theorem pending_eq_of_free {p : Nat × ρ} (hp : t.pending i = some p)
    (h : t.heldByOther n i = false) : p.1 = n := by
  unfold heldByOther at h
  unfold pending at hp
  cases ht : t[i]? with
  | none =>
    rw [ht] at hp
    cases hp
  | some s =>
    rw [ht] at h hp
    exact Slot.heldByOther_of_pending hp h

/-! ## a write -/

theorem pending_write (hi : i < t.length) :
    (t.write n i r).pending j = if i = j then some (n, r) else t.pending j := by
  unfold pending write
  rw [List.getElem?_modify]
  by_cases hij : i = j
  · subst hij
    simp [hi]
  · simp [hij]

theorem committed_write : (t.write n i r).committed j = t.committed j := by
  unfold committed write
  rw [List.getElem?_modify]
  cases t[j]? with
  | none => rfl
  | some s => by_cases hij : i = j <;> simp [hij]

theorem top_write (hi : i < t.length) :
    (t.write n i r).top j = if i = j then some r else t.top j := by
  rw [top_eq, pending_write hi, committed_write]
  by_cases hij : i = j
  · simp [hij]
  · rw [if_neg hij, if_neg hij, top_eq]

/-! ## an insert -/

theorem pending_insert :
    (t.insert n r).pending j = if t.length = j then some (n, r) else t.pending j := by
  unfold pending insert
  rw [List.getElem?_append]
  by_cases hj : t.length = j
  · subst hj
    simp
  · by_cases hlt : j < t.length
    · simp [hlt, hj]
    · have : j - t.length ≠ 0 := by omega
      simp [hlt, hj, this]

theorem committed_insert : (t.insert n r).committed j = t.committed j := by
  unfold committed insert
  rw [List.getElem?_append]
  by_cases hlt : j < t.length
  · simp [hlt]
  · rw [if_neg hlt, List.getElem?_eq_none (Nat.not_lt.1 hlt)]
    cases j - t.length with
    | zero => rfl
    | succ k => rfl

theorem top_insert : (t.insert n r).top j = if t.length = j then some r else t.top j := by
  rw [top_eq, pending_insert, committed_insert]
  by_cases hj : t.length = j
  · simp [hj]
  · rw [if_neg hj, if_neg hj, top_eq]

/-! ## either of them -/

/-- `t'` is `t` with the version `r` of the `i`-th row, written by the `n`-th transaction -/
structure Wrote (t t' : Table ρ) (n i : Nat) (r : ρ) : Prop where
  pending : ∀ j, t'.pending j = if i = j then some (n, r) else t.pending j
  committed : ∀ j, t'.committed j = t.committed j
  top : ∀ j, t'.top j = if i = j then some r else t.top j

theorem wrote_write (hi : i < t.length) : t.Wrote (t.write n i r) n i r where
  pending _ := pending_write hi
  committed _ := committed_write
  top _ := top_write hi

theorem wrote_insert : t.Wrote (t.insert n r) n t.length r where
  pending _ := pending_insert
  committed _ := committed_insert
  top _ := top_insert

namespace Wrote

variable {t' : Table ρ}

theorem pending_self (w : t.Wrote t' n i r) : t'.pending i = some (n, r) := by
  rw [w.pending, if_pos rfl]

theorem top_self (w : t.Wrote t' n i r) : t'.top i = some r := by rw [w.top, if_pos rfl]

theorem pending_ne (w : t.Wrote t' n i r) (h : i ≠ j) : t'.pending j = t.pending j := by
  rw [w.pending, if_neg h]

theorem top_ne (w : t.Wrote t' n i r) (h : i ≠ j) : t'.top j = t.top j := by
  rw [w.top, if_neg h]

end Wrote

/-! ## the end of a transaction -/

theorem pending_commit :
    (t.commit n).pending i = if (t.pending i).any (·.1 = n) then none else t.pending i := by
  unfold pending commit
  rw [List.getElem?_map]
  cases t[i]? with
  | none => rfl
  | some s =>
    obtain ⟨c, p⟩ := s
    cases p with
    | none => simp [Slot.commit]
    | some p => by_cases hp : p.1 = n <;> simp [Slot.commit, hp]

theorem committed_commit :
    (t.commit n).committed i = if (t.pending i).any (·.1 = n) then t.top i else t.committed i := by
  unfold pending committed top commit
  rw [List.getElem?_map]
  cases t[i]? with
  | none => rfl
  | some s =>
    obtain ⟨c, p⟩ := s
    cases p with
    | none => simp [Slot.commit]
    | some p => by_cases hp : p.1 = n <;> simp [Slot.commit, Slot.top, hp]

/-- a transaction reads what would be committed if it ended -/
theorem view_eq_committed_commit : t.view n i = (t.commit n).committed i := by
  unfold view committed commit
  rw [List.getElem?_map]
  cases t[i]? with
  | none => rfl
  | some s =>
    obtain ⟨c, p⟩ := s
    cases p with
    | none => rfl
    | some p => by_cases hp : p.1 = n <;> simp [Slot.commit, Slot.view, hp]

theorem top_commit : (t.commit n).top i = t.top i := by
  rw [top_eq, pending_commit, committed_commit]
  split
  · rfl
  · rw [top_eq]

theorem pending_rollback :
    (t.rollback n).pending i = if (t.pending i).any (·.1 = n) then none else t.pending i := by
  unfold pending rollback
  rw [List.getElem?_map]
  cases t[i]? with
  | none => rfl
  | some s =>
    obtain ⟨c, p⟩ := s
    cases p with
    | none => simp [Slot.rollback]
    | some p => by_cases hp : p.1 = n <;> simp [Slot.rollback, hp]

theorem committed_rollback : (t.rollback n).committed i = t.committed i := by
  unfold committed rollback
  rw [List.getElem?_map]
  cases t[i]? with
  | none => rfl
  | some s =>
    obtain ⟨c, p⟩ := s
    cases p with
    | none => simp [Slot.rollback]
    | some p => by_cases hp : p.1 = n <;> simp [Slot.rollback, hp]

theorem top_rollback :
    (t.rollback n).top i = if (t.pending i).any (·.1 = n) then t.committed i else t.top i := by
  rw [top_eq, pending_rollback, committed_rollback]
  split
  · rfl
  · rw [top_eq]

end Table

end Versions
