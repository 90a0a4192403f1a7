import Mathlib.Data.List.Basic

/-!
# Rows that are recorded once under a key

* `lookup`  the row under a key, with its position;
* `find`    the row under the key of a row;
* `record`  a new row, or the replay of the row under its key, which must agree with it;
* `record_ok`, `record_again`   when a recording returns, and that it may be repeated;
* `Keeps`   the rows of a table keep what a function says of them;
* `lookup_grows`   a table that keeps the keys of its rows keeps what is found under a key.
-/

namespace Keyed

/-! ## rows that keep something -/

section
variable {α β γ : Type*}

/-- `f` says of the rows what it said before, whatever else changes in them and whatever rows come
after -/
def Keeps (f : α → β) (rows rows' : List α) : Prop :=
  ∀ (i : Nat) (x : α), rows[i]? = some x → ∃ x', rows'[i]? = some x' ∧ f x' = f x

namespace Keeps

variable {f : α → β} {rows rows' rows'' : List α} {i : Nat} {x x' : α}

theorem refl (f : α → β) (rows : List α) : Keeps f rows rows := fun _ x h => ⟨x, h, rfl⟩

theorem trans (h : Keeps f rows rows') (h' : Keeps f rows' rows'') : Keeps f rows rows'' := by
  intro i x hx
  obtain ⟨y, hy, hf⟩ := h i x hx
  obtain ⟨z, hz, hf'⟩ := h' i y hy
  exact ⟨z, hz, hf'.trans hf⟩

theorem comp (h : Keeps f rows rows') (g : β → γ) : Keeps (fun x => g (f x)) rows rows' := by
  intro i x hx
  obtain ⟨y, hy, hf⟩ := h i x hx
  exact ⟨y, hy, congrArg g hf⟩

theorem append (f : α → β) (rows new : List α) : Keeps f rows (rows ++ new) := by
  intro i x hx
  have hlt : i < rows.length := (List.getElem?_eq_some_iff.1 hx).1
  exact ⟨x, (List.getElem?_append_left hlt).trans hx, rfl⟩

theorem set (hx : rows[i]? = some x) (hf : f x' = f x) : Keeps f rows (rows.set i x') := by
  intro j y hy
  rcases eq_or_ne i j with rfl | hne
  · obtain rfl := Option.some.inj (hx.symm.trans hy)
    exact ⟨x', List.getElem?_set_self (List.getElem?_eq_some_iff.1 hy).1, hf⟩
  · exact ⟨y, (List.getElem?_set_ne hne).trans hy, rfl⟩

theorem modify {g : α → α} (hg : ∀ x, f (g x) = f x) (rows : List α) (i : Nat) :
    Keeps f rows (rows.modify i g) := by
  intro j y hy
  rw [List.getElem?_modify, hy]
  refine ⟨if i = j then g y else y, rfl, ?_⟩
  split
  · exact hg y
  · rfl

end Keeps

end

variable {α κ ε : Type*} [DecidableEq κ] (key : α → κ)

/-- the row under the key `k` -/
def lookup (rows : List α) (k : κ) : Option (Nat × α) :=
  (rows.zipIdx.find? fun x => key x.1 = k).map Prod.swap

/-- the row under the key of `v` -/
def find (rows : List α) (v : α) : Option (Nat × α) :=
  (rows.zipIdx.find? fun x => key x.1 = key v).map Prod.swap

/-- a row under the key of `v` is replayed unless it differs from `v` (`conflict`); without one `v`
is inserted unless the table refuses it -/
def record (conflict : α → α → Option ε) (refuse : α → Option ε) (rows : List α) (v : α) :
    Except ε (Nat × List α) :=
  match find key rows v with
  | some (j, x) =>
    match conflict x v with
    | some e => .error e
    | none => .ok (j, rows)
  | none =>
    match refuse v with
    | some e => .error e
    | none => .ok (rows.length, rows ++ [v])

variable {key} {conflict : α → α → Option ε} {refuse : α → Option ε} {rows rows' : List α}
  {v x : α} {j : Nat} {k : κ}

theorem lookup_eq_none : lookup key rows k = none ↔ ∀ x ∈ rows, key x ≠ k := by
  unfold lookup
  rw [Option.map_eq_none_iff, List.find?_eq_none]
  constructor
  · intro h x hx hk
    obtain ⟨i, hi⟩ := List.getElem?_of_mem hx
    exact h (x, i) (List.mem_zipIdx_iff_getElem?.2 hi) (decide_eq_true hk)
  · intro h p hp hk
    exact h p.1 (List.mem_of_getElem? (List.mem_zipIdx_iff_getElem?.1 hp)) (of_decide_eq_true hk)

/-- the row that is found is the first one under the key -/
theorem lookup_eq_some : lookup key rows k = some (j, x) ↔
    rows[j]? = some x ∧ key x = k ∧ ∀ i < j, ∀ y, rows[i]? = some y → key y ≠ k := by
  unfold lookup
  rw [Option.map_eq_some_iff]
  constructor
  · intro h
    obtain ⟨⟨y, i⟩, hfound, heq⟩ := h
    cases heq
    obtain ⟨hkey, n, hn, hrow, hfirst⟩ := List.find?_eq_some_iff_getElem.1 hfound
    rw [List.getElem_zipIdx, Nat.zero_add] at hrow
    obtain ⟨rfl, rfl⟩ := Prod.mk.inj hrow
    rw [List.length_zipIdx] at hn
    refine ⟨List.getElem?_eq_getElem hn, of_decide_eq_true hkey, fun i hi z hz hk => ?_⟩
    have hearlier := hfirst i hi
    obtain ⟨hlt, rfl⟩ := List.getElem?_eq_some_iff.1 hz
    rw [List.getElem_zipIdx, decide_eq_true hk] at hearlier
    cases hearlier
  · intro h
    obtain ⟨hrow, hkey, hfirst⟩ := h
    obtain ⟨hj, rfl⟩ := List.getElem?_eq_some_iff.1 hrow
    refine ⟨(rows[j], j), ?_, rfl⟩
    refine List.find?_eq_some_iff_getElem.2 ⟨decide_eq_true hkey, j, ?_, ?_, fun i hi => ?_⟩
    · rw [List.length_zipIdx]
      exact hj
    · rw [List.getElem_zipIdx, Nat.zero_add]
    · have hne := hfirst i hi _ (List.getElem?_eq_getElem (Nat.lt_trans hi hj))
      rw [List.getElem_zipIdx, decide_eq_false hne]
      rfl

theorem lookup_append_self (h : lookup key rows k = none) (hv : key v = k) :
    lookup key (rows ++ [v]) k = some (rows.length, v) := by
  refine lookup_eq_some.2 ⟨List.getElem?_concat_length, hv, fun i hi y hy => ?_⟩
  rw [List.getElem?_append_left hi] at hy
  exact lookup_eq_none.1 h y (List.mem_of_getElem? hy)

/-- what is found under a key is found there, however the columns outside the keys change and
whatever rows come after -/
theorem lookup_grows (h : lookup key rows k = some (j, x)) (hgrows : Keeps key rows rows') :
    ∃ x', rows'[j]? = some x' ∧ lookup key rows' k = some (j, x') := by
  obtain ⟨hrow, hkey, hfirst⟩ := lookup_eq_some.1 h
  obtain ⟨x', hrow', hkey'⟩ := hgrows j x hrow
  refine ⟨x', hrow', lookup_eq_some.2 ⟨hrow', hkey'.trans hkey, fun i hi y' hy' => ?_⟩⟩
  have hlt : i < rows.length := Nat.lt_trans hi (List.getElem?_eq_some_iff.1 hrow).1
  obtain ⟨y'', hy'', hkeys⟩ := hgrows i _ (List.getElem?_eq_getElem hlt)
  rw [hy'] at hy''
  cases hy''
  rw [hkeys]
  exact hfirst i hi _ (List.getElem?_eq_getElem hlt)

theorem lookup_extend (h : lookup key rows k = some (j, x)) (hrows : rows <+: rows') :
    lookup key rows' k = some (j, x) := by
  obtain ⟨new, rfl⟩ := hrows
  obtain ⟨x', hrow', hfound⟩ := lookup_grows h (Keeps.append key rows new)
  have hrow : rows[j]? = some x := (lookup_eq_some.1 h).1
  rw [List.getElem?_append_left (List.getElem?_eq_some_iff.1 hrow).1, hrow] at hrow'
  rw [hfound, Option.some.inj hrow']

theorem find_eq_none : find key rows v = none ↔ ∀ x ∈ rows, key x ≠ key v := lookup_eq_none

theorem find_some (h : find key rows v = some (j, x)) : rows[j]? = some x ∧ key x = key v := by
  obtain ⟨hrow, hkey, -⟩ := lookup_eq_some.1 h
  exact ⟨hrow, hkey⟩

theorem find_append_self (h : find key rows v = none) :
    find key (rows ++ [v]) v = some (rows.length, v) := lookup_append_self h rfl

theorem record_found (h : find key rows v = some (j, x)) :
    record key conflict refuse rows v =
      match conflict x v with
      | some e => .error e
      | none => .ok (j, rows) := by
  unfold record
  rw [h]

theorem record_new (h : find key rows v = none) :
    record key conflict refuse rows v =
      match refuse v with
      | some e => .error e
      | none => .ok (rows.length, rows ++ [v]) := by
  unfold record
  rw [h]

theorem record_ok : record key conflict refuse rows v = .ok (j, rows') ↔
    (∃ x, find key rows v = some (j, x) ∧ conflict x v = none ∧ rows' = rows) ∨
      (find key rows v = none ∧ refuse v = none ∧ j = rows.length ∧ rows' = rows ++ [v]) := by
  constructor
  · intro h
    cases hf : find key rows v with
    | some p =>
      obtain ⟨i, x⟩ := p
      rw [record_found hf] at h
      cases hc : conflict x v with
      | some e => rw [hc] at h; cases h
      | none => rw [hc] at h; cases h; exact .inl ⟨x, rfl, hc, rfl⟩
    | none =>
      rw [record_new hf] at h
      cases hr : refuse v with
      | some e => rw [hr] at h; cases h
      | none => rw [hr] at h; cases h; exact .inr ⟨rfl, rfl, rfl, rfl⟩
  · rintro (⟨x, hf, hc, rfl⟩ | ⟨hf, hr, rfl, rfl⟩)
    · rw [record_found hf, hc]
    · rw [record_new hf, hr]

/-- what was recorded is replayed -/
theorem record_again (hself : conflict v v = none)
    (h : record key conflict refuse rows v = .ok (j, rows')) :
    record key conflict refuse rows' v = .ok (j, rows') := by
  rcases record_ok.1 h with ⟨x, hf, hc, rfl⟩ | ⟨hf, -, rfl, rfl⟩
  · exact record_ok.2 (.inl ⟨x, hf, hc, rfl⟩)
  · exact record_ok.2 (.inl ⟨v, find_append_self hf, hself, rfl⟩)

end Keyed
