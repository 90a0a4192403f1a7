import LifeAI.Lib.Digraph

/-!
# Items in rounds

Every item has a key and needs the items under other keys.  A round takes all items whose needs are
met, in the order of the list.

* `rounds`   the rounds, until every item is taken or a round takes none;
* `Needs`    the relation between keys;
* `Depth`    the length of the longest chain of needs below a key;
* `Layered`  what `i` rounds leave: the items of depth less than `i`, each after its needs, and those
             of one depth in the order of the list;
* `rounds_eq_none_iff`, `rounds_eq_some`   a round takes no item exactly when the needs have a cycle, and
             what the rounds give otherwise.
-/

set_option linter.unusedSectionVars false

namespace Layers

variable {α κ : Type*} [DecidableEq κ] (key : α → κ) (needs : α → List κ)

/-- the item is not done, and what it needs is -/
def ready (done : List κ) (x : α) : Bool := key x ∉ done ∧ ∀ k ∈ needs x, k ∈ done

/-- at most `n` rounds after those that gave `result` -/
def rounds (xs : List α) : ℕ → List α → Option (List α)
  | 0, result => some result
  | n + 1, result =>
    if xs.length ≤ result.length then some result
    else
      match xs.filter (ready key needs (result.map key)) with
      | [] => none
      | x :: rest => rounds xs n (result ++ x :: rest)

/-- the item under `a` needs the one under `b` -/
def Needs (xs : List α) (a b : κ) : Prop := ∃ x ∈ xs, key x = a ∧ b ∈ needs x

/-- there is a chain of `n` needs from `a` on -/
def Descends (xs : List α) : ℕ → κ → Prop
  | 0, _ => True
  | n + 1, a => ∃ b, Needs key needs xs a b ∧ Descends xs n b

/-- the longest chain of needs from `a` on has `n` of them -/
def Depth (xs : List α) (a : κ) (n : ℕ) : Prop :=
  Descends key needs xs n a ∧ ¬ Descends key needs xs (n + 1) a

/-- every item comes after what it needs -/
def Sorted (l : List α) : Prop :=
  ∀ before x after, l = before ++ x :: after → ∀ k ∈ needs x, k ∈ before.map key

structure Layered (xs : List α) (i : ℕ) (result : List α) : Prop where
  mem : ∀ x, x ∈ result ↔ x ∈ xs ∧ ¬ Descends key needs xs i (key x)
  nodup : result.Nodup
  sorted : Sorted key needs result
  order : ∀ x y n, n < i → Depth key needs xs (key x) n → Depth key needs xs (key y) n →
    [x, y].Sublist xs → [x, y].Sublist result

variable {key needs} {xs result l : List α} {i n : ℕ} {a : κ} {x : α}

/-! ## chains -/

theorem Descends.pred (h : Descends key needs xs (n + 1) a) : Descends key needs xs n a := by
  induction n generalizing a with
  | zero => trivial
  | succ n ih =>
    obtain ⟨b, hab, hb⟩ := h
    exact ⟨b, hab, ih hb⟩

theorem Descends.mono {m : ℕ} (h : Descends key needs xs n a) (hmn : m ≤ n) :
    Descends key needs xs m a := by
  induction hmn with
  | refl => exact h
  | step _ ih => exact ih h.pred

/-- from a cycle on the chains do not end -/
theorem descends_of_cycle (h : Relation.TransGen (Needs key needs xs) a a) (n : ℕ) :
    Descends key needs xs n a := by
  induction n generalizing a with
  | zero => trivial
  | succ n ih =>
    obtain ⟨b, hab, hba⟩ := Relation.TransGen.head'_iff.1 h
    exact ⟨b, hab, ih (Relation.TransGen.tail' hba hab)⟩

theorem descends_succ (hkeys : (xs.map key).Nodup) (hx : x ∈ xs) : Descends key needs xs (n + 1) (key x) ↔
    ∃ k ∈ needs x, Descends key needs xs n k := by
  constructor
  · intro h
    obtain ⟨k, ⟨y, hy, hkey, hk⟩, hd⟩ := h
    obtain rfl := List.inj_on_of_nodup_map hkeys hy hx hkey
    exact ⟨k, hk, hd⟩
  · intro h
    obtain ⟨k, hk, hd⟩ := h
    exact ⟨k, ⟨x, hx, rfl, hk⟩, hd⟩

/-! ## a round -/

theorem Layered.mem_key (h : Layered key needs xs i result) (ha : a ∈ xs.map key) :
    a ∈ result.map key ↔ ¬ Descends key needs xs i a := by
  obtain ⟨x, hx, rfl⟩ := List.mem_map.1 ha
  constructor
  · intro hmem
    obtain ⟨y, hy, hkey⟩ := List.mem_map.1 hmem
    rw [← hkey]
    exact ((h.mem y).1 hy).2
  · intro hd
    exact List.mem_map_of_mem ((h.mem x).2 ⟨hx, hd⟩)

/-- a round takes the items of the next depth -/
theorem Layered.ready_iff (h : Layered key needs xs i result) (hkeys : (xs.map key).Nodup)
    (hneeds : ∀ x ∈ xs, ∀ k ∈ needs x, k ∈ xs.map key) (hx : x ∈ xs) :
    ready key needs (result.map key) x = true ↔ Depth key needs xs (key x) i := by
  unfold ready Depth
  rw [decide_eq_true_eq, h.mem_key (List.mem_map_of_mem hx), not_not, descends_succ hkeys hx]
  refine and_congr_right fun _ => ?_
  simp only [not_exists, not_and]
  exact forall₂_congr fun k hk => h.mem_key (hneeds x hx k hk)

theorem Layered.round (h : Layered key needs xs i result) (hkeys : (xs.map key).Nodup)
    (hneeds : ∀ x ∈ xs, ∀ k ∈ needs x, k ∈ xs.map key) :
    Layered key needs xs (i + 1) (result ++ xs.filter (ready key needs (result.map key))) where
  mem x := by
    rw [List.mem_append, List.mem_filter, h.mem]
    constructor
    · rintro (⟨hx, hd⟩ | ⟨hx, hready⟩)
      · exact ⟨hx, fun hsucc => hd hsucc.pred⟩
      · exact ⟨hx, ((h.ready_iff hkeys hneeds hx).1 hready).2⟩
    · intro hx
      by_cases hd : Descends key needs xs i (key x)
      · exact .inr ⟨hx.1, (h.ready_iff hkeys hneeds hx.1).2 ⟨hd, hx.2⟩⟩
      · exact .inl ⟨hx.1, hd⟩
  nodup := by
    refine h.nodup.append (hkeys.of_map key |>.filter _) ?_
    intro x hx hx'
    obtain ⟨hmem, hready⟩ := List.mem_filter.1 hx'
    exact ((h.mem x).1 hx).2 ((h.ready_iff hkeys hneeds hmem).1 hready).1
  sorted := by
    intro before x after heq k hk
    rcases List.append_eq_append_iff.1 heq with ⟨mid, hbefore, hlayer⟩ | ⟨mid, hresult, hafter⟩
    · -- the item is one of the round
      have hx : x ∈ xs.filter (ready key needs (result.map key)) := by
        rw [hlayer]
        exact List.mem_append_right _ List.mem_cons_self
      have hdone := (of_decide_eq_true (List.mem_filter.1 hx).2).2 k hk
      rw [hbefore, List.map_append]
      exact List.mem_append_left _ hdone
    · cases mid with
      | nil =>
        have hx : x ∈ xs.filter (ready key needs (result.map key)) := by
          rw [List.nil_append] at hafter
          rw [← hafter]
          exact List.mem_cons_self
        have hdone := (of_decide_eq_true (List.mem_filter.1 hx).2).2 k hk
        rw [hresult, List.append_nil] at hdone
        exact hdone
      | cons y mid =>
        rw [List.cons_append] at hafter
        obtain ⟨rfl, -⟩ := List.cons.inj hafter
        exact h.sorted before x mid hresult k hk
  order x y n hn hx hy hsub := by
    rcases Nat.lt_succ_iff_lt_or_eq.1 hn with hlt | rfl
    · exact (h.order x y n hlt hx hy hsub).trans (List.sublist_append_left _ _)
    · have hxs : x ∈ xs := hsub.subset List.mem_cons_self
      have hys : y ∈ xs := hsub.subset (List.mem_cons_of_mem _ List.mem_cons_self)
      have hfilter := hsub.filter (ready key needs (result.map key))
      rw [List.filter_cons_of_pos ((h.ready_iff hkeys hneeds hxs).2 hx),
        List.filter_cons_of_pos ((h.ready_iff hkeys hneeds hys).2 hy), List.filter_nil] at hfilter
      exact hfilter.trans (List.sublist_append_right _ _)

theorem Layered.start (key : α → κ) (needs : α → List κ) (xs : List α) :
    Layered key needs xs 0 [] where
  mem x := by simp [Descends]
  nodup := List.nodup_nil
  sorted := by
    intro before x after heq
    exact absurd heq.symm (List.append_ne_nil_of_right_ne_nil _ (List.cons_ne_nil _ _))
  order := nofun

/-! ## all rounds -/

/-- the rounds end with all the items, or with a round that takes none -/
theorem Layered.rounds (h : Layered key needs xs i result) (hkeys : (xs.map key).Nodup)
    (hneeds : ∀ x ∈ xs, ∀ k ∈ needs x, k ∈ xs.map key) (hn : xs.length ≤ result.length + n) :
    (∃ j l, rounds key needs xs n result = some l ∧ Layered key needs xs j l ∧
      xs.length ≤ l.length) ∨
    (∃ j r, rounds key needs xs n result = none ∧ Layered key needs xs j r ∧
      r.length < xs.length ∧ xs.filter (ready key needs (r.map key)) = []) := by
  induction n generalizing i result with
  | zero => exact .inl ⟨i, result, rfl, h, hn⟩
  | succ n ih =>
    unfold Layers.rounds
    by_cases hall : xs.length ≤ result.length
    · rw [if_pos hall]
      exact .inl ⟨i, result, rfl, h, hall⟩
    · rw [if_neg hall]
      have hround := h.round hkeys hneeds
      cases hlayer : xs.filter (ready key needs (result.map key)) with
      | nil => exact .inr ⟨i, result, rfl, h, Nat.lt_of_not_le hall, hlayer⟩
      | cons x rest =>
        rw [hlayer] at hround
        -- the round has taken an item at least
        have hlength : xs.length ≤ (result ++ x :: rest).length + n := by
          rw [List.length_append, List.length_cons]
          omega
        exact ih hround hlength

/-- items that are all taken are in the order of their needs, which have no cycle -/
theorem Layered.complete (h : Layered key needs xs i l) (hall : xs.length ≤ l.length) : l.Perm xs ∧ Digraph.Acyclic (Needs key needs xs) := by
  have hsub : l ⊆ xs := fun x hx => ((h.mem x).1 hx).1
  have hperm : l.Perm xs := (h.nodup.subperm hsub).perm_of_length_le hall
  refine ⟨hperm, fun a ha => ?_⟩
  obtain ⟨b, ⟨x, hx, rfl, -⟩, -⟩ := Relation.TransGen.head'_iff.1 ha
  exact ((h.mem x).1 (hperm.mem_iff.2 hx)).2 (descends_of_cycle ha i)

/-- a round that takes none of the items that are left finds a cycle -/
theorem Layered.stuck (h : Layered key needs xs i result) (hkeys : (xs.map key).Nodup)
    (hneeds : ∀ x ∈ xs, ∀ k ∈ needs x, k ∈ xs.map key) (hleft : result.length < xs.length)
    (hnone : xs.filter (ready key needs (result.map key)) = []) :
    ¬ Digraph.Acyclic (Needs key needs xs) := by
  intro hacyclic
  -- keys are below those that need them, and there are finitely many
  let below (a b : {k // k ∈ xs.map key}) : Prop := Relation.TransGen (Needs key needs xs) b.1 a.1
  have htrans : IsTrans _ below := ⟨fun a b c hab hbc => hbc.trans hab⟩
  have hirrefl : Std.Irrefl below := ⟨fun a ha => hacyclic a.1 ha⟩
  have hfinite : Finite {k // k ∈ xs.map key} := List.finite_toSet _
  have hwf : WellFounded below := Finite.wellFounded_of_trans_of_irrefl below
  have hremains : ∃ x ∈ xs, Descends key needs xs i (key x) := by
    by_contra hno
    have hsub : xs ⊆ result := fun x hx => (h.mem x).2 ⟨hx, fun hd => hno ⟨x, hx, hd⟩⟩
    have hlength := ((List.Nodup.of_map key hkeys).subperm hsub).length_le
    omega
  obtain ⟨x, hx, hd⟩ := hremains
  obtain ⟨⟨a, ha⟩, hda, hmin⟩ := hwf.has_min {b | Descends key needs xs i b.1}
    ⟨⟨key x, List.mem_map_of_mem hx⟩, hd⟩
  obtain ⟨y, hy, rfl⟩ := List.mem_map.1 ha
  have hdeep : Descends key needs xs (i + 1) (key y) := by
    by_contra hshallow
    have hready := (h.ready_iff hkeys hneeds hy).2 ⟨hda, hshallow⟩
    have hmem := List.mem_filter.2 ⟨hy, hready⟩
    rw [hnone] at hmem
    exact List.not_mem_nil hmem
  obtain ⟨k, hk, hdk⟩ := (descends_succ hkeys hy).1 hdeep
  exact hmin ⟨k, hneeds y hy k hk⟩ hdk (.single ⟨y, hy, rfl, hk⟩)

/-- a round takes no item exactly when the needs have a cycle -/
theorem rounds_eq_none_iff (hkeys : (xs.map key).Nodup)
    (hneeds : ∀ x ∈ xs, ∀ k ∈ needs x, k ∈ xs.map key) :
    rounds key needs xs xs.length [] = none ↔ ¬ Digraph.Acyclic (Needs key needs xs) := by
  have hn : xs.length ≤ ([] : List α).length + xs.length := by
    rw [List.length_nil, Nat.zero_add]
  rcases (Layered.start key needs xs).rounds hkeys hneeds hn with
    ⟨j, l, hsome, hl, hall⟩ | ⟨j, r, hnone, hr, hleft, hlayer⟩
  · rw [hsome]
    exact iff_of_false nofun (not_not_intro (hl.complete hall).2)
  · exact iff_of_true hnone (hr.stuck hkeys hneeds hleft hlayer)

/-- the items in their rounds: each after what it needs, those of one depth in the order of the
list -/
theorem rounds_eq_some (hkeys : (xs.map key).Nodup)
    (hneeds : ∀ x ∈ xs, ∀ k ∈ needs x, k ∈ xs.map key)
    (h : rounds key needs xs xs.length [] = some l) :
    l.Perm xs ∧ Sorted key needs l ∧ ∀ x y n, Depth key needs xs (key x) n →
      Depth key needs xs (key y) n → [x, y].Sublist xs → [x, y].Sublist l := by
  have hn : xs.length ≤ ([] : List α).length + xs.length := by
    rw [List.length_nil, Nat.zero_add]
  rcases (Layered.start key needs xs).rounds hkeys hneeds hn with
    ⟨j, l', hsome, hl, hall⟩ | ⟨j, r, hnone, -⟩
  · rw [hsome] at h
    obtain rfl := Option.some.inj h
    have hperm := (hl.complete hall).1
    refine ⟨hperm, hl.sorted, fun x y n hx hy hsub => ?_⟩
    have hxs : x ∈ xs := hsub.subset List.mem_cons_self
    have hshallow := ((hl.mem x).1 (hperm.mem_iff.2 hxs)).2
    have hlt : n < j := by
      by_contra hge
      exact hshallow (hx.1.mono (Nat.le_of_not_lt hge))
    exact hl.order x y n hlt hx hy hsub
  · rw [hnone] at h
    cases h

end Layers
