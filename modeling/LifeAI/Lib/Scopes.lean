import Mathlib.Data.List.Infix

/-!
# Directories with a stem

A scope is a directory, or the entries of a directory whose name begins with a stem, each with
everything below it.

* `Scope.Covers`    the paths of a scope;
* `Below`           where the second scope can lie in the first;
* `overlap_iff`     two scopes share a path exactly when one can lie in the other;
* `Comparable`      one path is an ancestor of the other, or the same;
* `comparable_iff`  what two paths need that end in a name more.
-/

namespace Scopes

structure Scope (α : Type) where
  dir : List (List α)
  stem : Option (List α) := none
  deriving DecidableEq

variable {α : Type}

/-- one path is an ancestor of the other, or the same -/
def Comparable {β : Type} (p q : List β) : Prop := p <+: q ∨ q <+: p

instance {β : Type} [DecidableEq β] (p q : List β) : Decidable (Comparable p q) :=
  inferInstanceAs (Decidable (_ ∨ _))

theorem getElem?_of_prefix {β : Type} {p q : List β} (h : p <+: q) {i : Nat} {x : β}
    (hx : p[i]? = some x) : q[i]? = some x := by
  obtain ⟨rest, rfl⟩ := h
  obtain ⟨hi, -⟩ := List.getElem?_eq_some_iff.1 hx
  rw [List.getElem?_append_left hi, hx]

theorem comparable_append_iff {β : Type} (p q r : List β) :
    Comparable (p ++ q) (p ++ r) ↔ Comparable q r := by
  unfold Comparable
  rw [List.prefix_append_right_inj, List.prefix_append_right_inj]

theorem comparable_comm {β : Type} {p q : List β} : Comparable p q ↔ Comparable q p := or_comm

theorem comparable_iff_of_le {β : Type} {p q : List β} (hle : p.length ≤ q.length) :
    Comparable p q ↔ p = q.take p.length := by
  unfold Comparable
  rw [← List.prefix_iff_eq_take]
  refine or_iff_left_of_imp fun h => ?_
  rw [h.eq_of_length_le hle]

/-- comparing as far as both go -/
theorem comparable_iff_take {β : Type} (p q : List β) :
    Comparable p q ↔ p.take (min p.length q.length) = q.take (min p.length q.length) := by
  rcases Nat.le_total p.length q.length with hle | hle
  · rw [Nat.min_eq_left hle, List.take_length]
    exact comparable_iff_of_le hle
  · rw [Nat.min_eq_right hle, List.take_length, comparable_comm, eq_comm]
    exact comparable_iff_of_le hle

theorem comparable_map_iff {β γ : Type} {f : β → γ} (hf : Function.Injective f) (p q : List β) :
    Comparable (p.map f) (q.map f) ↔ Comparable p q := by
  unfold Comparable
  rw [List.prefix_map_iff_of_injective hf, List.prefix_map_iff_of_injective hf]

theorem comparable_cons_iff {β : Type} (x y : β) (rest : List β) :
    Comparable [x] (y :: rest) ↔ x = y := by
  constructor
  · intro h
    rcases h with h | h
    · exact (List.cons_prefix_cons.1 h).1
    · exact (List.cons_prefix_cons.1 h).1.symm
  · intro h
    exact .inl (List.cons_prefix_cons.2 ⟨h, List.nil_prefix⟩)

/-- paths with a name more, or without: the name of the upper one is the next name below it -/
theorem comparable_iff {β : Type} {p q : List β} (h : p <+: q) (x y : Option β) :
    Comparable (p ++ x.toList) (q ++ y.toList) ↔
      ∀ name ∈ x, (∀ other ∈ q[p.length]?, name = other) ∧
        (p = q → ∀ other ∈ y, name = other) := by
  obtain ⟨rest, rfl⟩ := h
  rw [List.append_assoc, comparable_append_iff, List.getElem?_append_right (Nat.le_refl _),
    Nat.sub_self, List.self_eq_append_right]
  cases x with
  | none =>
    refine iff_of_true (.inl List.nil_prefix) fun name hname => ?_
    cases hname
  | some name =>
    cases rest with
    | nil =>
      cases y with
      | none =>
        refine iff_of_true (.inr List.nil_prefix) fun name _ => ⟨?_, ?_⟩
        · intro other hother
          cases hother
        · intro _ other hother
          cases hother
      | some other =>
        show Comparable [name] [other] ↔ _
        rw [comparable_cons_iff]
        simp
    | cons other rest =>
      show Comparable [name] (other :: (rest ++ y.toList)) ↔ _
      rw [comparable_cons_iff]
      simp

namespace Scope

/-- at the directory or below it, and at a name with the stem -/
structure Covers (s : Scope α) (path : List (List α)) : Prop where
  below : s.dir <+: path
  named : ∀ stem ∈ s.stem, ∃ name ∈ path[s.dir.length]?, stem <+: name

/-- the directory of `t` is at `s` or below it, and on its way meets the stem -/
structure Below (s t : Scope α) : Prop where
  dir : s.dir <+: t.dir
  next : ∀ stem ∈ s.stem, ∀ name ∈ t.dir[s.dir.length]?, stem <+: name
  same : s.dir = t.dir → ∀ stem ∈ s.stem, ∀ other ∈ t.stem, Comparable stem other

/-- the names of a scope, and its stem with a letter more, are names that paths can have -/
structure Fits (ok : List α → Prop) (letter : α) (s : Scope α) : Prop where
  dir : ∀ name ∈ s.dir, ok name
  stem : ∀ stem ∈ s.stem, ok (stem ++ [letter])

variable {ok : List α → Prop} {letter : α} {s t : Scope α} {path : List (List α)}

theorem Covers.below_of_le (hs : s.Covers path) (ht : t.Covers path)
    (hle : s.dir.length ≤ t.dir.length) : s.Below t where
  dir := List.prefix_of_prefix_length_le hs.below ht.below hle
  next stem hstem name hname := by
    obtain ⟨name', hname', hpre⟩ := hs.named stem hstem
    have hget := getElem?_of_prefix ht.below hname
    rw [Option.mem_def, hget, Option.some.injEq] at hname'
    rwa [hname']
  same hdir stem hstem other hother := by
    obtain ⟨name, hname, hpre⟩ := hs.named stem hstem
    obtain ⟨name', hname', hpre'⟩ := ht.named other hother
    rw [← hdir] at hname'
    obtain rfl := Option.mem_unique hname hname'
    exact List.prefix_or_prefix_of_prefix hpre hpre'

/-- a name with both stems, if they are comparable -/
theorem exists_name (x : Option (List α)) (y : Option (List α)) (hempty : ok [letter])
    (hx : ∀ stem ∈ x, ok (stem ++ [letter])) (hy : ∀ stem ∈ y, ok (stem ++ [letter]))
    (hxy : ∀ stem ∈ x, ∀ other ∈ y, Comparable stem other) :
    ∃ name, ok name ∧ (∀ stem ∈ x, stem <+: name) ∧ ∀ other ∈ y, other <+: name := by
  cases x with
  | none =>
    cases y with
    | none => exact ⟨[letter], hempty, nofun, nofun⟩
    | some other =>
      refine ⟨other ++ [letter], hy other rfl, nofun, fun _ h => ?_⟩
      cases h
      exact List.prefix_append other [letter]
  | some stem =>
    cases y with
    | none =>
      refine ⟨stem ++ [letter], hx stem rfl, fun _ h => ?_, nofun⟩
      cases h
      exact List.prefix_append stem [letter]
    | some other =>
      rcases hxy stem rfl other rfl with h | h
      · refine ⟨other ++ [letter], hy other rfl, fun _ hs => ?_, fun _ ho => ?_⟩
        · cases hs
          exact h.trans (List.prefix_append other [letter])
        · cases ho
          exact List.prefix_append other [letter]
      · refine ⟨stem ++ [letter], hx stem rfl, fun _ hs => ?_, fun _ ho => ?_⟩
        · cases hs
          exact List.prefix_append stem [letter]
        · cases ho
          exact h.trans (List.prefix_append stem [letter])

/-- where one scope can lie in the other there is a path of both, just below the lower one -/
theorem Below.shares (h : s.Below t) (hempty : ok [letter]) (hs : s.Fits ok letter)
    (ht : t.Fits ok letter) :
    ∃ path, (path ≠ [] ∧ ∀ name ∈ path, ok name) ∧ s.Covers path ∧ t.Covers path := by
  by_cases hsame : s.dir = t.dir
  · obtain ⟨name, hok, hstem, hother⟩ :=
      exists_name s.stem t.stem hempty hs.stem ht.stem (h.same hsame)
    refine ⟨t.dir ++ [name], ⟨List.append_ne_nil_of_right_ne_nil _ (List.cons_ne_nil _ _), ?_⟩,
      ⟨?_, ?_⟩, ⟨List.prefix_append _ _, ?_⟩⟩
    · intro x hx
      rcases List.mem_append.1 hx with hx | hx
      · exact ht.dir x hx
      · rwa [List.mem_singleton.1 hx]
    · rw [hsame]
      exact List.prefix_append _ _
    · intro stem hstem'
      refine ⟨name, ?_, hstem stem hstem'⟩
      rw [hsame]
      exact List.getElem?_concat_length
    · intro other hother'
      exact ⟨name, List.getElem?_concat_length, hother other hother'⟩
  · obtain ⟨name, hok, -, hother⟩ :=
      exists_name none t.stem hempty nofun ht.stem nofun
    obtain ⟨rest, hrest⟩ := h.dir
    have hne : rest ≠ [] := by
      intro hnil
      rw [hnil, List.append_nil] at hrest
      exact hsame hrest
    obtain ⟨next, rest, rfl⟩ := List.exists_cons_of_ne_nil hne
    have hnext : t.dir[s.dir.length]? = some next := by
      rw [← hrest, List.getElem?_append_right (Nat.le_refl _), Nat.sub_self]
      rfl
    refine ⟨t.dir ++ [name], ⟨List.append_ne_nil_of_right_ne_nil _ (List.cons_ne_nil _ _), ?_⟩,
      ⟨h.dir.trans (List.prefix_append _ _), ?_⟩, ⟨List.prefix_append _ _, ?_⟩⟩
    · intro x hx
      rcases List.mem_append.1 hx with hx | hx
      · exact ht.dir x hx
      · rwa [List.mem_singleton.1 hx]
    · intro stem hstem
      exact ⟨next, getElem?_of_prefix (List.prefix_append _ _) hnext,
        h.next stem hstem next hnext⟩
    · intro other hother'
      exact ⟨name, List.getElem?_concat_length, hother other hother'⟩

/-- **overlap**: two scopes share a path exactly when one of them can lie in the other -/
theorem overlap_iff (hempty : ok [letter]) (hs : s.Fits ok letter) (ht : t.Fits ok letter) :
    (∃ path, (path ≠ [] ∧ ∀ name ∈ path, ok name) ∧ s.Covers path ∧ t.Covers path) ↔
      s.Below t ∨ t.Below s := by
  constructor
  · intro ⟨path, _, hcs, hct⟩
    rcases Nat.le_total s.dir.length t.dir.length with hle | hle
    · exact .inl (hcs.below_of_le hct hle)
    · exact .inr (hct.below_of_le hcs hle)
  · intro h
    rcases h with h | h
    · exact h.shares hempty hs ht
    · obtain ⟨path, hok, hct, hcs⟩ := h.shares hempty ht hs
      exact ⟨path, hok, hcs, hct⟩

end Scope
end Scopes
