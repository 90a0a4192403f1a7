import Mathlib.Data.Set.Card

/-!
# Cycles of a relation

* `Acyclic`     nothing reaches itself; `of_map` and `of_classes` carry this along maps and from
                the classes that no edge leaves to the whole relation;
* `Acyclic.insert`, `Acyclic.leads`   an edge more, and the end of every walk among finitely many points;
* `ClosedWalk`  a list that shows a cycle;
* `Finished`    what a depth-first search has behind it: a set that no edge leaves and that meets
                no cycle.  `insert` adds a point whose successors are all in the set.
-/

namespace Digraph

variable {α β κ : Type*} {r : α → α → Prop}

/-- nothing reaches itself -/
def Acyclic (r : α → α → Prop) : Prop := ∀ a, ¬ Relation.TransGen r a a

theorem Acyclic.of_map {s : β → β → Prop} (h : Acyclic s) (f : α → β)
    (hf : ∀ a b, r a b → s (f a) (f b)) : Acyclic r :=
  fun a ha => h (f a) (ha.lift f hf)

/-- an edge stays in its class, so a cycle does -/
theorem Acyclic.of_classes (c : α → κ) (hc : ∀ a b, r a b → c a = c b)
    (hk : ∀ k, Acyclic fun a b => c a = k ∧ r a b) : Acyclic r := by
  intro a ha
  have hlift : ∀ b, Relation.TransGen r a b →
      c b = c a ∧ Relation.TransGen (fun x y => c x = c a ∧ r x y) a b := by
    intro b hb
    induction hb with
    | single hab => exact ⟨(hc _ _ hab).symm, .single ⟨rfl, hab⟩⟩
    | tail _ hbd ih => exact ⟨(hc _ _ hbd).symm.trans ih.1, ih.2.tail ⟨ih.1, hbd⟩⟩
  exact hk (c a) a (hlift a ha).2

/-! ## more edges, and where they lead -/

/-- an edge whose end does not lead back to its start closes no cycle -/
theorem Acyclic.insert {s : α → α → Prop} (h : Acyclic r) {v w : α}
    (hback : ¬ Relation.ReflTransGen r w v) (hs : ∀ a b, s a b → r a b ∨ (a = v ∧ b = w)) :
    Acyclic s := by
  -- a walk of the new edges is one of the old, or passes the new edge a last time
  have hwalk : ∀ a b, Relation.TransGen s a b →
      Relation.TransGen r a b ∨ (Relation.ReflTransGen s a v ∧ Relation.ReflTransGen r w b) := by
    intro a b hab
    induction hab with
    | single hab =>
      rcases hs _ _ hab with hr | ⟨rfl, rfl⟩
      · exact .inl (.single hr)
      · exact .inr ⟨.refl, .refl⟩
    | tail hab hbc ih =>
      rcases hs _ _ hbc with hr | ⟨rfl, rfl⟩
      · exact ih.imp (·.tail hr) fun hvia => ⟨hvia.1, hvia.2.tail hr⟩
      · exact .inr ⟨hab.to_reflTransGen, .refl⟩
  intro a ha
  rcases hwalk a a ha with hr | ⟨hav, hwa⟩
  · exact h a hr
  · -- from the end of the new edge to `a`, and on to its start
    rcases Relation.reflTransGen_iff_eq_or_transGen.1 hav with rfl | hav
    · exact hback hwa
    rcases hwalk a v hav with hr | ⟨-, hwv⟩
    · exact hback (hwa.trans hr.to_reflTransGen)
    · exact hback hwv

/-- without cycles, among finitely many points, every point leads to one that no edge leaves -/
theorem Acyclic.leads (h : Acyclic r) (hfin : {b | ∃ a, r a b}.Finite) (a : α) :
    ∃ b, Relation.ReflTransGen r a b ∧ ∀ c, ¬ r b c := by
  have hreach : ∀ a, {b | Relation.TransGen r a b}.Finite := fun a => by
    refine hfin.subset fun b hb => ?_
    obtain ⟨c, -, hcb⟩ := Relation.TransGen.tail'_iff.1 hb
    exact ⟨c, hcb⟩
  -- an edge leads to where fewer points are reached
  induction hn : {b | Relation.TransGen r a b}.ncard using Nat.strong_induction_on generalizing a with
  | _ n ih =>
    by_cases hedge : ∃ c, r a c
    · obtain ⟨c, hac⟩ := hedge
      have hfewer : {b | Relation.TransGen r c b} ⊂ {b | Relation.TransGen r a b} :=
        ⟨fun b hb => .head hac hb, fun hall => h c (hall (.single hac))⟩
      have hlt := Set.ncard_lt_ncard hfewer (hreach a)
      obtain ⟨b, hcb, hb⟩ := ih _ (hn ▸ hlt) c rfl
      exact ⟨b, .head hac hcb, hb⟩
    · exact ⟨a, .refl, fun c hc => hedge ⟨c, hc⟩⟩

/-! ## closed walks -/

/-- a walk of at least one edge that ends where it began -/
structure ClosedWalk (r : α → α → Prop) (l : List α) : Prop where
  long : 2 ≤ l.length
  ends : l.head? = l.getLast?
  chain : l.IsChain r

theorem transGen_of_chain {a b : α} {l : List α} (h : (a :: (l ++ [b])).IsChain r) :
    Relation.TransGen r a b := by
  induction l generalizing a with
  | nil => exact .single (List.isChain_cons_cons.1 h).1
  | cons c l ih =>
    obtain ⟨hac, h⟩ := List.isChain_cons_cons.1 h
    exact .head hac (ih h)

/-- a path that returns to one of its nodes -/
theorem ClosedWalk.of_path [DecidableEq α] {path : List α} {v : α} (hv : v ∈ path)
    (h : (path ++ [v]).IsChain r) : ClosedWalk r (path.drop (path.idxOf v) ++ [v]) := by
  have hlt : path.idxOf v < path.length := List.idxOf_lt_length_of_mem hv
  have hdrop := List.drop_eq_getElem_cons hlt
  rw [List.getElem_idxOf] at hdrop
  refine ⟨?_, ?_, ?_⟩
  · rw [hdrop]
    simp
  · rw [List.getLast?_concat, hdrop]
    rfl
  · rw [← List.drop_append_of_le_length hlt.le]
    exact h.suffix (List.drop_suffix _ _)

/-! ## what a search has finished -/

/-- no edge leaves `S` and no cycle meets it -/
structure Finished (r : α → α → Prop) (S : α → Prop) : Prop where
  closed : ∀ a b, S a → r a b → S b
  acyclic : ∀ a, S a → ¬ Relation.TransGen r a a

theorem Finished.empty {S : α → Prop} (h : ∀ a, ¬ S a) : Finished r S :=
  ⟨fun a _ ha => absurd ha (h a), fun a ha => absurd ha (h a)⟩

theorem Finished.reaches {S : α → Prop} (h : Finished r S) {a b : α} (ha : S a)
    (hab : Relation.TransGen r a b) : S b := by
  induction hab with
  | single hr => exact h.closed _ _ ha hr
  | tail _ hr ih => exact h.closed _ _ ih hr

/-- a point whose successors are all in `S` joins it -/
theorem Finished.insert {S T : α → Prop} (h : Finished r S) {v : α} (hv : ¬ S v)
    (hsucc : ∀ b, r v b → S b) (hT : ∀ a, T a ↔ a = v ∨ S a) : Finished r T := by
  constructor
  · intro a b ha hab
    rcases (hT a).1 ha with rfl | ha
    · exact (hT b).2 (.inr (hsucc b hab))
    · exact (hT b).2 (.inr (h.closed a b ha hab))
  · intro a ha hcycle
    rcases (hT a).1 ha with rfl | ha
    · obtain ⟨b, hb, hrest⟩ := Relation.TransGen.head'_iff.1 hcycle
      rcases Relation.reflTransGen_iff_eq_or_transGen.1 hrest with rfl | hrest
      · exact hv (hsucc _ hb)
      · exact hv (h.reaches (hsucc b hb) hrest)
    · exact h.acyclic a ha hcycle

/-- a finished set that every edge begins in leaves no cycle -/
theorem Finished.all {S : α → Prop} (h : Finished r S) (hS : ∀ a b, r a b → S a) :
    Acyclic r := by
  intro a ha
  obtain ⟨b, hb, -⟩ := Relation.TransGen.head'_iff.1 ha
  exact h.acyclic a (hS a b hb) ha

end Digraph
