import Mathlib.Data.Finset.Card

/-!
# Draining a graph

Some vertices of a graph are dead, some are open, and a drain kills open vertices with an edge to
a dead one, until there is none.

* `Doomed`    the open vertices that reach a dead one through open vertices;
* `Doomed.reaches`  a doomed vertex reaches a dead one;
* `dead_iff`  a set that only grows by doomed vertices and leaves none behind is what a drain
              ends with;
* `card_lt_of_more`  the measure of a drain.
-/

namespace Drain

variable {V : Type*} {edge : V → V → Prop} {isOpen dead : V → Prop}

/-- an open vertex with an edge to a dead or a doomed one -/
inductive Doomed (edge : V → V → Prop) (isOpen dead : V → Prop) : V → Prop
  | dead {v d : V} : isOpen v → edge v d → dead d → Doomed edge isOpen dead v
  | step {v d : V} : isOpen v → edge v d → Doomed edge isOpen dead d → Doomed edge isOpen dead v

theorem Doomed.opened {v : V} (h : Doomed edge isOpen dead v) : isOpen v := by
  cases h with
  | dead hv _ _ => exact hv
  | step hv _ _ => exact hv

theorem Doomed.of_edge {v d : V} (hv : isOpen v) (he : edge v d)
    (hd : dead d ∨ Doomed edge isOpen dead d) : Doomed edge isOpen dead v := by
  rcases hd with hd | hd
  · exact .dead hv he hd
  · exact .step hv he hd

theorem Doomed.reaches {v : V} (h : Doomed edge isOpen dead v) :
    ∃ d, Relation.TransGen edge v d ∧ dead d := by
  induction h with
  | dead _ he hd => exact ⟨_, .single he, hd⟩
  | step _ he _ ih =>
    obtain ⟨d, hd, hdead⟩ := ih
    exact ⟨d, .head he hd, hdead⟩

/-- the final set of a drain: `grown` for what may enter it, `exhausted` for the exit test -/
theorem dead_iff {final : V → Prop} (kept : ∀ v, dead v → final v)
    (grown : ∀ v, final v → dead v ∨ Doomed edge isOpen dead v)
    (exhausted : ∀ v d, isOpen v → edge v d → final d → final v) (v : V) :
    final v ↔ dead v ∨ Doomed edge isOpen dead v := by
  refine ⟨grown v, ?_⟩
  rintro (h | h)
  · exact kept v h
  · induction h with
    | dead hv he hd => exact exhausted _ _ hv he (kept _ hd)
    | step hv he _ ih => exact exhausted _ _ hv he ih

/-- fewer of the first `n` numbers satisfy a property that has lost one of them -/
theorem card_lt_of_more {n : Nat} {p q : Nat → Prop} [DecidablePred p] [DecidablePred q]
    (hpq : ∀ i, i < n → q i → p i) {k : Nat} (hk : k < n) (hp : p k) (hq : ¬ q k) :
    ((Finset.range n).filter q).card < ((Finset.range n).filter p).card := by
  refine Finset.card_lt_card ⟨fun i hi => ?_, fun hsub => hq ?_⟩
  · rw [Finset.mem_filter, Finset.mem_range] at hi ⊢
    exact ⟨hi.1, hpq i hi.1 hi.2⟩
  · have := hsub (Finset.mem_filter.2 ⟨Finset.mem_range.2 hk, hp⟩)
    exact (Finset.mem_filter.1 this).2

end Drain
