import LifeAI.Lib.Run

/-!
# Runs that keep a history

* `recorded`  the step that also appends what an operation records;
* `meets_recorded`  it finds what the step without a history finds;
* `Pending`   a record raised something that no later record settles;
* `pending_append_singleton`  what one more record does to it.
-/

namespace History

variable {σ ι ρ : Type*} (step : σ → ι → σ) (record : σ → ι → Option ρ)

/-- the step on a state with its history -/
def recorded (p : σ × List ρ) (o : ι) : σ × List ρ := (step p.1 o, p.2 ++ (record p.1 o).toList)

variable {step record}

theorem recorded_none {p : σ × List ρ} {o : ι} (h : record p.1 o = none) :
    recorded step record p o = (step p.1 o, p.2) := by
  unfold recorded
  rw [h, Option.toList_none, List.append_nil]

theorem recorded_some {p : σ × List ρ} {o : ι} {r : ρ} (h : record p.1 o = some r) :
    recorded step record p o = (step p.1 o, p.2 ++ [r]) := by
  unfold recorded
  rw [h, Option.toList_some]

/-- what the operations of a run meet, they meet in the run that keeps a history -/
theorem meets_recorded {C : σ → ι → Prop} {p : σ × List ρ} {os : List ι}
    (h : ∀ q ∈ Run.trace step p.1 os, C q.1 q.2) :
    Run.Meets (recorded step record) (fun q o => C q.1 o) p os := by
  induction os generalizing p with
  | nil => exact trivial
  | cons o os ih =>
    have hfirst : C p.1 o := h (p.1, o) List.mem_cons_self
    exact ⟨hfirst, ih fun q hq => h q (List.mem_cons_of_mem _ hq)⟩

variable (raises settles : ρ → Prop)

/-- something was raised, and nothing after it settles it -/
def Pending (h : List ρ) : Prop :=
  ∃ before r after, h = before ++ r :: after ∧ raises r ∧ ∀ q ∈ after, ¬ settles q

variable {raises settles}

theorem not_pending_nil : ¬ Pending raises settles [] := by
  intro h
  obtain ⟨before, r, after, heq, -⟩ := h
  exact List.cons_ne_nil _ _ (List.append_eq_nil_iff.1 heq.symm).2

theorem pending_append_singleton {h : List ρ} {r : ρ} : Pending raises settles (h ++ [r]) ↔
    raises r ∨ (Pending raises settles h ∧ ¬ settles r) := by
  constructor
  · intro hp
    obtain ⟨before, q, after, heq, hq, hafter⟩ := hp
    rcases List.eq_nil_or_concat after with rfl | ⟨after, x, rfl⟩
    · -- the raising record is the last one
      obtain ⟨-, hlast⟩ := List.append_inj' heq rfl
      obtain rfl := (List.cons.inj hlast).1
      exact .inl hq
    · rw [List.concat_eq_append] at heq hafter
      rw [← List.cons_append, ← List.append_assoc] at heq
      obtain ⟨rfl, hlast⟩ := List.append_inj' heq rfl
      obtain rfl := (List.cons.inj hlast).1
      have hsettled : ¬ settles r := hafter r (List.mem_append_right _ List.mem_cons_self)
      have hrest : ∀ q ∈ after, ¬ settles q := fun q hq => hafter q (List.mem_append_left _ hq)
      exact .inr ⟨⟨before, q, after, rfl, hq, hrest⟩, hsettled⟩
  · intro hp
    rcases hp with hr | ⟨⟨before, q, after, rfl, hq, hafter⟩, hr⟩
    · exact ⟨h, r, [], rfl, hr, fun q hq => absurd hq List.not_mem_nil⟩
    · have heq : before ++ q :: after ++ [r] = before ++ q :: (after ++ [r]) := by
        rw [List.append_assoc, List.cons_append]
      refine ⟨before, q, after ++ [r], heq, hq, fun x hx => ?_⟩
      rcases List.mem_append.1 hx with hx | hx
      · exact hafter x hx
      · rw [List.mem_singleton.1 hx]
        exact hr

end History
