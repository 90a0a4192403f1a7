import Mathlib.Tactic.Common

/-!
# Runs of a step function

A system is a step function `σ → ι → σ` on a state and an operation.

* `run`     the state after a list of operations;
* `trace`   the operations, each with the state it found;
* `Always`  a predicate of every state passed through, both ends included;
* `Meets`   every operation meets a condition in the state it finds.

`inv` carries an invariant along the runs whose operations meet a condition; `rel` carries a
reflexive and transitive relation between the ends of a run.
-/

namespace Run

variable {σ ι : Type*} (step : σ → ι → σ)

/-- the state after the operations `os` -/
def run (s : σ) (os : List ι) : σ := os.foldl step s

/-- the operations of a run, each with the state it found -/
def trace : σ → List ι → List (σ × ι)
  | _, [] => []
  | s, o :: os => (s, o) :: trace (step s o) os

/-- `P` holds in every state of the run, the first and the last included -/
def Always (P : σ → Prop) : σ → List ι → Prop
  | s, [] => P s
  | s, o :: os => P s ∧ Always P (step s o) os

/-- every operation of the run meets `C` in the state it finds -/
def Meets (C : σ → ι → Prop) : σ → List ι → Prop
  | _, [] => True
  | s, o :: os => C s o ∧ Meets C (step s o) os

theorem run_nil (s : σ) : run step s [] = s := rfl
theorem run_cons (s : σ) (o : ι) (os : List ι) :
    run step s (o :: os) = run step (step s o) os := rfl
theorem run_append (s : σ) (a b : List ι) :
    run step s (a ++ b) = run step (run step s a) b := by
  simp [run, List.foldl_append]

theorem trace_append (s : σ) (a b : List ι) :
    trace step s (a ++ b) = trace step s a ++ trace step (run step s a) b := by
  induction a generalizing s with
  | nil => rfl
  | cons o os ih => simp only [List.cons_append, trace, run_cons, ih]

/-- a condition on the operations alone -/
theorem Meets.of_forall {C : ι → Prop} {os : List ι} (h : ∀ o ∈ os, C o) (s : σ) :
    Meets step (fun _ o => C o) s os := by
  induction os generalizing s with
  | nil => trivial
  | cons o os ih =>
    obtain ⟨ho, hrest⟩ := List.forall_mem_cons.1 h
    exact ⟨ho, ih hrest _⟩

instance decidableMeets (C : σ → ι → Prop) [∀ s o, Decidable (C s o)] :
    ∀ (s : σ) (os : List ι), Decidable (Meets step C s os)
  | _, [] => inferInstanceAs (Decidable True)
  | s, o :: os =>
    have := decidableMeets C (step s o) os
    inferInstanceAs (Decidable (C s o ∧ Meets step C (step s o) os))

variable {step}

/-- an invariant kept by every operation that meets `C` holds after every run that meets `C` -/
theorem inv {I : σ → Prop} {C : σ → ι → Prop} (hstep : ∀ s o, I s → C s o → I (step s o))
    {s : σ} {os : List ι} (h0 : I s) (hc : Meets step C s os) : I (run step s os) := by
  induction os generalizing s with
  | nil => exact h0
  | cons o os ih => exact ih (hstep s o h0 hc.1) hc.2

/-- what an invariant of the runs that meet `C` implies, holds in every state of such a run -/
theorem always {I P : σ → Prop} {C : σ → ι → Prop} (hP : ∀ s, I s → P s)
    (hstep : ∀ s o, I s → C s o → I (step s o)) {s : σ} {os : List ι} (h0 : I s)
    (hc : Meets step C s os) : Always step P s os := by
  induction os generalizing s with
  | nil => exact hP s h0
  | cons o os ih => exact ⟨hP s h0, ih (hstep s o h0 hc.1) hc.2⟩

/-- an invariant kept by every operation holds after every run -/
theorem inv_all {I : σ → Prop} (hstep : ∀ s o, I s → I (step s o)) {s : σ} (h0 : I s)
    (os : List ι) : I (run step s os) := by
  induction os generalizing s with
  | nil => exact h0
  | cons o os ih => exact ih (hstep s o h0)

/-- a property that an operation keeps exactly when it meets `C` -/
theorem iff_meets {I P : σ → Prop} {C : σ → ι → Prop} (hinv : ∀ s o, I s → I (step s o))
    (hstep : ∀ s o, I s → (P (step s o) ↔ P s ∧ C s o)) {s : σ} (h0 : I s) (os : List ι) :
    P (run step s os) ↔ P s ∧ Meets step C s os := by
  induction os generalizing s with
  | nil => simp [run_nil, Meets]
  | cons o os ih => rw [run_cons, ih (hinv s o h0), hstep s o h0, Meets, and_assoc]

/-- a property that an operation keeps exactly when it meets `C`, under an invariant of the runs
that meet `C`, holds in every state exactly of these runs -/
theorem always_iff_meets {I P : σ → Prop} {C : σ → ι → Prop} (hP : ∀ s, I s → P s)
    (hstep : ∀ s o, I s → P (step s o) → C s o) (hinv : ∀ s o, I s → C s o → I (step s o))
    {s : σ} (h0 : I s) (os : List ι) : Always step P s os ↔ Meets step C s os := by
  induction os generalizing s with
  | nil => exact iff_of_true (hP s h0) trivial
  | cons o os ih =>
    constructor
    · rintro ⟨-, h⟩
      have hfirst : P (step s o) := by
        cases os with
        | nil => exact h
        | cons o' os => exact h.1
      have hC := hstep s o h0 hfirst
      exact ⟨hC, (ih (hinv s o h0 hC)).1 h⟩
    · rintro ⟨hC, h⟩
      exact ⟨hP s h0, (ih (hinv s o h0 hC)).2 h⟩

theorem Always.run {P : σ → Prop} {s : σ} {os : List ι} (h : Always step P s os) :
    P (run step s os) := by
  induction os generalizing s with
  | nil => exact h
  | cons o os ih => exact ih h.2

/-- a predicate of every state of a run, as a duty of its operations -/
theorem always_iff_trace {P : σ → Prop} (s : σ) (os : List ι) :
    Always step P s os ↔ P s ∧ ∀ p ∈ trace step s os, P (step p.1 p.2) := by
  induction os generalizing s with
  | nil => exact ⟨fun h => ⟨h, fun p hp => absurd hp List.not_mem_nil⟩, And.left⟩
  | cons o os ih =>
    rw [Always, ih, trace, List.forall_mem_cons]

/-- an operation does its duty `D` exactly when it meets `C`, under an invariant that the duties
keep: every operation of a run does its duty exactly when the run meets `C` -/
theorem trace_iff_meets {I : σ → Prop} {C D : σ → ι → Prop}
    (hstep : ∀ s o, I s → (D s o ↔ C s o)) (hinv : ∀ s o, I s → D s o → I (step s o))
    {s : σ} (h0 : I s) (os : List ι) :
    (∀ p ∈ trace step s os, D p.1 p.2) ↔ Meets step C s os := by
  induction os generalizing s with
  | nil => simp [trace, Meets]
  | cons o os ih =>
    rw [trace, List.forall_mem_cons, Meets, ← hstep s o h0]
    exact and_congr_right fun hD => ih (hinv s o h0 hD)

/-- what an operation does under an invariant, every operation of a run does -/
theorem trace_all {I : σ → Prop} {D : σ → ι → Prop} (hstep : ∀ s o, I s → D s o ∧ I (step s o))
    {s : σ} (h0 : I s) (os : List ι) : ∀ p ∈ trace step s os, D p.1 p.2 := by
  induction os generalizing s with
  | nil => exact fun p hp => absurd hp List.not_mem_nil
  | cons o os ih =>
    obtain ⟨hD, hI⟩ := hstep s o h0
    exact List.forall_mem_cons.2 ⟨hD, ih hI⟩

/-- what an operation that meets `C` does under an invariant, every operation of a run that meets
`C` does -/
theorem trace_all_of_meets {I : σ → Prop} {C D : σ → ι → Prop}
    (hstep : ∀ s o, I s → C s o → D s o ∧ I (step s o)) {s : σ} {os : List ι} (h0 : I s)
    (hc : Meets step C s os) : ∀ p ∈ trace step s os, D p.1 p.2 := by
  induction os generalizing s with
  | nil => exact fun p hp => absurd hp List.not_mem_nil
  | cons o os ih =>
    obtain ⟨hD, hI⟩ := hstep s o h0 hc.1
    exact List.forall_mem_cons.2 ⟨hD, ih hI hc.2⟩

/-- an invariant holds in every state of a run -/
theorem always_of_inv {I P : σ → Prop} (hP : ∀ s, I s → P s) (hstep : ∀ s o, I s → I (step s o))
    {s : σ} (h0 : I s) (os : List ι) : Always step P s os := by
  induction os generalizing s with
  | nil => exact hP s h0
  | cons o os ih => exact ⟨hP s h0, ih (hstep s o h0)⟩

/-- when an operation keeps all of `K` exactly if it meets `C`, the runs that meet `C` are those
along which every fact of `K` stays, once it holds -/
theorem stays_iff_meets {κ : Type*} {K : κ → σ → Prop} {C : σ → ι → Prop}
    (hstep : ∀ s o, (∀ k, K k s → K k (step s o)) ↔ C s o) (s : σ) (os : List ι) :
    (∀ a b c k, os = a ++ b ++ c → K k (run step s a) → K k (run step s (a ++ b))) ↔
      Meets step C s os := by
  induction os generalizing s with
  | nil =>
    refine iff_of_true (fun a b c k h hk => ?_) trivial
    obtain ⟨hab, -⟩ := List.append_eq_nil_iff.1 h.symm
    obtain ⟨rfl, rfl⟩ := List.append_eq_nil_iff.1 hab
    exact hk
  | cons o os ih =>
    rw [Meets, ← hstep, ← ih]
    constructor
    · intro h
      refine ⟨fun k hk => h [] [o] os k rfl hk, fun a b c k hos hk => ?_⟩
      exact h (o :: a) b c k (by rw [hos]; rfl) hk
    · rintro ⟨hfirst, hrest⟩ a b c k hos hk
      cases a with
      | cons o' a =>
        obtain ⟨rfl, htail⟩ := List.cons.inj hos
        exact hrest a b c k htail hk
      | nil =>
        cases b with
        | nil => exact hk
        | cons o' b =>
          obtain ⟨rfl, htail⟩ := List.cons.inj hos
          exact hrest [] b c k htail (hfirst k hk)

/-- a reflexive and transitive relation that every operation meeting `C` respects, under an
invariant, relates the two ends of a run that meets `C` -/
theorem rel {I : σ → Prop} {C : σ → ι → Prop} {R : σ → σ → Prop}
    (hrefl : ∀ s, R s s) (htrans : ∀ a b c, R a b → R b c → R a c)
    (hinv : ∀ s o, I s → C s o → I (step s o))
    (hstep : ∀ s o, I s → C s o → R s (step s o))
    {s : σ} {os : List ι} (h0 : I s) (hc : Meets step C s os) : R s (run step s os) := by
  induction os generalizing s with
  | nil => exact hrefl s
  | cons o os ih =>
    have h1 := hstep s o h0 hc.1
    have h2 := ih (hinv s o h0 hc.1) hc.2
    exact htrans _ _ _ h1 h2

end Run
