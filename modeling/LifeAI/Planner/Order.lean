import LifeAI.Lib.Layers
import LifeAI.Planner.Candidate

/-!
# The order of a candidate's steps

* `CandidateStep.dependencies`   the names among the dependencies of a step;
* `Refused`           what `_ordered_steps` refuses;
* `ordered_steps_sorted` for string dependencies it raises exactly then, and otherwise sorts the
                      steps;
* `accepted_of_plan`  a plan that the planner accepts is in that order, and each of its steps is
                      lawful.
-/

namespace LifeAI.Planner

open Driver Layers

/-- the names among the dependencies of a step -/
def CandidateStep.dependencies (step : CandidateStep) : List String :=
  step.dependsOn.filterMap fun
    | .str s => some s
    | _ => none

/-- every dependency is a string -/
def StringDependencies (steps : List CandidateStep) : Prop :=
  ∀ step ∈ steps, ∀ d ∈ step.dependsOn, ∃ s, d = .str s

/-- the step under one name depends on the step under the other -/
def DependsOn (c : PlanCandidate) : String → String → Prop :=
  Needs CandidateStep.stepId CandidateStep.dependencies c.steps

/-- a blank or repeated name, an unknown dependency, or a cycle -/
def Refused (c : PlanCandidate) : Prop :=
  (∃ step ∈ c.steps, blank step.stepId = true) ∨ ¬ (c.steps.map (·.stepId)).Nodup ∨
    (∃ step ∈ c.steps, ∃ d ∈ step.dependencies, d ∉ c.steps.map (·.stepId)) ∨
      ¬ Digraph.Acyclic (DependsOn c)

/-- the steps after all their dependencies, and those of one depth as they were given -/
structure Ordered (c : PlanCandidate) (l : List CandidateStep) : Prop where
  perm : l.Perm c.steps
  sorted : ∀ before step after, l = before ++ step :: after →
    ∀ d ∈ step.dependencies, d ∈ before.map (·.stepId)
  stable : ∀ x y n, Depth CandidateStep.stepId CandidateStep.dependencies c.steps x.stepId n →
    Depth CandidateStep.stepId CandidateStep.dependencies c.steps y.stepId n →
      [x, y].Sublist c.steps → [x, y].Sublist l

variable {c : PlanCandidate} {steps : List CandidateStep} {step : CandidateStep} {ids : List String}

theorem mem_dependencies {s : String} : s ∈ step.dependencies ↔ Json.str s ∈ step.dependsOn := by
  unfold CandidateStep.dependencies
  rw [List.mem_filterMap]
  constructor
  · intro h
    obtain ⟨d, hd, hs⟩ := h
    cases d with
    | str t =>
      obtain rfl := Option.some.inj hs
      exact hd
    | _ => cases hs
  · intro h
    exact ⟨.str s, h, rfl⟩

/-! ## the dependencies -/

theorem checkDependencies_iff (hds : ∀ d ∈ step.dependsOn, ∃ s, d = .str s) :
    (checkDependencies ids step.dependsOn = .ok () ∧ ∀ d ∈ step.dependencies, d ∈ ids) ∨
      (checkDependencies ids step.dependsOn =
          refuse "step dependency references an unknown step" ∧
        ∃ d ∈ step.dependencies, d ∉ ids) := by
  simp only [mem_dependencies]
  generalize step.dependsOn = ds at hds ⊢
  induction ds with
  | nil => exact .inl ⟨rfl, nofun⟩
  | cons d ds ih =>
    obtain ⟨s, rfl⟩ := hds d List.mem_cons_self
    by_cases hs : s ∈ ids
    · have hcheck : checkDependencies ids (.str s :: ds) = checkDependencies ids ds := by
        simp [checkDependencies, unknownDependency, hs]
      rw [hcheck]
      rcases ih fun d hd => hds d (List.mem_cons_of_mem _ hd) with ⟨hok, hknown⟩ | ⟨hno, d, hd, hun⟩
      · refine .inl ⟨hok, fun d hd => ?_⟩
        rcases List.mem_cons.1 hd with heq | htail
        · obtain rfl := Json.str.inj heq
          exact hs
        · exact hknown d htail
      · exact .inr ⟨hno, d, List.mem_cons_of_mem _ hd, hun⟩
    · refine .inr ⟨?_, s, List.mem_cons_self, hs⟩
      simp [checkDependencies, unknownDependency, hs]

theorem checkAllDependencies_iff (hdeps : StringDependencies steps) :
    (checkAllDependencies ids steps = .ok () ∧ ∀ step ∈ steps, ∀ d ∈ step.dependencies, d ∈ ids) ∨
      (checkAllDependencies ids steps = refuse "step dependency references an unknown step" ∧
        ∃ step ∈ steps, ∃ d ∈ step.dependencies, d ∉ ids) := by
  induction steps with
  | nil => exact .inl ⟨rfl, nofun⟩
  | cons step rest ih =>
    unfold checkAllDependencies
    rcases checkDependencies_iff (hdeps step List.mem_cons_self) with ⟨hok, hknown⟩ | ⟨hno, hun⟩
    · rw [hok]
      rcases ih fun x hx => hdeps x (List.mem_cons_of_mem _ hx) with
        ⟨hrest, hall⟩ | ⟨hrest, x, hx, hun⟩
      · exact .inl ⟨hrest, List.forall_mem_cons.2 ⟨hknown, hall⟩⟩
      · exact .inr ⟨hrest, x, List.mem_cons_of_mem _ hx, hun⟩
    · rw [hno]
      exact .inr ⟨rfl, step, List.mem_cons_self, hun⟩

/-! ## the rounds -/

theorem ready_eq {done : List String} (hds : ∀ d ∈ step.dependsOn, ∃ s, d = .str s) :
    ready done step = Layers.ready CandidateStep.stepId CandidateStep.dependencies done step := by
  unfold ready Layers.ready
  rw [decide_eq_decide]
  refine and_congr_right fun _ => ?_
  rw [List.all_eq_true]
  constructor
  · intro h s hs
    exact of_decide_eq_true (h (.str s) (mem_dependencies.1 hs))
  · intro h d hd
    obtain ⟨s, rfl⟩ := hds d hd
    exact decide_eq_true (h s (mem_dependencies.2 hd))

theorem rounds_eq (hdeps : StringDependencies steps) (n : ℕ) (result : List CandidateStep) :
    rounds steps n result =
      (Layers.rounds CandidateStep.stepId CandidateStep.dependencies steps n result).elim
        (refuse "plan dependency graph contains a cycle") .ok := by
  induction n generalizing result with
  | zero => rfl
  | succ n ih =>
    have hround : steps.filter (ready (result.map (·.stepId))) =
        steps.filter (Layers.ready CandidateStep.stepId CandidateStep.dependencies
          (result.map (·.stepId))) :=
      List.filter_congr fun step hstep => ready_eq (hdeps step hstep)
    unfold rounds Layers.rounds
    rw [hround]
    split_ifs with hall
    · rfl
    · cases steps.filter (Layers.ready CandidateStep.stepId CandidateStep.dependencies
          (result.map (·.stepId))) with
      | nil => rfl
      | cons step rest => exact ih _

/-! ## all the steps -/

/-- the names are unique and not blank -/
def Named (c : PlanCandidate) : Prop :=
  (c.steps.map (·.stepId)).Nodup ∧ ∀ step ∈ c.steps, blank step.stepId = false

theorem orderedSteps_of_named (h : Named c) : orderedSteps c =
    (checkAllDependencies (c.steps.map (·.stepId)) c.steps).bind fun _ =>
      rounds c.steps c.steps.length [] := by
  have hblank : (c.steps.map (·.stepId)).any blank = false := by
    rw [List.any_eq_false]
    intro id hid
    obtain ⟨step, hstep, rfl⟩ := List.mem_map.1 hid
    rw [h.2 step hstep]
    exact Bool.false_ne_true
  unfold orderedSteps
  simp only
  rw [if_neg (by rw [hblank]; exact not_or.2 ⟨not_not_intro h.1, Bool.false_ne_true⟩)]
  cases checkAllDependencies (c.steps.map (·.stepId)) c.steps <;> rfl

theorem orderedSteps_of_not_named (h : ¬ Named c) :
    orderedSteps c = refuse "step identities must be non-empty and unique" := by
  refine if_pos ?_
  by_contra hno
  obtain ⟨hnodup, hblank⟩ := not_or.1 hno
  refine h ⟨not_not.1 hnodup, fun step hstep => ?_⟩
  rw [Bool.not_eq_true, List.any_eq_false] at hblank
  exact Bool.not_eq_true _ ▸ hblank step.stepId (List.mem_map_of_mem hstep)

theorem refused_of_not_named (h : ¬ Named c) : Refused c := by
  unfold Refused
  by_contra hno
  push Not at hno
  refine h ⟨hno.2.1, fun step hstep => ?_⟩
  exact Bool.not_eq_true _ ▸ hno.1 step hstep

theorem orderedSteps_cases (hdeps : StringDependencies c.steps) :
    (Refused c ∧ ∃ message, orderedSteps c = .error (.candidateValidation message)) ∨
      (¬ Refused c ∧ ∃ l, orderedSteps c = .ok l ∧ Ordered c l) := by
  by_cases hnamed : Named c
  · rw [orderedSteps_of_named hnamed, rounds_eq hdeps]
    have hcheck := @checkAllDependencies_iff c.steps (c.steps.map (·.stepId)) hdeps
    rcases hcheck with ⟨hok, hknown⟩ | ⟨hno, hun⟩
    · rw [hok]
      have hnone : Layers.rounds CandidateStep.stepId CandidateStep.dependencies c.steps
          c.steps.length [] = none ↔ ¬ Digraph.Acyclic (DependsOn c) :=
        rounds_eq_none_iff hnamed.1 hknown
      cases hrounds : Layers.rounds CandidateStep.stepId CandidateStep.dependencies c.steps
          c.steps.length [] with
      | none =>
        exact .inl ⟨.inr (.inr (.inr (hnone.1 hrounds))), _, rfl⟩
      | some l =>
        obtain ⟨hperm, hsorted, hstable⟩ := rounds_eq_some hnamed.1 hknown hrounds
        refine .inr ⟨?_, l, rfl, hperm, hsorted, hstable⟩
        intro hrefused
        rcases hrefused with ⟨step, hstep, hblank⟩ | hdup | ⟨step, hstep, d, hd, hun⟩ | hcycle
        · rw [hnamed.2 step hstep] at hblank
          exact Bool.false_ne_true hblank
        · exact hdup hnamed.1
        · exact hun (hknown step hstep d hd)
        · have hnil := hnone.2 hcycle
          rw [hrounds] at hnil
          cases hnil
    · rw [hno]
      exact .inl ⟨.inr (.inr (.inl hun)), _, rfl⟩
  · rw [orderedSteps_of_not_named hnamed]
    exact .inl ⟨refused_of_not_named hnamed, _, rfl⟩

/-- it raises exactly for a blank or repeated name, an unknown dependency or a cycle, and sorts the
steps otherwise -/
theorem ordered_steps_sorted (c : PlanCandidate) (hdeps : StringDependencies c.steps) :
    ((∃ message, orderedSteps c = .error (.candidateValidation message)) ↔ Refused c) ∧
      (¬ Refused c → ∃ l, orderedSteps c = .ok l ∧ Ordered c l) := by
  rcases orderedSteps_cases hdeps with ⟨hrefused, hraise⟩ | ⟨hclean, l, hok, hl⟩
  · exact ⟨iff_of_true hraise hrefused, fun hclean => absurd hrefused hclean⟩
  · refine ⟨iff_of_false ?_ hclean, fun _ => ⟨l, hok, hl⟩⟩
    intro hraise
    obtain ⟨message, herror⟩ := hraise
    rw [hok] at herror
    cases herror

/-- two steps, the second of which comes first in the plan -/
def reviewAfterBuild : PlanCandidate where
  interpretation := "review the build"
  requestedOutcome := "a reviewed build"
  rationale := "the build comes first"
  steps := [
    { stepId := "review", purpose := "review", expectedResult := "reviewed",
      capability := "repository.status", dependsOn := [.str "build", .str "build"] },
    { stepId := "build", purpose := "build", expectedResult := "built",
      capability := "repository.status" }]

theorem ordered_steps_sorted_review :
    ¬ Refused reviewAfterBuild ∧ ∃ l, orderedSteps reviewAfterBuild = .ok l ∧
      Ordered reviewAfterBuild l := by
  have hdeps : StringDependencies reviewAfterBuild.steps := by
    intro step hstep d hd
    simp only [reviewAfterBuild, List.mem_cons, List.not_mem_nil, or_false] at hstep
    rcases hstep with rfl | rfl
    · simp only [List.mem_cons, List.not_mem_nil, or_false, or_self] at hd
      exact ⟨_, hd⟩
    · exact absurd hd List.not_mem_nil
  have hsorted := ordered_steps_sorted reviewAfterBuild hdeps
  have hclean : ¬ Refused reviewAfterBuild := by
    intro hrefused
    obtain ⟨message, herror⟩ := hsorted.1.2 hrefused
    cases herror
  exact ⟨hclean, hsorted.2 hclean⟩

/-- one step under a name of one blank, neither empty nor repeated -/
def blankName : PlanCandidate where
  interpretation := "status"
  requestedOutcome := "status"
  rationale := "status"
  steps := [
    { stepId := " ", purpose := "status", expectedResult := "status",
      capability := "repository.status" }]

/-- the names are neither empty nor repeated, no step depends on one, and the plan is refused -/
theorem blank_name_refused :
    (∀ step ∈ blankName.steps, step.stepId ≠ "" ∧ step.dependsOn = []) ∧
      (blankName.steps.map (·.stepId)).Nodup ∧
      orderedSteps blankName =
        .error (.candidateValidation "step identities must be non-empty and unique") := by
  refine ⟨?_, by decide, by rfl⟩
  intro step hstep
  obtain rfl := List.mem_singleton.1 hstep
  exact ⟨by decide, rfl⟩

/-! ## what is accepted -/

variable {e : PlanningScope} {p : DevelopmentPlan} {l l' : List CandidateStep}

/-- the path of a plan is one that the operator reads -/
def Reads (e : PlanningScope) (s : String) : Prop :=
  Admitted e.operator s ∧ ∃ p, operatorPath e.files e.operator s false = .ok p ∧
    e.operator.repositoryRoot.covers ⟨1, p⟩ = true

/-- what an accepted plan lets a step do -/
inductive Lawful (e : PlanningScope) (step : CandidateStep) : Prop
  | verification (hcap : step.capability = "verification_evaluate") (hargs : step.arguments = [])
  | operation (tier : Tier) (lawful : step.capability ∉ "push_branch" :: forbiddenCapabilities)
      (known : developmentCapabilities.lookup step.capability = some tier)
      (risk : understates step.requiredRisk tier = false)
      (raw : hasKey step.arguments ["command", "shell", "argv", "executable"] = false)
      (path : ∀ key s, (key, .str s) ∈ step.arguments → key ∈ pathKeys →
        Reads e (if key = "target" then String.ofList (beforeColons s.toList) else s))
      (paths : ∀ j, ("paths", j) ∈ step.arguments →
        ∃ js, j = .arr js ∧ ∀ v ∈ js, ∃ s, v = .str s ∧ Reads e s)
      (secret : redactValue (.obj step.arguments) = .obj step.arguments)

/-- what an accepted plan is -/
structure Accepted (e : PlanningScope) (c : PlanCandidate) (p : DevelopmentPlan)
    (l : List CandidateStep) : Prop where
  plan : p = acceptedPlan e c l
  ordered : Ordered c l
  bounded : 1 ≤ p.steps.length ∧ (p.steps.length : ℤ) ≤ min e.maxPlanSteps 50
  lawful : ∀ step ∈ l, Lawful e step
  /-- the driver accepts it too -/
  checked : p.check e.strategyExecutionId e.authority = .ok ()

theorem reads_of_validate {s : String} (h : validatePathValue e s = .ok ()) : Reads e s := by
  unfold validatePathValue at h
  cases hp : operatorPath e.files e.operator s false with
  | ok p => exact ⟨(operatorPath_ok_iff.1 hp).1, p, hp, (operatorPath_ok_iff.1 hp).2.2.1⟩
  | error x => rw [hp] at h; cases x <;> cases h

theorem reads_of_validatePaths {js : List Json} (h : validatePaths e js = .ok ()) :
    ∀ v ∈ js, ∃ s, v = .str s ∧ Reads e s := by
  induction js with
  | nil => exact List.forall_mem_nil _
  | cons v rest ih =>
    cases v with
    | str s =>
      unfold validatePaths at h
      split at h
      · cases h
      · next hs => exact List.forall_mem_cons.2 ⟨⟨s, rfl, reads_of_validate hs⟩, ih h⟩
    | _ => cases h

theorem validateArgument_of_ok {args : List (String × Json)} (h : validateArguments e args = .ok ()) :
    ∀ a ∈ args, validateArgument e a.1 a.2 = .ok () := by
  induction args with
  | nil => exact List.forall_mem_nil _
  | cons a rest ih =>
    unfold validateArguments at h
    split at h
    · cases h
    · next ha => exact List.forall_mem_cons.2 ⟨ha, ih h⟩

theorem lawful_of_validate (h : validateStep e step = .ok ()) : Lawful e step := by
  unfold validateStep at h
  split at h
  · rw [refuse, ite_error_eq_ok, refuse, ite_error_eq_ok] at h
    exact .verification (not_not.1 h.1) (not_not.1 h.2.1)
  · rw [refuse, ite_error_eq_ok] at h
    obtain ⟨hforbidden, h⟩ := h
    split at h
    · cases h
    · next tier known =>
      simp only [refuse, ite_error_eq_ok] at h
      obtain ⟨hpush, hraw, -, hrisk, h⟩ := h
      split at h
      · cases h
      · next hargs =>
        rw [ite_error_eq_ok] at h
        have harg := validateArgument_of_ok hargs
        refine .operation tier (fun hmem => ?_) known (Bool.not_eq_true _ ▸ hrisk)
          (Bool.not_eq_true _ ▸ hraw) (fun key s ha hkey => ?_) (fun j ha => ?_) (not_not.1 h.1)
        · exact (List.mem_cons.1 hmem).elim hpush hforbidden
        · have hok := harg _ ha
          unfold validateArgument at hok
          dsimp only at hok
          rw [if_neg (by rintro rfl; revert hkey; decide), if_pos hkey] at hok
          exact reads_of_validate hok
        · have hok := harg _ ha
          unfold validateArgument at hok
          rw [if_pos rfl] at hok
          cases j with
          | arr js => exact ⟨js, rfl, reads_of_validatePaths hok⟩
          | _ => cases hok

theorem lawful_of_validateSteps (h : validateSteps e steps = .ok ()) :
    ∀ step ∈ steps, Lawful e step := by
  induction steps with
  | nil => exact List.forall_mem_nil _
  | cons step rest ih =>
    unfold validateSteps at h
    split at h
    · cases h
    · next hstep => exact List.forall_mem_cons.2 ⟨lawful_of_validate hstep, ih h⟩

/-- dependencies that are no strings are not known -/
theorem strings_of_check (h : checkAllDependencies ids steps = .ok ()) : StringDependencies steps := by
  have hstrings : ∀ ds, checkDependencies ids ds = .ok () → ∀ d ∈ ds, ∃ s, d = Json.str s := by
    intro ds
    induction ds with
    | nil => exact fun _ => List.forall_mem_nil _
    | cons d ds ih =>
      intro hds
      unfold checkDependencies at hds
      cases d with
      | str s =>
        split at hds
        · cases hds
        · cases hds
        · exact List.forall_mem_cons.2 ⟨⟨s, rfl⟩, ih hds⟩
      | _ => cases hds
  induction steps with
  | nil => exact List.forall_mem_nil _
  | cons step rest ih =>
    unfold checkAllDependencies at h
    split at h
    · cases h
    · next hstep => exact List.forall_mem_cons.2 ⟨hstrings _ hstep, ih h⟩

theorem ordered_of_ok (h : orderedSteps c = .ok l) : Ordered c l := by
  have hdeps : StringDependencies c.steps := by
    by_cases hnamed : Named c
    · rw [orderedSteps_of_named hnamed] at h
      obtain ⟨u, hcheck, -⟩ := bind_eq_ok.1 h
      exact strings_of_check hcheck
    · rw [orderedSteps_of_not_named hnamed] at h
      cases h
  rcases orderedSteps_cases hdeps with ⟨-, message, hno⟩ | ⟨-, l', hok, hl⟩
  · cases hno.symm.trans h
  · obtain rfl := Except.ok.inj (hok.symm.trans h)
    exact hl

theorem of_acceptOrdered (h : acceptOrdered e c l = .ok (.accepted p l')) :
    p = acceptedPlan e c l ∧ l' = l ∧ p.check e.strategyExecutionId e.authority = .ok () := by
  unfold acceptOrdered at h
  obtain ⟨-, h⟩ := guard_eq_ok.1 h
  obtain ⟨u, -, h⟩ := bind_eq_ok.1 h
  obtain ⟨u, hcheck, h⟩ := bind_eq_ok.1 h
  obtain ⟨u, -, h⟩ := bind_eq_ok.1 h
  obtain ⟨-, h⟩ := guard_eq_ok.1 h
  cases h
  exact ⟨rfl, rfl, hcheck⟩

/-- an accepted plan has the steps of its candidate in their order, each of them lawful -/
theorem accepted_of_plan (h : planFounderRequest e c = .ok (.accepted p l)) :
    Accepted e c p l := by
  have hvalid : validateCandidate e c = .ok (.accepted p l) := by
    unfold planFounderRequest at h
    split at h
    · cases h
    · cases h
    · split at h
      · cases h
      · split at h
        · cases h
        · exact h
  unfold validateCandidate at hvalid
  split at hvalid
  · cases hvalid
  · cases hvalid
  · obtain ⟨u, hcheck, hvalid⟩ := bind_eq_ok.1 hvalid
    obtain ⟨l', hl, hvalid⟩ := bind_eq_ok.1 hvalid
    obtain ⟨u', hsteps, hvalid⟩ := bind_eq_ok.1 hvalid
    obtain ⟨rfl, rfl, hchecked⟩ := of_acceptOrdered hvalid
    have hordered := ordered_of_ok hl
    refine ⟨rfl, hordered, ?_, lawful_of_validateSteps hsteps, hchecked⟩
    have hlength : (acceptedPlan e c l).steps.length = c.steps.length :=
      List.length_map _ |>.trans hordered.perm.length_eq
    rw [hlength]
    by_contra hno
    unfold checkCandidate at hcheck
    rw [if_pos hno] at hcheck
    cases hcheck

/-- a worktree that only `docs` may be read of -/
def docsOnly : PlanningScope where
  files := ⟨[], [(["srv"], .dir), (["srv", "docs"], .dir), (["srv", "docs", "a"], .file [])]⟩
  operator := ⟨⟨1, ["srv"]⟩, ["docs"]⟩
  strategyExecutionId := "s"
  candidateHash := fun _ => "h"
  wordChar := Char.isAlphanum

def readThenVerify : PlanCandidate where
  interpretation := "read"
  requestedOutcome := "read"
  rationale := "read"
  steps := [
    { stepId := "v", purpose := "v", expectedResult := "v", capability := "verification_evaluate",
      dependsOn := [.str "r"] },
    { stepId := "r", purpose := "r", expectedResult := "r", capability := "read_file",
      arguments := [("path", .str "docs/a")] }]

theorem accepted_of_plan_readThenVerify :
    Accepted docsOnly readThenVerify (acceptedPlan docsOnly readThenVerify
      readThenVerify.steps.reverse) readThenVerify.steps.reverse :=
  accepted_of_plan (by rfl)

end LifeAI.Planner
