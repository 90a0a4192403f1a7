import LifeAI.Gap.Model
import LifeAI.Planner.Candidate
import Mathlib.Data.List.TakeWhile

/-!
# The scope of an accepted plan

* `touches`               the paths that the operator function behind a step asks `_path` for;
* `narrowTaskScope`       `narrow_task_scope_from_accepted_development_plan`;
* `accepted_iff`          what `_path` makes of the scope paths;
* `narrowTaskScope_within`  a narrowed scope is no wider than the envelope;
* `narrowing_agrees_iff`  where it agrees with the scope check of the operator.
-/

namespace LifeAI.Narrowing

open Driver (DriverStep DevelopmentPlan driverDirectives signature writeCapabilities)
open Planner (pathKeys beforeColons)

/-! ## what the steps touch -/

/-- what a `for` loop over the value sees; a number, a truth value or `None` is no iterable -/
def items : Json → List Json
  | .arr js => js
  | .str s => s.toList.map fun c => .str (String.singleton c)
  | .obj fields => fields.map fun f => .str f.1
  | _ => []

def text? : Json → Option String
  | .str s => some s
  | _ => none

/-- the texts at the head; `PurePosixPath` of any other value is a `TypeError` -/
def leadingTexts (js : List Json) : List String :=
  ((js.map text?).takeWhile Option.isSome).filterMap id

/-- `SAFE_ENV_NAMES` -/
def safeEnvNames : List String := ["PATH", "TZ", "PGTZ", "PYTHONPATH", "LANG", "LC_ALL"]

/-- `not isinstance(arg, str) or not arg or "\x00" in arg or len(arg) > 512` -/
def malformed (arg : Json) : Bool :=
  (text? arg).all fun s => s = "" ∨ '\x00' ∈ s.toList ∨ 512 < s.length

/-- the paths that `run_profile` checks -/
def profileTouches (profileName : String) (arguments environment : Json) : List String :=
  if (items environment).any fun name => (text? name).all (· ∉ safeEnvNames) then []
  else if (items arguments).any malformed then []
  else if profileName = "focused_pytest" then
    match arguments with
    | .arr [.str arg] => [String.ofList (beforeColons arg.toList)]
    | .str arg => if arg.length = 1 then [String.ofList (beforeColons arg.toList)] else []
    | _ => []
  else if profileName = "ruff_check" then
    (leadingTexts (items arguments)).takeWhile fun arg => arg.toList.head? ≠ some '-'
  else []

/-- the argument of this name; the default where the step does not give it -/
def textArgument (arguments : List (String × Json)) (key : String) (default : Option String) :
    List String :=
  match arguments.lookup key with
  | none => default.toList
  | some value => (text? value).toList

/-- The paths that the operator function of a step asks `_path` for, and whether to write there;
`staged` is what `git diff --cached` lists to a commit. -/
def touches (staged : List String) (step : DriverStep) : List (String × Bool) :=
  let arguments := step.arguments
  if ¬ (signature step.capability).any (·.fits arguments) then []
  else if step.capability ∈ ["list_files", "search_text"] then
    (textArgument arguments "scope" (some ".")).map (·, false)
  else if step.capability = "read_file" then (textArgument arguments "path" none).map (·, false)
  else if step.capability ∈ writeCapabilities then
    (textArgument arguments "path" none).map (·, true)
  else if "run_".toList <+: step.capability.toList then
    (textArgument arguments "profile_name" none).flatMap fun profileName =>
      (profileTouches profileName ((arguments.lookup "arguments").getD .null)
        ((arguments.lookup "environment").getD .null)).map (·, false)
  else if step.capability = "stage_scoped_changes" then
    let paths := items ((arguments.lookup "paths").getD .null)
    if paths.length = 0 ∨ 100 < paths.length then [] else (leadingTexts paths).map (·, true)
  else if step.capability = "commit_scoped_changes" then staged.map (·, true)
  else []

/-- `_path` lets it through -/
def accepted (fs : Files) (o : OperatorScope) (touch : String × Bool) : Bool :=
  (operatorPath fs o touch.1 touch.2).isOk

/-- every path that the step touches -/
def stepAccepted (fs : Files) (o : OperatorScope) (staged : List String) (step : DriverStep) : Bool :=
  (touches staged step).all (accepted fs o)

/-! ## the narrowing -/

inductive PlanScopeNarrowingError where
  /-- accepted plan cites paths outside the founder envelope -/
  | paths (escaped : List String)
  /-- accepted plan cites capabilities outside the founder envelope -/
  | capabilities (escaped : List String)
  deriving DecidableEq

structure NarrowedTaskScope where
  allowedPaths : List String
  allowedCapabilities : List String
  citedPaths : List String
  citedCapabilities : List String
  deriving DecidableEq

/-- what `_paths_from_arguments` finds under a key -/
def pathsFromArgument (key : String) : Json → List String
  | .str s => if key ∈ pathKeys ∧ ¬ blank s then [Gap.strip s] else []
  | .arr js =>
    let texts := (js.filterMap text?).filter fun s => ¬ blank s
    if key = "paths" then texts.map Gap.strip
    else if key = "arguments" then
      (texts.filter fun s => '/' ∈ s.toList ∨ ".py".toList <:+ s.toList).map Gap.strip
    else []
  | _ => []

/-- `_paths_from_arguments` -/
def pathsFromArguments (arguments : List (String × Json)) : List String :=
  arguments.flatMap fun a => pathsFromArgument a.1 a.2

/-- `_narrow_from_citations` -/
def narrowFromCitations (envelopePaths envelopeCapabilities citedPaths citedCaps : List String) :
    Except PlanScopeNarrowingError NarrowedTaskScope :=
  let escapedPaths := citedPaths.filter (· ∉ envelopePaths.filter (· ≠ ""))
  let escapedCaps := citedCaps.filter (· ∉ envelopeCapabilities.filter (· ≠ ""))
  if escapedPaths ≠ [] then .error (.paths escapedPaths)
  else if escapedCaps ≠ [] then .error (.capabilities escapedCaps)
  else .ok ⟨citedPaths, citedCaps, citedPaths, citedCaps⟩

/-- the paths that a plan cites -/
def citedPaths (plan : DevelopmentPlan) : List String :=
  (plan.steps.flatMap fun step => pathsFromArguments step.arguments).eraseDups

/-- the capabilities that a plan cites -/
def citedCapabilities (plan : DevelopmentPlan) : List String :=
  ((plan.steps.map (·.capability)).filter fun c => c ≠ "" ∧ c ∉ driverDirectives).eraseDups

/-- `narrow_task_scope_from_accepted_development_plan` -/
def narrowTaskScope (envelopePaths envelopeCapabilities : List String) (plan : DevelopmentPlan) :
    Except PlanScopeNarrowingError NarrowedTaskScope :=
  narrowFromCitations envelopePaths envelopeCapabilities (citedPaths plan) (citedCapabilities plan)

variable {fs : Files} {root : PurePath} {envelopePaths envelopeCapabilities staged allowed : List String}
  {plan : DevelopmentPlan} {touch : String × Bool} {narrowed : NarrowedTaskScope}

/-! ## what the scope paths decide -/

theorem accepted_iff_exists {o : OperatorScope} : accepted fs o touch = true ↔
    ∃ p, operatorPath fs o touch.1 touch.2 = .ok p := by
  unfold accepted
  cases operatorPath fs o touch.1 touch.2 with
  | error e => exact ⟨fun h => (nomatch h), fun h => nomatch h.choose_spec⟩
  | ok p => exact ⟨fun _ => ⟨p, rfl⟩, fun _ => rfl⟩

/-- the path has an ancestor among the scope paths, or there are none -/
def InScope (allowed : List String) (value : String) : Prop :=
  allowed = [] ∨ ∃ c ∈ allowed, (purePath c).covers (purePath value) = true

theorem allows_iff {o : OperatorScope} {value : String} :
    o.allows (purePath value) = true ↔ InScope o.allowedPaths value := by
  unfold OperatorScope.allows InScope
  rw [decide_eq_true_iff, List.any_eq_true]

/-- the scope paths decide nothing but the scope -/
theorem accepted_iff : accepted fs ⟨root, allowed⟩ touch = true ↔
    accepted fs ⟨root, []⟩ touch = true ∧ InScope allowed touch.1 := by
  have hfree : (⟨root, []⟩ : OperatorScope).allows (purePath touch.1) = true :=
    allows_iff.2 (.inl rfl)
  rw [accepted_iff_exists, accepted_iff_exists]
  constructor
  · intro h
    obtain ⟨p, hp⟩ := h
    obtain ⟨hadm, hleads⟩ := operatorPath_ok_iff.1 hp
    have hadm' : Admitted ⟨root, []⟩ touch.1 := { hadm with allowed := hfree }
    exact ⟨⟨p, operatorPath_ok_iff.2 ⟨hadm', hleads⟩⟩, allows_iff.1 hadm.allowed⟩
  · intro h
    obtain ⟨⟨p, hp⟩, hscope⟩ := h
    obtain ⟨hadm, hleads⟩ := operatorPath_ok_iff.1 hp
    have hadm' : Admitted ⟨root, allowed⟩ touch.1 := { hadm with allowed := allows_iff.2 hscope }
    exact ⟨p, operatorPath_ok_iff.2 ⟨hadm', hleads⟩⟩

/-- a path that may be written may be read -/
theorem accepted_of_write {o : OperatorScope} {value : String} {write : Bool}
    (h : accepted fs o (value, write) = true) : accepted fs o (value, false) = true := by
  obtain ⟨p, hp⟩ := accepted_iff_exists.1 h
  obtain ⟨hadm, hleads, hcovers, -⟩ := operatorPath_ok_iff.1 hp
  have hread : ¬ ((false : Bool) = true ∧ (⟨1, p⟩ : PurePath) = o.repositoryRoot) := by simp
  exact accepted_iff_exists.2 ⟨p, operatorPath_ok_iff.2 ⟨hadm, hleads, hcovers, hread⟩⟩

/-! ## what the narrowing gives -/

theorem escaped_eq_nil_iff {cited envelope : List String} (hne : ∀ p ∈ cited, p ≠ "") :
    cited.filter (· ∉ envelope.filter (· ≠ "")) = [] ↔ ∀ p ∈ cited, p ∈ envelope := by
  rw [List.filter_eq_nil_iff]
  refine forall₂_congr fun p hp => ?_
  simp [hne p hp]

theorem strip_ne_empty {s : String} (h : ¬ blank s = true) : Gap.strip s ≠ "" := by
  intro hempty
  apply h
  unfold Gap.strip at hempty
  have hnil : ((s.toList.dropWhile isspace).reverse.dropWhile isspace).reverse = [] := by
    simpa using congrArg String.toList hempty
  rw [List.reverse_eq_nil_iff, List.dropWhile_eq_nil_iff] at hnil
  have hall : s.toList.dropWhile isspace = [] := by
    by_contra hne
    have hhead := List.head_dropWhile_not isspace hne
    rw [hnil _ (List.mem_reverse.2 (List.head_mem hne))] at hhead
    exact absurd hhead (by simp)
  unfold blank
  rw [List.all_eq_true]
  exact List.dropWhile_eq_nil_iff.1 hall

theorem ne_empty_of_mem_pathsFromArgument {key c : String} {value : Json}
    (h : c ∈ pathsFromArgument key value) : c ≠ "" := by
  have hstrip : ∀ texts : List String, (∀ s ∈ texts, ¬ blank s = true) →
      c ∈ texts.map Gap.strip → c ≠ "" := by
    intro texts htexts hc
    obtain ⟨s, hs, rfl⟩ := List.mem_map.1 hc
    exact strip_ne_empty (htexts s hs)
  cases value with
  | str s =>
    unfold pathsFromArgument at h
    dsimp only at h
    split at h
    · next hkey => exact hstrip [s] (by simpa using hkey.2) h
    · exact absurd h List.not_mem_nil
  | arr js =>
    unfold pathsFromArgument at h
    dsimp only at h
    split at h
    · refine hstrip _ (fun s hs => ?_) h
      simpa using (List.mem_filter.1 hs).2
    · split at h
      · refine hstrip _ (fun s hs => ?_) h
        simpa using (List.mem_filter.1 (List.mem_filter.1 hs).1).2
      · exact absurd h List.not_mem_nil
  | _ => exact absurd h List.not_mem_nil

theorem ne_empty_of_mem_citedPaths {c : String} (h : c ∈ citedPaths plan) : c ≠ "" := by
  unfold citedPaths at h
  obtain ⟨step, -, hstep⟩ := List.mem_flatMap.1 (List.mem_eraseDups.1 h)
  obtain ⟨a, -, ha⟩ := List.mem_flatMap.1 hstep
  exact ne_empty_of_mem_pathsFromArgument ha

theorem ne_empty_of_mem_citedCapabilities {c : String} (h : c ∈ citedCapabilities plan) : c ≠ "" := by
  unfold citedCapabilities at h
  have hc := (List.mem_filter.1 (List.mem_eraseDups.1 h)).2
  exact (decide_eq_true_iff.1 hc).1

/-- it narrows to what the plan cites, if each of that is an entry of the envelope -/
theorem narrowTaskScope_eq_ok_iff : narrowTaskScope envelopePaths envelopeCapabilities plan = .ok narrowed ↔
    (∀ c ∈ citedPaths plan, c ∈ envelopePaths) ∧
    (∀ c ∈ citedCapabilities plan, c ∈ envelopeCapabilities) ∧
    narrowed = ⟨citedPaths plan, citedCapabilities plan, citedPaths plan, citedCapabilities plan⟩ := by
  unfold narrowTaskScope narrowFromCitations
  dsimp only
  rw [guard_eq_ok, guard_eq_ok, not_not, not_not,
    escaped_eq_nil_iff fun c hc => ne_empty_of_mem_citedPaths hc,
    escaped_eq_nil_iff fun c hc => ne_empty_of_mem_citedCapabilities hc, Except.ok.injEq,
    eq_comm (b := narrowed)]

/-- `PLANNER OUTPUT != FOUNDER AUTHORITY` -/
theorem narrowTaskScope_within (h : narrowTaskScope envelopePaths envelopeCapabilities plan = .ok narrowed)
    (hne : narrowed.allowedPaths ≠ []) (ht : accepted fs ⟨root, narrowed.allowedPaths⟩ touch = true) :
    accepted fs ⟨root, envelopePaths⟩ touch = true := by
  obtain ⟨hpaths, -, rfl⟩ := narrowTaskScope_eq_ok_iff.1 h
  obtain ⟨hfree, hscope⟩ := accepted_iff.1 ht
  obtain ⟨c, hc, hcovers⟩ := hscope.resolve_left hne
  exact accepted_iff.2 ⟨hfree, .inr ⟨c, hpaths c hc, hcovers⟩⟩

/-! ## agreement with the operator -/

/-- each path that the plan touches is in the envelope of the operator -/
def planAccepted (fs : Files) (o : OperatorScope) (staged : List String) (plan : DevelopmentPlan) : Bool :=
  plan.steps.all (stepAccepted fs o staged)

/-- The narrowing raises nothing, gives paths that are in the envelope, and keeps each step that
is. -/
def narrowingAgrees (fs : Files) (root : PurePath) (staged envelopePaths envelopeCapabilities : List String)
    (plan : DevelopmentPlan) : Bool :=
  match narrowTaskScope envelopePaths envelopeCapabilities plan with
  | .error _ => false
  | .ok narrowed =>
    (narrowed.allowedPaths.all fun c => accepted fs ⟨root, envelopePaths⟩ (c, false)) ∧
    plan.steps.all fun step => stepAccepted fs ⟨root, envelopePaths⟩ staged step →
      stepAccepted fs ⟨root, narrowed.allowedPaths⟩ staged step

/-- What the plan cites is spelled as the envelope spells it, and what it touches is cited. -/
structure CitesEntries (fs : Files) (root : PurePath) (staged envelopePaths envelopeCapabilities : List String)
    (plan : DevelopmentPlan) : Prop where
  capabilities : ∀ c ∈ citedCapabilities plan, c ∈ envelopeCapabilities
  entries : ∀ c ∈ citedPaths plan, c ∈ envelopePaths
  /-- a citation that no step touches could be a path -/
  untouched : ∀ c ∈ citedPaths plan, (∀ step ∈ plan.steps, c ∉ (touches staged step).map Prod.fst) →
    accepted fs ⟨root, []⟩ (c, false) = true
  /-- all of what the steps touch has an ancestor that is cited, or nothing is cited -/
  covered : ∀ step ∈ plan.steps, ∀ touch ∈ touches staged step, InScope (citedPaths plan) touch.1

theorem planAccepted_iff {o : OperatorScope} : planAccepted fs o staged plan = true ↔
    ∀ step ∈ plan.steps, ∀ touch ∈ touches staged step, accepted fs o touch = true := by
  unfold planAccepted stepAccepted
  simp only [List.all_eq_true]

/-- an entry covers itself -/
theorem accepted_entry {c : String} (hc : c ∈ envelopePaths) :
    accepted fs ⟨root, envelopePaths⟩ (c, false) = true ↔ accepted fs ⟨root, []⟩ (c, false) = true := by
  have hself : (purePath c).covers (purePath c) = true :=
    PurePath.covers_iff.2 ⟨rfl, List.prefix_rfl⟩
  have hscope : InScope envelopePaths c := .inr ⟨c, hc, hself⟩
  rw [accepted_iff]
  exact and_iff_left hscope

/-- where every path that the plan touches is in the envelope -/
theorem narrowing_agrees_iff
    (hplan : planAccepted fs ⟨root, envelopePaths⟩ staged plan = true) :
    narrowingAgrees fs root staged envelopePaths envelopeCapabilities plan = true ↔
      CitesEntries fs root staged envelopePaths envelopeCapabilities plan := by
  have htouches := planAccepted_iff.1 hplan
  constructor
  · intro h
    unfold narrowingAgrees at h
    cases hnarrow : narrowTaskScope envelopePaths envelopeCapabilities plan with
    | error e =>
      rw [hnarrow] at h
      exact nomatch h
    | ok narrowed =>
      rw [hnarrow] at h
      obtain ⟨hpaths, hcaps, rfl⟩ := narrowTaskScope_eq_ok_iff.1 hnarrow
      obtain ⟨hreturned, hsteps⟩ := decide_eq_true_iff.1 h
      rw [List.all_eq_true] at hreturned hsteps
      refine ⟨hcaps, hpaths, fun c hc _ => (accepted_entry (hpaths c hc)).1 (hreturned c hc), ?_⟩
      intro step hstep touch htouch
      have hkept := decide_eq_true_iff.1 (hsteps step hstep)
        (List.all_eq_true.2 (htouches step hstep))
      exact (accepted_iff.1 (List.all_eq_true.1 hkept touch htouch)).2
  · intro h
    unfold narrowingAgrees
    rw [narrowTaskScope_eq_ok_iff.2 ⟨h.entries, h.capabilities, rfl⟩]
    refine decide_eq_true ⟨List.all_eq_true.2 fun c hc => ?_, List.all_eq_true.2 fun step hstep => ?_⟩
    · -- a citation is touched as it stands, or checked as `untouched`
      rw [accepted_entry (h.entries c hc)]
      by_cases hused : ∃ step ∈ plan.steps, c ∈ (touches staged step).map Prod.fst
      · obtain ⟨step, hstep, hmem⟩ := hused
        obtain ⟨touch, htouch, rfl⟩ := List.mem_map.1 hmem
        exact accepted_of_write (accepted_iff.1 (htouches step hstep touch htouch)).1
      · push Not at hused
        exact h.untouched c hc hused
    · refine decide_eq_true fun _ => List.all_eq_true.2 fun touch htouch => ?_
      exact accepted_iff.2
        ⟨(accepted_iff.1 (htouches step hstep touch htouch)).1, h.covered step hstep touch htouch⟩

/-! ## plans of two sources -/

def calculatorFiles : Files where
  cwd := ["repo"]
  entries := [(["repo"], .dir), (["repo", "app"], .dir), (["repo", "app", "sum.py"], .file []),
    (["repo", "app", "test_sum.py"], .file [])]

def calculatorRoot : PurePath := ⟨1, ["repo"]⟩

def calculatorPlan (steps : List DriverStep) : DevelopmentPlan where
  planId := "sum"
  steps := steps
  strategyExecutionId := "strategy"

def readStep (path : String) : DriverStep where
  capability := "read_file"
  purpose := "inspect"
  expectedResult := "text"
  arguments := [("path", .str path)]

def focusedTestStep (target : String) : DriverStep where
  capability := "run_focused_test"
  purpose := "verify"
  expectedResult := "pass"
  arguments := [("profile_name", .str "focused_pytest"), ("arguments", .arr [.str target])]

/-- a plan that reads a file and runs its test, each as the envelope has it -/
theorem narrowing_agrees_literal :
    narrowingAgrees calculatorFiles calculatorRoot [] ["app/sum.py", "app/test_sum.py"]
      ["read_file", "run_focused_test"]
      (calculatorPlan [readStep "app/sum.py", focusedTestStep "app/test_sum.py"]) = true ↔
    CitesEntries calculatorFiles calculatorRoot [] ["app/sum.py", "app/test_sum.py"]
      ["read_file", "run_focused_test"]
      (calculatorPlan [readStep "app/sum.py", focusedTestStep "app/test_sum.py"]) :=
  narrowing_agrees_iff (by decide)

theorem narrowTaskScope_within_literal :
    accepted calculatorFiles ⟨calculatorRoot, ["app/sum.py", "app"]⟩ ("app/sum.py", false) = true :=
  @narrowTaskScope_within _ _ _ ["read_file"] (calculatorPlan [readStep "app/sum.py"]) _ _ rfl
    (by decide) (by decide)

/-- a file below the directory of the envelope -/
theorem belowEntry_refused :
    planAccepted calculatorFiles ⟨calculatorRoot, ["app"]⟩ [] (calculatorPlan [readStep "app/sum.py"])
      = true ∧
    narrowTaskScope ["app"] ["read_file"] (calculatorPlan [readStep "app/sum.py"])
      = .error (.paths ["app/sum.py"]) ∧
    narrowingAgrees calculatorFiles calculatorRoot [] ["app"] ["read_file"]
      (calculatorPlan [readStep "app/sum.py"]) = false := by
  decide

/-- one test of a file that the envelope names -/
example : narrowTaskScope ["app/test_sum.py"] ["run_focused_test"]
      (calculatorPlan [focusedTestStep "app/test_sum.py::test_sum"])
    = .error (.paths ["app/test_sum.py::test_sum"]) := by
  decide

end LifeAI.Narrowing
