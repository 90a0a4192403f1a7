import LifeAI.Lib.Links
import LifeAI.Operator.Capability
import LifeAI.Operator.Redact

/-!
# The paths and files of the operator

* `purePath`             a path as text, taken apart as `PurePosixPath` does;
* `Files`                the files, directories and symbolic links below `/`;
* `Files.resolve`        `Path.resolve`;
* `operatorPath`         `_path`;
* `readFile`, `writeFile`  what `read_file` and `write_file` do to the target that it gives them;
* `operatorPath_ok_iff`  the texts it accepts, and where their links lead.

The records that `write_file` keeps of its own intents and replays are not part of it.
-/

namespace LifeAI

/-! ## paths as text -/

structure PurePath where
  /-- those it begins with: none, one or two -/
  slashes : ℕ
  parts : List String
  deriving DecidableEq

def slashes (s : String) : ℕ :=
  match s.toList with
  | '/' :: '/' :: '/' :: _ => 1
  | '/' :: '/' :: _ => 2
  | '/' :: _ => 1
  | _ => 0

def components (s : String) : List String := (s.toList.splitOn '/').map String.ofList

/-- `PurePosixPath(s)` -/
def purePath (s : String) : PurePath :=
  ⟨slashes s, (components s).filter fun c => c ≠ "" ∧ c ≠ "."⟩

/-- `path == scope or scope in path.parents` -/
def PurePath.covers (scope path : PurePath) : Bool :=
  scope.slashes = path.slashes ∧ scope.parts <+: path.parts

/-! ## files -/

/-- the names that lead to a file from `/` -/
abbrev Place := List String

inductive Node where
  | file (bytes : List UInt8)
  | dir
  | link (target : String)
  deriving DecidableEq

structure Files where
  cwd : Place
  entries : List (Place × Node)

/-- a component of a path that the system follows -/
def component (c : String) : Links.Move String :=
  if c = "" ∨ c = "." then .stay else if c = ".." then .up else .down c

namespace Files

variable (fs : Files)

def node (p : Place) : Option Node := fs.entries.lookup p

def places : List Place := fs.entries.map Prod.fst

def link (p : Place) : Option (Links.Target String) :=
  match fs.node p with
  | some (.link target) => some ⟨slashes target ≠ 0, (components target).map component⟩
  | _ => none

/-- the place that a path leads to, if no link leads into itself -/
def follow (start : Place) (parts : List String) : Option Place :=
  Links.walk fs.link (fs.places.length + 1) [] start (parts.map component)

/-- `Path.resolve`: a link that leads into itself is a `RuntimeError`, a null character a
`ValueError` -/
def resolve (path : PurePath) : Except Err Place :=
  if path.parts.any fun c => '\x00' ∈ c.toList then .error .valueError
  else
    match fs.follow (if path.slashes = 0 then fs.cwd else []) path.parts with
    | none => .error .runtimeError
    | some p => .ok p

/-- the entry that `p` names; a link of this name is not followed -/
def entry (p : Place) : Option Place :=
  match p.getLast? with
  | none => some []
  | some c => (fs.follow [] p.dropLast).map (· ++ [c])

def set (p : Place) (n : Node) : Files := { fs with entries := (p, n) :: fs.entries }

/-- `Path.unlink` -/
def unlink (p : Place) : Files :=
  match fs.entry p with
  | none => fs
  | some q => { fs with entries := fs.entries.filter fun e => e.1 ≠ q }

def occupied (p : Place) : Bool :=
  fs.node p = some .dir ∨ p.dropLast.inits.any fun d =>
    match fs.node d with
    | some (.file _) => true
    | _ => false

end Files

/-! ## the operator -/

/-- the fields of an `OperatorContext` that its paths depend on -/
structure OperatorScope where
  repositoryRoot : PurePath
  allowedPaths : List String := []

/-- `str.lower`, for names whose letters no character outside of ASCII lowers to -/
def lower (s : String) : String := String.ofList (s.toList.map Char.toLower)

def sensitive (parts : List String) : Bool :=
  parts.any fun c => lower c ∈ sensitiveParts ∨ ".env".toList <+: (lower c).toList

def dotGit (parts : List String) : Bool := parts.any fun c => lower c = ".git"

def OperatorScope.allows (o : OperatorScope) (pure : PurePath) : Bool :=
  o.allowedPaths = [] ∨ o.allowedPaths.any fun scope => (purePath scope).covers pure

variable (fs : Files) (o : OperatorScope)

/-- `_path` -/
def operatorPath (value : String) (write : Bool) : Except Err Place :=
  let pure := purePath value
  if value = "" ∨ pure.slashes ≠ 0 ∨ ".." ∈ pure.parts then
    .error (.operatorPath "path must be repository-relative and may not traverse")
  else if sensitive pure.parts then .error (.operatorPath "sensitive path access denied")
  else if dotGit pure.parts then .error (.operatorPath "direct .git access denied")
  else if ¬ o.allows pure then .error (.operatorPath "path is outside the authorized path scope")
  else
    match fs.resolve ⟨o.repositoryRoot.slashes, o.repositoryRoot.parts ++ pure.parts⟩ with
    | .error e => .error e
    | .ok result =>
      if ¬ o.repositoryRoot.covers ⟨1, result⟩ then
        .error (.operatorPath "resolved path escapes repository")
      else if write ∧ (⟨1, result⟩ : PurePath) = o.repositoryRoot then
        .error (.operatorPath "repository root cannot be edited")
      else .ok result

theorem ite_error_eq_ok {α : Type*} {c : Prop} [Decidable c] {e : Err} {x : Except Err α} {a : α} :
    (if c then .error e else x) = .ok a ↔ ¬ c ∧ x = .ok a := by
  split
  · next h => simp [h]
  · next h => simp [h]

theorem PurePath.covers_iff {scope path : PurePath} :
    scope.covers path = true ↔ scope.slashes = path.slashes ∧ scope.parts <+: path.parts := by
  simp [PurePath.covers]

namespace Files

variable {fs} {p q start : Place} {parts : List String} {path : PurePath} {c : String}

theorem mem_places (h : fs.node p ≠ none) : p ∈ fs.places := by
  unfold node at h
  obtain ⟨n, hn⟩ := Option.ne_none_iff_exists'.1 h
  obtain ⟨before, after, heq, -⟩ := List.lookup_eq_some_iff.1 hn
  unfold places
  rw [heq]
  simp

theorem follow_eq_some_iff :
    fs.follow start parts = some q ↔ ∃ n, Links.Leads fs.link n start (parts.map component) q := by
  refine Links.walk_eq_some_iff fun l hl => mem_places fun hnone => hl ?_
  unfold link
  rw [hnone]

theorem resolve_eq_ok_iff : fs.resolve path = .ok p ↔
    (∀ c ∈ path.parts, '\x00' ∉ c.toList) ∧
    ∃ n, Links.Leads fs.link n (if path.slashes = 0 then fs.cwd else [])
      (path.parts.map component) p := by
  unfold resolve
  rw [ite_error_eq_ok, ← follow_eq_some_iff]
  refine and_congr (by simp) ?_
  cases fs.follow (if path.slashes = 0 then fs.cwd else []) path.parts with
  | none => simp
  | some q => simp

/-- a place that no link leads away from, named without dots -/
structure Resolved (fs : Files) (p : Place) : Prop where
  plain : Links.Plain fs.link p
  names : ∀ c ∈ p, component c = .down c

theorem component_eq_down {a : String} (h : component c = .down a) : c = a := by
  unfold component at h
  split at h
  · exact absurd h (by simp)
  · split at h
    · exact absurd h (by simp)
    · exact Links.Move.down.inj h

theorem component_down_of_mem {a : String} (h : .down a ∈ parts.map component) :
    component a = .down a := by
  obtain ⟨c, -, hc⟩ := List.mem_map.1 h
  obtain rfl := component_eq_down hc
  exact hc

theorem map_component (h : ∀ c ∈ p, component c = .down c) : p.map component = p.map .down :=
  List.map_congr_left h

theorem Resolved.of_leads {n : ℕ} (h : Links.Leads fs.link n [] (parts.map component) q) :
    fs.Resolved q where
  plain := h.plain Links.plain_nil
  names := by
    refine h.names (fun l t hl a ha => ?_) (fun a ha => component_down_of_mem ha) (by simp)
    unfold link at hl
    split at hl
    · obtain rfl := Option.some.inj hl
      exact component_down_of_mem ha
    · exact absurd hl (by simp)

theorem Resolved.follow (h : fs.Resolved p) : fs.follow [] p = some p := by
  rw [follow_eq_some_iff, map_component h.names]
  have hleads : Links.Leads fs.link 0 [] (p.map .down) ([] ++ p) := Links.Plain.leads h.plain
  exact ⟨0, hleads⟩

theorem Resolved.dropLast (h : fs.Resolved p) : fs.Resolved p.dropLast where
  plain := h.plain.dropLast
  names := fun c hc => h.names c (List.dropLast_subset p hc)

theorem Resolved.entry (h : fs.Resolved p) : fs.entry p = some p := by
  unfold Files.entry
  cases hlast : p.getLast? with
  | none =>
    rw [List.getLast?_eq_none_iff.1 hlast]
  | some c =>
    show (fs.follow [] p.dropLast).map (· ++ [c]) = some p
    rw [h.dropLast.follow, Option.map_some, List.dropLast_append_getLast? c hlast]

end Files

/-! ## what `_path` accepts -/

/-- the texts that pass the checks of `_path` and can be a path -/
structure Admitted (value : String) : Prop where
  nonempty : value ≠ ""
  relative : (purePath value).slashes = 0
  forward : ".." ∉ (purePath value).parts
  insensitive : sensitive (purePath value).parts = false
  noGit : dotGit (purePath value).parts = false
  allowed : o.allows (purePath value) = true
  noNull : ∀ c ∈ o.repositoryRoot.parts ++ (purePath value).parts, '\x00' ∉ c.toList

variable {fs o} {value : String} {write : Bool} {p : Place}

theorem operatorPath_ok_iff : operatorPath fs o value write = .ok p ↔
    Admitted o value ∧
    (∃ n, Links.Leads fs.link n []
      ((o.repositoryRoot.parts ++ (purePath value).parts).map component) p) ∧
    o.repositoryRoot.covers ⟨1, p⟩ = true ∧ ¬ (write ∧ (⟨1, p⟩ : PurePath) = o.repositoryRoot) := by
  have hresult : operatorPath fs o value write = .ok p ↔
      ¬ (value = "" ∨ (purePath value).slashes ≠ 0 ∨ ".." ∈ (purePath value).parts) ∧
      ¬ sensitive (purePath value).parts ∧ ¬ dotGit (purePath value).parts ∧
      ¬ ¬ o.allows (purePath value) ∧
      fs.resolve ⟨o.repositoryRoot.slashes, o.repositoryRoot.parts ++ (purePath value).parts⟩ =
        .ok p ∧
      ¬ ¬ o.repositoryRoot.covers ⟨1, p⟩ ∧
      ¬ (write ∧ (⟨1, p⟩ : PurePath) = o.repositoryRoot) := by
    unfold operatorPath
    rw [ite_error_eq_ok, ite_error_eq_ok, ite_error_eq_ok, ite_error_eq_ok]
    cases fs.resolve ⟨o.repositoryRoot.slashes, o.repositoryRoot.parts ++ (purePath value).parts⟩ with
    | error e => simp
    | ok q =>
      show _ ∧ _ ∧ _ ∧ _ ∧ (if _ then _ else _) = Except.ok p ↔ _
      rw [ite_error_eq_ok, ite_error_eq_ok, Except.ok.injEq]
      constructor
      · rintro ⟨h1, h2, h3, h4, h5, h6, rfl⟩
        exact ⟨h1, h2, h3, h4, rfl, h5, h6⟩
      · rintro ⟨h1, h2, h3, h4, rfl, h5, h6⟩
        exact ⟨h1, h2, h3, h4, h5, h6, rfl⟩
  rw [hresult, Files.resolve_eq_ok_iff]
  constructor
  · rintro ⟨h1, h2, h3, h4, ⟨hnull, hleads⟩, h5, h6⟩
    have hcovers := not_not.1 h5
    have hslashes : o.repositoryRoot.slashes = 1 := (PurePath.covers_iff.1 hcovers).1
    have hleads' : ∃ n, Links.Leads fs.link n []
        ((o.repositoryRoot.parts ++ (purePath value).parts).map component) p := by
      simpa [hslashes] using hleads
    push Not at h1
    exact ⟨⟨h1.1, h1.2.1, h1.2.2, by simpa using h2, by simpa using h3, not_not.1 h4, hnull⟩,
      hleads', hcovers, h6⟩
  · rintro ⟨hadm, hleads, hcovers, h6⟩
    have hslashes : o.repositoryRoot.slashes = 1 := (PurePath.covers_iff.1 hcovers).1
    refine ⟨?_, ?_, ?_, not_not.2 hadm.allowed, ⟨hadm.noNull, ?_⟩, not_not.2 hcovers, h6⟩
    · push Not
      exact ⟨hadm.nonempty, hadm.relative, hadm.forward⟩
    · simp [hadm.insensitive]
    · simp [hadm.noGit]
    · simpa [hslashes] using hleads

end LifeAI
