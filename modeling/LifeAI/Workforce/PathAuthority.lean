import LifeAI.Lib.Segments
import LifeAI.Workforce.Model
import Mathlib.Data.List.DropRight

/-!
# The paths of an assignment

* `pathAllowed`  `path_allowed`, by the tests of each prefix (`admits`);
* `Confines`     what an answer should mean: the place of the path is in the workspace, at or
                 below the place of a prefix;
* `Backed`       the path, as it is written, is the text of a prefix or goes on with a slash;
* `confines_pathAllowed_iff`  what the tests that look at text only need to be right.
-/

namespace LifeAI.Workforce
open Segments

/-- `str.rstrip` of one character -/
def rstrip (c : Char) (s : List Char) : List Char := s.rdropWhile (· = c)

/-- `str.lstrip("./")` -/
def lstripDots (s : List Char) : List Char := s.dropWhile fun c => c = '.' ∨ c = '/'

/-- the prefix `q` without its stars and slashes -/
def base (q : List Char) : List Char := rstrip '/' (rstrip '*' q)

/-- the tests of `path_allowed` for the prefix `q` -/
def admits (q normalized : List Char) : Bool :=
  let p := rstrip '*' q
  (normalized = rstrip '/' p ∨ rstrip '/' p ++ ['/'] <+: normalized ∨
    (['*', '*'] <:+ q ∧ rstrip '/' (rstrip '*' p) <+: normalized)) ∨
  q <+: normalized

namespace WorkforceAssignment

variable (row : WorkforceAssignment)

def allowedPaths (write : Bool) : List String :=
  if write then row.allowedWritePaths else row.allowedReadPaths

/-- `path_allowed` -/
def pathAllowed (path : String) (write : Bool) : Bool :=
  if row.allowedPaths write = [] then false
  else (row.allowedPaths write).any fun q => admits q.toList (lstripDots path.toList)

/-- the path leads to the place of a prefix or below it, and without a prefix nowhere -/
structure Confines (path : String) (write answer : Bool) : Prop where
  below : answer = true → ∃ there, place path.toList = some there ∧
    ∃ q ∈ row.allowedPaths write, ∃ dir, place (base q.toList) = some dir ∧ dir <+: there
  empty : row.allowedPaths write = [] → answer = false

/-- the path, as it is written, is the text of the prefix or goes on with a slash -/
def Covers (q : String) (path : String) : Prop :=
  base q.toList = [] ∨ unled path.toList = base q.toList ∨
    base q.toList ++ ['/'] <+: unled path.toList

instance (q path : String) : Decidable (Covers q path) :=
  inferInstanceAs (Decidable (_ ∨ _ ∨ _))

/-- a prefix whose text admits the path is backed by one that the path is written below, and the
path does not climb -/
def Backed (path : String) (write : Bool) : Prop :=
  ∀ q ∈ row.allowedPaths write, admits q.toList (lstripDots path.toList) →
    NoDots path.toList ∧ ∃ q' ∈ row.allowedPaths write, Covers q' path

/-- the path climbs out of the workspace or is written with names only, and so are the prefixes -/
structure Plainly (path : String) (write : Bool) : Prop where
  path : place path.toList = none ∨ Plain (unled path.toList)
  prefixes : ∀ q ∈ row.allowedPaths write, Plain (base q.toList)

variable {row} {path : String} {write : Bool}

theorem pathAllowed_iff : row.pathAllowed path write = true ↔
    ∃ q ∈ row.allowedPaths write, admits q.toList (lstripDots path.toList) = true := by
  unfold pathAllowed
  split
  · rename_i hnone
    rw [hnone]
    simp
  · rw [List.any_eq_true]

theorem Covers.place {q : String} (h : Covers q path) (hdots : NoDots path.toList) :
    ∃ dir, Segments.place (base q.toList) = some dir ∧ dir <+: names path.toList := by
  rw [← nodots_unled] at hdots
  rw [← names_unled]
  rcases h with hroot | hsame | ⟨tail, htail⟩
  · refine ⟨[], ?_, List.nil_prefix⟩
    rw [hroot]
    rfl
  · rw [← hsame]
    exact ⟨_, place_of_nodots hdots, List.prefix_rfl⟩
  · rw [List.append_assoc, List.singleton_append] at htail
    rw [← htail] at hdots ⊢
    refine ⟨_, place_of_nodots hdots.of_append.1, ?_⟩
    rw [names_append]
    exact List.prefix_append _ _

theorem Backed.confines (h : row.Backed path write) :
    row.Confines path write (row.pathAllowed path write) where
  below hallowed := by
    obtain ⟨q, hq, hadmits⟩ := pathAllowed_iff.1 hallowed
    obtain ⟨hdots, q', hq', hcovers⟩ := h q hq hadmits
    obtain ⟨dir, hdir, hbelow⟩ := hcovers.place hdots
    exact ⟨_, place_of_nodots hdots, q', hq', dir, hdir, hbelow⟩
  empty hnone := if_pos hnone

theorem Confines.backed (h : row.Confines path write (row.pathAllowed path write))
    (hplain : row.Plainly path write) : row.Backed path write := by
  intro q hq hadmits
  obtain ⟨there, hthere, q', hq', dir, hdir, hbelow⟩ := h.below (pathAllowed_iff.2 ⟨q, hq, hadmits⟩)
  have hpath : Plain (unled path.toList) := by
    refine hplain.path.resolve_left fun hout => ?_
    rw [hout] at hthere
    cases hthere
  have hdots : NoDots path.toList := (nodots_unled _).1 hpath.nodots
  have hbase := hplain.prefixes q' hq'
  refine ⟨hdots, q', hq', ?_⟩
  rw [place_of_nodots hdots, Option.some.injEq, ← names_unled] at hthere
  rw [place_of_nodots hbase.nodots, Option.some.injEq] at hdir
  rw [← hthere, ← hdir] at hbelow
  exact (place_prefix_iff hbase hpath).1 hbelow

/-- **confinement of paths**: the answer means what it should where every admission is backed; for
paths and prefixes that are written plainly this is also needed -/
theorem confines_pathAllowed_iff (row : WorkforceAssignment) (path : String) (write : Bool) :
    (row.Backed path write → row.Confines path write (row.pathAllowed path write)) ∧
    (row.Plainly path write →
      (row.Confines path write (row.pathAllowed path write) ↔ row.Backed path write)) :=
  ⟨Backed.confines, fun hplain => ⟨fun h => h.backed hplain, Backed.confines⟩⟩

/-- an assignment that may write below `src` -/
def srcWriter : WorkforceAssignment where
  ownerId := 0
  delegationRequestId := 0
  profileId := 0
  contextPackageId := 0
  allowedWritePaths := ["src"]

theorem confines_src : srcWriter.pathAllowed "./src/main.py" true = true ∧
    srcWriter.Confines "./src/main.py" true (srcWriter.pathAllowed "./src/main.py" true) := by
  have hplain : srcWriter.Plainly "./src/main.py" true := by
    refine ⟨.inr (.inr ?_), fun q hq => .inr ?_⟩
    · decide
    · obtain rfl := List.mem_singleton.1 hq
      decide
  have hbacked : srcWriter.Backed "./src/main.py" true := by
    intro q hq _
    obtain rfl := List.mem_singleton.1 hq
    refine ⟨by decide, "src", List.mem_singleton.2 rfl, by decide +kernel⟩
  refine ⟨by decide, ?_⟩
  exact ((confines_pathAllowed_iff srcWriter "./src/main.py" true).2 hplain).2 hbacked

/-- a sibling whose name begins with the text of the prefix -/
theorem sibling_admitted : ¬ srcWriter.Confines "srcfoo/main.py" true
    (srcWriter.pathAllowed "srcfoo/main.py" true) := by
  intro h
  obtain ⟨there, hthere, q, hq, dir, hdir, hbelow⟩ := h.below (by decide)
  obtain rfl := List.mem_singleton.1 hq
  have hplace : place "srcfoo/main.py".toList = some ["srcfoo".toList, "main.py".toList] := by
    decide
  have hbase : place (base "src".toList) = some ["src".toList] := by decide
  rw [hplace, Option.some.injEq] at hthere
  rw [hbase, Option.some.injEq] at hdir
  rw [← hthere, ← hdir] at hbelow
  exact absurd hbelow (by decide)

end WorkforceAssignment

end LifeAI.Workforce
