import Mathlib.Data.List.Infix

/-!
# Paths as text, taken apart at `/`

* `segments`  the parts between the slashes;
* `place`     where a path leads from a root: the names below the root, or nothing when it
              climbs out;
* `place_of_nodots`  without `..` the place is the names of the path, in their order;
* `Plain`     a text made of names only;
* `place_prefix_iff`  for plain texts, below is: the same text, or the text and a slash.
-/

namespace Segments

abbrev Name := List Char

def segments (path : List Char) : List Name := path.splitOn '/'

/-- one segment further; there is nothing above the root -/
def enter (here : List Name) (segment : Name) : Option (List Name) :=
  if segment = [] ∨ segment = ['.'] then some here
  else if segment = ['.', '.'] then
    if here = [] then none else some here.dropLast
  else some (here ++ [segment])

/-- the place that a path leads to -/
def place (path : List Char) : Option (List Name) := (segments path).foldlM enter []

def named (segment : Name) : Bool := segment ≠ [] ∧ segment ≠ ['.']

/-- the segments that name something -/
def names (path : List Char) : List Name := (segments path).filter named

/-- a path does not climb -/
def NoDots (path : List Char) : Prop := ['.', '.'] ∉ segments path

instance (path : List Char) : Decidable (NoDots path) :=
  inferInstanceAs (Decidable (_ ∉ _))

/-- the root, or names with one slash between them -/
def Plain (path : List Char) : Prop :=
  path = [] ∨ ∀ s ∈ segments path, named s ∧ s ≠ ['.', '.']

variable {path base rest : List Char}

theorem segments_ne_nil (path : List Char) : segments path ≠ [] := List.splitOn_ne_nil _ _

theorem not_mem_of_mem_splitOn {sep : Char} {piece s : List Char} (h : piece ∈ s.splitOn sep) :
    sep ∉ piece := by
  induction s generalizing piece with
  | nil =>
    rw [List.splitOn_nil] at h
    obtain rfl := List.mem_singleton.1 h
    exact List.not_mem_nil
  | cons x s ih =>
    rw [List.splitOn_cons_eq_if_modifyHead] at h
    split_ifs at h with hsep
    · rcases List.mem_cons.1 h with rfl | hrest
      · exact List.not_mem_nil
      · exact ih hrest
    · obtain ⟨first, rest, hsplit⟩ := List.exists_cons_of_ne_nil (List.splitOn_ne_nil sep s)
      rw [hsplit, List.modifyHead_cons] at h
      rw [hsplit] at ih
      rcases List.mem_cons.1 h with rfl | hrest
      · intro hmem
        rcases List.mem_cons.1 hmem with rfl | hmem
        · exact hsep (beq_self_eq_true sep)
        · exact ih List.mem_cons_self hmem
      · exact ih (List.mem_cons_of_mem _ hrest)

theorem segments_append (base rest : List Char) :
    segments (base ++ '/' :: rest) = segments base ++ segments rest :=
  List.splitOn_append_cons_self base rest

theorem segments_injective (h : segments base = segments path) : base = path := by
  have hjoin := congrArg (['/'].intercalate ·) h
  unfold segments at hjoin
  simpa only [List.intercalate_splitOn] using hjoin

/-! ## places without `..` -/

theorem foldlM_enter {here segs : List Name} (h : ['.', '.'] ∉ segs) :
    segs.foldlM enter here = some (here ++ segs.filter named) := by
  induction segs generalizing here with
  | nil => simp
  | cons s segs ih =>
    obtain ⟨hs, hsegs⟩ := not_or.1 (List.mem_cons.not.1 h)
    rw [List.foldlM_cons]
    by_cases hname : named s = true
    · have henter : enter here s = some (here ++ [s]) := by
        unfold named at hname
        unfold enter
        rw [if_neg (by simpa using hname), if_neg (Ne.symm hs)]
      rw [henter, List.filter_cons_of_pos hname]
      show segs.foldlM enter (here ++ [s]) = _
      rw [ih hsegs, List.append_assoc]
      rfl
    · have henter : enter here s = some here := by
        unfold named at hname
        unfold enter
        rw [if_pos (by simpa [or_iff_not_imp_left] using hname)]
      rw [henter, List.filter_cons_of_neg hname]
      exact ih hsegs

theorem place_of_nodots (h : NoDots path) : place path = some (names path) := by
  have hfold : (segments path).foldlM enter [] = some ([] ++ (segments path).filter named) :=
    foldlM_enter h
  exact hfold

theorem NoDots.of_append (h : NoDots (base ++ '/' :: rest)) : NoDots base ∧ NoDots rest := by
  unfold NoDots at h ⊢
  rw [segments_append, List.mem_append] at h
  exact not_or.1 h

theorem names_append (base rest : List Char) :
    names (base ++ '/' :: rest) = names base ++ names rest := by
  unfold names
  rw [segments_append, List.filter_append]

theorem nodots_nil : NoDots [] := by decide

theorem names_nil : names [] = [] := by decide

/-! ## plain texts -/

theorem Plain.nodots (h : Plain path) : NoDots path := by
  rcases h with rfl | h
  · exact nodots_nil
  · intro hdots
    exact (h _ hdots).2 rfl

theorem Plain.names (h : Plain path) (hne : path ≠ []) : names path = segments path := by
  have hall := h.resolve_left hne
  exact List.filter_eq_self.2 fun s hs => (hall s hs).1

/-- for plain texts: below is the same text, or the text and a slash -/
theorem place_prefix_iff (hbase : Plain base) (hpath : Plain path) :
    names base <+: names path ↔ base = [] ∨ path = base ∨ base ++ ['/'] <+: path := by
  constructor
  · intro h
    by_cases hb : base = []
    · exact .inl hb
    by_cases hp : path = []
    · rw [hp, names_nil, List.prefix_nil, hbase.names hb] at h
      exact absurd h (segments_ne_nil base)
    rw [hbase.names hb, hpath.names hp] at h
    obtain ⟨tail, htail⟩ := h
    by_cases hend : tail = []
    · rw [hend, List.append_nil] at htail
      exact .inr (.inl (segments_injective htail).symm)
    · refine .inr (.inr ⟨['/'].intercalate tail, ?_⟩)
      have hslash : ∀ s ∈ tail, '/' ∉ s := by
        intro s hs hmem
        have hseg : s ∈ path.splitOn '/' := by
          show s ∈ segments path
          rw [← htail]
          exact List.mem_append_right _ hs
        exact not_mem_of_mem_splitOn hseg hmem
      apply segments_injective
      rw [List.append_assoc, List.singleton_append, segments_append, ← htail]
      congr 1
      exact List.splitOn_intercalate '/' hslash hend
  · rintro (rfl | rfl | ⟨tail, rfl⟩)
    · rw [names_nil]
      exact List.nil_prefix
    · exact List.prefix_rfl
    · rw [List.append_assoc, List.singleton_append, names_append]
      exact List.prefix_append _ _

/-! ## what may stand in front -/

/-- the text without the empty segments and the dots in front of it -/
def unled : List Char → List Char
  | '/' :: s => unled s
  | '.' :: '/' :: s => unled s
  | ['.'] => []
  | s => s

theorem segments_slash (s : List Char) : segments ('/' :: s) = [] :: segments s :=
  segments_append [] s

theorem segments_dotSlash (s : List Char) : segments ('.' :: '/' :: s) = ['.'] :: segments s :=
  segments_append ['.'] s

theorem nodots_unled (path : List Char) : NoDots (unled path) ↔ NoDots path := by
  unfold NoDots
  fun_induction unled path with
  | case1 s ih => rw [ih, segments_slash]; simp
  | case2 s ih => rw [ih, segments_dotSlash]; simp
  | case3 => decide
  | case4 s => rfl

theorem names_unled (path : List Char) : names (unled path) = names path := by
  unfold names
  fun_induction unled path with
  | case1 s ih => rw [ih, segments_slash]; rfl
  | case2 s ih => rw [ih, segments_dotSlash]; rfl
  | case3 => decide
  | case4 s => rfl

end Segments
