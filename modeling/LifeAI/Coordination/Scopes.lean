import LifeAI.Coordination.Gate
import LifeAI.Lib.Scopes
import LifeAI.Lib.Segments
import Mathlib.Data.List.DropRight

/-!
# What the scopes of `paths_conflict` stand for

* `scopeOf`  a text as a directory, or with a glob at its end as the names with a stem in it;
* `kept`     what the code compares of such a glob as if it were a name;
* `segments_eq`   `_segments` is the directory, and then what is kept;
* `Sound`    a path that two scopes share makes them conflict, and the answer is symmetric;
* `Sees`     what is kept of a glob is the name that it can match at its place.
-/

namespace LifeAI.Gate
open Segments (Name)
open Scopes (Scope Comparable)

/-- the names between the slashes -/
def parts (s : List Char) : List Name := (Segments.segments s).filter (· ≠ [])

/-- a text without one of the globs at its end -/
def withoutGlob (globs : List String) (s : List Char) : List Char :=
  (globs.findSome? fun glob => withoutSuffix? glob.toList s).getD s

def name? (s : List Char) : Option Name := if s = [] then none else some s

/-- the last name of a scope, if it ends in a star -/
def globOf (text : String) : Option Name :=
  (parts (strip text.toList)).getLast?.filter (·.getLast? = some '*')

/-- the paths that a scope is for -/
def scopeOf (text : String) : Scope Char :=
  let names := parts (strip text.toList)
  if globOf text = none then { dir := names }
  else { dir := names.dropLast, stem := (globOf text).map (·.rdropWhile (· = '*')) }

/-- what stays of a glob as a name: what is in front of the stars that are taken off, and all of it
where a slash follows -/
def kept (text : String) : Option Name :=
  (globOf text).bind fun glob =>
    if (strip text.toList).getLast? = some '/' then some glob
    else name? (withoutGlob ["**", "*"] glob)

/-! ## the segments of a scope -/

theorem parts_slash (p q : List Char) : parts (p ++ '/' :: q) = parts p ++ parts q := by
  unfold parts
  rw [Segments.segments_append, List.filter_append]

theorem parts_nil : parts [] = [] := by decide

theorem parts_name {q : List Char} (h : '/' ∉ q) : parts q = (name? q).toList := by
  unfold parts Segments.segments name?
  rw [List.splitOn_eq_singleton h]
  by_cases hq : q = []
  · rw [if_pos hq, hq]
    rfl
  · rw [if_neg hq, List.filter_cons_of_pos (by simpa using hq)]
    rfl

theorem parts_rstrip (s : List Char) : parts (s.rdropWhile (· = '/')) = parts s := by
  induction s using List.reverseRecOn with
  | nil => rw [List.rdropWhile_nil]
  | append_singleton s c ih =>
    rw [List.rdropWhile_concat]
    split_ifs with hc
    · rw [ih, of_decide_eq_true hc, parts_slash, parts_nil, List.append_nil]
    · rfl

theorem withoutSuffix?_reverse (suffix r : List Char) :
    withoutSuffix? suffix r.reverse =
      if suffix.reverse <+: r then some (r.drop suffix.length).reverse else none := by
  unfold withoutSuffix?
  have hiff : suffix.isSuffixOf r.reverse = true ↔ suffix.reverse <+: r := by
    rw [List.isSuffixOf_iff_suffix, ← List.reverse_prefix, List.reverse_reverse]
  by_cases h : suffix.reverse <+: r
  · rw [if_pos h, if_pos (hiff.2 h), List.length_reverse, List.take_reverse,
      Nat.sub_sub_self (by simpa using h.length_le)]
  · rw [if_neg h, if_neg (hiff.not.2 h)]

/-- the first of the four globs, read from the end -/
def globless : List Char → List Char
  | '*' :: '*' :: '/' :: r => r
  | '*' :: '/' :: r => r
  | '*' :: '*' :: r => r
  | '*' :: r => r
  | r => r

theorem withoutGlob_reverse (r : List Char) :
    withoutGlob ["/**", "/*", "**", "*"] r.reverse = (globless r).reverse := by
  unfold withoutGlob
  simp only [List.findSome?_cons, List.findSome?_nil, withoutSuffix?_reverse]
  fun_cases globless r <;> simp_all [List.cons_prefix_iff]

/-- the first star or two of a name, read from its end -/
def starless : Name → Name
  | '*' :: '*' :: r => r
  | '*' :: r => r
  | r => r

theorem withoutStars_reverse (r : List Char) :
    withoutGlob ["**", "*"] r.reverse = (starless r).reverse := by
  unfold withoutGlob
  simp only [List.findSome?_cons, List.findSome?_nil, withoutSuffix?_reverse]
  fun_cases starless r <;> simp_all [List.cons_prefix_iff]

/-- a text is its last name, and what is in front of it; both are read from the end -/
structure LastName (r q p : List Char) : Prop where
  eq : r = q ++ p
  name : '/' ∉ q
  slash : p = [] ∨ ∃ p', p = '/' :: p'

theorem exists_lastName (r : List Char) : ∃ q p, LastName r q p := by
  induction r with
  | nil => exact ⟨[], [], rfl, List.not_mem_nil, .inl rfl⟩
  | cons c r ih =>
    by_cases hc : c = '/'
    · exact ⟨[], c :: r, rfl, List.not_mem_nil, .inr ⟨r, by rw [hc]⟩⟩
    · obtain ⟨q, p, h⟩ := ih
      refine ⟨c :: q, p, ?_, ?_, h.slash⟩
      · rw [h.eq]
        rfl
      · intro hmem
        rcases List.mem_cons.1 hmem with heq | hmem
        · exact hc heq.symm
        · exact h.name hmem

namespace LastName

variable {r q p : List Char}

theorem parts (h : LastName r q p) :
    parts r.reverse = Gate.parts p.reverse ++ (name? q.reverse).toList := by
  have hname : '/' ∉ q.reverse := by
    rw [List.mem_reverse]
    exact h.name
  rw [h.eq, List.reverse_append]
  rcases h.slash with rfl | ⟨p', rfl⟩
  · rw [List.reverse_nil, parts_nil]
    exact parts_name hname
  · rw [List.reverse_cons, List.append_assoc, List.singleton_append, parts_slash, parts_slash,
      parts_nil, List.append_nil, parts_name hname]

theorem starless_sub (q : Name) : ∃ stars, q = stars ++ starless q := by
  fun_cases starless q with
  | case1 r => exact ⟨['*', '*'], rfl⟩
  | case2 r => exact ⟨['*'], rfl⟩
  | case3 => exact ⟨[], rfl⟩

/-- the glob is taken off the last name, with the slash in front when nothing else is left -/
theorem globless_eq (h : LastName r q p) :
    globless r = starless q ++ p ∨ starless q = [] ∧ p = '/' :: globless r := by
  rw [h.eq]
  have hslash : ∀ c ∈ q, c ≠ '/' := fun c hc heq => h.name (heq ▸ hc)
  match q with
  | [] =>
    rcases h.slash with rfl | ⟨p', rfl⟩
    · exact .inl rfl
    · exact .inl rfl
  | [c] =>
    by_cases hc : c = '*'
    · subst hc
      rcases h.slash with rfl | ⟨p', rfl⟩
      · exact .inl rfl
      · exact .inr ⟨rfl, rfl⟩
    · left
      simp [globless, starless, hc]
  | c :: d :: q =>
    have hd : d ≠ '/' := hslash d (by simp)
    by_cases hc : c = '*'
    · by_cases hd' : d = '*'
      · subst hc hd'
        match q with
        | [] =>
          rcases h.slash with rfl | ⟨p', rfl⟩
          · exact .inl rfl
          · exact .inr ⟨rfl, rfl⟩
        | e :: q =>
          have he : e ≠ '/' := hslash e (by simp)
          left
          simp [globless, starless, he]
      · left
        simp [globless, starless, hc, hd, hd']
    · left
      simp [globless, starless, hc]

/-- of the text without a glob there are the names in front, and the last one without its stars -/
theorem parts_globless (h : LastName r q p) :
    Gate.parts (globless r).reverse =
      Gate.parts p.reverse ++ (name? (starless q).reverse).toList := by
  rcases h.globless_eq with heq | ⟨hnone, hp⟩
  · obtain ⟨stars, hstars⟩ := starless_sub q
    have hname : '/' ∉ starless q := by
      intro hmem
      refine h.name ?_
      rw [hstars]
      exact List.mem_append_right stars hmem
    exact LastName.parts ⟨heq, hname, h.slash⟩
  · rw [hnone, hp, List.reverse_cons, parts_slash, parts_nil, List.append_nil]
    exact (List.append_nil _).symm

end LastName

theorem segments_parts (text : String) : segments text =
    (parts (withoutGlob ["/**", "/*", "**", "*"] (strip text.toList))).map String.ofList := by
  rw [← parts_rstrip]
  rfl

theorem scopeOf_of_none {text : String} (h : globOf text = none) :
    scopeOf text = { dir := parts (strip text.toList) } := if_pos h

theorem scopeOf_of_some {text : String} {glob : Name} (h : globOf text = some glob) :
    scopeOf text = { dir := (parts (strip text.toList)).dropLast,
                     stem := some (glob.rdropWhile (· = '*')) } := by
  unfold scopeOf
  rw [h, if_neg (Option.some_ne_none glob)]
  rfl

theorem globOf_eq_some {text : String} {glob : Name} (h : globOf text = some glob) :
    (parts (strip text.toList)).getLast? = some glob ∧ glob.getLast? = some '*' := by
  obtain ⟨hlast, hstar⟩ := Option.filter_eq_some_iff.1 h
  exact ⟨hlast, of_decide_eq_true hstar⟩

/-- a text that ends in a slash: nothing is taken off its glob -/
theorem dir_kept_of_slash {text : String} {p : List Char}
    (h : LastName (strip text.toList).reverse [] p) :
    (scopeOf text).dir ++ (kept text).toList = parts p.reverse := by
  have hstrip : strip text.toList = p.reverse := by
    rw [← h.eq.trans (List.nil_append p), List.reverse_reverse]
  unfold kept
  cases hglob : globOf text with
  | none =>
    rw [scopeOf_of_none hglob, hstrip]
    exact List.append_nil _
  | some glob =>
    obtain ⟨hlast, -⟩ := globOf_eq_some hglob
    have hslash : (strip text.toList).getLast? = some '/' := by
      rcases h.slash with rfl | ⟨p', rfl⟩
      · rw [hstrip, List.reverse_nil, parts_nil] at hlast
        cases hlast
      · rw [hstrip, List.getLast?_reverse]
        rfl
    rw [scopeOf_of_some hglob, Option.bind_some, if_pos hslash, ← hstrip]
    exact List.dropLast_append_getLast? glob hlast

/-- a text that ends in a name -/
theorem dir_kept_of_name {text : String} {q p : List Char}
    (h : LastName (strip text.toList).reverse q p) (hq : q ≠ []) :
    (scopeOf text).dir ++ (kept text).toList =
      parts p.reverse ++ (name? (starless q).reverse).toList := by
  obtain ⟨c, q, rfl⟩ := List.exists_cons_of_ne_nil hq
  have hparts : parts (strip text.toList) = parts p.reverse ++ [(c :: q).reverse] := by
    rw [← List.reverse_reverse (strip text.toList), h.parts, name?,
      if_neg (List.reverse_ne_nil_iff.2 hq)]
    rfl
  have hends : (strip text.toList).getLast? = some c := by
    rw [← List.head?_reverse, h.eq]
    rfl
  have hlast : (c :: q).reverse.getLast? = some c := by
    rw [List.getLast?_reverse]
    rfl
  by_cases hc : c = '*'
  · have hglob : globOf text = some (c :: q).reverse := by
      unfold globOf
      rw [hparts, List.getLast?_concat, Option.filter_some, hlast, hc]
      rfl
    have hslash : ¬ (strip text.toList).getLast? = some '/' := by
      rw [hends, hc]
      decide
    unfold kept
    rw [scopeOf_of_some hglob, hglob, hparts, Option.bind_some, if_neg hslash,
      withoutStars_reverse, List.dropLast_concat]
  · have hglob : globOf text = none := by
      unfold globOf
      rw [hparts, List.getLast?_concat, Option.filter_some, hlast, if_neg (by simpa using hc)]
    have hbare : starless (c :: q) = c :: q := by
      unfold starless
      simp [hc]
    unfold kept
    rw [scopeOf_of_none hglob, hglob, hparts, hbare, name?,
      if_neg (List.reverse_ne_nil_iff.2 hq)]
    exact List.append_nil _

/-- `_segments` is the directory of a scope, and then what is kept of its glob -/
theorem segments_eq (text : String) : segments text =
    ((scopeOf text).dir ++ (kept text).toList).map String.ofList := by
  obtain ⟨q, p, h⟩ := exists_lastName (strip text.toList).reverse
  have hsegments : segments text =
      (parts p.reverse ++ (name? (starless q).reverse).toList).map String.ofList := by
    rw [segments_parts, ← List.reverse_reverse (strip text.toList), withoutGlob_reverse,
      h.parts_globless]
  rw [hsegments]
  by_cases hq : q = []
  · subst hq
    rw [dir_kept_of_slash h]
    exact congrArg _ (List.append_nil _)
  · rw [dir_kept_of_name h hq]

/-! ## conflicts -/

theorem pathsConflict_iff (a b : String) : pathsConflict a b = true ↔
    Comparable ((scopeOf a).dir ++ (kept a).toList) ((scopeOf b).dir ++ (kept b).toList) := by
  have hinj : Function.Injective String.ofList := fun _ _ => String.ofList_injective
  rw [← Scopes.comparable_map_iff hinj, ← segments_eq, ← segments_eq, Scopes.comparable_iff_take]
  unfold pathsConflict
  rw [decide_eq_true_iff]

theorem pathsConflict_comm (a b : String) : pathsConflict a b = pathsConflict b a := by
  rw [Bool.eq_iff_iff, pathsConflict_iff, pathsConflict_iff]
  exact Scopes.comparable_comm

/-- a name that a path can have -/
def Named (name : Name) : Prop := name ≠ [] ∧ '/' ∉ name

/-- a path of a repository, by its names -/
def RepositoryPath (path : List Name) : Prop := path ≠ [] ∧ ∀ name ∈ path, Named name

theorem named_of_mem_parts {s : List Char} {name : Name} (h : name ∈ parts s) : Named name := by
  obtain ⟨hmem, hne⟩ := List.mem_filter.1 h
  exact ⟨of_decide_eq_true hne, Segments.not_mem_of_mem_splitOn hmem⟩

theorem fits_scopeOf (text : String) : (scopeOf text).Fits Named 'x' := by
  cases hglob : globOf text with
  | none =>
    rw [scopeOf_of_none hglob]
    exact ⟨fun _ => named_of_mem_parts, nofun⟩
  | some glob =>
    obtain ⟨hlast, -⟩ := globOf_eq_some hglob
    rw [scopeOf_of_some hglob]
    refine ⟨fun _ h => named_of_mem_parts (List.dropLast_subset _ h), fun stem hstem => ?_⟩
    cases hstem
    refine ⟨List.append_ne_nil_of_right_ne_nil _ (List.cons_ne_nil _ _), ?_⟩
    rw [List.mem_append, not_or]
    refine ⟨fun hmem => ?_, by decide⟩
    have hname := named_of_mem_parts (List.mem_of_getLast? hlast)
    exact hname.2 ((List.rdropWhile_prefix _ _).subset hmem)

/-- what `paths_conflict` is for -/
structure Sound (a b : String) : Prop where
  symm : pathsConflict a b = pathsConflict b a
  overlap : ∀ path, RepositoryPath path → (scopeOf a).Covers path → (scopeOf b).Covers path →
    pathsConflict a b = true

/-- where `b` can lie in `a`, what is kept of the glob of `a` is the name of `b` at its place -/
def Sees (a b : String) : Prop :=
  (scopeOf a).Below (scopeOf b) → ∀ name ∈ kept a,
    (∀ other ∈ (scopeOf b).dir[(scopeOf a).dir.length]?, name = other) ∧
      ((scopeOf a).dir = (scopeOf b).dir → ∀ other ∈ kept b, name = other)

theorem sees_iff (a b : String) :
    Sees a b ↔ ((scopeOf a).Below (scopeOf b) → pathsConflict a b = true) :=
  forall_congr' fun h => by
    rw [pathsConflict_iff]
    exact (Scopes.comparable_iff h.dir _ _).symm

theorem sound_iff_sees (a b : String) : Sound a b ↔ Sees a b ∧ Sees b a := by
  have hletter : Named ['x'] := ⟨List.cons_ne_nil _ _, by decide⟩
  have hoverlap := Scopes.Scope.overlap_iff hletter (fits_scopeOf a) (fits_scopeOf b)
  rw [sees_iff, sees_iff, pathsConflict_comm b a, ← or_imp, ← hoverlap]
  constructor
  · intro h ⟨path, hpath, ha, hb⟩
    exact h.overlap path hpath ha hb
  · intro h
    exact ⟨pathsConflict_comm a b, fun path hpath ha hb => h ⟨path, hpath, ha, hb⟩⟩

/-- a star behind the beginning of a name: the file has that name, and is not seen in the scope -/
theorem glued_star_unsound : ¬ Sound "src/app*" "src/application.py" := by
  intro h
  have hglob : scopeOf "src/app*" = ⟨["src".toList], some "app".toList⟩ := by decide
  have hfile : scopeOf "src/application.py" =
      ⟨["src".toList, "application.py".toList], none⟩ := by decide
  have hpath : RepositoryPath ["src".toList, "application.py".toList] := by
    refine ⟨List.cons_ne_nil _ _, ?_⟩
    unfold Named
    decide
  have hconflict := h.overlap _ hpath
    (hglob ▸ ⟨by decide, fun stem hstem => ⟨"application.py".toList, rfl, by cases hstem; decide⟩⟩)
    (hfile ▸ ⟨by decide, nofun⟩)
  revert hconflict
  decide

/-- a slash behind the stars: the directory itself is not seen -/
example : pathsConflict "src/**/" "src/main.py" = false := by decide

/-- the forms with nothing glued to the star -/
example : pathsConflict " /src/** " "src/main.py" = true ∧ kept " /src/** " = none := by decide

end LifeAI.Gate
