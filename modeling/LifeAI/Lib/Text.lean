import Mathlib.Data.List.Infix

/-!
# Occurrences of a word, and substitution

`w <:+: s` says that the word `w` occurs in `s`.

* `Barrier w lit`  no occurrence of `w` reaches into `lit`;
* `sub`            leftmost, non-overlapping substitution, as `re.sub` makes it;
* `infix_of_sub`   a substitution creates no occurrence of a word;
* `not_infix_sub`  it leaves none of a word that its pattern finds;
* `infix_flatMap_iff`  an escaping of other characters changes no occurrence of a word;
* `Framed`         what stands outside of quotes is made of `O`; a word that needs another
                   character occurs in one of two adjacent texts.
-/

/-- equality of texts is the one that decides membership -/
instance lawfulBEqChars : LawfulBEq (List Char) := inferInstance

namespace Text

variable {α β : Type*} {w s a b mid lit : List α} {x y : α}

/-! ## separators -/

/-- the first separator splits a text -/
theorem append_cons_inj {c d : List α} (ha : x ∉ a) (hc : x ∉ c) :
    a ++ x :: b = c ++ x :: d ↔ a = c ∧ b = d := by
  constructor
  · intro h
    induction a generalizing c with
    | nil =>
      cases c with
      | nil => exact ⟨rfl, (List.cons.inj h).2⟩
      | cons y c =>
        obtain rfl := (List.cons.inj h).1
        exact absurd List.mem_cons_self hc
    | cons z a ih =>
      cases c with
      | nil =>
        obtain rfl := (List.cons.inj h).1
        exact absurd List.mem_cons_self ha
      | cons y c =>
        obtain ⟨rfl, h'⟩ := List.cons.inj h
        obtain ⟨rfl, rfl⟩ := ih (fun hm => ha (List.mem_cons_of_mem _ hm))
          (fun hm => hc (List.mem_cons_of_mem _ hm)) h'
        exact ⟨rfl, rfl⟩
  · rintro ⟨rfl, rfl⟩
    rfl

theorem prefix_append_cons (hx : x ∉ w) (h : w <+: a ++ x :: b) : w <+: a := by
  induction a generalizing w with
  | nil =>
    cases w with
    | nil => exact List.nil_prefix
    | cons y w =>
      obtain rfl := (List.cons_prefix_cons.1 h).1
      exact absurd List.mem_cons_self hx
  | cons c a ih =>
    cases w with
    | nil => exact List.nil_prefix
    | cons y w =>
      obtain ⟨rfl, h'⟩ := List.cons_prefix_cons.1 h
      exact List.cons_prefix_cons.2 ⟨rfl, ih (fun hw => hx (List.mem_cons_of_mem _ hw)) h'⟩

/-- an occurrence lies on one side of a character that it does not contain -/
theorem infix_append_cons_iff (hx : x ∉ w) : w <:+: a ++ x :: b ↔ w <:+: a ∨ w <:+: b := by
  constructor
  · intro h
    induction a with
    | nil =>
      rcases List.infix_cons_iff.1 h with h | h
      · exact .inl (prefix_append_cons (a := []) hx h).isInfix
      · exact .inr h
    | cons c a ih =>
      rcases List.infix_cons_iff.1 h with h | h
      · exact .inl (prefix_append_cons (a := c :: a) hx h).isInfix
      · exact (ih h).imp List.infix_cons id
  · rintro (h | h)
    · exact List.infix_append_of_infix_left h
    · exact List.infix_append_of_infix_right (List.infix_cons h)

/-- text without a character of the word adds no occurrence -/
theorem infix_skip (hw : w ≠ []) (hmid : ∀ c ∈ mid, c ∉ w) : w <:+: mid ++ b ↔ w <:+: b := by
  induction mid with
  | nil => rfl
  | cons c mid ih =>
    have hnil : ¬ w <:+: [] := fun h => hw (List.infix_nil.1 h)
    rw [List.cons_append, ← List.nil_append (c :: _),
      infix_append_cons_iff (hmid c List.mem_cons_self), or_iff_right hnil,
      ih fun d hd => hmid d (List.mem_cons_of_mem _ hd)]

/-- no occurrence of `w` reaches into `lit` -/
def Barrier (w lit : List α) : Prop :=
  ∀ a b, w <:+: a ++ lit ++ b → w <:+: a ∨ w <:+: b

/-- a text without the word, between two characters that the word does not contain -/
theorem barrier_between (hx : x ∉ w) (hy : y ∉ w) (hmid : ¬ w <:+: mid) :
    Barrier w (x :: (mid ++ [y])) := by
  intro a b h
  have heq : a ++ x :: (mid ++ [y]) ++ b = a ++ x :: (mid ++ y :: b) := by simp
  rw [heq, infix_append_cons_iff hx, infix_append_cons_iff hy, or_iff_right hmid] at h
  exact h

/-- a text without a character of the word -/
theorem barrier_of_disjoint (hw : w ≠ []) (hne : mid ≠ []) (hmid : ∀ c ∈ mid, c ∉ w) :
    Barrier w mid := by
  intro a b h
  obtain ⟨x, rest, rfl⟩ := List.exists_cons_of_ne_nil hne
  rw [List.append_assoc, List.cons_append,
    infix_append_cons_iff (hmid x List.mem_cons_self)] at h
  exact h.imp id (infix_skip hw fun c hc => hmid c (List.mem_cons_of_mem _ hc)).1

/-! ## substitution -/

/-- Leftmost substitution: `m` looks at the rest of the text and answers with the number of
characters to keep and the number of characters matched; the rest of the match is replaced by
`lit`.  The counter skips what is left of a match. -/
def sub (m : List α → Option (Nat × Nat)) (lit : List α) : Nat → List α → List α
  | _, [] => []
  | n + 1, _ :: s => sub m lit n s
  | 0, c :: s =>
    match m (c :: s) with
    | none => c :: sub m lit 0 s
    | some (k, n) => (c :: s).take k ++ lit ++ sub m lit (n - 1) s

variable {m : List α → Option (Nat × Nat)}

theorem prefix_of_sub (hlit : lit.head? = some x) (hx : x ∉ w) (h : w <+: sub m lit 0 s) :
    w <+: s := by
  obtain ⟨l, rfl⟩ := List.head?_eq_some_iff.1 hlit
  induction s generalizing w with
  | nil => exact h
  | cons c s ih =>
    rw [sub] at h
    split at h
    · cases w with
      | nil => exact List.nil_prefix
      | cons y w =>
        obtain ⟨rfl, h'⟩ := List.cons_prefix_cons.1 h
        exact List.cons_prefix_cons.2 ⟨rfl, ih (fun hw => hx (List.mem_cons_of_mem _ hw)) h'⟩
    · rw [List.append_assoc, List.cons_append] at h
      exact (prefix_append_cons hx h).trans (List.take_prefix _ _)

/-- a substitution creates no occurrence of a word that does not reach into its literal -/
theorem infix_of_sub (hlit : lit.head? = some x) (hx : x ∉ w) (hbar : Barrier w lit) (n : Nat)
    (h : w <:+: sub m lit n s) : w <:+: s := by
  induction s generalizing n with
  | nil => exact h
  | cons c s ih =>
    cases n with
    | succ n => exact List.infix_cons (ih n h)
    | zero =>
      have hpre := prefix_of_sub (m := m) (s := c :: s) hlit hx
      rw [sub] at h hpre
      split at h
      · next hm =>
        rw [hm] at hpre
        rcases List.infix_cons_iff.1 h with h | h
        · exact (hpre h).isInfix
        · exact List.infix_cons (ih 0 h)
      · rcases hbar _ _ h with h | h
        · exact h.trans (List.take_prefix _ _).isInfix
        · exact List.infix_cons (ih _ h)

/-- a substitution leaves no occurrence of a word that its pattern finds -/
theorem not_infix_sub (hw : w ≠ []) (hlit : lit.head? = some x) (hx : x ∉ w)
    (hbar : Barrier w lit) (hfind : ∀ s, w <+: s → m s ≠ none)
    (hkeep : ∀ s k n, m s = some (k, n) → ¬ w <:+: s.take k) (n : Nat) :
    ¬ w <:+: sub m lit n s := by
  induction s generalizing n with
  | nil => exact fun h => hw (List.infix_nil.1 h)
  | cons c s ih =>
    cases n with
    | succ n => exact ih n
    | zero =>
      intro h
      have hpre := prefix_of_sub (m := m) (s := c :: s) hlit hx
      rw [sub] at h hpre
      split at h
      · next hm =>
        rw [hm] at hpre
        rcases List.infix_cons_iff.1 h with h | h
        · exact hfind _ (hpre h) hm
        · exact ih 0 h
      · next hm =>
        rcases hbar _ _ h with h | h
        · exact hkeep _ _ _ hm h
        · exact ih _ h

/-! ## escaping -/

/-- escaping characters that the word does not contain, by text that has none of its characters,
changes no occurrence -/
theorem infix_flatMap_iff {f : α → List α} (hw : w ≠ []) (hplain : ∀ c ∈ w, f c = [c])
    (hother : ∀ c, f c = [c] ∨ f c ≠ [] ∧ ∀ d ∈ f c, d ∉ w) :
    w <:+: s.flatMap f ↔ w <:+: s := by
  suffices h : ∀ a, w <:+: a ++ s.flatMap f ↔ w <:+: a ++ s from h []
  induction s with
  | nil => exact fun a => Iff.rfl
  | cons c s ih =>
    intro a
    rw [List.flatMap_cons]
    by_cases hc : f c = [c]
    · have h := ih (a ++ [c])
      rw [List.append_assoc, List.append_assoc] at h
      rwa [hc]
    · have hcw : c ∉ w := fun h => hc (hplain c h)
      obtain ⟨hne, hdis⟩ := (hother c).resolve_left hc
      have ih0 := ih []
      rw [List.nil_append, List.nil_append] at ih0
      rw [infix_append_cons_iff hcw, ← List.append_assoc, ← ih0]
      refine ⟨barrier_of_disjoint hw hne hdis _ _, ?_⟩
      rintro (h | h)
      · exact List.infix_append_of_infix_left (List.infix_append_of_infix_left h)
      · exact List.infix_append_of_infix_right h

/-! ## quoted texts -/

theorem suffix_append_cons (hx : x ∉ w) (h : w <:+ a ++ x :: b) : w <:+ b := by
  have hx' : x ∉ w.reverse := fun hw => hx (List.mem_reverse.1 hw)
  rw [← List.reverse_prefix] at h ⊢
  refine prefix_append_cons (b := a.reverse) hx' ?_
  simpa using h

/-- characters of `O`, or quoted text between two stretches of characters of `O` -/
def Framed (q : α) (O : α → Prop) (s : List α) : Prop :=
  (∀ c ∈ s, O c) ∨
    ∃ o mid o', s = o ++ q :: (mid ++ q :: o') ∧ (∀ c ∈ o, O c) ∧ ∀ c ∈ o', O c

namespace Framed

variable {q : α} {O : α → Prop}

theorem quoted (q : α) (O : α → Prop) (mid : List α) : Framed q O (q :: (mid ++ [q])) :=
  .inr ⟨[], mid, [], rfl, by simp, by simp⟩

theorem append (ha : Framed q O a) (hb : Framed q O b) : Framed q O (a ++ b) := by
  rcases ha with ha | ⟨o1, m1, o2, rfl, h1, h2⟩
  · rcases hb with hb | ⟨o3, m2, o4, rfl, h3, h4⟩
    · exact .inl fun c hc => (List.mem_append.1 hc).elim (ha c) (hb c)
    · refine .inr ⟨a ++ o3, m2, o4, by simp, fun c hc => ?_, h4⟩
      exact (List.mem_append.1 hc).elim (ha c) (h3 c)
  · rcases hb with hb | ⟨o3, m2, o4, rfl, h3, h4⟩
    · refine .inr ⟨o1, m1, o2 ++ b, by simp, h1, fun c hc => ?_⟩
      exact (List.mem_append.1 hc).elim (h2 c) (hb c)
    · exact .inr ⟨o1, m1 ++ q :: (o2 ++ o3) ++ q :: m2, o4, by simp, h1, h4⟩

theorem of_prefix (ha : Framed q O a) (hq : q ∉ w) (h : w <+: a) : ∀ c ∈ w, O c := by
  rcases ha with ha | ⟨o1, m, o2, rfl, h1, -⟩
  · exact fun c hc => ha c (h.subset hc)
  · exact fun c hc => h1 c ((prefix_append_cons hq h).subset hc)

theorem of_suffix (ha : Framed q O a) (hq : q ∉ w) (h : w <:+ a) : ∀ c ∈ w, O c := by
  rcases ha with ha | ⟨o1, m, o2, rfl, -, h2⟩
  · exact fun c hc => ha c (h.subset hc)
  · have h' : w <:+ m ++ q :: o2 := suffix_append_cons hq h
    exact fun c hc => h2 c ((suffix_append_cons hq h').subset hc)

/-- a word with a character outside of `O`, and without a quote, lies in one of the texts -/
theorem infix_append_iff (ha : Framed q O a) (hb : Framed q O b) (hq : q ∉ w)
    (hO : ∃ c ∈ w, ¬ O c) : w <:+: a ++ b ↔ w <:+: a ∨ w <:+: b := by
  constructor
  · intro h
    rcases List.infix_append_iff.1 h with h | h | ⟨l1, l2, rfl, h1, h2⟩
    · exact .inl h
    · exact .inr h
    · obtain ⟨c, hc, hno⟩ := hO
      rw [List.mem_append, not_or] at hq
      rcases List.mem_append.1 hc with hc | hc
      · exact absurd (ha.of_suffix hq.1 h1 c hc) hno
      · exact absurd (hb.of_prefix hq.2 h2 c hc) hno
  · rintro (h | h)
    · exact List.infix_append_of_infix_left h
    · exact List.infix_append_of_infix_right h

end Framed

end Text
