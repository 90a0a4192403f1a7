import LifeAI.Lib.Text
import Mathlib.Data.Char
import Mathlib.Data.List.GetD
import Mathlib.Data.List.Lex
import Mathlib.Data.List.Sort

/-!
# JSON values

* `Json`        null, booleans, integers, other numbers (as text), strings, arrays, objects;
* `mapStrings`  every string value rewritten, the keys kept;
* `anyString`, `anyKey`  a test of the string values, of the object keys;
* `dumps`       the text of `json.dumps(sort_keys=True, separators=(",", ":"))`, ASCII only;
* `dumps_infix_iff`  a word that no token and no escape can contain occurs in the text exactly
                when it occurs in a string value or in a key.
-/

/-- the text of a number that is not an integer -/
structure RealText where
  text : List Char
  ok : text.all fun c => c.isDigit ∨ c ∈ "+-.eNaInfity".toList
  deriving DecidableEq

inductive Json where
  | null
  | bool (b : Bool)
  | int (n : Int)
  | real (r : RealText)
  | str (s : String)
  | arr (js : List Json)
  | obj (fields : List (String × Json))

namespace Json

/-- structural induction with the elements of arrays and objects at hand -/
theorem induct {P : Json → Prop} (null : P .null) (bool : ∀ b, P (.bool b)) (int : ∀ n, P (.int n))
    (real : ∀ r, P (.real r)) (str : ∀ s, P (.str s))
    (arr : ∀ js, (∀ j ∈ js, P j) → P (.arr js))
    (obj : ∀ fields, (∀ f ∈ fields, P f.2) → P (.obj fields)) (j : Json) : P j := by
  refine @Json.rec P (fun js => ∀ j ∈ js, P j) (fun fs => ∀ f ∈ fs, P f.2) (fun f => P f.2)
    null bool int real str arr obj ?_ ?_ ?_ ?_ ?_ j
  · simp
  · intro j js hj hjs
    exact List.forall_mem_cons.2 ⟨hj, hjs⟩
  · simp
  · intro f fs hf hfs
    exact List.forall_mem_cons.2 ⟨hf, hfs⟩
  · exact fun _ _ h => h

/-! ## traversals -/

mutual
/-- every string value rewritten by `f` -/
def mapStrings (f : String → String) : Json → Json
  | .str s => .str (f s)
  | .arr js => .arr (mapStringsList f js)
  | .obj fields => .obj (mapStringsFields f fields)
  | .null => .null
  | .bool b => .bool b
  | .int n => .int n
  | .real r => .real r

def mapStringsList (f : String → String) : List Json → List Json
  | [] => []
  | j :: js => mapStrings f j :: mapStringsList f js

def mapStringsFields (f : String → String) : List (String × Json) → List (String × Json)
  | [] => []
  | (k, j) :: fields => (k, mapStrings f j) :: mapStringsFields f fields
end

mutual
/-- a string value satisfies `p` -/
def anyString (p : String → Bool) : Json → Bool
  | .str s => p s
  | .arr js => anyStringList p js
  | .obj fields => anyStringFields p fields
  | .null | .bool _ | .int _ | .real _ => false

def anyStringList (p : String → Bool) : List Json → Bool
  | [] => false
  | j :: js => anyString p j || anyStringList p js

def anyStringFields (p : String → Bool) : List (String × Json) → Bool
  | [] => false
  | (_, j) :: fields => anyString p j || anyStringFields p fields
end

mutual
/-- a key of an object satisfies `p` -/
def anyKey (p : String → Bool) : Json → Bool
  | .arr js => anyKeyList p js
  | .obj fields => anyKeyFields p fields
  | .null | .bool _ | .int _ | .real _ | .str _ => false

def anyKeyList (p : String → Bool) : List Json → Bool
  | [] => false
  | j :: js => anyKey p j || anyKeyList p js

def anyKeyFields (p : String → Bool) : List (String × Json) → Bool
  | [] => false
  | (k, j) :: fields => p k || anyKey p j || anyKeyFields p fields
end

section
variable {f : String → String} {p : String → Bool}

@[simp] theorem mapStrings_arr (js : List Json) :
    mapStrings f (.arr js) = .arr (js.map (mapStrings f)) := by
  have h : ∀ js, mapStringsList f js = js.map (mapStrings f) := by
    intro js
    induction js with
    | nil => rfl
    | cons j js ih =>
      show mapStrings f j :: mapStringsList f js = _
      rw [ih, List.map_cons]
  exact congrArg Json.arr (h js)

@[simp] theorem mapStrings_obj (fields : List (String × Json)) :
    mapStrings f (.obj fields) = .obj (fields.map fun x => (x.1, mapStrings f x.2)) := by
  have h : ∀ fields, mapStringsFields f fields =
      fields.map fun x => (x.1, mapStrings f x.2) := by
    intro fields
    induction fields with
    | nil => rfl
    | cons x fields ih =>
      show (x.1, mapStrings f x.2) :: mapStringsFields f fields = _
      rw [ih, List.map_cons]
  exact congrArg Json.obj (h fields)

@[simp] theorem anyString_arr (js : List Json) :
    anyString p (.arr js) = js.any (anyString p) := by
  show anyStringList p js = _
  induction js with
  | nil => rfl
  | cons j js ih =>
    show (anyString p j || anyStringList p js) = _
    rw [ih, List.any_cons]

@[simp] theorem anyString_obj (fields : List (String × Json)) :
    anyString p (.obj fields) = fields.any fun x => anyString p x.2 := by
  show anyStringFields p fields = _
  induction fields with
  | nil => rfl
  | cons x fields ih =>
    show (anyString p x.2 || anyStringFields p fields) = _
    rw [ih, List.any_cons]

@[simp] theorem anyKey_arr (js : List Json) : anyKey p (.arr js) = js.any (anyKey p) := by
  show anyKeyList p js = _
  induction js with
  | nil => rfl
  | cons j js ih =>
    show (anyKey p j || anyKeyList p js) = _
    rw [ih, List.any_cons]

@[simp] theorem anyKey_obj (fields : List (String × Json)) :
    anyKey p (.obj fields) = fields.any fun x => p x.1 || anyKey p x.2 := by
  show anyKeyFields p fields = _
  induction fields with
  | nil => rfl
  | cons x fields ih =>
    show (p x.1 || anyKey p x.2 || anyKeyFields p fields) = _
    rw [ih, List.any_cons]

theorem any_congr {α : Type} {p q : α → Bool} {l : List α} (h : ∀ a ∈ l, p a = q a) :
    l.any p = l.any q := by
  induction l with
  | nil => rfl
  | cons a l ih =>
    rw [List.any_cons, List.any_cons, h a List.mem_cons_self,
      ih fun b hb => h b (List.mem_cons_of_mem _ hb)]

/-- the keys are the ones before -/
theorem anyKey_mapStrings (j : Json) : anyKey p (mapStrings f j) = anyKey p j := by
  induction j using induct with
  | arr js ih =>
    rw [mapStrings_arr, anyKey_arr, anyKey_arr, List.any_map]
    exact any_congr ih
  | obj fields ih =>
    rw [mapStrings_obj, anyKey_obj, anyKey_obj, List.any_map]
    refine any_congr fun x hx => ?_
    simp [ih x hx]
  | null | bool | int | real | str => rfl

theorem anyString_mapStrings (j : Json) :
    anyString p (mapStrings f j) = anyString (p ∘ f) j := by
  induction j using induct with
  | arr js ih =>
    rw [mapStrings_arr, anyString_arr, anyString_arr, List.any_map]
    exact any_congr ih
  | obj fields ih =>
    rw [mapStrings_obj, anyString_obj, anyString_obj, List.any_map]
    exact any_congr fun x hx => ih x hx
  | null | bool | int | real | str => rfl

/-- a rewriting that leaves every string value alone leaves the value alone -/
theorem mapStrings_eq_self_iff (j : Json) :
    mapStrings f j = j ↔ anyString (fun s => f s ≠ s) j = false := by
  have hmap : ∀ {α : Type} (g : α → α) (l : List α), l.map g = l ↔ ∀ a ∈ l, g a = a := by
    intro α g l
    constructor
    · intro h a ha
      obtain ⟨i, hi, rfl⟩ := List.getElem_of_mem ha
      have := congrArg (·[i]?) h
      simpa [hi] using this
    · intro h
      conv_rhs => rw [← List.map_id l]
      exact List.map_congr_left h
  induction j using induct with
  | arr js ih =>
    rw [mapStrings_arr, anyString_arr, Json.arr.injEq, hmap, List.any_eq_false]
    simp only [Bool.not_eq_true]
    exact forall₂_congr ih
  | obj fields ih =>
    rw [mapStrings_obj, anyString_obj, Json.obj.injEq, hmap, List.any_eq_false]
    simp only [Bool.not_eq_true]
    refine forall₂_congr fun x hx => .trans ?_ (ih x hx)
    rw [Prod.ext_iff]
    simp
  | str s =>
    show Json.str (f s) = .str s ↔ decide (f s ≠ s) = false
    simp
  | null | bool | int | real => exact iff_of_true rfl rfl

theorem anyString_any {ι : Type} (ms : List ι) (q : ι → String → Bool) (j : Json) :
    anyString (fun s => ms.any (q · s)) j ↔ ∃ m ∈ ms, anyString (q m) j := by
  induction j using induct with
  | arr js ih =>
    simp only [anyString_arr, List.any_eq_true]
    constructor
    · rintro ⟨j, hj, h⟩
      obtain ⟨m, hm, h⟩ := (ih j hj).1 h
      exact ⟨m, hm, j, hj, h⟩
    · rintro ⟨m, hm, j, hj, h⟩
      exact ⟨j, hj, (ih j hj).2 ⟨m, hm, h⟩⟩
  | obj fields ih =>
    simp only [anyString_obj, List.any_eq_true]
    constructor
    · rintro ⟨x, hx, h⟩
      obtain ⟨m, hm, h⟩ := (ih x hx).1 h
      exact ⟨m, hm, x, hx, h⟩
    · rintro ⟨m, hm, x, hx, h⟩
      exact ⟨x, hx, (ih x hx).2 ⟨m, hm, h⟩⟩
  | str s => exact List.any_eq_true
  | null | bool | int | real =>
    show false = true ↔ ∃ m ∈ ms, false = true
    simp

theorem anyKey_any {ι : Type} (ms : List ι) (q : ι → String → Bool) (j : Json) :
    anyKey (fun s => ms.any (q · s)) j ↔ ∃ m ∈ ms, anyKey (q m) j := by
  induction j using induct with
  | arr js ih =>
    simp only [anyKey_arr, List.any_eq_true]
    constructor
    · rintro ⟨j, hj, h⟩
      obtain ⟨m, hm, h⟩ := (ih j hj).1 h
      exact ⟨m, hm, j, hj, h⟩
    · rintro ⟨m, hm, j, hj, h⟩
      exact ⟨j, hj, (ih j hj).2 ⟨m, hm, h⟩⟩
  | obj fields ih =>
    simp only [anyKey_obj, List.any_eq_true, Bool.or_eq_true]
    constructor
    · rintro ⟨x, hx, ⟨m, hm, h⟩ | h⟩
      · exact ⟨m, hm, x, hx, .inl h⟩
      · obtain ⟨m, hm, h⟩ := (ih x hx).1 h
        exact ⟨m, hm, x, hx, .inr h⟩
    · rintro ⟨m, hm, x, hx, h | h⟩
      · exact ⟨x, hx, .inl ⟨m, hm, h⟩⟩
      · exact ⟨x, hx, .inr ((ih x hx).2 ⟨m, hm, h⟩)⟩
  | null | bool | int | real | str =>
    show false = true ↔ ∃ m ∈ ms, false = true
    simp

theorem anyString_mono {q : String → Bool} (h : ∀ s, p s → q s) (j : Json)
    (hj : anyString p j) : anyString q j := by
  induction j using induct with
  | arr js ih =>
    rw [anyString_arr, List.any_eq_true] at hj ⊢
    obtain ⟨j, hmem, hp⟩ := hj
    exact ⟨j, hmem, ih j hmem hp⟩
  | obj fields ih =>
    rw [anyString_obj, List.any_eq_true] at hj ⊢
    obtain ⟨x, hmem, hp⟩ := hj
    exact ⟨x, hmem, ih x hmem hp⟩
  | str s => exact h s hj
  | null | bool | int | real => exact hj

end

/-! ## the text -/

/-- a digit of `\uXXXX` -/
def hexDigit (n : Nat) : Char := "0123456789abcdef".toList.getD (n % 16) '0'

/-- `\uXXXX` -/
def unicodeEscape (n : Nat) : List Char :=
  ['\\', 'u', hexDigit (n / 4096), hexDigit (n / 256), hexDigit (n / 16), hexDigit n]

/-- one character between the quotes -/
def escape (c : Char) : List Char :=
  if c = '"' then ['\\', '"']
  else if c = '\\' then ['\\', '\\']
  else if c = '\n' then ['\\', 'n']
  else if c = '\r' then ['\\', 'r']
  else if c = '\t' then ['\\', 't']
  else if c.toNat = 12 then ['\\', 'f']
  else if c.toNat = 8 then ['\\', 'b']
  else if 32 ≤ c.toNat ∧ c.toNat ≤ 126 then [c]
  else if c.toNat < 0x10000 then unicodeEscape c.toNat
  else unicodeEscape (0xD800 + (c.toNat - 0x10000) / 0x400) ++
    unicodeEscape (0xDC00 + (c.toNat - 0x10000) % 0x400)

def quote (s : String) : List Char := '"' :: (s.toList.flatMap escape ++ ['"'])

/-- the texts, with commas between them -/
def commas : List (List Char) → List Char
  | [] => []
  | [t] => t
  | t :: t' :: ts => t ++ ',' :: commas (t' :: ts)

/-- the order of the keys: by code points -/
def keyLe (a b : String × List Char) : Prop := a.1.toList ≤ b.1.toList

instance : DecidableRel keyLe := fun a b => inferInstanceAs (Decidable (a.1.toList ≤ b.1.toList))

/-- the members of an object, in the order of their keys -/
def members (fields : List (String × List Char)) : List (List Char) :=
  (fields.insertionSort keyLe).map fun x => quote x.1 ++ ':' :: x.2

mutual
/-- `json.dumps(sort_keys=True, separators=(",", ":"))` -/
def dumps : Json → List Char
  | .null => "null".toList
  | .bool true => "true".toList
  | .bool false => "false".toList
  | .int n => (toString n).toList
  | .real r => r.text
  | .str s => quote s
  | .arr js => '[' :: (commas (dumpsList js) ++ [']'])
  | .obj fields => '{' :: (commas (members (dumpsFields fields)) ++ ['}'])

def dumpsList : List Json → List (List Char)
  | [] => []
  | j :: js => dumps j :: dumpsList js

def dumpsFields : List (String × Json) → List (String × List Char)
  | [] => []
  | (k, j) :: fields => (k, dumps j) :: dumpsFields fields
end

theorem dumps_arr (js : List Json) :
    dumps (.arr js) = '[' :: (commas (js.map dumps) ++ [']']) := by
  have h : ∀ js, dumpsList js = js.map dumps := by
    intro js
    induction js with
    | nil => rfl
    | cons j js ih =>
      show dumps j :: dumpsList js = _
      rw [ih, List.map_cons]
  show '[' :: (commas (dumpsList js) ++ [']']) = _
  rw [h]

theorem dumps_obj (fields : List (String × Json)) : dumps (.obj fields) =
    '{' :: (commas (members (fields.map fun x => (x.1, dumps x.2))) ++ ['}']) := by
  have h : ∀ fields, dumpsFields fields = fields.map fun x => (x.1, dumps x.2) := by
    intro fields
    induction fields with
    | nil => rfl
    | cons x fields ih =>
      show (x.1, dumps x.2) :: dumpsFields fields = _
      rw [ih, List.map_cons]
  show '{' :: (commas (members (dumpsFields fields)) ++ ['}']) = _
  rw [h]

theorem mem_members {fields : List (String × List Char)} {t : List Char} :
    t ∈ members fields ↔ ∃ x ∈ fields, t = quote x.1 ++ ':' :: x.2 := by
  unfold members
  simp only [List.mem_map, List.mem_insertionSort, eq_comm]

/-! ## occurrences in the text -/

/-- the characters outside of quotes -/
def tokenChar (c : Char) : Bool := c.isDigit ∨ c ∈ "{}[],:+-.eNaInfitylsru".toList

/-- the characters of an escape -/
def escapeChars : List Char := "\\\"nrtfbu0123456789acde".toList

/-- a word that no escape touches and no token contains -/
structure Word (w : List Char) : Prop where
  plain : ∀ c ∈ w, escape c = [c]
  apart : ∀ c ∈ w, c ∉ escapeChars
  strange : ∃ c ∈ w, ¬ tokenChar c

instance (w : List Char) : Decidable (Word w) :=
  decidable_of_iff ((w.all fun c => escape c = [c]) ∧ (w.all fun c => c ∉ escapeChars) ∧
    w.any fun c => ¬ tokenChar c) (by
      simp only [List.all_eq_true, List.any_eq_true, decide_eq_true_eq]
      exact ⟨fun ⟨h1, h2, h3⟩ => ⟨h1, h2, h3⟩, fun h => ⟨h.1, h.2, h.3⟩⟩)

/-- a check of each character of a text -/
theorem forall_mem_of_all {p : Char → Prop} [DecidablePred p] {l : List Char}
    (h : l.all (fun c => decide (p c)) = true) : ∀ c ∈ l, p c := by
  simpa using h

theorem hexDigit_mem (n : Nat) : hexDigit n ∈ escapeChars := by
  have hlt : n % 16 < "0123456789abcdef".toList.length := Nat.mod_lt _ (by decide)
  have hsub : ∀ c ∈ "0123456789abcdef".toList, c ∈ escapeChars :=
    forall_mem_of_all (by decide)
  unfold hexDigit
  rw [List.getD_eq_getElem _ _ hlt]
  exact hsub _ (List.getElem_mem hlt)

theorem mem_unicodeEscape {n : Nat} {d : Char} (h : d ∈ unicodeEscape n) : d ∈ escapeChars := by
  unfold unicodeEscape at h
  simp only [List.mem_cons, List.not_mem_nil, or_false] at h
  rcases h with rfl | rfl | rfl | rfl | rfl | rfl
  · decide
  · decide
  · exact hexDigit_mem _
  · exact hexDigit_mem _
  · exact hexDigit_mem _
  · exact hexDigit_mem _

/-- a character stands for itself, or its escape is made of the characters of escapes -/
theorem escape_cases (c : Char) :
    escape c = [c] ∨ escape c ≠ [] ∧ ∀ d ∈ escape c, d ∈ escapeChars := by
  unfold escape
  split
  · exact .inr ⟨by simp, forall_mem_of_all (by decide)⟩
  split
  · exact .inr ⟨by simp, forall_mem_of_all (by decide)⟩
  split
  · exact .inr ⟨by simp, forall_mem_of_all (by decide)⟩
  split
  · exact .inr ⟨by simp, forall_mem_of_all (by decide)⟩
  split
  · exact .inr ⟨by simp, forall_mem_of_all (by decide)⟩
  split
  · exact .inr ⟨by simp, forall_mem_of_all (by decide)⟩
  split
  · exact .inr ⟨by simp, forall_mem_of_all (by decide)⟩
  split
  · exact .inl rfl
  split
  · exact .inr ⟨by simp [unicodeEscape], fun d hd => mem_unicodeEscape hd⟩
  · refine .inr ⟨by simp [unicodeEscape], fun d hd => ?_⟩
    rcases List.mem_append.1 hd with hd | hd
    · exact mem_unicodeEscape hd
    · exact mem_unicodeEscape hd

theorem int_chars (n : Int) : ∀ c ∈ (toString n).toList, tokenChar c := by
  have hdigits : ∀ m : Nat, ∀ c ∈ (toString m).toList, tokenChar c := by
    intro m c hc
    have hdigit : c.isDigit := by
      change c ∈ (Nat.repr m).toList at hc
      unfold Nat.repr at hc
      rw [String.toList_ofList] at hc
      exact Nat.isDigit_of_mem_toDigits (by decide) (by decide) hc
    simp only [tokenChar, hdigit, true_or, decide_true]
  cases n with
  | ofNat m => exact hdigits m
  | negSucc m =>
    intro c hc
    change c ∈ ("-" ++ toString (m + 1)).toList at hc
    rw [String.toList_append] at hc
    rcases List.mem_append.1 hc with hc | hc
    · exact forall_mem_of_all (p := fun c => tokenChar c) (l := "-".toList) (by decide) c hc
    · exact hdigits _ c hc

namespace Word

variable {w : List Char}

theorem ne_nil (h : Word w) : w ≠ [] := by
  obtain ⟨c, hc, -⟩ := h.strange
  exact List.ne_nil_of_mem hc

theorem noquote (h : Word w) : '"' ∉ w := fun hq => absurd (h.plain _ hq) (by decide)

theorem quote_iff (h : Word w) (s : String) : w <:+: quote s ↔ w <:+: s.toList := by
  unfold quote
  have hnil : ¬ w <:+: [] := fun hw => h.ne_nil (List.infix_nil.1 hw)
  rw [← List.nil_append ('"' :: _), Text.infix_append_cons_iff h.noquote, or_iff_right hnil,
    Text.infix_append_cons_iff h.noquote, or_iff_left hnil]
  refine Text.infix_flatMap_iff h.ne_nil h.plain fun c => ?_
  exact (escape_cases c).imp id fun hc => ⟨hc.1, fun d hd hdw => h.apart d hdw (hc.2 d hd)⟩

/-- a text of tokens does not contain the word -/
theorem not_tokens (h : Word w) {t : List Char} (ht : ∀ c ∈ t, tokenChar c) : ¬ w <:+: t := by
  intro hw
  obtain ⟨c, hc, hno⟩ := h.strange
  exact hno (ht c (hw.subset hc))

end Word

/-- tokens, or quoted text between tokens -/
abbrev Piece (t : List Char) : Prop := Text.Framed '"' (fun c => tokenChar c) t

theorem Piece.token {c : Char} (hc : tokenChar c) {t : List Char} (ht : Piece t) :
    Piece (c :: t) := by
  rw [← List.singleton_append]
  exact .append (.inl fun d hd => List.mem_singleton.1 hd ▸ hc) ht

theorem Piece.commas {ts : List (List Char)} (h : ∀ t ∈ ts, Piece t) : Piece (commas ts) := by
  induction ts with
  | nil => exact .inl (by simp [Json.commas])
  | cons t ts ih =>
    obtain ⟨ht, hts⟩ := List.forall_mem_cons.1 h
    cases ts with
    | nil => exact ht
    | cons t' ts => exact ht.append (Piece.token (by decide) (ih hts))

section
variable {w : List Char}

theorem Word.append_iff (h : Word w) {a b : List Char} (ha : Piece a) (hb : Piece b) :
    w <:+: a ++ b ↔ w <:+: a ∨ w <:+: b :=
  ha.infix_append_iff hb h.noquote (by simpa using h.strange)

theorem Word.token_iff (h : Word w) {c : Char} (hc : tokenChar c) {t : List Char} (ht : Piece t) :
    w <:+: c :: t ↔ w <:+: t := by
  have hone : ∀ d ∈ [c], tokenChar d := fun d hd => List.mem_singleton.1 hd ▸ hc
  rw [← List.singleton_append, h.append_iff (.inl hone) ht, or_iff_right (h.not_tokens hone)]

theorem Word.commas_iff (h : Word w) {ts : List (List Char)} (hts : ∀ t ∈ ts, Piece t) :
    w <:+: commas ts ↔ ∃ t ∈ ts, w <:+: t := by
  induction ts with
  | nil => simp [commas, h.ne_nil]
  | cons t ts ih =>
    obtain ⟨ht, hts⟩ := List.forall_mem_cons.1 hts
    cases ts with
    | nil => simp [commas]
    | cons t' ts =>
      have hrest : Piece (commas (t' :: ts)) := .commas hts
      rw [commas, h.append_iff ht (Piece.token (by decide) hrest), h.token_iff (by decide) hrest,
        ih hts]
      simp

/-- brackets around texts with commas between them -/
theorem Word.bracket_iff (h : Word w) {o c : Char} (ho : tokenChar o) (hc : tokenChar c)
    {ts : List (List Char)} (hts : ∀ t ∈ ts, Piece t) :
    Piece (o :: (commas ts ++ [c])) ∧
      (w <:+: o :: (commas ts ++ [c]) ↔ ∃ t ∈ ts, w <:+: t) := by
  have hclose : ∀ d ∈ [c], tokenChar d := fun d hd => List.mem_singleton.1 hd ▸ hc
  have hbody : Piece (commas ts ++ [c]) := (Piece.commas hts).append (.inl hclose)
  refine ⟨Piece.token ho hbody, ?_⟩
  rw [h.token_iff ho hbody, h.append_iff (.commas hts) (.inl hclose), h.commas_iff hts,
    or_iff_left (h.not_tokens hclose)]

/-- the texts of the members of an object -/
theorem Word.member_iff (h : Word w) {k : String} {t : List Char} (ht : Piece t) :
    Piece (quote k ++ ':' :: t) ∧
      (w <:+: quote k ++ ':' :: t ↔ w <:+: k.toList ∨ w <:+: t) := by
  have hquote : Piece (quote k) := .quoted _ _ _
  have hcolon : Piece (':' :: t) := Piece.token (by decide) ht
  refine ⟨hquote.append hcolon, ?_⟩
  rw [h.append_iff hquote hcolon, h.token_iff (by decide) ht, h.quote_iff]

theorem dumps_piece_iff (h : Word w) (j : Json) : Piece (dumps j) ∧
    (w <:+: dumps j ↔ anyString (fun s => w <:+: s.toList) j ∨
      anyKey (fun s => w <:+: s.toList) j) := by
  have htokens : ∀ {t : List Char}, (∀ c ∈ t, tokenChar c) →
      Piece t ∧ (w <:+: t ↔ false = true ∨ false = true) := fun ht =>
    ⟨.inl ht, iff_of_false (h.not_tokens ht) (by simp)⟩
  induction j using induct with
  | null => exact @htokens "null".toList (forall_mem_of_all (by decide))
  | bool b =>
    cases b with
    | true => exact @htokens "true".toList (forall_mem_of_all (by decide))
    | false => exact @htokens "false".toList (forall_mem_of_all (by decide))
  | int n => exact htokens (int_chars n)
  | real r =>
    have hr : ∀ c ∈ r.text, tokenChar c := by
      intro c hc
      have := List.all_eq_true.1 r.ok c hc
      simp only [decide_eq_true_eq] at this
      rcases this with hd | hd
      · simp only [tokenChar, hd, true_or, decide_true]
      · exact forall_mem_of_all (p := fun c => tokenChar c) (l := "+-.eNaInfity".toList) (by decide) c hd
    exact htokens hr
  | str s =>
    refine ⟨.quoted _ _ _, ?_⟩
    show w <:+: quote s ↔ decide (w <:+: s.toList) = true ∨ false = true
    rw [h.quote_iff]
    simp
  | arr js ih =>
    rw [dumps_arr]
    have hpieces : ∀ t ∈ js.map dumps, Piece t := by
      intro t ht
      obtain ⟨j, hj, rfl⟩ := List.mem_map.1 ht
      exact (ih j hj).1
    obtain ⟨hpiece, hiff⟩ := h.bracket_iff (o := '[') (c := ']') (by decide) (by decide) hpieces
    refine ⟨hpiece, hiff.trans ?_⟩
    simp only [anyString_arr, anyKey_arr, List.any_eq_true]
    constructor
    · rintro ⟨t, ht, hw⟩
      obtain ⟨j, hj, rfl⟩ := List.mem_map.1 ht
      exact ((ih j hj).2.1 hw).imp (fun hs => ⟨j, hj, hs⟩) fun hk => ⟨j, hj, hk⟩
    · rintro (⟨j, hj, hs⟩ | ⟨j, hj, hk⟩)
      · exact ⟨_, List.mem_map_of_mem hj, (ih j hj).2.2 (.inl hs)⟩
      · exact ⟨_, List.mem_map_of_mem hj, (ih j hj).2.2 (.inr hk)⟩
  | obj fields ih =>
    rw [dumps_obj]
    have hmember : ∀ t, t ∈ members (fields.map fun x => (x.1, dumps x.2)) ↔
        ∃ x ∈ fields, t = quote x.1 ++ ':' :: dumps x.2 := by
      intro t
      simp [mem_members]
    have hpieces : ∀ t ∈ members (fields.map fun x => (x.1, dumps x.2)), Piece t := by
      intro t ht
      obtain ⟨x, hx, rfl⟩ := (hmember t).1 ht
      exact (h.member_iff (ih x hx).1).1
    obtain ⟨hpiece, hiff⟩ := h.bracket_iff (o := '{') (c := '}') (by decide) (by decide) hpieces
    refine ⟨hpiece, hiff.trans ?_⟩
    simp only [anyString_obj, anyKey_obj, List.any_eq_true, Bool.or_eq_true, decide_eq_true_eq]
    constructor
    · rintro ⟨t, ht, hw⟩
      obtain ⟨x, hx, rfl⟩ := (hmember t).1 ht
      rcases (h.member_iff (ih x hx).1).2.1 hw with hk | hv
      · exact .inr ⟨x, hx, .inl hk⟩
      · exact ((ih x hx).2.1 hv).imp (fun hs => ⟨x, hx, hs⟩) fun hk => ⟨x, hx, .inr hk⟩
    · have hin : ∀ x ∈ fields, w <:+: x.1.toList ∨ w <:+: dumps x.2 →
          ∃ t ∈ members (fields.map fun x => (x.1, dumps x.2)), w <:+: t := by
        intro x hx hw
        exact ⟨_, (hmember _).2 ⟨x, hx, rfl⟩, (h.member_iff (ih x hx).1).2.2 hw⟩
      rintro (⟨x, hx, hs⟩ | ⟨x, hx, hk | hk⟩)
      · exact hin x hx (.inr ((ih x hx).2.2 (.inl hs)))
      · exact hin x hx (.inl hk)
      · exact hin x hx (.inr ((ih x hx).2.2 (.inr hk)))

/-- **occurrences in the text**: exactly those in a string value or in a key -/
theorem dumps_infix_iff (h : Word w) (j : Json) : w <:+: dumps j ↔
    anyString (fun s => w <:+: s.toList) j ∨ anyKey (fun s => w <:+: s.toList) j :=
  (dumps_piece_iff h j).2

end

end Json
