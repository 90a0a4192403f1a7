import LifeAI.Lib.Json
import Mathlib.Data.List.TakeWhile

/-!
# Reading JSON

`json.loads`, one character at a time: what is read next, and what is open around it.

* `Doc`        a document; a string is the list of its code points, among them lone surrogates;
* `LoadError`  how the reading fails;
* `step`       one character;
* `loads`      a text;
* `Reads`      a text that stands for a document, wherever a value may stand;
* `loads_object`  an object is read back, member by member.
-/

namespace JsonReader

/-- a document; of two members with one key the later one stands first -/
inductive Doc where
  | null
  | bool (b : Bool)
  | int (n : Int)
  | float (text : List Char)
  | str (codePoints : List ℕ)
  | arr (docs : List Doc)
  | obj (members : List (List ℕ × Doc))

/-- the code points of a text -/
def codePoints (s : String) : List ℕ := s.toList.map Char.toNat

inductive LoadError where
  /-- `JSONDecodeError` -/
  | malformed
  /-- `ValueError`: an integer with more digits than may be converted -/
  | digits
  /-- `RecursionError` -/
  | depth
  deriving DecidableEq

/-- the digits of an integer that may be converted -/
def maxDigits : ℕ := 4300

/-! ## the state -/

/-- an array or an object that is open; an object with the key of the value that is read -/
inductive Frame where
  | arr (docs : List Doc)
  | obj (members : List (List ℕ × Doc)) (key : List ℕ)

/-- how far a number is read -/
inductive Phase where
  | minus | zero | digits | dot | fraction | exponent | sign | exponentDigits
  deriving DecidableEq

/-- how far an escape is read -/
inductive Escape where
  | plain
  | backslash
  | hex (count value : ℕ)
  deriving DecidableEq

/-- what is read next; what is read so far is there in reverse -/
inductive Mode where
  | value
  | first
  | firstKey
  | key
  | colon
  | after (d : Doc)
  | string (isKey : Bool) (read : List ℕ) (escape : Escape)
  | number (phase : Phase) (real : Bool) (read : List Char)
  | literal (rest : List Char) (d : Doc)

structure State where
  mode : Mode
  stack : List Frame

/-- blanks between the tokens -/
def blank (c : Char) : Bool := c = ' ' ∨ c = '\t' ∨ c = '\n' ∨ c = '\r'

/-! ## numbers -/

/-- the integer part of what is read of a number -/
def integerPart (read : List Char) : List Char :=
  (read.reverse.dropWhile (· = '-')).takeWhile Char.isDigit

/-- the integer that is read -/
def intValue (read : List Char) : Int :=
  let n := Nat.ofDigitChars 10 (integerPart read) 0
  if read.getLast? = some '-' then -n else n

/-- the number ends; a dot or an exponent without digits does not belong to it -/
def endNumber (phase : Phase) (real : Bool) (read : List Char) : Except LoadError Doc :=
  match phase with
  | .minus => .error .malformed
  | .zero | .digits =>
    if maxDigits < (integerPart read).length then .error .digits else .ok (.int (intValue read))
  | .fraction | .exponentDigits => .ok (.float read.reverse)
  | .dot | .exponent | .sign =>
    if real = false ∧ maxDigits < (integerPart read).length then .error .digits
    else .error .malformed

/-- the phase after one more character, if it belongs to the number, and whether it has a fraction -/
def nextPhase (phase : Phase) (real : Bool) (c : Char) : Option (Phase × Bool) :=
  match phase with
  | .minus =>
    if c = '0' then some (.zero, real) else if c.isDigit then some (.digits, real) else none
  | .zero =>
    if c = '.' then some (.dot, real) else if c = 'e' ∨ c = 'E' then some (.exponent, real) else none
  | .digits =>
    if c.isDigit then some (.digits, real)
    else if c = '.' then some (.dot, real)
    else if c = 'e' ∨ c = 'E' then some (.exponent, real) else none
  | .dot => if c.isDigit then some (.fraction, true) else none
  | .fraction =>
    if c.isDigit then some (.fraction, real)
    else if c = 'e' ∨ c = 'E' then some (.exponent, real) else none
  | .exponent =>
    if c = '+' ∨ c = '-' then some (.sign, real)
    else if c.isDigit then some (.exponentDigits, real) else none
  | .sign | .exponentDigits => if c.isDigit then some (.exponentDigits, real) else none

/-! ## strings -/

/-- a digit of `\uXXXX` -/
def hexValue (c : Char) : Option ℕ :=
  if c.isDigit then some (c.toNat - 48)
  else if 'a' ≤ c ∧ c ≤ 'f' then some (c.toNat - 87)
  else if 'A' ≤ c ∧ c ≤ 'F' then some (c.toNat - 55)
  else none

/-- what an escaped character stands for -/
def unescape (c : Char) : Option ℕ :=
  [('"', 34), ('\\', 92), ('/', 47), ('b', 8), ('f', 12), ('n', 10), ('r', 13), ('t', 9)].lookup c

/-- one more code point; a low surrogate joins the high one before it -/
def pushUnit (v : ℕ) (read : List ℕ) : List ℕ :=
  match read with
  | h :: rest =>
    if 0xDC00 ≤ v ∧ v ≤ 0xDFFF ∧ 0xD800 ≤ h ∧ h ≤ 0xDBFF then
      (0x10000 + (h - 0xD800) * 0x400 + (v - 0xDC00)) :: rest
    else v :: h :: rest
  | [] => [v]

/-! ## one character -/

def literal (rest : String) (d : Doc) (stack : List Frame) : Except LoadError State :=
  .ok ⟨.literal rest.toList d, stack⟩

/-- an array or an object opens; `levels` is how many may be open around it -/
def openFrame (levels : ℕ) (mode : Mode) (frame : Frame) (stack : List Frame) :
    Except LoadError State :=
  if stack.length ≤ levels then .ok ⟨mode, frame :: stack⟩ else .error .depth

/-- the first character of a value -/
def startValue (levels : ℕ) (stack : List Frame) (c : Char) : Except LoadError State :=
  if c = '"' then .ok ⟨.string false [] .plain, stack⟩
  else if c = '{' then openFrame levels .firstKey (.obj [] []) stack
  else if c = '[' then openFrame levels .first (.arr []) stack
  else if c = '-' then .ok ⟨.number .minus false [c], stack⟩
  else if c = '0' then .ok ⟨.number .zero false [c], stack⟩
  else if c.isDigit then .ok ⟨.number .digits false [c], stack⟩
  else if c = 'n' then literal "ull" .null stack
  else if c = 't' then literal "rue" (.bool true) stack
  else if c = 'f' then literal "alse" (.bool false) stack
  else if c = 'N' then literal "aN" (.float "NaN".toList) stack
  else if c = 'I' then literal "nfinity" (.float "Infinity".toList) stack
  else .error .malformed

/-- a character after the value `d` -/
def afterValue (d : Doc) (stack : List Frame) (c : Char) : Except LoadError State :=
  if blank c then .ok ⟨.after d, stack⟩
  else
    match stack with
    | [] => .error .malformed
    | .arr docs :: rest =>
      if c = ',' then .ok ⟨.value, .arr (d :: docs) :: rest⟩
      else if c = ']' then .ok ⟨.after (.arr (d :: docs).reverse), rest⟩
      else .error .malformed
    | .obj members key :: rest =>
      if c = ',' then .ok ⟨.key, .obj ((key, d) :: members) [] :: rest⟩
      else if c = '}' then .ok ⟨.after (.obj ((key, d) :: members)), rest⟩
      else .error .malformed

/-- the string ends -/
def endString (isKey : Bool) (read : List ℕ) (stack : List Frame) : Except LoadError State :=
  if isKey then
    match stack with
    | .obj members _ :: rest => .ok ⟨.colon, .obj members read.reverse :: rest⟩
    | _ => .error .malformed
  else .ok ⟨.after (.str read.reverse), stack⟩

/-- a character of a string -/
def stepString (isKey : Bool) (read : List ℕ) (escape : Escape) (stack : List Frame) (c : Char) :
    Except LoadError State :=
  match escape with
  | .plain =>
    if c = '"' then endString isKey read stack
    else if c = '\\' then .ok ⟨.string isKey read .backslash, stack⟩
    else if c.toNat < 32 then .error .malformed
    else .ok ⟨.string isKey (c.toNat :: read) .plain, stack⟩
  | .backslash =>
    if c = 'u' then .ok ⟨.string isKey read (.hex 0 0), stack⟩
    else
      match unescape c with
      | some v => .ok ⟨.string isKey (v :: read) .plain, stack⟩
      | none => .error .malformed
  | .hex count value =>
    match hexValue c with
    | none => .error .malformed
    | some v =>
      if count = 3 then .ok ⟨.string isKey (pushUnit (16 * value + v) read) .plain, stack⟩
      else .ok ⟨.string isKey read (.hex (count + 1) (16 * value + v)), stack⟩

/-- a character that does not follow the minus of a number belongs to what comes after it -/
def stepNumber (phase : Phase) (real : Bool) (read : List Char) (stack : List Frame) (c : Char) :
    Except LoadError State :=
  match nextPhase phase real c with
  | some (phase, real) => .ok ⟨.number phase real (c :: read), stack⟩
  | none =>
    if phase = .minus ∧ c = 'I' then literal "nfinity" (.float "-Infinity".toList) stack
    else
      match endNumber phase real read with
      | .error e => .error e
      | .ok d => afterValue d stack c

def step (levels : ℕ) (s : State) (c : Char) : Except LoadError State :=
  match s.mode with
  | .value => if blank c then .ok s else startValue levels s.stack c
  | .first =>
    if blank c then .ok s
    else if c = ']' then .ok ⟨.after (.arr []), s.stack.tail⟩
    else startValue levels s.stack c
  | .firstKey =>
    if blank c then .ok s
    else if c = '}' then .ok ⟨.after (.obj []), s.stack.tail⟩
    else if c = '"' then .ok ⟨.string true [] .plain, s.stack⟩
    else .error .malformed
  | .key =>
    if blank c then .ok s
    else if c = '"' then .ok ⟨.string true [] .plain, s.stack⟩
    else .error .malformed
  | .colon =>
    if blank c then .ok s else if c = ':' then .ok ⟨.value, s.stack⟩ else .error .malformed
  | .after d => afterValue d s.stack c
  | .string isKey read escape => stepString isKey read escape s.stack c
  | .number phase real read => stepNumber phase real read s.stack c
  | .literal rest d =>
    if rest.head? = some c then
      .ok ⟨if rest.tail = [] then .after d else .literal rest.tail d, s.stack⟩
    else .error .malformed

/-- the characters of a text, from a state on -/
def feed (levels : ℕ) (s : State) (text : List Char) : Except LoadError State :=
  text.foldlM (step levels) s

/-- the text ends -/
def finish (s : State) : Except LoadError Doc :=
  match s.mode with
  | .after d => if s.stack.isEmpty then .ok d else .error .malformed
  | .number phase real read =>
    match endNumber phase real read with
    | .error e => .error e
    | .ok d => if s.stack.isEmpty then .ok d else .error .malformed
  | _ => .error .malformed

/-- `json.loads`; `levels` is how many arrays and objects may be open around another one -/
def loads (levels : ℕ) (text : List Char) : Except LoadError Doc :=
  match feed levels ⟨.value, []⟩ text with
  | .error e => .error e
  | .ok s => finish s

variable {levels : ℕ} {s s' : State} {stack : List Frame} {isKey : Bool} {read : List ℕ}

/-! ## runs of the reader -/

theorem feed_cons {c : Char} {text : List Char} (h : step levels s c = .ok s') :
    feed levels s (c :: text) = feed levels s' text := by
  unfold feed
  rw [List.foldlM_cons, h]
  rfl

theorem feed_append {a b : List Char} (h : feed levels s a = .ok s') :
    feed levels s (a ++ b) = feed levels s' b := by
  unfold feed at h ⊢
  rw [List.foldlM_append, h]
  rfl

theorem feed_singleton {c : Char} : feed levels s [c] = step levels s c := by
  unfold feed
  rw [List.foldlM_cons]
  exact bind_pure _

/-! ## strings -/

theorem hexValue_hexDigit (n : ℕ) : hexValue (Json.hexDigit n) = some (n % 16) := by
  have hall : ∀ k < 16, hexValue ("0123456789abcdef".toList.getD k '0') = some k := by decide
  exact hall (n % 16) (Nat.mod_lt n (by decide))

theorem feed_hexDigit {count value n : ℕ} (hcount : count ≠ 3) (text : List Char) :
    feed levels ⟨.string isKey read (.hex count value), stack⟩ (Json.hexDigit n :: text) =
      feed levels ⟨.string isKey read (.hex (count + 1) (16 * value + n % 16)), stack⟩ text := by
  refine feed_cons ?_
  show stepString isKey read (.hex count value) stack (Json.hexDigit n) = _
  unfold stepString
  dsimp only
  rw [hexValue_hexDigit]
  dsimp only
  rw [if_neg hcount]

theorem feed_lastDigit {value n : ℕ} : feed levels ⟨.string isKey read (.hex 3 value), stack⟩
    [Json.hexDigit n] = .ok ⟨.string isKey (pushUnit (16 * value + n % 16) read) .plain, stack⟩ := by
  refine feed_cons ?_
  show stepString isKey read (.hex 3 value) stack (Json.hexDigit n) = _
  unfold stepString
  dsimp only
  rw [hexValue_hexDigit]
  rfl

/-- four digits are one unit -/
theorem feed_unicodeEscape {n : ℕ} (h : n < 0x10000) :
    feed levels ⟨.string isKey read .plain, stack⟩ (Json.unicodeEscape n) =
      .ok ⟨.string isKey (pushUnit n read) .plain, stack⟩ := by
  have hvalue : 16 * (16 * (16 * (16 * 0 + n / 4096 % 16) + n / 256 % 16) + n / 16 % 16) + n % 16 = n := by
    omega
  unfold Json.unicodeEscape
  rw [feed_cons (show step levels _ '\\' = .ok ⟨.string isKey read .backslash, stack⟩ from rfl),
    feed_cons (show step levels _ 'u' = .ok ⟨.string isKey read (.hex 0 0), stack⟩ from rfl), feed_hexDigit (by decide),
    feed_hexDigit (by decide), feed_hexDigit (by decide), feed_lastDigit, hvalue]

theorem pushUnit_of_not_low {v : ℕ} (h : ¬ (0xDC00 ≤ v ∧ v ≤ 0xDFFF)) : pushUnit v read = v :: read := by
  unfold pushUnit
  split
  · rw [if_neg fun hlow => h ⟨hlow.1, hlow.2.1⟩]
  · rfl

/-- what stands for a character is read as that character -/
theorem feed_escape (c : Char) : feed levels ⟨.string isKey read .plain, stack⟩ (Json.escape c) =
    .ok ⟨.string isKey (c.toNat :: read) .plain, stack⟩ := by
  have hvalid : c.toNat < 0xD800 ∨ (0xDFFF < c.toNat ∧ c.toNat < 0x110000) := c.valid
  unfold Json.escape
  by_cases hquote : c = '"'
  · rw [if_pos hquote, hquote]
    rfl
  rw [if_neg hquote]
  by_cases hbackslash : c = '\\'
  · rw [if_pos hbackslash, hbackslash]
    rfl
  rw [if_neg hbackslash]
  split_ifs with hn hr ht hf hb hplain hbmp
  · rw [hn]
    rfl
  · rw [hr]
    rfl
  · rw [ht]
    rfl
  · rw [hf]
    rfl
  · rw [hb]
    rfl
  · refine feed_cons ?_
    show stepString isKey read .plain stack c = _
    unfold stepString
    dsimp only
    rw [if_neg hquote, if_neg hbackslash, if_neg (Nat.not_lt.2 hplain.1)]
  · rw [feed_unicodeEscape hbmp, pushUnit_of_not_low (by omega)]
  · -- a pair of surrogates
    have hhigh : 0xD800 + (c.toNat - 0x10000) / 0x400 < 0x10000 := by omega
    have hlow : 0xDC00 + (c.toNat - 0x10000) % 0x400 < 0x10000 := by omega
    rw [feed_append (feed_unicodeEscape hhigh), pushUnit_of_not_low (by omega), feed_unicodeEscape hlow]
    unfold pushUnit
    dsimp only
    rw [if_pos (by omega)]
    have hjoined : 0x10000 + (0xD800 + (c.toNat - 0x10000) / 0x400 - 0xD800) * 0x400 +
        (0xDC00 + (c.toNat - 0x10000) % 0x400 - 0xDC00) = c.toNat := by omega
    rw [hjoined]

theorem feed_escapes (cs : List Char) (read : List ℕ) :
    feed levels ⟨.string isKey read .plain, stack⟩ (cs.flatMap Json.escape) =
      .ok ⟨.string isKey ((cs.map Char.toNat).reverse ++ read) .plain, stack⟩ := by
  induction cs generalizing read with
  | nil => rfl
  | cons c cs ih =>
    rw [List.flatMap_cons, feed_append (feed_escape c), ih, List.map_cons, List.reverse_cons,
      List.append_assoc]
    rfl

/-- The text stands for the document wherever a value may stand: the character after it is read as
one after that document. -/
def Reads (levels : ℕ) (text : List Char) (d : Doc) : Prop :=
  ∀ (stack : List Frame) (c : Char), c = ',' ∨ c = '}' →
    feed levels ⟨.value, stack⟩ (text ++ [c]) = afterValue d stack c

theorem reads_quote (t : String) : Reads levels (Json.quote t) (.str (codePoints t)) := by
  intro stack c hc
  have hstart : step levels ⟨.value, stack⟩ '"' = .ok ⟨.string false [] .plain, stack⟩ := rfl
  have hbody : feed levels ⟨.string false [] .plain, stack⟩ (t.toList.flatMap Json.escape) =
      .ok ⟨.string false ((t.toList.map Char.toNat).reverse ++ []) .plain, stack⟩ :=
    feed_escapes t.toList []
  show feed levels _ ('"' :: ((t.toList.flatMap Json.escape ++ ['"']) ++ [c])) = _
  rw [feed_cons hstart, List.append_assoc, feed_append hbody, List.append_nil]
  have hend : step levels ⟨.string false (t.toList.map Char.toNat).reverse .plain, stack⟩ '"' =
      .ok ⟨.after (.str (codePoints t)), stack⟩ := by
    show Except.ok (State.mk (.after (.str (t.toList.map Char.toNat).reverse.reverse)) stack) = _
    rw [List.reverse_reverse]
    rfl
  show feed levels _ ['"', c] = _
  rw [feed_cons hend, feed_singleton]
  rfl

/-! ## integers -/

/-- a number does not start with a zero -/
theorem toDigits_head {n : ℕ} (h : 0 < n) : (Nat.toDigits 10 n).head? ≠ some '0' := by
  induction n using Nat.strongRecOn with
  | _ n ih =>
    rw [Nat.toDigits_eq_if (by decide)]
    split
    · next hlt =>
      have hall : ∀ k < 10, 0 < k → ([k.digitChar] : List Char).head? ≠ some '0' := by decide
      exact hall n hlt h
    · next hge =>
      have hdiv : 0 < n / 10 := by omega
      have hne : Nat.toDigits 10 (n / 10) ≠ [] := Nat.toDigits_ne_nil
      rw [List.head?_append_of_ne_nil _ hne]
      exact ih (n / 10) (by omega) hdiv

theorem feed_digits {real : Bool} (ds : List Char) (hds : ∀ c ∈ ds, c.isDigit = true)
    (read : List Char) : feed levels ⟨.number .digits real read, stack⟩ ds =
      .ok ⟨.number .digits real (ds.reverse ++ read), stack⟩ := by
  induction ds generalizing read with
  | nil => rfl
  | cons c ds ih =>
    have hc : c.isDigit = true := hds c List.mem_cons_self
    have hstep : step levels ⟨.number .digits real read, stack⟩ c =
        .ok ⟨.number .digits real (c :: read), stack⟩ := by
      show stepNumber .digits real read stack c = _
      unfold stepNumber nextPhase
      dsimp only
      rw [if_pos hc]
    rw [feed_cons hstep, ih fun x hx => hds x (List.mem_cons_of_mem _ hx), List.reverse_cons,
      List.append_assoc]
    rfl

/-- a digit that is not zero starts a number -/
theorem startValue_digit {c : Char} (hc : c.isDigit = true) (hzero : c ≠ '0') :
    step levels ⟨.value, stack⟩ c = .ok ⟨.number .digits false [c], stack⟩ := by
  have hne : ∀ x : Char, x.isDigit = false → c ≠ x := by
    intro x hx heq
    rw [heq, hx] at hc
    exact nomatch hc
  show (if blank c then _ else startValue levels stack c) = _
  unfold blank startValue
  rw [if_neg (by simp [hne]), if_neg (hne _ rfl), if_neg (hne _ rfl), if_neg (hne _ rfl),
    if_neg (hne _ rfl), if_neg hzero, if_pos hc]

/-- the digits of a natural number are converted to it -/
theorem endNumber_toDigits {n : ℕ} {phase : Phase} (hphase : phase = .zero ∨ phase = .digits)
    (hlen : (Nat.toDigits 10 n).length ≤ maxDigits) :
    endNumber phase false (Nat.toDigits 10 n).reverse = .ok (.int n) := by
  have hdigit : ∀ x ∈ Nat.toDigits 10 n, x.isDigit = true :=
    fun x hx => Nat.isDigit_of_mem_toDigits (by decide) (by decide) hx
  obtain ⟨d, ds, hds⟩ := List.exists_cons_of_ne_nil (Nat.toDigits_ne_nil (n := n) (b := 10))
  have hminus : d ≠ '-' := by
    intro heq
    have hd := hdigit d (by rw [hds]; exact List.mem_cons_self)
    rw [heq] at hd
    exact nomatch hd
  have hpart : integerPart (Nat.toDigits 10 n).reverse = Nat.toDigits 10 n := by
    unfold integerPart
    rw [List.reverse_reverse, List.takeWhile_eq_self_iff.2]
    · rw [hds, List.dropWhile_cons_of_neg (by simpa using hminus)]
    · intro x hx
      exact hdigit x ((List.dropWhile_sublist _).mem hx)
  have hvalue : intValue (Nat.toDigits 10 n).reverse = n := by
    unfold intValue
    dsimp only
    rw [hpart, Nat.ofDigitChars_ten_toDigits, hds, List.getLast?_reverse, List.head?_cons,
      if_neg (by simpa using hminus)]
  rcases hphase with rfl | rfl
  · show (if maxDigits < (integerPart (Nat.toDigits 10 n).reverse).length then _ else _) = _
    rw [hpart, hvalue, if_neg (Nat.not_lt.2 hlen)]
  · show (if maxDigits < (integerPart (Nat.toDigits 10 n).reverse).length then _ else _) = _
    rw [hpart, hvalue, if_neg (Nat.not_lt.2 hlen)]

/-- the text of a natural number, as long as it may be converted -/
theorem reads_nat {n : ℕ} (hlen : (Nat.toDigits 10 n).length ≤ maxDigits) :
    Reads levels (Nat.toDigits 10 n) (.int n) := by
  intro stack c hc
  have hends : ∀ phase, phase = .zero ∨ phase = .digits →
      step levels ⟨.number phase false (Nat.toDigits 10 n).reverse, stack⟩ c =
        afterValue (.int n) stack c := by
    intro phase hphase
    have hnext : nextPhase phase false c = none := by
      rcases hphase with rfl | rfl <;> rcases hc with rfl | rfl <;> rfl
    have hsign : ¬ (phase = .minus ∧ c = 'I') := by
      rcases hphase with rfl | rfl
      · exact fun h => nomatch h.1
      · exact fun h => nomatch h.1
    show stepNumber phase false (Nat.toDigits 10 n).reverse stack c = _
    unfold stepNumber
    rw [hnext]
    dsimp only
    rw [if_neg hsign, endNumber_toDigits hphase hlen]
  rcases Nat.eq_zero_or_pos n with rfl | hpos
  · have hstart : step levels ⟨.value, stack⟩ '0' = .ok ⟨.number .zero false ['0'], stack⟩ := rfl
    rw [Nat.toDigits_zero] at hends ⊢
    rw [List.singleton_append, feed_cons hstart, feed_singleton]
    exact hends .zero (.inl rfl)
  · obtain ⟨d, ds, hds⟩ := List.exists_cons_of_ne_nil (Nat.toDigits_ne_nil (n := n) (b := 10))
    have hdigit : ∀ x ∈ d :: ds, x.isDigit = true := by
      intro x hx
      rw [← hds] at hx
      exact Nat.isDigit_of_mem_toDigits (by decide) (by decide) hx
    have hzero : d ≠ '0' := by
      intro heq
      refine toDigits_head hpos ?_
      rw [hds, heq]
      rfl
    rw [hds] at hends ⊢
    rw [List.cons_append, feed_cons (startValue_digit (hdigit d List.mem_cons_self) hzero),
      feed_append (feed_digits ds (fun x hx => hdigit x (List.mem_cons_of_mem _ hx)) [d]),
      ← List.reverse_cons, feed_singleton]
    exact hends .digits (.inr rfl)

/-! ## objects -/

/-- a member, as `json.dumps` writes it -/
def member (key : String) (text : List Char) : List Char := Json.quote key ++ ':' :: ' ' :: text

def membersText : List (String × List Char) → List Char
  | [] => []
  | [m] => member m.1 m.2
  | m :: m' :: ms => member m.1 m.2 ++ ',' :: ' ' :: membersText (m' :: ms)

/-- an object, as `json.dumps` writes it -/
def objectText (ms : List (String × List Char)) : List Char := '{' :: (membersText ms ++ ['}'])

theorem feed_member {mode : Mode} {key : String} {text : List Char} {d : Doc} {old : List ℕ}
    {members : List (List ℕ × Doc)} {c : Char} (hmode : mode = .key ∨ mode = .firstKey)
    (h : Reads levels text d) (hc : c = ',' ∨ c = '}') :
    feed levels ⟨mode, .obj members old :: stack⟩ (member key text ++ [c]) =
      afterValue d (.obj members (codePoints key) :: stack) c := by
  have hstart : step levels ⟨mode, .obj members old :: stack⟩ '"' =
      .ok ⟨.string true [] .plain, .obj members old :: stack⟩ := by
    rcases hmode with rfl | rfl
    · rfl
    · rfl
  have hbody : feed levels ⟨.string true [] .plain, .obj members old :: stack⟩
      (key.toList.flatMap Json.escape) =
      .ok ⟨.string true ((key.toList.map Char.toNat).reverse ++ []) .plain,
        .obj members old :: stack⟩ :=
    feed_escapes key.toList []
  have hend : step levels ⟨.string true (key.toList.map Char.toNat).reverse .plain,
      .obj members old :: stack⟩ '"' = .ok ⟨.colon, .obj members (codePoints key) :: stack⟩ := by
    show Except.ok (State.mk .colon
      (.obj members (key.toList.map Char.toNat).reverse.reverse :: stack)) = _
    rw [List.reverse_reverse]
    rfl
  have hcolon : step levels ⟨.colon, .obj members (codePoints key) :: stack⟩ ':' =
      .ok ⟨.value, .obj members (codePoints key) :: stack⟩ := rfl
  have hspace : step levels ⟨.value, .obj members (codePoints key) :: stack⟩ ' ' =
      .ok ⟨.value, .obj members (codePoints key) :: stack⟩ := rfl
  have htext : member key text ++ [c] =
      '"' :: (key.toList.flatMap Json.escape ++ '"' :: ':' :: ' ' :: (text ++ [c])) := by
    unfold member Json.quote
    simp
  rw [htext, feed_cons hstart, feed_append hbody, List.append_nil, feed_cons hend, feed_cons hcolon,
    feed_cons hspace]
  exact h _ c hc

/-- the members are read one after the other -/
theorem feed_members {mode : Mode} (hmode : mode = .key ∨ mode = .firstKey)
    (m : String × List Char × Doc) (ms : List (String × List Char × Doc))
    (h : ∀ x ∈ m :: ms, Reads levels x.2.1 x.2.2) (members : List (List ℕ × Doc)) :
    feed levels ⟨mode, .obj members [] :: stack⟩
      (membersText ((m :: ms).map fun x => (x.1, x.2.1)) ++ ['}']) =
      .ok ⟨.after (.obj (((m :: ms).map fun x => (codePoints x.1, x.2.2)).reverse ++ members)), stack⟩ := by
  induction ms generalizing mode m members with
  | nil =>
    show feed levels _ (member m.1 m.2.1 ++ ['}']) = _
    rw [feed_member hmode (h m List.mem_cons_self) (.inr rfl)]
    rfl
  | cons m' ms ih =>
    have hcomma : feed levels ⟨mode, .obj members [] :: stack⟩ (member m.1 m.2.1 ++ [',']) =
        afterValue m.2.2 (.obj members (codePoints m.1) :: stack) ',' :=
      feed_member hmode (h m List.mem_cons_self) (.inl rfl)
    have hafter : afterValue m.2.2 (.obj members (codePoints m.1) :: stack) ',' =
        .ok ⟨.key, .obj ((codePoints m.1, m.2.2) :: members) [] :: stack⟩ := rfl
    have hspace : step levels ⟨.key, .obj ((codePoints m.1, m.2.2) :: members) [] :: stack⟩ ' ' =
        .ok ⟨.key, .obj ((codePoints m.1, m.2.2) :: members) [] :: stack⟩ := rfl
    have htext : membersText ((m :: m' :: ms).map fun x => (x.1, x.2.1)) ++ ['}'] =
        (member m.1 m.2.1 ++ [',']) ++
          ' ' :: (membersText ((m' :: ms).map fun x => (x.1, x.2.1)) ++ ['}']) := by
      show (member m.1 m.2.1 ++ ',' :: ' ' :: membersText _) ++ ['}'] = _
      simp
    have hrest : ∀ x ∈ m' :: ms, Reads levels x.2.1 x.2.2 := fun x hx => h x (List.mem_cons_of_mem _ hx)
    rw [htext, feed_append (hcomma.trans hafter), feed_cons hspace, ih (.inl rfl) m' hrest]
    simp

/-- an object is read back, the last member first -/
theorem loads_object (m : String × List Char × Doc) (ms : List (String × List Char × Doc))
    (h : ∀ x ∈ m :: ms, Reads levels x.2.1 x.2.2) :
    loads levels (objectText ((m :: ms).map fun x => (x.1, x.2.1))) =
      .ok (.obj ((m :: ms).map fun x => (codePoints x.1, x.2.2)).reverse) := by
  have hopen : step levels ⟨.value, []⟩ '{' = .ok ⟨.firstKey, [.obj [] []]⟩ := by
    show openFrame levels .firstKey (.obj [] []) [] = _
    unfold openFrame
    exact if_pos (Nat.zero_le levels)
  unfold loads objectText
  rw [feed_cons hopen, feed_members (.inr rfl) m ms h, List.append_nil]
  rfl

end JsonReader
