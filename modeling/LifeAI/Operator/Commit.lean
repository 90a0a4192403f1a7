import LifeAI.Operator.Paths
import Mathlib.Data.List.Dedup

/-!
# The commits of the operator

`commit_changes` commits the index of a shared worktree, after `_path` has accepted every name that
`git diff --cached --name-only --diff-filter=ACMRD` lists.

* `Tree`                 a commit, or the index: an entry at each path;
* `Git`                  what Git finds and prints: its renames, `diff --check`, `diff`;
* `Git.nameOnly`         the names that it lists, `quotePath` how it writes them;
* `commitChanges`        `commit_changes`;
* `Git.Hidden`           the changed paths that are not listed as they are;
* `commit_in_scope_iff`  a commit stays in scope exactly when these do.
-/

namespace LifeAI

/-! ## Git -/

inductive FileType where
  | regular | link | gitlink
  deriving DecidableEq

structure TreeEntry where
  type : FileType := .regular
  executable : Bool := false
  object : ℕ
  deriving DecidableEq

abbrev Tree := List (String × TreeEntry)

inductive DiffStatus where
  | added | modified | deleted | typeChanged
  deriving DecidableEq

/-- how a path changes from `head` to `index`, renames apart -/
def diffStatus (head index : Tree) (path : String) : Option DiffStatus :=
  match head.lookup path, index.lookup path with
  | none, none => none
  | none, some _ => some .added
  | some _, none => some .deleted
  | some a, some b =>
    if a = b then none else if a.type ≠ b.type then some .typeChanged else some .modified

/-- the paths that change -/
def changedPaths (head index : Tree) : List String :=
  ((((head ++ index).map Prod.fst).dedup).filter fun p =>
    diffStatus head index p ≠ none).insertionSort fun p q => p.toList ≤ q.toList

/-- Git on a tree and the index -/
structure Git where
  /-- source and destination of the renames: a path that is gone and one that is new -/
  renames : Tree → Tree → List (String × String)
  deleted : ∀ head index r, r ∈ renames head index → diffStatus head index r.1 = some .deleted
  added : ∀ head index r, r ∈ renames head index → diffStatus head index r.2 = some .added
  /-- the stderr of `diff --check --cached`, when it fails -/
  check : Tree → Tree → Option String
  /-- `diff --cached --no-ext-diff` -/
  diff : Tree → Tree → String

/-- `diff --cached --name-only --diff-filter=ACMRD`: a rename stands under its destination -/
def Git.nameOnly (git : Git) (head index : Tree) : List String :=
  (changedPaths head index).filter fun p =>
    diffStatus head index p ≠ some .typeChanged ∧ p ∉ (git.renames head index).map Prod.fst

/-- a character that Git writes as it is -/
def plainChar (c : Char) : Bool := 32 ≤ c.toNat ∧ c.toNat < 127 ∧ c ≠ '"' ∧ c ≠ '\\'

/-- the character of a digit -/
def octalDigit (n : ℕ) : Char := Char.ofNat (48 + n % 8)

/-- a byte inside of the quotes -/
def quoteByte (b : ℕ) : List Char :=
  match b with
  | 7 => ['\\', 'a']
  | 8 => ['\\', 'b']
  | 9 => ['\\', 't']
  | 10 => ['\\', 'n']
  | 11 => ['\\', 'v']
  | 12 => ['\\', 'f']
  | 13 => ['\\', 'r']
  | 34 => ['\\', '"']
  | 92 => ['\\', '\\']
  | b =>
    if 32 ≤ b ∧ b < 127 then [Char.ofNat b]
    else ['\\', octalDigit (b / 64), octalDigit (b / 8), octalDigit b]

/-- a name as Git prints it (`core.quotePath`) -/
def quotePath (path : String) : String :=
  if path.toList.all plainChar then path
  else String.ofList ('"' :: ((path.toList.flatMap String.utf8EncodeChar).flatMap
    fun b => quoteByte b.toNat) ++ ['"'])

/-- where `str.splitlines` breaks -/
def lineBreak (c : Char) : Bool :=
  let n := c.toNat
  (10 ≤ n ∧ n ≤ 13) ∨ (28 ≤ n ∧ n ≤ 30) ∨ n = 0x85 ∨ n = 0x2028 ∨ n = 0x2029

/-- the lines of a text, after the characters of one that are already read -/
def splitlinesFrom (line : List Char) : List Char → List String
  | [] => if line = [] then [] else [String.ofList line]
  | '\r' :: '\n' :: text => String.ofList line :: splitlinesFrom [] text
  | c :: text =>
    if lineBreak c then String.ofList line :: splitlinesFrom [] text
    else splitlinesFrom (line ++ [c]) text

/-- `str.splitlines` -/
def splitlines (text : List Char) : List String := splitlinesFrom [] text

/-- the stdout of `--name-only` -/
def printNames (names : List String) : List Char :=
  names.flatMap fun p => (quotePath p).toList ++ ['\n']

/-! ## the operator -/

/-- what the shared repository and the worktree row are -/
structure Repository where
  files : Files
  head : Tree
  index : Tree
  currentCommit : Option String := none

/-- what the calls around the diff answer -/
structure CommitAnswers where
  /-- `_require_context`, with a per-job worktree or without -/
  context : Except Err Bool
  /-- `_replay` has found the action -/
  replay : Except Err Bool
  /-- the latest verification checkpoint has passed -/
  verification : Bool
  /-- `git commit` and `git rev-parse HEAD`: the commit, or the stderr -/
  commit : Except String String

/-- `SECRET_PATTERN.search(text) or STANDALONE_SECRET_PATTERN.search(text)` -/
def secretLike (text : List Char) : Bool :=
  text.tails.any fun s => (secretPattern s).isSome ∨ (standaloneSecretPattern s).isSome

inductive CommitResult where
  | replayed
  | committed (sha : String)
  deriving DecidableEq

variable (git : Git) (o : OperatorScope) (asked : CommitAnswers)

/-- `commit_changes`, up to the record of it -/
def commitChanges (message : String) (r : Repository) : Except Err (Repository × CommitResult) := do
  let worktree ← asked.context
  let replay ← asked.replay
  if replay then .ok (r, .replayed)
  else if blank message ∨ 200 < message.length ∨ '\n' ∈ message.toList then
    .error (.operatorCommand "commit message is invalid")
  else if ¬ asked.verification then
    .error (.operatorVerificationRequired "required verification checkpoint is absent or failed")
  else
    match git.check r.head r.index with
    | some stderr => .error (.operatorCommand (redact stderr))
    | none => do
      let stagedPaths := splitlines (printNames (git.nameOnly r.head r.index))
      if stagedPaths = [] then .error (.operatorAuthorization "no explicitly staged changes exist")
      else do
        stagedPaths.forM fun path => (operatorPath r.files o path true).map fun _ => ()
        if secretLike (git.diff r.head r.index).toList then
          .error (.operatorAuthorization "secret-like content detected in diff")
        else
          match asked.commit with
          | .error stderr => .error (.operatorCommand (redact stderr))
          | .ok sha =>
            .ok ({ r with
              head := r.index
              currentCommit := if worktree then some sha else r.currentCommit }, .committed sha)

/-- `_path` accepts the path for writing -/
def Accepted (fs : Files) (o : OperatorScope) (path : String) : Prop :=
  ∃ p, operatorPath fs o path true = .ok p

/-- a path that changes, and is not among the listed names as it is: the source of a rename, a path
whose type changes, a name that Git quotes -/
structure Git.Hidden (git : Git) (head index : Tree) (path : String) : Prop where
  changed : head.lookup path ≠ index.lookup path
  hidden : path ∈ (git.renames head index).map Prod.fst ∨
    diffStatus head index path = some .typeChanged ∨ quotePath path ≠ path

/-! ## the listed names -/

variable {git o asked} {head index : Tree} {path message : String} {r r' : Repository}

theorem diffStatus_ne_none : diffStatus head index path ≠ none ↔
    head.lookup path ≠ index.lookup path := by
  unfold diffStatus
  cases head.lookup path with
  | none =>
    cases index.lookup path with
    | none => exact iff_of_false (fun h => h rfl) fun h => h rfl
    | some b => exact iff_of_true nofun nofun
  | some a =>
    cases index.lookup path with
    | none => exact iff_of_true nofun nofun
    | some b =>
      simp only [ne_eq, Option.some.injEq]
      split_ifs with hab htype
      · exact iff_of_false (fun h => h rfl) fun h => h hab
      · exact iff_of_true nofun hab
      · exact iff_of_true nofun hab

theorem mem_of_lookup_ne_none {tree : Tree} (h : tree.lookup path ≠ none) :
    path ∈ tree.map Prod.fst := by
  obtain ⟨e, he⟩ := Option.ne_none_iff_exists'.1 h
  obtain ⟨before, after, heq, -⟩ := List.lookup_eq_some_iff.1 he
  rw [heq, List.map_append, List.map_cons]
  exact List.mem_append_right _ List.mem_cons_self

theorem mem_changedPaths : path ∈ changedPaths head index ↔
    head.lookup path ≠ index.lookup path := by
  unfold changedPaths
  rw [List.mem_insertionSort, List.mem_filter, List.mem_dedup, decide_eq_true_iff,
    diffStatus_ne_none, and_iff_right_iff_imp]
  intro h
  rw [List.map_append, List.mem_append]
  by_cases hhead : head.lookup path = none
  · right
    refine mem_of_lookup_ne_none fun hindex => h ?_
    rw [hhead, hindex]
  · exact .inl (mem_of_lookup_ne_none hhead)

/-- the listed names are the changed paths, without the sources and the changes of type -/
theorem mem_nameOnly : path ∈ git.nameOnly head index ↔ head.lookup path ≠ index.lookup path ∧
    diffStatus head index path ≠ some .typeChanged ∧
      path ∉ (git.renames head index).map Prod.fst := by
  unfold Git.nameOnly
  rw [List.mem_filter, mem_changedPaths, decide_eq_true_iff]

theorem printed_of_lt {n : ℕ} (h : 32 ≤ n) (hn : n < 127) : lineBreak (Char.ofNat n) = false := by
  have hvalid : n.isValidChar := .inl (Nat.lt_trans hn (by decide))
  have htoNat : (Char.ofNat n).toNat = n := by
    unfold Char.ofNat
    rw [dif_pos hvalid]
    rfl
  unfold lineBreak
  rw [htoNat]
  exact decide_eq_false (by omega)

theorem lineBreak_of_plain {c : Char} (h : plainChar c) : lineBreak c = false := by
  have hc := of_decide_eq_true h
  rw [← Char.ofNat_toNat c]
  exact printed_of_lt hc.1 hc.2.1

theorem lineBreak_quoteByte {b : ℕ} {c : Char} (h : c ∈ quoteByte b) : lineBreak c = false := by
  have hdigit : ∀ n, lineBreak (octalDigit n) = false := fun n => by
    refine printed_of_lt (by omega) ?_
    have := Nat.mod_lt n (show 0 < 8 by decide)
    omega
  unfold quoteByte at h
  split at h
  case h_10 =>
    split_ifs at h with hb
    · rw [List.mem_singleton.1 h]
      exact printed_of_lt hb.1 hb.2
    · simp only [List.mem_cons, List.not_mem_nil, or_false] at h
      rcases h with rfl | rfl | rfl | rfl
      · rfl
      · exact hdigit _
      · exact hdigit _
      · exact hdigit _
  all_goals
    simp only [List.mem_cons, List.not_mem_nil, or_false] at h
    rcases h with rfl | rfl <;> rfl

/-- a name stands on a line of its own -/
theorem lineBreak_quotePath {c : Char} (h : c ∈ (quotePath path).toList) : lineBreak c = false := by
  unfold quotePath at h
  split_ifs at h with hplain
  · exact lineBreak_of_plain (List.all_eq_true.1 hplain c h)
  · rw [String.toList_ofList] at h
    rcases List.mem_append.1 h with h | h
    · rcases List.mem_cons.1 h with rfl | h
      · rfl
      · obtain ⟨b, -, hb⟩ := List.mem_flatMap.1 h
        exact lineBreak_quoteByte hb
    · rw [List.mem_singleton.1 h]
      rfl

theorem splitlinesFrom_line {line word text : List Char} (h : ∀ c ∈ word, lineBreak c = false) :
    splitlinesFrom line (word ++ '\n' :: text) =
      String.ofList (line ++ word) :: splitlinesFrom [] text := by
  induction word generalizing line with
  | nil =>
    rw [List.append_nil]
    rfl
  | cons c word ih =>
    obtain ⟨hc, hword⟩ := List.forall_mem_cons.1 h
    have hstep : splitlinesFrom line (c :: (word ++ '\n' :: text)) =
        splitlinesFrom (line ++ [c]) (word ++ '\n' :: text) := by
      have hr : c ≠ '\r' := by
        rintro rfl
        cases hc
      conv_lhs => unfold splitlinesFrom
      split
      · contradiction
      · next heq => exact absurd (List.cons.inj heq).1 hr
      · next heq =>
        obtain ⟨rfl, rfl⟩ := List.cons.inj heq
        rw [hc]
        rfl
    rw [List.cons_append, hstep, ih hword, List.append_assoc]
    rfl

theorem splitlines_printNames (names : List String) :
    splitlines (printNames names) = names.map quotePath := by
  unfold splitlines printNames
  induction names with
  | nil => rfl
  | cons p names ih =>
    rw [List.flatMap_cons, List.append_assoc, List.map_cons, ← ih]
    have hline : ∀ text, splitlinesFrom [] ((quotePath p).toList ++ '\n' :: text) =
        quotePath p :: splitlinesFrom [] text := fun text => by
      have hword : ∀ c ∈ (quotePath p).toList, lineBreak c = false :=
        fun c hc => lineBreak_quotePath hc
      rw [splitlinesFrom_line hword, List.nil_append, String.ofList_toList]
    exact hline _

/-! ## a commit -/

/-- a commit is made of the index, and `_path` has accepted every listed name as it is written -/
theorem commitChanges_committed {sha : String}
    (h : commitChanges git o asked message r = .ok (r', .committed sha)) :
    r'.head = r.index ∧ ∀ p ∈ git.nameOnly r.head r.index, Accepted r.files o (quotePath p) := by
  unfold commitChanges at h
  obtain ⟨worktree, -, h⟩ := bind_eq_ok.1 h
  obtain ⟨replay, -, h⟩ := bind_eq_ok.1 h
  cases replay with
  | true => cases h
  | false =>
    rw [if_neg Bool.false_ne_true, guard_eq_ok, guard_eq_ok] at h
    obtain ⟨-, -, h⟩ := h
    cases hcheck : git.check r.head r.index with
    | some stderr =>
      rw [hcheck] at h
      cases h
    | none =>
      rw [hcheck, splitlines_printNames] at h
      dsimp only at h
      obtain ⟨-, h⟩ := guard_eq_ok.1 h
      obtain ⟨_, hpaths, h⟩ := bind_eq_ok.1 h
      obtain ⟨-, h⟩ := guard_eq_ok.1 h
      have haccepted := forM_ok hpaths
      cases hcommit : asked.commit with
      | error stderr =>
        rw [hcommit] at h
        cases h
      | ok sha' =>
        rw [hcommit] at h
        cases h
        refine ⟨rfl, fun p hp => ?_⟩
        have hmap := haccepted (quotePath p) (List.mem_map_of_mem hp)
        cases hpath : operatorPath r.files o (quotePath p) true with
        | error e =>
          rw [hpath] at hmap
          cases hmap
        | ok place => exact ⟨place, hpath⟩

/-- a changed path that is not hidden has been accepted -/
theorem accepted_of_not_hidden {sha : String}
    (h : commitChanges git o asked message r = .ok (r', .committed sha))
    (hchanged : r.head.lookup path ≠ r.index.lookup path)
    (hhidden : ¬ git.Hidden r.head r.index path) : Accepted r.files o path := by
  have hnot : ¬ (path ∈ (git.renames r.head r.index).map Prod.fst ∨
      diffStatus r.head r.index path = some .typeChanged ∨ quotePath path ≠ path) :=
    fun hor => hhidden ⟨hchanged, hor⟩
  push Not at hnot
  obtain ⟨hsource, htype, hquote⟩ := hnot
  have hlisted : path ∈ git.nameOnly r.head r.index := mem_nameOnly.2 ⟨hchanged, htype, hsource⟩
  have haccepted := (commitChanges_committed h).2 path hlisted
  rwa [hquote] at haccepted

/-- A commit changes accepted paths only exactly when the hidden ones are accepted. -/
theorem commit_in_scope_iff (git : Git) (o : OperatorScope) (asked : CommitAnswers)
    (message : String) (r r' : Repository) (sha : String)
    (h : commitChanges git o asked message r = .ok (r', .committed sha)) :
    (∀ path, r.head.lookup path ≠ r'.head.lookup path → Accepted r.files o path) ↔
      ∀ path, git.Hidden r.head r.index path → Accepted r.files o path := by
  rw [(commitChanges_committed h).1]
  constructor
  · intro hall path hhidden
    exact hall path hhidden.changed
  · intro hall path hchanged
    by_cases hhidden : git.Hidden r.head r.index path
    · exact hall path hhidden
    · exact accepted_of_not_hidden h hchanged hhidden

/-! ## a rename into the scope -/

/-- a deleted path, and the first new one with the same entry -/
def exactRenames (head index : Tree) : List (String × String) :=
  (changedPaths head index).filterMap fun p =>
    if diffStatus head index p = some .deleted then
      ((changedPaths head index).find? fun q =>
        diffStatus head index q = some .added ∧ index.lookup q = head.lookup p).map (p, ·)
    else none

theorem exactRenames_status {r : String × String} (h : r ∈ exactRenames head index) :
    diffStatus head index r.1 = some .deleted ∧ diffStatus head index r.2 = some .added := by
  obtain ⟨p, -, hp⟩ := List.mem_filterMap.1 h
  split_ifs at hp with hdeleted
  obtain ⟨q, hq, rfl⟩ := Option.map_eq_some_iff.1 hp
  have hadded := List.find?_some hq
  exact ⟨hdeleted, (of_decide_eq_true hadded).1⟩

/-- Git where no diff has an error or a secret -/
def plainGit : Git where
  renames := exactRenames
  deleted _ _ _ h := (exactRenames_status h).1
  added _ _ _ h := (exactRenames_status h).2
  check _ _ := none
  diff _ _ := ""

def docsScope : OperatorScope where
  repositoryRoot := ⟨1, ["srv", "goal"]⟩
  allowedPaths := ["docs"]

def answered : CommitAnswers where
  context := .ok false
  replay := .ok false
  verification := true
  commit := .ok "4f1c"

/-- a job edits a page -/
def edited : Repository where
  files := ⟨[], []⟩
  head := [("docs/a.md", { object := 1 }), ("src/main.py", { object := 2 })]
  index := [("docs/a.md", { object := 3 }), ("src/main.py", { object := 2 })]

/-- an earlier job has moved a file into the directory of this one, and left that staged -/
def moved : Repository where
  files := ⟨[], []⟩
  head := [("docs/a.md", { object := 1 }), ("src/main.py", { object := 2 })]
  index := [("docs/a.md", { object := 3 }), ("docs/main.py", { object := 2 })]

theorem commit_in_scope_iff_edited :
    (∀ path, edited.head.lookup path ≠ edited.index.lookup path →
      Accepted edited.files docsScope path) ↔
      ∀ path, plainGit.Hidden edited.head edited.index path →
        Accepted edited.files docsScope path :=
  commit_in_scope_iff plainGit docsScope answered "Edit" edited
    { edited with head := edited.index } "4f1c" rfl

/-- the commit removes a source file although the job is confined to the pages -/
theorem commit_out_of_scope : ¬ ∀ (git : Git) (o : OperatorScope) (asked : CommitAnswers)
    (message : String) (r r' : Repository) (sha : String),
    commitChanges git o asked message r = .ok (r', .committed sha) →
      ∀ path, r.head.lookup path ≠ r'.head.lookup path → Accepted r.files o path := by
  intro h
  obtain ⟨p, hp⟩ := h plainGit docsScope answered "Edit" moved { moved with head := moved.index }
    "4f1c" rfl "src/main.py" (by decide)
  have hrefused : operatorPath moved.files docsScope "src/main.py" true =
    .error (.operatorPath "path is outside the authorized path scope") := rfl
  rw [hrefused] at hp
  cases hp

end LifeAI
