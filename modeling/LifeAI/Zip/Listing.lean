import LifeAI.Zip.Model

/-!
# A package as a list

The members of a package and of the archives in it, one after the other, and the extraction as one
pass over them.

* `Item`, `walk`         the members, each with what becomes of it;
* `scanItem`             one of them against the shared budget;
* `extractRecursive_eq`  the recursion is the pass over the list.
-/

namespace LifeAI.Zip

variable (lib : Library) (lim : Limits)

/-- a member of an archive at a depth -/
inductive Item where
  | row (m : Member) (e : ZipEntryResult)
  /-- a nested archive that is opened -/
  | archive (depth : Nat) (m : Member) (segment : Segment) (nested : List Member)
  /-- reading it exceeds the cap -/
  | aborts (m : Member) (message : String)
  /-- opening it raises something else than `BadZipFile` -/
  | broken (m : Member) (e : PyError)

namespace Item

def member : Item → Member
  | .row m _ | .archive _ m _ _ | .aborts m _ | .broken m _ => m

def row? : Item → Option ZipEntryResult
  | .row _ e => some e
  | _ => none

/-- the archive that is opened, with its depth -/
def opened? : Item → Option (Nat × List Member)
  | .archive depth _ _ nested => some (depth, nested)
  | _ => none

end Item

/-- what becomes of a member, the budget apart; `deepest` is `depth >= max_nesting_depth` -/
def item (deepest : Bool) (depth : Nat) (chainPrefix : List Segment) (m : Member) : Item :=
  if lim.maxFileBytes < m.fileSize then .row m (tooLarge lim m)
  else
    match processMember lib lim depth chainPrefix m with
    | .error (.zipSecurity message) => .aborts m message
    | .error (.raised e) => .broken m e
    | .ok (.row e) => .row m e
    | .ok (.archive content) =>
      if deepest then .row m (tooDeep lim m.filename)
      else
        match lib.zipFile content with
        | .error e =>
          if e.kind = .badZipFile then .row m (notAZip m.filename) else .broken m e
        | .ok nested =>
          .archive (depth + 1) m ⟨normalizeMemberName m.filename, lib.sha256 content⟩ nested

/-- the members under one that is opened -/
def Item.below (f : List Segment → List Member → List Item) (chainPrefix : List Segment) :
    Item → List Item
  | .archive _ _ segment nested => f (chainPrefix ++ [segment]) nested
  | _ => []

/-- the members of an archive, each followed by those of the archive that it is -/
def walk : (left depth : Nat) → List Segment → List Member → List Item
  | 0, depth, chainPrefix, zf => (realEntries zf).map (item lib lim true depth chainPrefix)
  | left + 1, depth, chainPrefix, zf => (realEntries zf).flatMap fun m =>
    let i := item lib lim false depth chainPrefix m
    i :: i.below (walk left (depth + 1)) chainPrefix

/-- a member within the limits -/
def Item.apply (y : Extraction) : Item → Except Exn Extraction
  | .row _ e => .ok (y.add e)
  | .archive depth _ _ nested => .ok { y with opened := y.opened ++ [(depth, nested)] }
  | .aborts _ message => .error (.zipSecurity message)
  | .broken _ e => .error (.raised e)

/-- one member against the budget -/
def scanItem (x : Extraction) (i : Item) : Except Exn Extraction := do
  let (x, tooLarge) ← checkMetadata lib lim x i.member
  match tooLarge with
  | some row => .ok (x.add row)
  | none => i.apply x

variable {lib lim}

/-! ## the metadata -/

/-- the member exceeds a limit of the package, after `files` members with `bytes` bytes -/
def Violates (lim : Limits) (files bytes : Nat) (m : Member) : Prop :=
  isSafeMemberName m.filename = false ∨ lim.maxFiles < files + 1 ∨
    (m.fileSize ≤ lim.maxFileBytes ∧ (lim.maxTotalBytes < bytes + m.fileSize ∨
      (minCompressedSizeForRatioCheck ≤ max m.compressSize 1 ∧
        ratioExceeded m.fileSize (max m.compressSize 1) = true)))

instance (files bytes : Nat) (m : Member) : Decidable (Violates lim files bytes m) := by
  unfold Violates
  infer_instance

/-- what a member is charged -/
def Limits.charge (lim : Limits) (m : Member) : Nat :=
  if lim.maxFileBytes < m.fileSize then 0 else m.fileSize

def Extraction.charged (x : Extraction) (lim : Limits) (m : Member) : Extraction :=
  { x with
    totalFiles := x.totalFiles + 1
    totalUncompressedBytes := x.totalUncompressedBytes + lim.charge m }

theorem compressed_eq (n : Nat) : (if n = 0 then 1 else n) = max n 1 := by
  split <;> omega

theorem checkMetadata_cases (lib : Library) (lim : Limits) (x : Extraction) (m : Member) :
    (Violates lim x.totalFiles x.totalUncompressedBytes m ∧
      ∃ message, checkMetadata lib lim x m = .error (.zipSecurity message)) ∨
    (¬ Violates lim x.totalFiles x.totalUncompressedBytes m ∧
      checkMetadata lib lim x m = .ok (x.charged lim m,
        if lim.maxFileBytes < m.fileSize then some (tooLarge lim m) else none)) := by
  unfold checkMetadata
  dsimp only
  rw [compressed_eq]
  by_cases hsafe : isSafeMemberName m.filename = true
  · rw [if_neg (not_not.2 hsafe)]
    by_cases hfiles : lim.maxFiles < x.totalFiles + 1
    · rw [if_pos hfiles]
      exact .inl ⟨.inr (.inl hfiles), _, rfl⟩
    · rw [if_neg hfiles]
      by_cases hlarge : lim.maxFileBytes < m.fileSize
      · rw [if_pos hlarge, if_pos hlarge]
        refine .inr ⟨?_, ?_⟩
        · rintro (h | h | ⟨h, -⟩)
          · exact absurd (hsafe.symm.trans h) Bool.false_ne_true.symm
          · exact hfiles h
          · exact absurd hlarge (Nat.not_lt.2 h)
        · unfold Extraction.charged Limits.charge
          rw [if_pos hlarge]
          rfl
      · rw [if_neg hlarge, if_neg hlarge]
        have hle := Nat.le_of_not_lt hlarge
        by_cases hbytes : lim.maxTotalBytes < x.totalUncompressedBytes + m.fileSize
        · rw [if_pos hbytes]
          exact .inl ⟨.inr (.inr ⟨hle, .inl hbytes⟩), _, rfl⟩
        · rw [if_neg hbytes]
          split
          · next hratio => exact .inl ⟨.inr (.inr ⟨hle, .inr hratio⟩), _, rfl⟩
          · next hratio =>
            refine .inr ⟨?_, ?_⟩
            · rintro (h | h | ⟨-, h | h⟩)
              · exact absurd (hsafe.symm.trans h) Bool.false_ne_true.symm
              · exact hfiles h
              · exact hbytes h
              · exact hratio h
            · unfold Extraction.charged Limits.charge
              rw [if_neg hlarge]
  · rw [if_pos hsafe]
    exact .inl ⟨.inl (eq_false_of_ne_true hsafe), _, rfl⟩

/-! ## one pass -/

theorem foldlM_flatMap {α β σ ε : Type} (f : α → List β) (g : σ → β → Except ε σ) (as : List α)
    (s : σ) : (as.flatMap f).foldlM g s = as.foldlM (fun s a => (f a).foldlM g s) s := by
  induction as generalizing s with
  | nil => rfl
  | cons a as ih =>
    rw [List.flatMap_cons, List.foldlM_append, List.foldlM_cons]
    exact bind_congr ih

theorem item_member (lib : Library) (lim : Limits) (deepest : Bool) (depth : Nat)
    (chainPrefix : List Segment) (m : Member) :
    (item lib lim deepest depth chainPrefix m).member = m := by
  unfold item
  split
  · rfl
  · split
    · rfl
    · rfl
    · rfl
    · split
      · rfl
      · split
        · split <;> rfl
        · rfl

theorem scanItem_error {x : Extraction} {i : Item} {e : Exn}
    (h : checkMetadata lib lim x i.member = .error e) : scanItem lib lim x i = .error e := by
  unfold scanItem
  rw [h]
  rfl

theorem scanItem_ok {x y : Extraction} {i : Item} {row? : Option ZipEntryResult}
    (h : checkMetadata lib lim x i.member = .ok (y, row?)) :
    scanItem lib lim x i = row?.elim (i.apply y) fun row => .ok (y.add row) := by
  unfold scanItem
  rw [h]
  cases row? with
  | some row => rfl
  | none => rfl

theorem processEntry_error {depth : Nat} {chainPrefix : List Segment}
    {below : Option (List Segment → List Member → Extraction → Except Exn Extraction)}
    {x : Extraction} {m : Member} {e : Exn} (h : checkMetadata lib lim x m = .error e) :
    processEntry lib lim depth chainPrefix below x m = .error e := by
  unfold processEntry
  rw [h]
  rfl

/-- a member, and the pass over the members under it -/
theorem processEntry_eq (lib : Library) (lim : Limits) {deepest : Bool} (depth : Nat)
    (chainPrefix : List Segment)
    {below : Option (List Segment → List Member → Extraction → Except Exn Extraction)}
    (f : List Segment → List Member → List Item) (hdeep : deepest = below.isNone)
    (hf : ∀ b ∈ below, ∀ c zf x, b c zf x = (f c zf).foldlM (scanItem lib lim) x)
    (x : Extraction) (m : Member) :
    processEntry lib lim depth chainPrefix below x m =
      (item lib lim deepest depth chainPrefix m ::
        (item lib lim deepest depth chainPrefix m).below f chainPrefix).foldlM
          (scanItem lib lim) x := by
  rw [List.foldlM_cons]
  have hmember := item_member lib lim deepest depth chainPrefix m
  rcases checkMetadata_cases lib lim x m with ⟨-, message, h⟩ | ⟨-, h⟩
  · have h' := h
    rw [← hmember] at h'
    rw [processEntry_error h, scanItem_error h']
    rfl
  · have h' : checkMetadata lib lim x (item lib lim deepest depth chainPrefix m).member =
        .ok (x.charged lim m, if lim.maxFileBytes < m.fileSize then some (tooLarge lim m) else none) := by
      rw [hmember]
      exact h
    rw [scanItem_ok h']
    unfold processEntry
    rw [h]
    by_cases hlarge : lim.maxFileBytes < m.fileSize
    · have hitem : item lib lim deepest depth chainPrefix m = .row m (tooLarge lim m) :=
        if_pos hlarge
      rw [hitem, if_pos hlarge]
      rfl
    · unfold item
      rw [if_neg hlarge, if_neg hlarge]
      show (processMember lib lim depth chainPrefix m >>= _) = _
      cases hp : processMember lib lim depth chainPrefix m with
      | error e => cases e <;> rfl
      | ok outcome =>
        cases outcome with
        | row e => rfl
        | archive content =>
          cases below with
          | none =>
            subst hdeep
            rfl
          | some b =>
            subst hdeep
            show (match lib.zipFile content with | .error e => _ | .ok nested => _) = _
            cases hz : lib.zipFile content with
            | error e =>
              by_cases hk : e.kind = .badZipFile
              · simp only [hk, if_true, hz]
                rfl
              · simp only [hk, if_false, hz]
                rfl
            | ok nested =>
              simp only [Option.isNone_some, Bool.false_eq_true, if_false, hz]
              exact hf b rfl _ nested _

/-- the extraction is one pass over the listing -/
theorem extractRecursive_eq (lib : Library) (lim : Limits) (left depth : Nat) (chainPrefix : List Segment) (zf : List Member)
    (x : Extraction) : extractRecursive lib lim left depth chainPrefix zf x =
      (walk lib lim left depth chainPrefix zf).foldlM (scanItem lib lim) x := by
  induction left generalizing depth chainPrefix zf x with
  | zero =>
    have hone : ∀ x m, processEntry lib lim depth chainPrefix none x m =
        scanItem lib lim x (item lib lim true depth chainPrefix m) := by
      intro x m
      have hrest : (item lib lim true depth chainPrefix m).below (fun _ _ => []) chainPrefix = [] := by
        cases item lib lim true depth chainPrefix m <;> rfl
      have h : processEntry lib lim depth chainPrefix none x m = _ :=
        processEntry_eq lib lim depth chainPrefix (fun _ _ => []) rfl
          (fun b hb => absurd hb (Option.not_mem_none b)) x m
      rw [h, Option.isNone_none, hrest, List.foldlM_cons]
      exact bind_pure _
    show (realEntries zf).foldlM _ x = _
    rw [walk, List.foldlM_map]
    exact congrArg (fun g => (realEntries zf).foldlM g x) (funext fun x => funext (hone x))
  | succ left ih =>
    show (realEntries zf).foldlM _ x = _
    rw [walk, foldlM_flatMap]
    refine congrArg (fun g => (realEntries zf).foldlM g x) (funext fun x => funext fun m => ?_)
    refine processEntry_eq lib lim depth chainPrefix _ rfl (fun b hb c zf x => ?_) x m
    obtain rfl := Option.some.inj hb
    exact ih (depth + 1) c zf x

end LifeAI.Zip
