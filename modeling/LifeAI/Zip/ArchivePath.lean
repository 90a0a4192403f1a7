import LifeAI.Lib.Segments
import LifeAI.Lib.Separator
import LifeAI.Zip.Contained

/-!
# The path of an extracted file

* `Way`               the members that lead from an archive to one in it;
* `Archived`          the row of a file in a nested archive, with the way to it;
* `archived_of_mem`   every row with a chain is one;
* `archive_path_law`  splitting the path gives the names of the chain, and other chains have other
                      paths, exactly if no name on the way holds the separator.
-/

namespace LifeAI.Zip

/-- `archive_path.split("!/")` -/
def splitArchivePath (path : String) : List String :=
  (Separator.split '!' '/' path.toList).map String.ofList

/-- the filenames of an `archive_chain` -/
def ZipEntryResult.chainNames (e : ZipEntryResult) : Option (List String) :=
  e.archiveChain.map fun chain => chain.map (·.filename)

/-- splitting the path gives the filenames of the chain -/
def ZipEntryResult.Parses (e : ZipEntryResult) : Prop :=
  e.archivePath.map splitArchivePath = e.chainNames

/-- the members that lead from an archive to one in it, each but the last a nested archive -/
inductive Way (lib : Library) (lim : Limits) : List Member → List Member → Prop
  | here {zf : List Member} {m : Member} : m ∈ zf → Way lib lim zf [m]
  | into {zf nested way : List Member} {m : Member} {content : Bytes} : m ∈ zf →
      readWithHardCap lib m lim.maxFileBytes = .ok content → lib.zipFile content = .ok nested →
        Way lib lim nested way → Way lib lim zf (m :: way)

/-- the name of the package, and those of the members on the way -/
def wayNames (outerFilename : String) (way : List Member) : List String :=
  sanitizeOuterFilename outerFilename :: way.map fun m => normalizeMemberName m.filename

/-- the chain of a row, and the path that is built from it -/
structure ZipEntryResult.Chained (e : ZipEntryResult) (name : String) (names : List String) : Prop where
  file : e.filename = name
  chain : e.chainNames = some names
  path : e.archivePath = some (archivePathSeparator.intercalate names)

/-- the row of a file in a nested archive of a package, and the way to it -/
structure Archived (lib : Library) (lim : Limits) (raw : Bytes) (outerFilename : String)
    (e : ZipEntryResult) (way : List Member) : Prop where
  leads : ∃ zf, lib.zipFile raw = .ok zf ∧ Way lib lim zf way
  row : ∃ m ∈ way.getLast?, e.Chained m.filename (wayNames outerFilename way)

/-- no name on the way holds the separator -/
def Unforged (way : List Member) : Prop :=
  ∀ m ∈ way, ¬ ['!', '/'] <:+: replaceBackslashes m.filename

variable {lib : Library} {lim : Limits} {left depth : Nat} {c chain : List Segment}
  {zf way : List Member} {m : Member} {i : Item} {items : List Item} {e : ZipEntryResult}
  {x x' : Extraction} {outerFilename path : String}

/-! ## rows with a chain -/

theorem processMember_chained (h : processMember lib lim depth c m = .ok (.row e))
    (hchain : e.archiveChain = some chain) :
    e.Chained m.filename (c.map (·.filename) ++ [normalizeMemberName m.filename]) := by
  unfold processMember at h
  dsimp only at h
  split at h
  · cases h
    cases hchain
  · split at h
    · cases h
      cases hchain
    · split at h
      · cases h
      · cases h
        unfold unreadable at hchain
        dsimp only at hchain
        split at hchain <;> cases hchain
      · split at h
        · cases h
        · split at h
          · cases h
            cases hchain
          · cases h
            unfold leaf at hchain ⊢
            dsimp only at hchain ⊢
            -- a file of the package itself has no chain
            split at hchain
            · cases hchain
            · next hdepth =>
              constructor
              · rfl
              · unfold ZipEntryResult.chainNames
                dsimp only
                rw [if_neg hdepth, Option.map_some, List.map_append]
                rfl
              · dsimp only
                rw [if_neg hdepth, List.map_append]
                rfl

theorem item_chained {deepest : Bool} (h : (item lib lim deepest depth c m).row? = some e)
    (hchain : e.archiveChain = some chain) :
    e.Chained m.filename (c.map (·.filename) ++ [normalizeMemberName m.filename]) := by
  unfold item at h
  split at h
  · obtain rfl := Option.some.inj h
    cases hchain
  · split at h
    · cases h
    · cases h
    · next hrow =>
      obtain rfl := Option.some.inj h
      exact processMember_chained hrow hchain
    · split at h
      · obtain rfl := Option.some.inj h
        cases hchain
      · split at h
        · split at h
          · obtain rfl := Option.some.inj h
            cases hchain
          · cases h
        · cases h

/-- a nested archive has been read -/
theorem processMember_archive {content : Bytes}
    (h : processMember lib lim depth c m = .ok (.archive content)) :
    readWithHardCap lib m lim.maxFileBytes = .ok content := by
  unfold processMember at h
  dsimp only at h
  split at h
  · cases h
  · split at h
    · cases h
    · split at h
      · cases h
      · cases h
      · next hread =>
        split at h
        · cases h
          exact hread
        · split at h <;> cases h

/-- a nested archive that is opened -/
theorem item_archive {deepest : Bool} {d : Nat} {m' : Member} {segment : Segment}
    {nested : List Member} (h : item lib lim deepest depth c m = .archive d m' segment nested) :
    segment.filename = normalizeMemberName m.filename ∧
      ∃ content, readWithHardCap lib m lim.maxFileBytes = .ok content ∧
        lib.zipFile content = .ok nested := by
  unfold item at h
  split at h
  · cases h
  · split at h
    · cases h
    · cases h
    · cases h
    · next content harchive =>
      split at h
      · cases h
      · split at h
        · split at h <;> cases h
        · next hz =>
          cases h
          exact ⟨rfl, content, processMember_archive harchive, hz⟩

theorem walk_chained (h : i ∈ walk lib lim left depth c zf) (hrow : i.row? = some e)
    (hchain : e.archiveChain = some chain) : ∃ way, Way lib lim zf way ∧ ∃ m ∈ way.getLast?,
      e.Chained m.filename
        (c.map (·.filename) ++ way.map fun m => normalizeMemberName m.filename) := by
  induction left generalizing depth c zf with
  | zero =>
    obtain ⟨m, hm, rfl⟩ := List.mem_map.1 h
    exact ⟨[m], .here (List.mem_of_mem_filter hm), m, rfl, item_chained hrow hchain⟩
  | succ left ih =>
    obtain ⟨m, hm, hi⟩ := List.mem_flatMap.1 h
    have hmem : m ∈ zf := List.mem_of_mem_filter hm
    rcases List.mem_cons.1 hi with rfl | hbelow
    · exact ⟨[m], .here hmem, m, rfl, item_chained hrow hchain⟩
    · cases hitem : item lib lim false depth c m with
      | archive d m' segment nested =>
        rw [hitem] at hbelow
        obtain ⟨way, hway, last, hlast, he⟩ := ih hbelow
        obtain ⟨hsegment, content, hread, hz⟩ := item_archive hitem
        refine ⟨m :: way, .into hmem hread hz hway, last, ?_, ?_⟩
        · have hne : way ≠ [] := by
            intro hnil
            rw [hnil] at hlast
            cases hlast
          rw [List.getLast?_cons_of_ne_nil hne]
          exact hlast
        · rw [List.map_append, List.map_singleton, hsegment, List.append_assoc] at he
          exact he
      | _ =>
        rw [hitem] at hbelow
        cases hbelow

theorem scanItem_entries (h : scanItem lib lim x i = .ok x') (he : e ∈ x'.entries) :
    e ∈ x.entries ∨ e.archiveChain = none ∨ i.row? = some e := by
  rcases checkMetadata_cases lib lim x i.member with ⟨-, message, hcheck⟩ | ⟨-, hcheck⟩
  · rw [scanItem_error hcheck] at h
    cases h
  · rw [scanItem_ok hcheck] at h
    split at h
    · -- a member that is too large
      cases h
      rcases List.mem_append.1 he with hold | hnew
      · exact .inl hold
      · obtain rfl := List.mem_singleton.1 hnew
        exact .inr (.inl rfl)
    · cases i with
      | row m row =>
        cases h
        rcases List.mem_append.1 he with hold | hnew
        · exact .inl hold
        · obtain rfl := List.mem_singleton.1 hnew
          exact .inr (.inr rfl)
      | archive d m segment nested =>
        cases h
        exact .inl he
      | aborts m message => cases h
      | broken m e => cases h

/-- a row of a pass that has a chain is one of the listing -/
theorem scan_entries (h : items.foldlM (scanItem lib lim) x = .ok x') (he : e ∈ x'.entries) :
    e ∈ x.entries ∨ e.archiveChain = none ∨ ∃ i ∈ items, i.row? = some e := by
  induction items generalizing x with
  | nil =>
    cases h
    exact .inl he
  | cons i items ih =>
    rw [List.foldlM_cons] at h
    obtain ⟨y, hy, hrest⟩ := bind_eq_ok.1 h
    rcases ih hrest with hin | hnone | ⟨i', hi', hrow⟩
    · rcases scanItem_entries hy hin with hold | hnone | hrow
      · exact .inl hold
      · exact .inr (.inl hnone)
      · exact .inr (.inr ⟨i, List.mem_cons_self, hrow⟩)
    · exact .inr (.inl hnone)
    · exact .inr (.inr ⟨i', List.mem_cons_of_mem _ hi', hrow⟩)

/-- every row with a chain is that of a file in a nested archive -/
theorem archived_of_mem {raw : Bytes} {r : ZipImportResult} {opened : List (Nat × List Member)}
    (h : validateAndExtractZip lib lim raw outerFilename = .ok (r, opened)) (he : e ∈ r.entries)
    (hchain : e.archiveChain = some chain) :
    ∃ way, Archived lib lim raw outerFilename e way := by
  cases hz : lib.zipFile raw with
  | error err =>
    unfold validateAndExtractZip at h
    rw [hz] at h
    dsimp only at h
    split at h <;> cases h
  | ok zf =>
    obtain ⟨hlisting, hcases⟩ := validate_eq lim outerFilename hz
    rcases hcases with ⟨err, -, herror⟩ | ⟨x', r', hrun, hresult, hentries⟩
    · rw [h] at herror
      cases herror
    · rw [h] at hresult
      cases hresult
      rw [hlisting] at hrun
      rw [hentries] at he
      rcases scan_entries hrun he with hnil | hnone | ⟨i, hi, hrow⟩
      · cases hnil
      · rw [hchain] at hnone
        cases hnone
      · obtain ⟨way, hway, hrow⟩ := walk_chained hi hrow hchain
        exact ⟨way, ⟨zf, hz, hway⟩, hrow⟩

/-! ## the path -/

/-- the name of the package is one component of a path -/
theorem sanitizeOuterFilename_unforged (name : String) :
    ¬ ['!', '/'] <:+: (sanitizeOuterFilename name).toList := by
  have hslash : '/' ∉ Import.pathName (normalizeMemberName name) := by
    unfold Import.pathName
    cases hlast : (((normalizeMemberName name).toList.splitOn '/').filter
        fun c => c ≠ [] ∧ c ≠ ['.']).getLast? with
    | none => exact List.not_mem_nil
    | some piece =>
      have hpiece := List.mem_of_getLast? hlast
      exact Segments.not_mem_of_mem_splitOn (List.mem_of_mem_filter hpiece)
  unfold sanitizeOuterFilename
  dsimp only
  split_ifs with hempty
  · decide
  · rw [String.toList_ofList]
    intro hslashed
    exact hslash (List.IsInfix.subset hslashed (List.mem_cons_of_mem _ List.mem_cons_self))

theorem splitArchivePath_join {names : List String} (hnames : names ≠ []) :
    splitArchivePath (archivePathSeparator.intercalate names) = names ↔
      ∀ name ∈ names, ¬ ['!', '/'] <:+: name.toList := by
  have hlists : names.map String.toList ≠ [] := by
    rw [ne_eq, List.map_eq_nil_iff]
    exact hnames
  have hiff := Separator.split_intercalate_iff (a := '!') (b := '/') (by decide) hlists
  rw [List.forall_mem_map] at hiff
  rw [← hiff]
  unfold splitArchivePath
  rw [String.toList_intercalate]
  show List.map String.ofList (Separator.split '!' '/' (['!', '/'].intercalate _)) = names ↔ _
  -- a list of strings and the lists of their characters
  have hback : (names.map String.toList).map String.ofList = names := by
    rw [List.map_map]
    exact List.map_id'' (fun name => String.ofList_toList) names
  constructor
  · intro h
    exact List.map_injective_iff.2 (fun _ _ => String.ofList_injective) (h.trans hback.symm)
  · intro h
    rw [h, hback]

theorem Archived.parses_iff {raw : Bytes} (h : Archived lib lim raw outerFilename e way) :
    e.Parses ↔ Unforged way := by
  obtain ⟨m, hm, hrow⟩ := h.row
  unfold ZipEntryResult.Parses
  rw [hrow.path, hrow.chain, Option.map_some, Option.some_inj]
  unfold wayNames
  rw [splitArchivePath_join (List.cons_ne_nil _ _), List.forall_mem_cons,
    and_iff_right (sanitizeOuterFilename_unforged outerFilename), List.forall_mem_map]
  unfold Unforged normalizeMemberName
  simp only [String.toList_ofList]

/-- For two extracted files in nested archives, of one package or of two: splitting their paths gives the
names of their chains, and other names have other paths, exactly if no name on the ways to them
holds the separator. -/
theorem archive_path_law {raw raw' : Bytes} {outerFilename' : String} {r r' : ZipImportResult}
    {opened opened' : List (Nat × List Member)} {e' : ZipEntryResult} {chain' : List Segment}
    (h : validateAndExtractZip lib lim raw outerFilename = .ok (r, opened))
    (h' : validateAndExtractZip lib lim raw' outerFilename' = .ok (r', opened'))
    (he : e ∈ r.entries) (he' : e' ∈ r'.entries) (hchain : e.archiveChain = some chain)
    (hchain' : e'.archiveChain = some chain') :
    ∃ way way', Archived lib lim raw outerFilename e way ∧
      Archived lib lim raw' outerFilename' e' way' ∧
      ((e.Parses ∧ e'.Parses ∧ (e.chainNames ≠ e'.chainNames → e.archivePath ≠ e'.archivePath)) ↔
        Unforged way ∧ Unforged way') := by
  obtain ⟨way, hway⟩ := archived_of_mem h he hchain
  obtain ⟨way', hway'⟩ := archived_of_mem h' he' hchain'
  refine ⟨way, way', hway, hway', ?_⟩
  rw [← hway.parses_iff, ← hway'.parses_iff]
  constructor
  · intro hlaw
    exact ⟨hlaw.1, hlaw.2.1⟩
  · intro hparses
    refine ⟨hparses.1, hparses.2, fun hne hpath => hne ?_⟩
    have hsplit : e.archivePath.map splitArchivePath = e.chainNames := hparses.1
    rw [← hsplit, hpath]
    exact hparses.2

/-! ## two packages with one path -/

/-- an archive of one file -/
def oneFile (name : String) : Bytes := storedZip 20 name [172, 42, 147, 216] hi

/-- `c.txt` in `b.zip` in `a.zip` -/
def plainNames : Bytes :=
  storedZip 20 "a.zip" [110, 115, 180, 237]
    (storedZip 20 "b.zip" [104, 247, 149, 178] (oneFile "c.txt"))

/-- a file of the name `b.zip!/c.txt` in `a.zip` -/
def forgedName : Bytes := storedZip 20 "a.zip" [109, 122, 76, 79] (oneFile "b.zip!/c.txt")

/-- the library on these -/
def onePath : Library where
  sha256 raw :=
    if raw = hi then "8f434346648f6b96df89dda901c5176b10a6d83961dd3c1ac88b59b2dc327aa4"
    else if raw = oneFile "c.txt" then
      "c2643f9e598444104ba5d124b35e3f7699f5e13f7fe9a17c49ff8fb255434896"
    else if raw = storedZip 20 "b.zip" [104, 247, 149, 178] (oneFile "c.txt") then
      "8370ab58a12fa397681a7652122c16cd5c0f1143e050388f99eca5d1224b6910"
    else if raw = plainNames then "c4118bf2da136d5d4f474a60a1f007d40a290cac66dc9ced48c2759396836996"
    else if raw = oneFile "b.zip!/c.txt" then
      "0d4d6cf417b193bb2351cb193f72f841c82b8c1735436098dac673002a600244"
    else if raw = forgedName then "90a24c2a5ab7c0a34f0aff49d5b43192969d665f48c2717de5f955a1c7dc05be"
    else ""
  zipFile raw :=
    if raw = plainNames then
      .ok [stored "a.zip" (storedZip 20 "b.zip" [104, 247, 149, 178] (oneFile "c.txt"))]
    else if raw = storedZip 20 "b.zip" [104, 247, 149, 178] (oneFile "c.txt") then
      .ok [stored "b.zip" (oneFile "c.txt")]
    else if raw = oneFile "c.txt" then .ok [stored "c.txt" hi]
    else if raw = forgedName then .ok [stored "a.zip" (oneFile "b.zip!/c.txt")]
    else if raw = oneFile "b.zip!/c.txt" then .ok [stored "b.zip!/c.txt" hi]
    else .error ⟨.badZipFile, "File is not a zip file"⟩
  loads _ := .error ""
  repr name := s!"'{name}'"
  ratioText a b := toString (a / b)

/-- the first row of a package `p.zip` -/
def firstFile (raw : Bytes) : Option ZipEntryResult :=
  (validateAndExtractZip onePath {} raw "p.zip").toOption.bind fun r => r.1.entries.head?

theorem mem_of_firstFile {raw : Bytes} (h : firstFile raw = some e) :
    ∃ r opened, validateAndExtractZip onePath {} raw "p.zip" = .ok (r, opened) ∧ e ∈ r.entries := by
  unfold firstFile at h
  obtain ⟨⟨r, opened⟩, hresult, hhead⟩ := Option.bind_eq_some_iff.1 h
  cases hrun : validateAndExtractZip onePath {} raw "p.zip" with
  | error err =>
    rw [hrun] at hresult
    cases hresult
  | ok result =>
    rw [hrun] at hresult
    obtain rfl := Option.some.inj hresult
    exact ⟨r, opened, rfl, List.mem_of_mem_head? hhead⟩

/-- the file in `plainNames` -/
def plainFile : ZipEntryResult :=
  leaf onePath 2
    [⟨"p.zip", onePath.sha256 plainNames⟩,
      ⟨"a.zip", onePath.sha256 (storedZip 20 "b.zip" [104, 247, 149, 178] (oneFile "c.txt"))⟩,
      ⟨"b.zip", onePath.sha256 (oneFile "c.txt")⟩] "c.txt" hi

/-- the file in `forgedName` -/
def forgedFile : ZipEntryResult :=
  leaf onePath 1
    [⟨"p.zip", onePath.sha256 forgedName⟩, ⟨"a.zip", onePath.sha256 (oneFile "b.zip!/c.txt")⟩]
    "b.zip!/c.txt" hi

set_option maxRecDepth 8000 in
/-- the files of two packages, of different chains: they have one path, which does not parse for the
second of them -/
theorem forged_separator : firstFile plainNames = some plainFile ∧ firstFile forgedName = some forgedFile ∧
    plainFile.chainNames = some ["p.zip", "a.zip", "b.zip", "c.txt"] ∧
    forgedFile.chainNames = some ["p.zip", "a.zip", "b.zip!/c.txt"] ∧
    plainFile.archivePath = forgedFile.archivePath ∧
    forgedFile.archivePath.map splitArchivePath = some ["p.zip", "a.zip", "b.zip", "c.txt"] := by
  refine ⟨?_, ?_, ?_, ?_, ?_, ?_⟩ <;> decide

set_option maxRecDepth 8000 in
theorem archive_path_law_plain : ∃ way way',
    Archived onePath {} plainNames "p.zip" plainFile way ∧
      Archived onePath {} plainNames "p.zip" plainFile way' ∧
      ((plainFile.Parses ∧ plainFile.Parses ∧ (plainFile.chainNames ≠ plainFile.chainNames →
          plainFile.archivePath ≠ plainFile.archivePath)) ↔ Unforged way ∧ Unforged way') := by
  have hfile : firstFile plainNames = some plainFile := by decide
  obtain ⟨r, opened, hrun, he⟩ := mem_of_firstFile hfile
  exact archive_path_law hrun hrun he he rfl rfl

end LifeAI.Zip
