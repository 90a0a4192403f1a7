import LifeAI.Zip.Listing

/-!
# What an extraction returns

* `Contained`             the budgets, the rows and the archives of a result, against the listing;
* `Clear`                 a limit is exceeded before an archive that cannot be opened is reached;
* `extraction_contained`  an extraction raises a `ZipSecurityError` or returns such a result,
                          exactly if the listing is clear.
-/

namespace LifeAI.Zip

variable {lib : Library} {lim : Limits} {x x' : Extraction} {items : List Item} {i : Item}
  {m : Member} {e : ZipEntryResult} {left depth : Nat} {c : List Segment} {zf : List Member}

/-- the bytes of the rows that are ok -/
def okBytes (entries : List ZipEntryResult) : Nat :=
  entries.foldl (fun n e => if e.status = .ok then n + (e.content.getD []).length else n) 0

/-- a safe name, an allowed suffix, its signature, the size and the hash -/
def Vetted (lib : Library) (lim : Limits) (e : ZipEntryResult) : Prop :=
  ∃ content, e.content = some content ∧ isSafeMemberName e.filename = true ∧
    suffix e.filename ∈ allowedExtensions ∧ magicBytesOk (suffix e.filename) content = true ∧
      content.length ≤ lim.maxFileBytes ∧ e.checksum = some (lib.sha256 content)

/-- the members of a package -/
def listing (lib : Library) (lim : Limits) (raw : Bytes) (outerFilename : String) : List Item :=
  match lib.zipFile raw with
  | .error _ => []
  | .ok zf => walk lib lim lim.maxNestingDepth 0
      [⟨sanitizeOuterFilename outerFilename, lib.sha256 raw⟩] zf

/-- a result with the archives that were opened -/
structure Contained (lib : Library) (lim : Limits) (raw : Bytes) (items : List Item)
    (r : ZipImportResult × List (Nat × List Member)) : Prop where
  files : items.length ≤ lim.maxFiles
  bytes : okBytes r.1.entries ≤ lim.maxTotalBytes
  depth : ∀ a ∈ r.2, a.1 ≤ lim.maxNestingDepth
  vetted : ∀ e ∈ r.1.entries, e.status = .ok → Vetted lib lim e
  opened : ∃ zf, lib.zipFile raw = .ok zf ∧ r.2 = (0, zf) :: items.filterMap Item.opened?
  members : (items.map Item.member).Perm (r.2.flatMap fun a => realEntries a.2)
  rows : List.Forall₂ (fun i e => e.filename = i.member.filename)
    (items.filter (·.opened?.isNone)) r.1.entries

/-- reading a member yields at most its declared size -/
def Library.Honest (lib : Library) : Prop :=
  ∀ raw zf, lib.zipFile raw = .ok zf → ∀ m ∈ zf, m.chunks.flatten.length ≤ m.fileSize

/-- Before a nested archive whose opening raises something else than `BadZipFile`, a member exceeds
a limit of the package. -/
def Clear (lim : Limits) : (files bytes : Nat) → List Item → Prop
  | _, _, [] => True
  | files, bytes, i :: items => Violates lim files bytes i.member ∨
    match i with
    | .broken _ _ => False
    | .aborts _ _ => True
    | .row m _ | .archive _ m _ _ => Clear lim (files + 1) (bytes + lim.charge m) items

def Clear.decide (lim : Limits) : (files bytes : Nat) → (items : List Item) →
    Decidable (Clear lim files bytes items)
  | _, _, [] => .isTrue trivial
  | files, bytes, i :: items =>
    haveI : Decidable (match i with
        | .broken _ _ => False
        | .aborts _ _ => True
        | .row m _ | .archive _ m _ _ => Clear lim (files + 1) (bytes + lim.charge m) items) :=
      match i with
      | .broken _ _ => .isFalse id
      | .aborts _ _ => .isTrue trivial
      | .row _ _ | .archive _ _ _ _ => Clear.decide lim _ _ items
    inferInstanceAs (Decidable (_ ∨ _))

instance (files bytes : Nat) (items : List Item) : Decidable (Clear lim files bytes items) :=
  Clear.decide lim files bytes items

/-- the package can be opened or is no ZIP file, and its listing is clear -/
def Openable (lib : Library) (lim : Limits) (raw : Bytes) (outerFilename : String) : Prop :=
  (∀ e, lib.zipFile raw = .error e → e.kind = .badZipFile) ∧
    Clear lim 0 0 (listing lib lim raw outerFilename)

/-- a `ZipSecurityError`, or a contained result -/
def Extracts (lib : Library) (lim : Limits) (raw : Bytes) (outerFilename : String) : Prop :=
  match validateAndExtractZip lib lim raw outerFilename with
  | .error (.zipSecurity _) => True
  | .error (.raised _) => False
  | .ok r => Contained lib lim raw (listing lib lim raw outerFilename) r

/-! ## one member -/

theorem readChunks_ok {filename : String} {maxBytes produced : Nat} {fault : Option PyError}
    {chunks : List Bytes} {content : Bytes} (hle : produced ≤ maxBytes)
    (h : readChunks lib filename maxBytes fault produced chunks = .ok content) :
    produced + content.length ≤ maxBytes ∧ content.length ≤ chunks.flatten.length := by
  induction chunks generalizing produced content with
  | nil =>
    cases fault with
    | some e => cases h
    | none =>
      cases h
      exact ⟨hle, Nat.le_refl _⟩
  | cons chunk chunks ih =>
    unfold readChunks at h
    split at h
    · cases h
      exact ⟨hle, Nat.zero_le _⟩
    · dsimp only at h
      split at h
      · cases h
      · next hcap =>
        cases hrest : readChunks lib filename maxBytes fault (produced + chunk.length) chunks with
        | error e =>
          rw [hrest] at h
          cases h
        | ok rest =>
          rw [hrest] at h
          cases h
          obtain ⟨h1, h2⟩ := ih (Nat.le_of_not_lt hcap) hrest
          rw [List.flatten_cons, List.length_append, List.length_append]
          constructor <;> omega

theorem readWithHardCap_ok {content : Bytes} (h : readWithHardCap lib m lim.maxFileBytes = .ok content) :
    content.length ≤ lim.maxFileBytes ∧ content.length ≤ m.chunks.flatten.length := by
  obtain ⟨h1, h2⟩ := readChunks_ok (Nat.zero_le _) h
  exact ⟨by omega, h2⟩

/-- a row past the checks on the metadata -/
theorem processMember_row (h : processMember lib lim depth c m = .ok (.row e)) :
    e.filename = m.filename ∧ (e.status = .ok → ∃ content, e.content = some content ∧
      suffix m.filename ∈ allowedExtensions ∧ magicBytesOk (suffix m.filename) content = true ∧
        content.length ≤ lim.maxFileBytes ∧ content.length ≤ m.chunks.flatten.length ∧
          e.checksum = some (lib.sha256 content)) := by
  unfold processMember at h
  dsimp only at h
  split at h
  · cases h
    exact ⟨rfl, fun hs => nomatch hs⟩
  · split at h
    · cases h
      exact ⟨rfl, fun hs => nomatch hs⟩
    · next hallowed =>
      split at h
      · cases h
      · next fault _ =>
        cases h
        unfold unreadable
        dsimp only
        split
        · refine ⟨rfl, fun hs => ?_⟩
          unfold classifyUnreadableEntry at hs
          dsimp only at hs
          split at hs <;> cases hs
        · exact ⟨rfl, fun hs => nomatch hs⟩
      · next content hread =>
        split at h
        · cases h
        · next hzip =>
          split at h
          · cases h
            exact ⟨rfl, fun hs => nomatch hs⟩
          · next hmagic =>
            cases h
            have hin : suffix m.filename ∈ allowedExtensions := by
              by_contra hno
              exact hallowed ⟨hzip, hno⟩
            obtain ⟨hcap, hlen⟩ := readWithHardCap_ok hread
            exact ⟨rfl, fun _ => ⟨content, rfl, hin, not_not.1 hmagic, hcap, hlen, rfl⟩⟩

/-- what is so of every member of a listing -/
structure Item.Sound (lib : Library) (lim : Limits) (i : Item) : Prop where
  large : lim.maxFileBytes < i.member.fileSize → i = .row i.member (tooLarge lim i.member)
  row : ∀ e ∈ i.row?, e.filename = i.member.filename ∧
    (e.status = .ok → ∃ content, e.content = some content ∧
      suffix i.member.filename ∈ allowedExtensions ∧
        magicBytesOk (suffix i.member.filename) content = true ∧
          content.length ≤ lim.maxFileBytes ∧ content.length ≤ lim.charge i.member ∧
            e.checksum = some (lib.sha256 content))

theorem item_sound {deepest : Bool} (hm : m.chunks.flatten.length ≤ m.fileSize) :
    (item lib lim deepest depth c m).Sound lib lim := by
  by_cases hlarge : lim.maxFileBytes < m.fileSize
  · have hitem : item lib lim deepest depth c m = .row m (tooLarge lim m) := if_pos hlarge
    rw [hitem]
    refine ⟨fun _ => rfl, fun e he => ?_⟩
    obtain rfl := Option.some.inj he
    exact ⟨rfl, fun hs => nomatch hs⟩
  · have hcharge : lim.charge m = m.fileSize := if_neg hlarge
    constructor
    · intro h
      rw [item_member] at h
      exact absurd h hlarge
    · intro e he
      rw [item_member]
      unfold item at he
      rw [if_neg hlarge] at he
      cases hp : processMember lib lim depth c m with
      | error err =>
        rw [hp] at he
        cases err <;> cases he
      | ok outcome =>
        rw [hp] at he
        cases outcome with
        | row e' =>
          obtain rfl := Option.some.inj he
          obtain ⟨hname, hok⟩ := processMember_row hp
          refine ⟨hname, fun hs => ?_⟩
          obtain ⟨content, hc, hin, hmagic, hcap, hlen, hsum⟩ := hok hs
          exact ⟨content, hc, hin, hmagic, hcap, hcharge ▸ Nat.le_trans hlen hm, hsum⟩
        | archive content =>
          -- the rows of a nested archive are not ok
          dsimp only at he
          split at he
          · obtain rfl := Option.some.inj he
            exact ⟨rfl, fun hs => nomatch hs⟩
          · split at he
            · split at he
              · obtain rfl := Option.some.inj he
                exact ⟨rfl, fun hs => nomatch hs⟩
              · cases he
            · cases he

/-- only an archive that is not the deepest one is opened, one level down -/
theorem item_opened {deepest : Bool} {a : Nat × List Member}
    (h : (item lib lim deepest depth c m).opened? = some a) :
    deepest = false ∧ a.1 = depth + 1 ∧ ∃ raw, lib.zipFile raw = .ok a.2 := by
  unfold item at h
  split at h
  · cases h
  · split at h
    · cases h
    · cases h
    · cases h
    · next content _ =>
      split at h
      · cases h
      · next hdeep =>
        cases hz : lib.zipFile content with
        | error e =>
          rw [hz] at h
          dsimp only at h
          split at h <;> cases h
        | ok nested =>
          rw [hz] at h
          obtain rfl := Option.some.inj h
          exact ⟨eq_false_of_ne_true hdeep, rfl, content, hz⟩

/-! ## the listing -/

/-- where a member of a listing comes from -/
theorem mem_walk (h : i ∈ walk lib lim left depth c zf) :
    ∃ deepest depth' c' zf' m, m ∈ zf' ∧ (zf' = zf ∨ ∃ raw, lib.zipFile raw = .ok zf') ∧
      depth' ≤ depth + left ∧ (deepest = false → depth' < depth + left) ∧
        i = item lib lim deepest depth' c' m := by
  induction left generalizing depth c zf with
  | zero =>
    obtain ⟨m, hm, rfl⟩ := List.mem_map.1 h
    exact ⟨true, depth, c, zf, m, List.mem_of_mem_filter hm, .inl rfl, Nat.le_refl _,
      (nomatch ·), rfl⟩
  | succ left ih =>
    obtain ⟨m, hm, hi⟩ := List.mem_flatMap.1 h
    rcases List.mem_cons.1 hi with rfl | hbelow
    · exact ⟨false, depth, c, zf, m, List.mem_of_mem_filter hm, .inl rfl, by omega,
        fun _ => by omega, rfl⟩
    · cases hitem : item lib lim false depth c m with
      | archive d m' segment nested =>
        rw [hitem] at hbelow
        obtain ⟨deepest, depth', c', zf', n, hn, hzf, hle, hlt, rfl⟩ := ih hbelow
        have hraw : ∃ raw, lib.zipFile raw = .ok nested :=
          (item_opened (congrArg Item.opened? hitem)).2.2
        refine ⟨deepest, depth', c', zf', n, hn, .inr ?_, by omega, fun h => ?_, rfl⟩
        · rcases hzf with rfl | hzf
          · exact hraw
          · exact hzf
        · have := hlt h
          omega
      | row m' e =>
        rw [hitem] at hbelow
        cases hbelow
      | aborts m' message =>
        rw [hitem] at hbelow
        cases hbelow
      | broken m' e =>
        rw [hitem] at hbelow
        cases hbelow

theorem walk_sound (h : lib.Honest) (hzf : ∃ raw, lib.zipFile raw = .ok zf) :
    ∀ i ∈ walk lib lim left depth c zf, i.Sound lib lim := by
  intro i hi
  obtain ⟨deepest, depth', c', zf', m, hm, hfrom, -, -, rfl⟩ := mem_walk hi
  have hraw : ∃ raw, lib.zipFile raw = .ok zf' := by
    rcases hfrom with rfl | hfrom
    · exact hzf
    · exact hfrom
  obtain ⟨raw, hraw⟩ := hraw
  exact item_sound (h raw zf' hraw m hm)

theorem walk_depth {a : Nat × List Member}
    (ha : a ∈ (walk lib lim left depth c zf).filterMap Item.opened?) : a.1 ≤ depth + left := by
  obtain ⟨i, hi, hopened⟩ := List.mem_filterMap.1 ha
  obtain ⟨deepest, depth', c', zf', m, -, -, -, hlt, rfl⟩ := mem_walk hi
  obtain ⟨hdeep, ha, -⟩ := item_opened hopened
  have := hlt hdeep
  omega

/-- the members of the archives opened in a listing -/
def nestedMembers (items : List Item) : List Member :=
  (items.filterMap Item.opened?).flatMap fun a => realEntries a.2

theorem nestedMembers_append (items items' : List Item) :
    nestedMembers (items ++ items') = nestedMembers items ++ nestedMembers items' := by
  unfold nestedMembers
  rw [List.filterMap_append, List.flatMap_append]

/-- the members of several archives -/
theorem flatMap_members {f : Member → List Item} (ms : List Member)
    (hf : ∀ m ∈ ms, ((f m).map Item.member).Perm (m :: nestedMembers (f m))) :
    ((ms.flatMap f).map Item.member).Perm (ms ++ nestedMembers (ms.flatMap f)) := by
  induction ms with
  | nil => exact .refl _
  | cons m ms ih =>
    have hrest := ih fun n hn => hf n (List.mem_cons_of_mem _ hn)
    have hm := hf m List.mem_cons_self
    rw [List.flatMap_cons, List.map_append, nestedMembers_append]
    refine (hm.append hrest).trans ?_
    show (m :: (nestedMembers (f m) ++ (ms ++ _))).Perm (m :: (ms ++ (nestedMembers (f m) ++ _)))
    rw [← List.append_assoc, ← List.append_assoc]
    exact .cons m (List.perm_append_comm.append_right _)

/-- every member of every archive that is opened is listed, and no other -/
theorem walk_members : ((walk lib lim left depth c zf).map Item.member).Perm
    (realEntries zf ++ nestedMembers (walk lib lim left depth c zf)) := by
  induction left generalizing depth c zf with
  | zero =>
    have hflat : walk lib lim 0 depth c zf =
        (realEntries zf).flatMap fun m => [item lib lim true depth c m] := List.map_eq_flatMap
    rw [hflat]
    refine flatMap_members _ fun m _ => ?_
    show [(item lib lim true depth c m).member].Perm (m :: nestedMembers [item lib lim true depth c m])
    have hnone : (item lib lim true depth c m).opened? = none := by
      cases h : (item lib lim true depth c m).opened? with
      | none => rfl
      | some a => exact absurd (item_opened h).1 Bool.false_ne_true.symm
    unfold nestedMembers
    rw [item_member, List.filterMap_cons_none hnone]
    exact .refl _
  | succ left ih =>
    refine flatMap_members _ fun m _ => ?_
    dsimp only
    rw [List.map_cons, item_member]
    refine .cons m ?_
    cases item lib lim false depth c m with
    | archive d m' segment nested => exact ih
    | _ => exact .refl _

/-! ## the pass -/

theorem scanItem_cases (x : Extraction) (hs : i.Sound lib lim) :
    (Violates lim x.totalFiles x.totalUncompressedBytes i.member ∧
      ∃ message, scanItem lib lim x i = .error (.zipSecurity message)) ∨
    (¬ Violates lim x.totalFiles x.totalUncompressedBytes i.member ∧
      scanItem lib lim x i = i.apply (x.charged lim i.member)) := by
  rcases checkMetadata_cases lib lim x i.member with ⟨hv, message, h⟩ | ⟨hv, h⟩
  · exact .inl ⟨hv, message, scanItem_error h⟩
  · refine .inr ⟨hv, ?_⟩
    rw [scanItem_ok h]
    by_cases hlarge : lim.maxFileBytes < i.member.fileSize
    · rw [if_pos hlarge]
      have hrow := hs.large hlarge
      generalize i.member = m at hrow
      subst hrow
      rfl
    · rw [if_neg hlarge]
      rfl

/-- within the limits, with the members so far -/
structure Extraction.Within (x : Extraction) (lim : Limits) : Prop where
  files : x.totalFiles ≤ lim.maxFiles
  bytes : x.totalUncompressedBytes ≤ lim.maxTotalBytes
  ok : okBytes x.entries ≤ x.totalUncompressedBytes

/-- what a member within the limits leaves -/
structure Scanned (lib : Library) (lim : Limits) (items : List Item) (x x' : Extraction) : Prop where
  files : x'.totalFiles = x.totalFiles + items.length
  within : x'.Within lim
  vetted : (∀ e ∈ x.entries, e.status = .ok → Vetted lib lim e) →
    ∀ e ∈ x'.entries, e.status = .ok → Vetted lib lim e
  opened : x'.opened = x.opened ++ items.filterMap Item.opened?
  rows : ∃ es, x'.entries = x.entries ++ es ∧
    List.Forall₂ (fun i e => e.filename = i.member.filename) (items.filter (·.opened?.isNone)) es

theorem okBytes_append (entries : List ZipEntryResult) (e : ZipEntryResult) :
    okBytes (entries ++ [e]) =
      if e.status = .ok then okBytes entries + (e.content.getD []).length else okBytes entries := by
  unfold okBytes
  rw [List.foldl_append]
  rfl

theorem charged_within (hw : x.Within lim)
    (hv : ¬ Violates lim x.totalFiles x.totalUncompressedBytes m) :
    (x.charged lim m).totalFiles ≤ lim.maxFiles ∧
      (x.charged lim m).totalUncompressedBytes ≤ lim.maxTotalBytes := by
  refine ⟨Nat.le_of_not_lt fun h => hv (.inr (.inl h)), ?_⟩
  show x.totalUncompressedBytes + lim.charge m ≤ lim.maxTotalBytes
  unfold Limits.charge
  split
  · exact hw.bytes
  · next hlarge =>
    exact Nat.le_of_not_lt fun h => hv (.inr (.inr ⟨Nat.le_of_not_lt hlarge, .inl h⟩))

/-- one member -/
theorem scanItem_scanned (hs : i.Sound lib lim) (hw : x.Within lim)
    (h : scanItem lib lim x i = .ok x') : Scanned lib lim [i] x x' := by
  rcases scanItem_cases x hs with ⟨-, message, herr⟩ | ⟨hv, happly⟩
  · rw [herr] at h
    cases h
  · obtain ⟨hfiles, hbytes⟩ := charged_within hw hv
    have hgrows : x.totalUncompressedBytes ≤ (x.charged lim i.member).totalUncompressedBytes :=
      Nat.le_add_right _ _
    rw [happly] at h
    cases i with
    | aborts m message => cases h
    | broken m e => cases h
    | archive d m segment nested =>
      cases h
      exact ⟨rfl, ⟨hfiles, hbytes, Nat.le_trans hw.ok hgrows⟩, fun hvetted => hvetted, rfl,
        [], (List.append_nil _).symm, .nil⟩
    | row m e =>
      cases h
      obtain ⟨hname, hok⟩ := hs.row e rfl
      have hsafe : isSafeMemberName m.filename = true :=
        eq_true_of_ne_false fun hunsafe => hv (.inl hunsafe)
      refine ⟨rfl, ⟨hfiles, hbytes, ?_⟩, fun hvetted e' he' hstatus => ?_,
        (List.append_nil _).symm, [e], rfl, .cons hname .nil⟩
      · show okBytes (x.entries ++ [e]) ≤ x.totalUncompressedBytes + lim.charge m
        rw [okBytes_append]
        split
        · next hstatus =>
          obtain ⟨content, hcontent, -, -, -, hcharge, -⟩ := hok hstatus
          have hwithin := hw.ok
          have hlen : content.length ≤ lim.charge m := hcharge
          rw [hcontent, Option.getD_some]
          omega
        · exact Nat.le_trans hw.ok hgrows
      · rcases List.mem_append.1 he' with hold | hnew
        · exact hvetted e' hold hstatus
        · obtain rfl := List.mem_singleton.1 hnew
          obtain ⟨content, hcontent, hsuffix, hmagic, hcap, -, hsum⟩ := hok hstatus
          exact ⟨content, hcontent, by rw [hname]; exact hsafe, by rw [hname]; exact hsuffix,
            by rw [hname]; exact hmagic, hcap, hsum⟩

theorem Scanned.trans {items' : List Item} {x'' : Extraction} (h : Scanned lib lim items x x')
    (h' : Scanned lib lim items' x' x'') : Scanned lib lim (items ++ items') x x'' := by
  obtain ⟨es, hes, hrows⟩ := h.rows
  obtain ⟨es', hes', hrows'⟩ := h'.rows
  refine ⟨?_, h'.within, fun hvetted => h'.vetted (h.vetted hvetted), ?_, es ++ es', ?_, ?_⟩
  · rw [h'.files, h.files, List.length_append, Nat.add_assoc]
  · rw [h'.opened, h.opened, List.filterMap_append, List.append_assoc]
  · rw [hes', hes, List.append_assoc]
  · rw [List.filter_append]
    exact List.rel_append hrows hrows'

/-- the whole listing -/
theorem scan_scanned (hs : ∀ i ∈ items, i.Sound lib lim) (hw : x.Within lim)
    (h : items.foldlM (scanItem lib lim) x = .ok x') : Scanned lib lim items x x' := by
  induction items generalizing x with
  | nil =>
    cases h
    exact ⟨rfl, hw, fun hvetted => hvetted, (List.append_nil _).symm, [],
      (List.append_nil _).symm, .nil⟩
  | cons i items ih =>
    rw [List.foldlM_cons] at h
    cases hi : scanItem lib lim x i with
    | error e =>
      rw [hi] at h
      cases h
    | ok y =>
      rw [hi] at h
      have hone := scanItem_scanned (hs i List.mem_cons_self) hw hi
      have hrest := ih (fun j hj => hs j (List.mem_cons_of_mem _ hj)) hone.within h
      exact hone.trans hrest

/-- a pass raises something else than a `ZipSecurityError`, exactly if its listing is not clear -/
theorem scan_raised (hs : ∀ i ∈ items, i.Sound lib lim) (x : Extraction) :
    (∃ e, items.foldlM (scanItem lib lim) x = .error (.raised e)) ↔
      ¬ Clear lim x.totalFiles x.totalUncompressedBytes items := by
  induction items generalizing x with
  | nil => exact ⟨fun ⟨_, h⟩ => (nomatch h), fun h => absurd trivial h⟩
  | cons i items ih =>
    have hrest := ih fun j hj => hs j (List.mem_cons_of_mem _ hj)
    rw [List.foldlM_cons]
    rcases scanItem_cases x (hs i List.mem_cons_self) with ⟨hv, message, herr⟩ | ⟨hv, happly⟩
    · rw [herr]
      exact ⟨fun ⟨_, h⟩ => (nomatch h), fun h => absurd (.inl hv) h⟩
    · rw [happly]
      have hclear : ∀ P : Prop, (Violates lim x.totalFiles x.totalUncompressedBytes i.member ∨ P) ↔ P :=
        fun P => or_iff_right hv
      unfold Clear
      rw [hclear]
      cases i with
      | row m e => exact hrest _
      | archive d m segment nested => exact hrest _
      | aborts m message => exact ⟨fun ⟨_, h⟩ => (nomatch h), fun h => absurd trivial h⟩
      | broken m e => exact ⟨fun _ h => h, fun _ => ⟨e, rfl⟩⟩

/-! ## the package -/

/-- the extraction of a package that can be opened, with the result of the pass -/
theorem validate_eq (lim : Limits) (outerFilename : String) {raw : Bytes} (hz : lib.zipFile raw = .ok zf) :
    listing lib lim raw outerFilename = walk lib lim lim.maxNestingDepth 0
      [⟨sanitizeOuterFilename outerFilename, lib.sha256 raw⟩] zf ∧
    ((∃ err, (listing lib lim raw outerFilename).foldlM (scanItem lib lim)
        { opened := [(0, zf)] } = .error err ∧
          validateAndExtractZip lib lim raw outerFilename = .error err) ∨
      ∃ x' r, (listing lib lim raw outerFilename).foldlM (scanItem lib lim)
        { opened := [(0, zf)] } = .ok x' ∧
          validateAndExtractZip lib lim raw outerFilename = .ok (r, x'.opened) ∧
            r.entries = x'.entries) := by
  have hlisting : listing lib lim raw outerFilename = walk lib lim lim.maxNestingDepth 0
      [⟨sanitizeOuterFilename outerFilename, lib.sha256 raw⟩] zf := by
    unfold listing
    rw [hz]
  refine ⟨hlisting, ?_⟩
  have hpass := extractRecursive_eq lib lim lim.maxNestingDepth 0
    [⟨sanitizeOuterFilename outerFilename, lib.sha256 raw⟩] zf { opened := [(0, zf)] }
  rw [← hlisting] at hpass
  unfold validateAndExtractZip
  rw [hz]
  dsimp only
  rw [hpass]
  cases (listing lib lim raw outerFilename).foldlM (scanItem lib lim) { opened := [(0, zf)] } with
  | error err => exact .inl ⟨err, rfl, rfl⟩
  | ok x' => exact .inr ⟨x', _, rfl, rfl, rfl⟩

theorem listing_contained (h : lib.Honest) {raw : Bytes} {outerFilename : String}
    {r : ZipImportResult} (hz : lib.zipFile raw = .ok zf)
    (hlisting : listing lib lim raw outerFilename = walk lib lim lim.maxNestingDepth 0
      [⟨sanitizeOuterFilename outerFilename, lib.sha256 raw⟩] zf)
    (hrun : (listing lib lim raw outerFilename).foldlM (scanItem lib lim)
      { opened := [(0, zf)] } = .ok x')
    (hentries : r.entries = x'.entries) :
    Contained lib lim raw (listing lib lim raw outerFilename) (r, x'.opened) := by
  have hsound : ∀ i ∈ listing lib lim raw outerFilename, i.Sound lib lim := by
    rw [hlisting]
    exact walk_sound h ⟨raw, hz⟩
  have hstart : Extraction.Within { opened := [(0, zf)] } lim :=
    ⟨Nat.zero_le _, Nat.zero_le _, Nat.le_refl 0⟩
  have hscan := scan_scanned hsound hstart hrun
  have hopened : x'.opened = (0, zf) :: (listing lib lim raw outerFilename).filterMap Item.opened? :=
    hscan.opened
  refine ⟨?_, ?_, ?_, ?_, ⟨zf, hz, hopened⟩, ?_, ?_⟩
  · have hfiles : x'.totalFiles = 0 + (listing lib lim raw outerFilename).length := hscan.files
    have hwithin := hscan.within.files
    omega
  · show okBytes r.entries ≤ lim.maxTotalBytes
    rw [hentries]
    exact Nat.le_trans hscan.within.ok hscan.within.bytes
  · intro a ha
    have ha' : a ∈ x'.opened := ha
    rw [hopened, hlisting] at ha'
    rcases List.mem_cons.1 ha' with rfl | hnested
    · exact Nat.zero_le _
    · have hle := walk_depth hnested
      rwa [Nat.zero_add] at hle
  · intro e he hstatus
    have he' : e ∈ x'.entries := hentries ▸ he
    exact hscan.vetted (fun e' hnone => absurd hnone List.not_mem_nil) e he' hstatus
  · show List.Perm _ (x'.opened.flatMap fun a => realEntries a.2)
    rw [hopened, List.flatMap_cons, hlisting]
    exact walk_members
  · obtain ⟨es, hes, hrows⟩ := hscan.rows
    show List.Forall₂ _ _ r.entries
    rw [hentries, hes]
    exact hrows

/-- A package is extracted into a contained result or refused with a `ZipSecurityError`, exactly
if nothing before the first violation of a limit raises something else. -/
theorem extraction_contained (h : lib.Honest) (raw : Bytes) (outerFilename : String) :
    Extracts lib lim raw outerFilename ↔ Openable lib lim raw outerFilename := by
  cases hz : lib.zipFile raw with
  | error e =>
    have hlisting : listing lib lim raw outerFilename = [] := by
      unfold listing
      rw [hz]
    have hkinds : Openable lib lim raw outerFilename ↔ e.kind = .badZipFile := by
      unfold Openable
      rw [hlisting, hz]
      exact ⟨fun hopen => hopen.1 e rfl, fun hk => ⟨fun e' he' => Except.error.inj he' ▸ hk, trivial⟩⟩
    rw [hkinds]
    unfold Extracts validateAndExtractZip
    rw [hz]
    dsimp only
    by_cases hk : e.kind = .badZipFile
    · rw [if_pos hk]
      exact ⟨fun _ => hk, fun _ => trivial⟩
    · rw [if_neg hk]
      exact ⟨fun hfalse => hfalse.elim, fun h => absurd h hk⟩
  | ok zf =>
    obtain ⟨hlisting, hcases⟩ := validate_eq lim outerFilename hz
    have hsound : ∀ i ∈ listing lib lim raw outerFilename, i.Sound lib lim := by
      rw [hlisting]
      exact walk_sound h ⟨raw, hz⟩
    have hraised := scan_raised hsound { opened := [(0, zf)] }
    have hopen : Openable lib lim raw outerFilename ↔
        Clear lim 0 0 (listing lib lim raw outerFilename) := by
      refine and_iff_right fun e he => ?_
      rw [hz] at he
      cases he
    rw [hopen]
    unfold Extracts
    rcases hcases with ⟨err, hrun, hresult⟩ | ⟨x', r, hrun, hresult, hentries⟩
    · rw [hresult]
      rw [hrun] at hraised
      cases err with
      | zipSecurity message =>
        refine ⟨fun _ => ?_, fun _ => trivial⟩
        by_contra hdirty
        obtain ⟨e, he⟩ := hraised.2 hdirty
        cases he
      | raised e => exact ⟨fun hfalse => hfalse.elim, fun hclear => hraised.1 ⟨e, rfl⟩ hclear⟩
    · rw [hresult]
      refine ⟨fun _ => ?_, fun _ => listing_contained h hz hlisting hrun hentries⟩
      by_contra hdirty
      obtain ⟨e, he⟩ := hraised.2 hdirty
      rw [hrun] at he
      cases he

def isRaised {α : Type} : Except Exn α → Bool
  | .error (.raised _) => true
  | _ => false

theorem not_extracts {raw : Bytes} {outerFilename : String}
    (h : isRaised (validateAndExtractZip lib lim raw outerFilename) = true) :
    ¬ Extracts lib lim raw outerFilename := by
  unfold Extracts
  cases hr : validateAndExtractZip lib lim raw outerFilename with
  | ok r =>
    rw [hr] at h
    cases h
  | error err =>
    rw [hr] at h
    cases err with
    | zipSecurity message => cases h
    | raised e => exact id

/-! ## two packages -/

/-- the bytes of an archive of one stored member -/
def storedZip (version : Nat) (name : String) (crc content : Bytes) : Bytes :=
  let le (k n : Nat) : Bytes := (List.range k).map fun i => UInt8.ofNat (n / 256 ^ i)
  let filename := name.toList.map fun c => UInt8.ofNat c.toNat
  let info := le 6 0 ++ [33, 0] ++ crc ++ le 4 content.length ++ le 4 content.length
    ++ le 4 filename.length
  let stored := [0x50, 0x4b, 3, 4, 20, 0] ++ info ++ filename ++ content
  let central := [0x50, 0x4b, 1, 2, 20, 3] ++ le 2 version ++ info ++ le 6 0 ++ [0, 0, 128, 1]
    ++ le 4 0 ++ filename
  stored ++ central ++ [0x50, 0x4b, 5, 6, 0, 0, 0, 0, 1, 0, 1, 0] ++ le 4 central.length
    ++ le 4 stored.length ++ le 2 0

def hi : Bytes := [0x68, 0x69]

/-- an archive of `a.txt`, that needs a version to extract -/
def aZip (version : Nat) : Bytes := storedZip version "a.txt" [172, 42, 147, 216] hi

/-- a package with that archive as `b.zip` -/
def package (version : Nat) (crc : Bytes) : Bytes := storedZip 20 "b.zip" crc (aZip version)

def readable : Bytes := package 20 [192, 241, 194, 87]
def unsupported : Bytes := package 64 [89, 171, 107, 63]

def stored (name : String) (content : Bytes) : Member :=
  { filename := name
    fileSize := content.length
    compressSize := content.length
    chunks := [content] }

/-- the library on these -/
def twoPackages : Library where
  sha256 raw :=
    if raw = hi then "8f434346648f6b96df89dda901c5176b10a6d83961dd3c1ac88b59b2dc327aa4"
    else if raw = aZip 20 then "0435ba5693fdb7d1526a6b4eb28a30a54f2dbe34c327a2933c0aa99ec174a2a6"
    else if raw = aZip 64 then "0fa30a4ceb3f328e4cb7f50042daf2bf3c4380d7e76d663499197dc762a4fa31"
    else if raw = readable then "92e5cc9170f36745cf86c98414a9ac0e5fc9e59964d3a17f43da6246946dc867"
    else if raw = unsupported then
      "7b26a1f3e4c42a8584a8ae9c765ed7c45a22e8e921c21afb3fe85e4a36c9795a"
    else ""
  zipFile raw :=
    if raw = readable then .ok [stored "b.zip" (aZip 20)]
    else if raw = unsupported then .ok [stored "b.zip" (aZip 64)]
    else if raw = aZip 20 then .ok [stored "a.txt" hi]
    else if raw = aZip 64 then .error ⟨.notImplementedError, "zip file version 6.4"⟩
    else .error ⟨.badZipFile, "File is not a zip file"⟩
  loads _ := .error ""
  repr name := s!"'{name}'"
  ratioText a b := toString (a / b)

theorem twoPackages_honest : twoPackages.Honest := by
  intro raw zf h
  unfold twoPackages at h
  dsimp only at h
  split at h
  · cases h
    decide
  · split at h
    · cases h
      decide
    · split at h
      · cases h
        decide
      · split at h <;> cases h

set_option maxRecDepth 8000 in
theorem readable_openable : Openable twoPackages {} readable "p.zip" := by
  constructor
  · intro e he
    have hself : readable = readable := rfl
    unfold twoPackages at he
    dsimp only at he
    rw [if_pos hself] at he
    cases he
  · decide

theorem extraction_contained_readable : Extracts twoPackages {} readable "p.zip" := by
  have h : Extracts twoPackages {} readable "p.zip" ↔ Openable twoPackages {} readable "p.zip" :=
    extraction_contained twoPackages_honest readable "p.zip"
  rw [h]
  exact readable_openable

set_option maxRecDepth 8000 in
/-- a nested archive that needs a newer version of the format -/
theorem unsupported_version_escapes :
    twoPackages.Honest ∧ ¬ Extracts twoPackages {} unsupported "p.zip" := by
  refine ⟨twoPackages_honest, not_extracts ?_⟩
  decide

end LifeAI.Zip
