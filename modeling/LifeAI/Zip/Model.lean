import LifeAI.Import.Rows
import Mathlib.Algebra.Group.Nat.Defs

/-!
# The extraction of ZIP packages

`rag/zip_import.py`.

* `Library`           what the module calls: `zipfile`, `hashlib`, `json` and `str`;
* `Member`            an entry of an archive, with the stream that reading it yields;
* `Extraction`        the shared budget and the rows so far;
* `extractRecursive`  over the members of an archive and of the archives in it;
* `validateAndExtractZip`.
-/

namespace LifeAI.Zip

abbrev Bytes := List UInt8

inductive PyKind where
  | badZipFile
  | runtimeError
  | notImplementedError
  | unicodeDecodeError
  /-- any other subclass of `Exception` -/
  | other
  deriving DecidableEq

structure PyError where
  kind : PyKind
  text : String
  deriving DecidableEq

inductive Exn where
  | zipSecurity (message : String)
  | raised (e : PyError)
  deriving DecidableEq

/-- a `ZipInfo`, the chunks that `fh.read` returns for it, and what opening or reading it raises
after them -/
structure Member where
  filename : String
  fileSize : Nat
  compressSize : Nat
  chunks : List Bytes
  fault : Option PyError := none
  deriving DecidableEq

structure Library where
  /-- the hex digest -/
  sha256 : Bytes → String
  /-- `zipfile.ZipFile(io.BytesIO(raw))` with its `infolist()` -/
  zipFile : Bytes → Except PyError (List Member)
  /-- `json.loads(content.decode("utf-8"))`, or the text of what it raises -/
  loads : Bytes → Except String Json
  /-- `repr` of a string -/
  repr : String → String
  /-- `f"{a / b:.0f}"` -/
  ratioText : Nat → Nat → String

structure Limits where
  maxFiles : Nat := 500
  maxTotalBytes : Nat := 200 * 1024 * 1024
  maxFileBytes : Nat := 25 * 1024 * 1024
  maxNestingDepth : Nat := 3

def maxCompressionRatio : Nat := 100
def minCompressedSizeForRatioCheck : Nat := 256
def archivePathSeparator : String := "!/"

def executableExtensions : List String :=
  [".exe", ".dll", ".so", ".bin", ".bat", ".cmd", ".com", ".msi", ".ps1", ".sh", ".app", ".scr",
    ".jar", ".apk", ".vbs", ".psm1", ".dylib"]

def allowedExtensions : List String :=
  [".pdf", ".docx", ".txt", ".md", ".markdown", ".json", ".html", ".htm", ".csv"]

def magicBytes : List (String × List Bytes) :=
  [(".pdf", [[0x25, 0x50, 0x44, 0x46, 0x2d]]), (".docx", [[0x50, 0x4b, 0x03, 0x04]])]

inductive EntryStatus where
  | ok | skipped | rejected | encrypted
  deriving DecidableEq

/-- a segment of an `archive_chain` -/
structure Segment where
  filename : String
  checksum : String
  deriving DecidableEq

structure ZipEntryResult where
  filename : String
  status : EntryStatus
  reason : Option String := none
  content : Option Bytes := none
  checksum : Option String := none
  uncompressedSize : Option Nat := none
  archivePath : Option String := none
  archiveChain : Option (List Segment) := none
  deriving DecidableEq

/-- `_ExtractionBudget` and `entries_out` -/
structure Extraction where
  totalUncompressedBytes : Nat := 0
  totalFiles : Nat := 0
  entries : List ZipEntryResult := []
  /-- no variable: the archives opened so far, with their depth -/
  opened : List (Nat × List Member) := []
  deriving DecidableEq

def Extraction.add (x : Extraction) (e : ZipEntryResult) : Extraction :=
  { x with entries := x.entries ++ [e] }

/-! ## names -/

def replaceBackslashes (name : String) : List Char :=
  name.toList.map fun c => if c = '\\' then '/' else c

/-- `_is_safe_member_name` -/
def isSafeMemberName (name : String) : Bool :=
  if blank name then false
  else if name.toList.head? = some '/' ∨ name.toList.head? = some '\\' then false
  else if name.toList[1]? = some ':' then false
  else ['.', '.'] ∉ (replaceBackslashes name).splitOn '/'

/-- `_normalize_member_name` -/
def normalizeMemberName (name : String) : String := String.ofList (replaceBackslashes name)

/-- `_sanitize_outer_filename` -/
def sanitizeOuterFilename (name : String) : String :=
  let base := Import.pathName (normalizeMemberName name)
  if base = [] then "archive.zip" else String.ofList base

/-- `str.lower` of a character, for those that lower to ASCII: the Kelvin sign is one -/
def lowerChar (c : Char) : Char := if c = '\u212a' then 'k' else c.toLower

/-- `PurePosixPath(name).suffix.lower()` -/
def suffix (name : String) : String :=
  let base := Import.pathName name
  let last := (base.reverse.takeWhile (· ≠ '.')).reverse
  if 0 < last.length ∧ last.length + 1 < base.length then
    String.ofList ('.' :: last.map lowerChar)
  else ""

/-- `ZipInfo.is_dir` -/
def Member.isDir (m : Member) : Bool := m.filename.toList.getLast? = some '/'

def realEntries (zf : List Member) : List Member := zf.filter fun m => ¬ m.isDir

/-- `_magic_bytes_ok` -/
def magicBytesOk (suffix : String) (content : Bytes) : Bool :=
  match (magicBytes.find? (·.1 = suffix)).map (·.2) with
  | none => true
  | some signatures => signatures.any fun sig => sig <+: content

/-! ## one member -/

variable (lib : Library) (lim : Limits)

/-- the loop of `_read_with_hard_cap` -/
def readChunks (filename : String) (maxBytes : Nat) (fault : Option PyError) (produced : Nat) :
    List Bytes → Except Exn Bytes
  | [] => match fault with
    | some e => .error (.raised e)
    | none => .ok []
  | chunk :: chunks =>
    if chunk = [] then .ok []
    else
      let produced := produced + chunk.length
      if maxBytes < produced then
        let name := lib.repr filename
        .error (.zipSecurity (s!"{name} packar upp till mer än {maxBytes} bytes — avbryter "
          ++ "läsningen (möjlig zip bomb eller förfalskad storleksmetadata)."))
      else (readChunks filename maxBytes fault produced chunks).map (chunk ++ ·)

/-- `_read_with_hard_cap` -/
def readWithHardCap (info : Member) (maxBytes : Nat) : Except Exn Bytes :=
  readChunks lib info.filename maxBytes info.fault 0 info.chunks

/-- `_classify_unreadable_entry`, for a `RuntimeError` or a `NotImplementedError` -/
def classifyUnreadableEntry (e : PyError) : EntryStatus × String :=
  let text := e.text.toList.map Char.toLower
  let reason := e.text
  if "encrypt".toList <:+: text ∨ "password".toList <:+: text then
    (.encrypted, "Filen/arkivet är lösenordsskyddat — kan inte läsas automatiskt.")
  else (.rejected, s!"Kunde inte läsa filen: {reason}")

/-- the row of a member that could not be read -/
def unreadable (name : String) (e : PyError) : ZipEntryResult :=
  let reason := e.text
  if e.kind = .runtimeError ∨ e.kind = .notImplementedError then
    { filename := name
      status := (classifyUnreadableEntry e).1
      reason := some (classifyUnreadableEntry e).2 }
  else { filename := name, status := .rejected, reason := some s!"Kunde inte läsa filen: {reason}" }

/-- `info.file_size / compressed > MAX_COMPRESSION_RATIO` for the quotient as a float, which is
the nearest one: more than half of the distance of the floats above 100 -/
def ratioExceeded (fileSize compressed : Nat) : Bool :=
  compressed * (maxCompressionRatio * 2 ^ 47 + 1) < fileSize * 2 ^ 47

def tooLarge (info : Member) : ZipEntryResult :=
  let size := info.fileSize
  let maxFileBytes := lim.maxFileBytes
  { filename := info.filename
    status := .rejected
    reason := some (s!"Filen är för stor enligt arkivets metadata ({size} bytes, max "
      ++ s!"{maxFileBytes}).") }

/-- the checks on the metadata, and the row of a member that is too large -/
def checkMetadata (x : Extraction) (info : Member) :
    Except Exn (Extraction × Option ZipEntryResult) :=
  let name := lib.repr info.filename
  if ¬ isSafeMemberName info.filename then
    .error (.zipSecurity s!"Osäker sökväg i arkivet — avbryter hela importen: {name}")
  else
    let x := { x with totalFiles := x.totalFiles + 1 }
    let maxFiles := lim.maxFiles
    let maxTotalBytes := lim.maxTotalBytes
    let files := x.totalFiles
    if maxFiles < x.totalFiles then
      .error (.zipSecurity s!"För många filer i paketet (minst {files} st, max {maxFiles}).")
    else if lim.maxFileBytes < info.fileSize then .ok (x, some (tooLarge lim info))
    else
      let x := { x with totalUncompressedBytes := x.totalUncompressedBytes + info.fileSize }
      let compressed := if info.compressSize = 0 then 1 else info.compressSize
      let ratio := lib.ratioText info.fileSize compressed
      if maxTotalBytes < x.totalUncompressedBytes then
        .error (.zipSecurity (s!"Paketets totala uppackade storlek överskrider gränsen "
          ++ s!"({maxTotalBytes} bytes) — avbryter hela importen."))
      else if minCompressedSizeForRatioCheck ≤ compressed ∧ ratioExceeded info.fileSize compressed then
        .error (.zipSecurity (s!"Orimlig komprimeringsgrad för {name} ({ratio}x) — avbryter hela "
          ++ "importen (möjlig zip bomb)."))
      else .ok (x, none)

/-- what becomes of a member past the checks on its metadata -/
inductive Outcome where
  | row (e : ZipEntryResult)
  /-- the bytes of a nested archive -/
  | archive (content : Bytes)

/-- the row of a supported file -/
def leaf (depth : Nat) (chainPrefix : List Segment) (name : String) (content : Bytes) :
    ZipEntryResult :=
  let checksum := lib.sha256 content
  let fullChain := chainPrefix ++ [{ filename := normalizeMemberName name, checksum }]
  { filename := name
    status := .ok
    content := some content
    checksum := some checksum
    uncompressedSize := some content.length
    archivePath := if depth = 0 then none
      else some (archivePathSeparator.intercalate (fullChain.map (·.filename)))
    archiveChain := if depth = 0 then none else some fullChain }

def processMember (depth : Nat) (chainPrefix : List Segment) (info : Member) :
    Except Exn Outcome :=
  let name := info.filename
  let suffix := suffix name
  let shown := if suffix = "" then "(ingen)" else suffix
  if suffix ∈ executableExtensions then
    .ok (.row
      { filename := name
        status := .skipped
        reason := some "Körbara filer importeras aldrig." })
  else if suffix ≠ ".zip" ∧ suffix ∉ allowedExtensions then
    .ok (.row
      { filename := name, status := .skipped, reason := some s!"Filtypen {shown} stöds inte." })
  else
    match readWithHardCap lib info lim.maxFileBytes with
    | .error (.zipSecurity message) => .error (.zipSecurity message)
    | .error (.raised e) => .ok (.row (unreadable name e))
    | .ok content =>
      if suffix = ".zip" then .ok (.archive content)
      else if ¬ magicBytesOk suffix content then
        .ok (.row
          { filename := name
            status := .rejected
            reason := some "Filens innehåll matchar inte filändelsen." })
      else .ok (.row (leaf lib depth chainPrefix name content))

/-! ## archives -/

def tooDeep (name : String) : ZipEntryResult :=
  let maxNestingDepth := lim.maxNestingDepth
  { filename := name
    status := .rejected
    reason := some s!"Nästlingsdjupet överskrider gränsen (max {maxNestingDepth} nivåer)." }

def notAZip (name : String) : ZipEntryResult :=
  { filename := name
    status := .rejected
    reason := some "Nästlat arkiv kunde inte läsas (skadat eller inte en riktig ZIP)." }

/-- One member.  `below` is the call for the members of a nested archive; there is none where
`depth >= max_nesting_depth`. -/
def processEntry (depth : Nat) (chainPrefix : List Segment)
    (below : Option (List Segment → List Member → Extraction → Except Exn Extraction))
    (x : Extraction) (info : Member) : Except Exn Extraction := do
  let (x, tooLarge) ← checkMetadata lib lim x info
  match tooLarge with
  | some row => .ok (x.add row)
  | none =>
    match ← processMember lib lim depth chainPrefix info with
    | .row row => .ok (x.add row)
    | .archive content =>
      match below with
      | none => .ok (x.add (tooDeep lim info.filename))
      | some below =>
        match lib.zipFile content with
        | .error e =>
          if e.kind = .badZipFile then .ok (x.add (notAZip info.filename)) else .error (.raised e)
        | .ok nested =>
          below (chainPrefix ++ [⟨normalizeMemberName info.filename, lib.sha256 content⟩]) nested
            { x with opened := x.opened ++ [(depth + 1, nested)] }

/-- `_extract_recursive`, with `left` levels below -/
def extractRecursive : (left depth : Nat) → List Segment → List Member → Extraction →
    Except Exn Extraction
  | 0, depth, chainPrefix, zf, x =>
    (realEntries zf).foldlM (processEntry lib lim depth chainPrefix none) x
  | left + 1, depth, chainPrefix, zf, x =>
    (realEntries zf).foldlM
      (processEntry lib lim depth chainPrefix (some (extractRecursive left (depth + 1)))) x

structure ZipImportResult where
  entries : List ZipEntryResult
  manifest : Option Json := none
  manifestError : Option String := none

/-- the manifest of the top-level package, or what is wrong with it -/
def readManifest (entries : List ZipEntryResult) : Option (Except String Json) :=
  (entries.find? fun e => e.archivePath = none ∧
    (Import.pathName e.filename).map lowerChar = "manifest.json".toList ∧ e.status = .ok).map
      fun e => match lib.loads (e.content.getD []) with
        | .error text => .error s!"manifest.json kunde inte tolkas: {text}"
        | .ok (.obj fields) => .ok (.obj fields)
        | .ok _ => .error ("manifest.json kunde inte tolkas: "
            ++ "manifest.json måste vara ett JSON-objekt.")

/-- the result, with the archives that were opened -/
def validateAndExtractZip (raw : Bytes) (outerFilename : String) :
    Except Exn (ZipImportResult × List (Nat × List Member)) := do
  match lib.zipFile raw with
  | .error e =>
    let text := e.text
    if e.kind = .badZipFile then
      .error (.zipSecurity s!"Filen är inte ett giltigt ZIP-arkiv: {text}")
    else .error (.raised e)
  | .ok zf =>
    let x ← extractRecursive lib lim lim.maxNestingDepth 0
      [⟨sanitizeOuterFilename outerFilename, lib.sha256 raw⟩] zf { opened := [(0, zf)] }
    let manifest := readManifest lib x.entries
    .ok
      ({ entries := x.entries
         manifest := manifest.bind fun m => m.toOption
         manifestError := manifest.bind fun m => match m with
           | .error text => some text
           | .ok _ => none }, x.opened)

end LifeAI.Zip
