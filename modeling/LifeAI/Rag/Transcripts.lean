import LifeAI.Lib.Packing
import LifeAI.Rag.Chunking
import Mathlib.Data.List.DropRight

/-!
# Chunks of a transcript

`media_import.py`.  Seconds are copied only.

* `chunkSegments`   `chunk_segments`, a fold with its five variables;
* `Chunker.Open`    the open chunk is a group of segments;
* `chunkSegments_eq`   the chunks are the packed groups;
* `Partitions`      what the chunks of a transcript are;
* `partitions_iff`  **`chunk_segments` returns such chunks exactly when no packed group is too long**.
-/

namespace LifeAI.Rag

open Packing

/-- `str.strip` -/
def strip (text : List Char) : List Char := (text.dropWhile isspace).rdropWhile isspace

variable {Seconds : Type}

structure TranscriptSegment (Seconds : Type) where
  startSeconds : Seconds
  endSeconds : Seconds
  text : List Char
  deriving DecidableEq

/-- `_TimedChunk` -/
structure TimedChunk (Seconds : Type) where
  text : List Char
  startSeconds : Option Seconds
  endSeconds : Option Seconds
  deriving DecidableEq

/-- the variables of `chunk_segments` -/
structure Chunker (Seconds : Type) where
  chunks : List (TimedChunk Seconds) := []
  currentTexts : List (List Char) := []
  currentWords : ℕ := 0
  currentStart : Option Seconds := none
  currentEnd : Option Seconds := none

namespace Chunker

/-- `_flush` -/
def flush (c : Chunker Seconds) : Chunker Seconds :=
  if c.currentTexts.isEmpty then c
  else { c with chunks := c.chunks ++ [⟨join c.currentTexts, c.currentStart, c.currentEnd⟩] }

/-- one segment -/
def take (chunkSize : ℕ) (c : Chunker Seconds) (seg : TranscriptSegment Seconds) : Chunker Seconds :=
  let text := strip seg.text
  if text.isEmpty then c
  else
    let wordCount := (split text).length
    let c :=
      if ¬ c.currentTexts.isEmpty ∧ chunkSize < c.currentWords + wordCount then
        { c.flush with currentTexts := [], currentWords := 0, currentStart := none }
      else c
    { c with
      currentStart := c.currentStart.or (some seg.startSeconds)
      currentEnd := some seg.endSeconds
      currentTexts := c.currentTexts ++ [text]
      currentWords := c.currentWords + wordCount }

end Chunker

/-- `chunk_segments` -/
def chunkSegments (segments : List (TranscriptSegment Seconds)) (chunkSize : ℕ) :
    List (TimedChunk Seconds) :=
  (segments.foldl (Chunker.take chunkSize) {}).flush.chunks

/-! ## what is asked of the chunks -/

namespace TranscriptSegment

def stripped (seg : TranscriptSegment Seconds) : List Char := strip seg.text

/-- the words of a segment -/
def words (seg : TranscriptSegment Seconds) : ℕ := (split seg.stripped).length

/-- the characters of a segment in a chunk, with the space after it -/
def chars (seg : TranscriptSegment Seconds) : ℕ := seg.stripped.length + 1

end TranscriptSegment

/-- the segments that are not blank -/
def spoken (segments : List (TranscriptSegment Seconds)) : List (TranscriptSegment Seconds) :=
  segments.filter fun seg => ¬ seg.stripped.isEmpty

/-- the chunk of a group of segments -/
structure ChunkOf (g : List (TranscriptSegment Seconds)) (chunk : TimedChunk Seconds) : Prop where
  text : chunk.text = join (g.map (·.stripped))
  startSeconds : chunk.startSeconds = g.head?.map (·.startSeconds)
  endSeconds : chunk.endSeconds = g.getLast?.map (·.endSeconds)

/-- the chunks split the segments that are not blank, and are short -/
structure Partitions (segments : List (TranscriptSegment Seconds)) (chunkSize : ℕ)
    (chunks : List (TimedChunk Seconds)) : Prop where
  groups : ∃ groups, Packed TranscriptSegment.words chunkSize (spoken segments) groups ∧
    List.Forall₂ ChunkOf groups chunks
  short : ∀ chunk ∈ chunks, chunk.text.length ≤ maxChunkChars

variable {segments g : List (TranscriptSegment Seconds)} {chunkSize : ℕ} {c : Chunker Seconds}
  {seg : TranscriptSegment Seconds}

/-! ## the fold -/

/-- the chunk of a group -/
def chunkOf (g : List (TranscriptSegment Seconds)) : TimedChunk Seconds where
  text := join (g.map (·.stripped))
  startSeconds := g.head?.map (·.startSeconds)
  endSeconds := g.getLast?.map (·.endSeconds)

/-- the open chunk is the group `g` -/
structure Chunker.Open (c : Chunker Seconds) (g : List (TranscriptSegment Seconds)) : Prop where
  texts : c.currentTexts = g.map (·.stripped)
  words : c.currentWords = Packing.total TranscriptSegment.words g
  start : c.currentStart = g.head?.map (·.startSeconds)
  stop : g ≠ [] → c.currentEnd = g.getLast?.map (·.endSeconds)

theorem Chunker.Open.flush (h : c.Open g) :
    c.flush.chunks = c.chunks ++ if g.isEmpty then [] else [chunkOf g] := by
  unfold Chunker.flush
  rw [h.texts, List.isEmpty_map]
  split_ifs with hempty
  · exact (List.append_nil _).symm
  · have hne : g ≠ [] := fun hnil => hempty (List.isEmpty_iff.2 hnil)
    rw [h.start, h.stop hne]
    rfl

/-- a segment that is not blank opens a chunk or joins the open one -/
theorem Chunker.Open.take (h : c.Open g) (hseg : seg.stripped.isEmpty = false) :
    let full := ¬ g.isEmpty ∧ chunkSize < Packing.total TranscriptSegment.words g + seg.words
    (c.take chunkSize seg).Open (if full then [seg] else g ++ [seg]) ∧
      (c.take chunkSize seg).chunks = c.chunks ++ if full then [chunkOf g] else [] := by
  intro full
  have htexts : c.currentTexts.isEmpty = g.isEmpty := by
    rw [h.texts, List.isEmpty_map]
  have hfull : (¬ c.currentTexts.isEmpty ∧
      chunkSize < c.currentWords + (split (strip seg.text)).length) ↔ full := by
    rw [htexts, h.words]
    rfl
  have hblank : ¬ (strip seg.text).isEmpty = true := Bool.not_eq_true _ ▸ hseg
  unfold Chunker.take
  dsimp only
  rw [if_neg hblank]
  by_cases hover : full
  · rw [if_pos (hfull.2 hover), if_pos hover, if_pos hover]
    refine ⟨⟨rfl, ?_, rfl, fun _ => rfl⟩, ?_⟩
    · show 0 + seg.words = seg.words + 0
      omega
    · have hflush := h.flush
      rw [if_neg hover.1] at hflush
      exact hflush
  · rw [if_neg (fun hno => hover (hfull.1 hno)), if_neg hover, if_neg hover]
    refine ⟨⟨?_, ?_, ?_, fun _ => ?_⟩, (List.append_nil _).symm⟩
    · show c.currentTexts ++ [seg.stripped] = _
      rw [h.texts, List.map_append]
      rfl
    · show c.currentWords + seg.words = _
      rw [h.words, total_append]
      rfl
    · show c.currentStart.or (some seg.startSeconds) = _
      rw [h.start]
      cases g with
      | nil => rfl
      | cons x g => rfl
    · rw [List.getLast?_concat]
      rfl

theorem foldl_chunks (h : c.Open g) (segments : List (TranscriptSegment Seconds)) :
    (segments.foldl (Chunker.take chunkSize) c).flush.chunks =
      c.chunks ++ (pack TranscriptSegment.words chunkSize g (spoken segments)).map chunkOf := by
  induction segments generalizing c g with
  | nil =>
    show c.flush.chunks = c.chunks ++ (pack TranscriptSegment.words chunkSize g []).map chunkOf
    rw [h.flush]
    unfold pack
    split_ifs with hempty
    · rfl
    · rfl
  | cons seg segments ih =>
    rw [List.foldl_cons]
    cases hblank : seg.stripped.isEmpty with
    | true =>
      have hskip : c.take chunkSize seg = c := if_pos hblank
      have hspoken : spoken (seg :: segments) = spoken segments :=
        List.filter_cons_of_neg (by simp [hblank])
      rw [hskip, hspoken]
      exact ih h
    | false =>
      have hspoken : spoken (seg :: segments) = seg :: spoken segments :=
        List.filter_cons_of_pos (by simp [hblank])
      obtain ⟨hopen, hchunks⟩ : (c.take chunkSize seg).Open _ ∧ (c.take chunkSize seg).chunks = _ :=
        h.take hblank
      rw [ih hopen, hchunks, hspoken]
      conv_rhs => unfold pack
      split_ifs with hover
      · rw [List.append_assoc]
        rfl
      · rw [List.append_nil]

/-- the chunks are those of the packed groups -/
theorem chunkSegments_eq (segments : List (TranscriptSegment Seconds)) (chunkSize : ℕ) :
    chunkSegments segments chunkSize =
      (pack TranscriptSegment.words chunkSize [] (spoken segments)).map chunkOf :=
  foldl_chunks ⟨rfl, rfl, rfl, fun h => absurd rfl h⟩ segments

/-! ## the lengths -/

theorem length_join {texts : List (List Char)} (h : texts ≠ []) :
    (join texts).length + 1 = (texts.map (·.length + 1)).sum := by
  induction texts with
  | nil => exact absurd rfl h
  | cons text texts ih =>
    cases texts with
    | nil => simp [join]
    | cons next texts =>
      have hrest := ih (List.cons_ne_nil next texts)
      have hjoin : join (text :: next :: texts) = text ++ ' ' :: join (next :: texts) := by
        simp [join, List.intercalate]
      rw [hjoin, List.map_cons, List.sum_cons, ← hrest, List.length_append, List.length_cons]
      omega

theorem length_chunkOf (hg : g ≠ []) :
    (chunkOf g).text.length + 1 = Packing.total TranscriptSegment.chars g := by
  have hne : g.map (·.stripped) ≠ [] := fun hnil => hg (List.map_eq_nil_iff.1 hnil)
  show (join (g.map (·.stripped))).length + 1 = _
  rw [length_join hne, List.map_map]
  rfl

/-- the chunks are short where the groups are -/
theorem short_iff {groups : List (List (TranscriptSegment Seconds))}
    (hpacked : Packed TranscriptSegment.words chunkSize (spoken segments) groups) :
    (∀ chunk ∈ chunkSegments segments chunkSize, chunk.text.length ≤ maxChunkChars) ↔
      ∀ g ∈ groups, Packing.total TranscriptSegment.chars g ≤ maxChunkChars + 1 := by
  rw [chunkSegments_eq, ← hpacked.unique (packed_pack_nil _), List.forall_mem_map]
  refine forall₂_congr fun g hg => ?_
  have hlength := length_chunkOf (hpacked.nonempty g hg)
  omega

/-- the chunks split the transcript as they should exactly when every group that is filled in turn
has few enough characters -/
theorem partitions_iff (segments : List (TranscriptSegment Seconds)) (chunkSize : ℕ) :
    Partitions segments chunkSize (chunkSegments segments chunkSize) ↔
      ∀ groups, Packed TranscriptSegment.words chunkSize (spoken segments) groups →
        ∀ g ∈ groups, Packing.total TranscriptSegment.chars g ≤ maxChunkChars + 1 := by
  constructor
  · intro h groups hgroups
    exact (short_iff hgroups).1 h.short
  · intro h
    refine ⟨⟨_, packed_pack_nil _, ?_⟩, (short_iff (packed_pack_nil _)).2 (h _ (packed_pack_nil _))⟩
    rw [chunkSegments_eq, List.forall₂_map_right_iff, List.forall₂_same]
    exact fun g _ => ⟨rfl, rfl, rfl⟩

theorem total_singleton (seg : TranscriptSegment Seconds) :
    Packing.total TranscriptSegment.chars [seg] = seg.stripped.length + 1 := Nat.add_zero _

/-- one segment of a text that is too long for one chunk -/
def unbroken : TranscriptSegment ℕ where
  startSeconds := 0
  endSeconds := 9
  text := List.replicate (maxChunkChars + 1) 'a'

/-- a text without spaces is not cut -/
theorem unbroken_not_short : ¬ ∀ (segments : List (TranscriptSegment ℕ)) (chunkSize : ℕ),
    1 ≤ chunkSize → Partitions segments chunkSize (chunkSegments segments chunkSize) := by
  intro h
  have hstripped : unbroken.stripped = unbroken.text := by
    have hall : ∀ c ∈ unbroken.text, isspace c = false := fun c hc => by
      rw [List.eq_of_mem_replicate hc]
      decide
    have hdrop : ∀ l : List Char, (∀ c ∈ l, isspace c = false) → l.dropWhile isspace = l := by
      intro l hl
      cases l with
      | nil => rfl
      | cons c l => exact List.dropWhile_cons_of_neg (by simp [hl c List.mem_cons_self])
    show ((unbroken.text.dropWhile isspace).rdropWhile isspace) = unbroken.text
    rw [hdrop _ hall, List.rdropWhile, hdrop _ fun c hc => hall c (List.mem_reverse.1 hc),
      List.reverse_reverse]
  have hlength : unbroken.stripped.length = maxChunkChars + 1 := by
    rw [hstripped]
    exact List.length_replicate
  have hspoken : spoken [unbroken] = [unbroken] := by
    refine List.filter_cons_of_pos ?_
    have hne : unbroken.stripped ≠ [] := fun hnil => by
      rw [hnil] at hlength
      cases hlength
    simpa using hne
  have hpacked : Packed TranscriptSegment.words 800 (spoken [unbroken]) [[unbroken]] := by
    rw [hspoken]
    refine ⟨rfl, fun g hg => ?_, fun g hg hlen => ?_, .singleton _⟩
    · rw [List.mem_singleton.1 hg]
      exact List.cons_ne_nil _ _
    · rw [List.mem_singleton.1 hg] at hlen
      exact absurd hlen (by decide)
  have hshort := (short_iff hpacked).1 (h [unbroken] 800 (by decide)).short [unbroken]
    List.mem_cons_self
  rw [total_singleton, hlength] at hshort
  omega

end LifeAI.Rag
