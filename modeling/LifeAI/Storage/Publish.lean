import LifeAI.Storage.LocalFs
import Mathlib.Data.Set.Function

/-!
# Publishing a blob

Calls of `write_stream` and `delete` in any order, step by step, over any files.

* `Write.Sound`  where a call stands, its temporary file and its final path agree;
* `Intact`       every call is sound, no shard is locked twice, and every blob is whole;
* `always_published`  what a call returns, or raises, tells what it left at the final path;
* `blob_stays`      a blob is read back as it was stored, until it is deleted.
-/

namespace LifeAI.Storage

variable {h : Sha256} {f f' : Files} {i j : CallId} {w : Write} {env : Env}

/-! ## keys -/

theorem toList_shard_finalKey (c : Bytes) :
    (finalKey h c).toList = (h.hexdigest c).toList.take 2 ++ '/' :: (h.hexdigest c).toList := by
  unfold finalKey shard
  simp

/-- the lock of a blob is the one of its key -/
theorem shard_finalKey (c : Bytes) : shard (finalKey h c) = shard (h.hexdigest c) := by
  have hlen : ((h.hexdigest c).toList.take 2).length = 2 := by
    rw [List.length_take, h.length_eq]
    rfl
  unfold shard
  rw [toList_shard_finalKey, List.take_append_of_le_length (by omega), List.take_take, Nat.min_self]

/-- a key that `write_stream` constructs passes the check -/
theorem isStorageKey_finalKey (c : Bytes) : isStorageKey (finalKey h c) := by
  have hdigest := h.length_eq c
  have hlen : ((h.hexdigest c).toList.take 2).length = 2 := by
    rw [List.length_take, hdigest]
    rfl
  have hbody : ((finalKey h c).toList.take 67) = (finalKey h c).toList := by
    apply List.take_of_length_le
    rw [toList_shard_finalKey, List.length_append, List.length_cons, hdigest, hlen]
  unfold isStorageKey
  dsimp only
  rw [hbody, toList_shard_finalKey]
  refine decide_eq_true ⟨.inl ?_, ?_, ?_, ?_⟩
  · rw [List.length_append, List.length_cons, hdigest, hlen]
  · rw [List.take_append_of_le_length (by omega), List.all_eq_true]
    exact fun x hx => h.hex c x (List.mem_of_mem_take (List.mem_of_mem_take hx))
  · rw [List.getElem?_append_right (by omega), hlen]
    rfl
  · have hdrop : ((h.hexdigest c).toList.take 2 ++ '/' :: (h.hexdigest c).toList).drop 3 =
        (h.hexdigest c).toList := by
      rw [List.drop_append, hlen, List.drop_eq_nil_of_le (by omega)]
      rfl
    rw [hdrop, List.all_eq_true]
    exact h.hex c

/-! ## the stream -/

/-- the bytes of the stream, unless `read_chunk` raises before its end -/
def streamOf : List (Option Bytes) → Option Bytes
  | [] | some [] :: _ => some []
  | none :: _ => none
  | some chunk :: rest => (streamOf rest).map (chunk ++ ·)

/-! ## files -/

@[simp] theorem Files.setBlob_self (key : String) (c : Option Bytes) :
    (f.setBlob key c).blobs key = c := Function.update_self ..

theorem Files.setBlob_ne {key k : String} (hk : k ≠ key) (c : Option Bytes) :
    (f.setBlob key c).blobs k = f.blobs k := Function.update_of_ne hk ..

/-- a blob that is not what it was is the one that was set -/
theorem Files.eq_of_setBlob {key k : String} {c : Option Bytes}
    (hset : f'.blobs k = (f.setBlob key c).blobs k) (hchanged : f'.blobs k ≠ f.blobs k) :
    k = key := by
  by_contra hk
  exact hchanged (hset.trans (Files.setBlob_ne hk c))

@[simp] theorem Files.setTemp_self (c : Option Bytes) : (f.setTemp i c).temps i = c :=
  Function.update_self ..

theorem Files.setTemp_ne (hj : j ≠ i) (c : Option Bytes) :
    (f.setTemp i c).temps j = f.temps j := Function.update_of_ne hj ..

@[simp] theorem Files.setTemp_blobs (c : Option Bytes) : (f.setTemp i c).blobs = f.blobs := rfl

/-! ## one call -/

/-- the errors that can follow the publication -/
def Exn.late : Exn → Bool
  | .osError call => call ∈ [.fsyncDir, .stat, .read, .unlock, .unlink]
  | _ => false

/-- what a call that raises `e` has left at its final path -/
def Write.Leaves (w : Write) : Option Exn → Prop
  | none => streamOf w.chunks = some w.sent ∧ w.left = some (some w.sent)
  | some e =>
    w.left = w.found ∨ e.late ∧ streamOf w.chunks = some w.sent ∧ w.left = some (some w.sent)

/-- what stands at the final path of a call that is about to raise `e`, under the lock -/
def Write.Holds (w : Write) (here : Option Bytes) : Option Exn → Prop
  | none => streamOf w.chunks = some w.sent ∧ here = some w.sent
  | some e => w.found = some here ∨ e.late ∧ streamOf w.chunks = some w.sent ∧ here = some w.sent

variable (h f i) in
/-- where a call stands, its temporary file and its final path agree -/
def Write.Sound (w : Write) : Prop :=
  let here := f.blobs (w.key h)
  match w.stage with
  | .opening => f.temps i = none ∧ w.sent = [] ∧ w.rest = w.chunks ∧ w.left = w.found
  | .reading => f.temps i = some w.sent ∧
      streamOf w.chunks = (streamOf w.rest).map (w.sent ++ ·) ∧ w.left = w.found
  | .syncing | .preparing | .locking =>
    f.temps i = some w.sent ∧ streamOf w.chunks = some w.sent ∧ w.left = w.found
  | .linking | .statting | .hashing | .replacing =>
    f.temps i = some w.sent ∧ streamOf w.chunks = some w.sent ∧ w.found = some here
  | .flushing _ | .checking => w.Holds here none
  | .unlocking e => w.Holds here e
  | .removing e => w.Leaves e
  | .done (.ok blob) => f.temps i = none ∧ w.Leaves none ∧ blob = w.blob h
  | .done (.error e) => (e ≠ .osError .unlink → f.temps i = none) ∧ w.Leaves (some e)
  | .died => True

namespace Write

/-- a call stays sound when others keep its temporary file, and its blob while it holds the lock -/
theorem Sound.frame (hw : w.Sound h f i) (htemp : f'.temps i = f.temps i)
    (hblob : w.stage.locked → f'.blobs (w.key h) = f.blobs (w.key h)) : w.Sound h f' i := by
  unfold Sound at hw ⊢
  rw [htemp]
  cases hst : w.stage with
  | linking | statting | hashing | replacing | flushing | checking | unlocking =>
    rw [hst] at hw hblob
    rw [hblob rfl]
    exact hw
  | done r =>
    rw [hst] at hw
    cases r <;> exact hw
  | _ =>
    rw [hst] at hw
    exact hw

/-- the loop keeps what it has read and what it has still to read together -/
theorem read_sound (hst : w.stage = .reading) (hw : w.Sound h f i) :
    (w.read env f i).2.Sound h (w.read env f i).1 i := by
  unfold Sound at hw
  rw [hst] at hw
  obtain ⟨htemp, hstream, hleft⟩ := hw
  unfold read
  cases hrest : w.rest with
  | nil =>
    rw [hrest] at hstream
    refine ⟨htemp, ?_, hleft⟩
    show streamOf w.chunks = some w.sent
    rw [hstream]
    simp [streamOf]
  | cons chunk rest =>
    rw [hrest] at hstream
    cases chunk with
    | none => exact .inl hleft
    | some chunk =>
      cases chunk with
      | nil =>
        refine ⟨htemp, ?_, hleft⟩
        show streamOf w.chunks = some w.sent
        rw [hstream]
        simp [streamOf]
      | cons b bs =>
        dsimp only
        split_ifs with hsize hio
        · exact .inl hleft
        · exact .inl hleft
        · unfold Sound
          dsimp only
          rw [hst]
          refine ⟨Files.setTemp_self _, ?_, hleft⟩
          show streamOf w.chunks = (streamOf rest).map (w.sent ++ b :: bs ++ ·)
          rw [hstream]
          simp only [streamOf, Option.map_map]
          congr 1
          funext c
          exact (List.append_assoc ..).symm

/-- the next system call of a sound call, when no other content has its hash -/
theorem next_sound (hw : w.Sound h f i) {C : Set Bytes} (hC : Set.InjOn h.hexdigest C)
    (hfiles : ∀ key c, f.blobs key = some c → c ∈ C)
    (hstream : ∀ c, streamOf w.chunks = some c → c ∈ C) :
    (w.next h env f i).2.Sound h (w.next h env f i).1 i := by
  unfold Sound at hw
  unfold next
  cases hst : w.stage with
  | opening =>
    rw [hst] at hw
    obtain ⟨htemp, hsent, hrest, hleft⟩ := hw
    dsimp only
    split_ifs
    · exact ⟨fun _ => htemp, .inl hleft⟩
    · refine ⟨(Files.setTemp_self _).trans (congrArg some hsent.symm), ?_, hleft⟩
      show streamOf w.chunks = (streamOf w.rest).map (w.sent ++ ·)
      rw [hrest, hsent]
      exact Option.map_id'.symm
  | reading => exact read_sound hst hw
  | syncing =>
    rw [hst] at hw
    dsimp only
    split_ifs
    · exact .inl hw.2.2
    · exact hw
  | preparing =>
    rw [hst] at hw
    dsimp only
    cases resolve env.resolved (w.key h) with
    | some e => exact .inl hw.2.2
    | none =>
      dsimp only
      split_ifs
      · exact .inl hw.2.2
      · exact hw
  | locking =>
    rw [hst] at hw
    dsimp only
    split_ifs
    · exact .inl hw.2.2
    · exact ⟨hw.1, hw.2.1, rfl⟩
  | linking =>
    rw [hst] at hw
    obtain ⟨htemp, hsent, hfound⟩ := hw
    dsimp only
    split_ifs
    · exact .inl hfound
    · cases hhere : f.blobs (w.key h) with
      | none => exact ⟨hsent, (Files.setBlob_self _ _).trans htemp⟩
      | some existing => exact ⟨htemp, hsent, hfound⟩
  | statting =>
    rw [hst] at hw
    obtain ⟨htemp, hsent, hfound⟩ := hw
    dsimp only
    split_ifs
    · exact .inl hfound
    · cases hhere : f.blobs (w.key h) with
      | none => exact .inl hfound
      | some existing =>
        dsimp only
        split_ifs
        · exact .inl hfound
        · exact ⟨htemp, hsent, hfound⟩
  | hashing =>
    rw [hst] at hw
    obtain ⟨htemp, hsent, hfound⟩ := hw
    dsimp only
    split_ifs
    · exact .inl hfound
    · cases hhere : f.blobs (w.key h) with
      | none => exact .inl hfound
      | some existing =>
        dsimp only
        split_ifs with hsame
        · have heq : existing = w.sent := hC (hfiles _ _ hhere) (hstream _ hsent) hsame
          exact ⟨hsent, hhere.trans (congrArg some heq)⟩
        · exact ⟨htemp, hsent, hfound⟩
  | replacing =>
    rw [hst] at hw
    obtain ⟨htemp, hsent, hfound⟩ := hw
    dsimp only
    split_ifs
    · exact .inl hfound
    · exact ⟨hsent, (Files.setBlob_self _ _).trans htemp⟩
  | flushing repair =>
    rw [hst] at hw
    dsimp only
    split_ifs
    · exact .inr ⟨rfl, hw⟩
    · exact hw
    · exact hw
  | checking =>
    rw [hst] at hw
    have hhere : f.blobs (w.key h) = some w.sent := hw.2
    dsimp only
    split_ifs
    · exact .inr ⟨rfl, hw⟩
    · rw [hhere]
      dsimp only
      rw [if_neg (by simp)]
      exact hw
  | unlocking e =>
    rw [hst] at hw
    cases e with
    | none =>
      have hleft : some (f.blobs (w.key h)) = some (some w.sent) := congrArg some hw.2
      dsimp only
      split_ifs
      · exact .inr ⟨rfl, hw.1, hleft⟩
      · exact ⟨hw.1, hleft⟩
    | some e =>
      dsimp only
      rcases hw with hfound | ⟨hlate, hsent, hhere⟩
      · split_ifs
        · exact .inl hfound.symm
        · exact .inl hfound.symm
      · split_ifs
        · exact .inr ⟨rfl, hsent, congrArg some hhere⟩
        · exact .inr ⟨hlate, hsent, congrArg some hhere⟩
  | removing e =>
    rw [hst] at hw
    cases e with
    | none =>
      dsimp only
      split_ifs
      · exact ⟨fun hne => absurd rfl hne, .inr ⟨rfl, hw⟩⟩
      · exact ⟨Files.setTemp_self _, hw, rfl⟩
    | some e =>
      dsimp only
      split_ifs
      · refine ⟨fun hne => absurd rfl hne, ?_⟩
        rcases hw with hsame | ⟨-, hsent, hleft⟩
        · exact .inl hsame
        · exact .inr ⟨rfl, hsent, hleft⟩
      · exact ⟨fun _ => Files.setTemp_self _, hw⟩
  | done r =>
    rw [hst] at hw
    cases r <;> exact hw
  | died => trivial

variable (h f i w) in
/-- what any system call of a call can do -/
structure Moves (r : Files × Write) : Prop where
  chunks : r.2.chunks = w.chunks
  lock : r.2.stage.locked → r.2.sent = w.sent ∧ (w.stage.locked ∨ w.stage = .locking)
  files : (∃ c, r.1 = f.setTemp i c) ∨ (w.stage = .linking ∨ w.stage = .replacing) ∧
    ∃ c, r.1 = (f.setBlob (w.key h) (f.temps i)).setTemp i c

theorem Files.setTemp_temps (f : Files) (i : CallId) : f.setTemp i (f.temps i) = f := by
  unfold Files.setTemp
  rw [Function.update_eq_self]

/-- a step on the way to `stage` -/
theorem Moves.goto {stage : Stage}
    (hlock : stage.locked → w.stage.locked ∨ w.stage = .locking) :
    w.Moves h f i (f, w.goto stage) where
  chunks := rfl
  lock := fun hst => ⟨rfl, hlock hst⟩
  files := .inl ⟨f.temps i, (Files.setTemp_temps f i).symm⟩

variable (h f i w env) in
theorem next_moves : w.Moves h f i (w.next h env f i) := by
  unfold next
  cases hst : w.stage with
  | opening | removing =>
    dsimp only
    split_ifs
    · exact .goto nofun
    · exact ⟨rfl, nofun, .inl ⟨_, rfl⟩⟩
  | reading =>
    dsimp only
    unfold read
    split
    · exact .goto nofun
    · exact .goto nofun
    · exact .goto nofun
    · dsimp only
      split_ifs
      · exact .goto nofun
      · exact .goto nofun
      · refine ⟨rfl, fun hlock => ?_, .inl ⟨_, rfl⟩⟩
        rw [hst] at hlock
        cases hlock
  | preparing =>
    dsimp only
    cases resolve env.resolved (w.key h) with
    | some => exact .goto nofun
    | none =>
      dsimp only
      split_ifs <;> exact .goto nofun
  | locking =>
    dsimp only
    split_ifs
    · exact .goto nofun
    · exact ⟨rfl, fun _ => ⟨rfl, .inr hst⟩, .inl ⟨_, (Files.setTemp_temps f i).symm⟩⟩
  | linking =>
    dsimp only
    split_ifs
    · exact .goto fun _ => .inl (hst ▸ rfl)
    · cases f.blobs (w.key h) with
      | none =>
        refine ⟨rfl, fun _ => ⟨rfl, .inl (hst ▸ rfl)⟩, .inr ⟨.inl hst, f.temps i, ?_⟩⟩
        exact (Files.setTemp_temps (f.setBlob (w.key h) (f.temps i)) i).symm
      | some => exact .goto fun _ => .inl (hst ▸ rfl)
  | statting | hashing | checking =>
    dsimp only
    split_ifs
    · exact .goto fun _ => .inl (hst ▸ rfl)
    · cases f.blobs (w.key h) with
      | none => exact .goto fun _ => .inl (hst ▸ rfl)
      | some =>
        dsimp only
        split_ifs <;> exact .goto fun _ => .inl (hst ▸ rfl)
  | replacing =>
    dsimp only
    split_ifs
    · exact .goto fun _ => .inl (hst ▸ rfl)
    · exact ⟨rfl, fun _ => ⟨rfl, .inl (hst ▸ rfl)⟩, .inr ⟨.inr hst, none, rfl⟩⟩
  | flushing =>
    dsimp only
    split_ifs <;> exact .goto fun _ => .inl (hst ▸ rfl)
  | unlocking => exact ⟨rfl, nofun, .inl ⟨_, (Files.setTemp_temps f i).symm⟩⟩
  | done => exact .goto nofun
  | died =>
    refine ⟨rfl, fun hlock => ?_, .inl ⟨_, (Files.setTemp_temps f i).symm⟩⟩
    rw [hst] at hlock
    cases hlock
  | syncing =>
    dsimp only
    split_ifs <;> exact .goto nofun

end Write

/-- what any step of `delete` can do -/
theorem Delete.next_moves (env : Env) (f : Files) (d : Delete) :
    (d.next env f).2.key = d.key ∧
      ((d.next env f).2.stage.locked → d.stage.locked ∨ d.stage = .locking) ∧
      ((d.next env f).1 = f ∨ d.stage = .unlinking ∧ (d.next env f).1 = f.setBlob d.key none) := by
  unfold Delete.next
  cases hst : d.stage with
  | resolving =>
    dsimp only
    cases resolve env.resolved d.key with
    | some => exact ⟨rfl, nofun, .inl rfl⟩
    | none => exact ⟨rfl, nofun, .inl rfl⟩
  | locking =>
    dsimp only
    split_ifs
    · exact ⟨rfl, nofun, .inl rfl⟩
    · exact ⟨rfl, fun _ => .inr rfl, .inl rfl⟩
  | unlinking =>
    dsimp only
    split_ifs
    · exact ⟨rfl, fun _ => .inl rfl, .inl rfl⟩
    · exact ⟨rfl, fun _ => .inl rfl, .inr ⟨rfl, rfl⟩⟩
  | unlocking | done | died => exact ⟨rfl, nofun, .inl rfl⟩

/-! ## the locks -/

namespace Call

variable {c : Call} {r : String}

/-- a call holds a lock that it held, or that this step takes -/
theorem next_holds (hr : (c.next h env f i).2.holds h r) : c.holds h r ∨ c.takes h = some r := by
  cases c with
  | write w =>
    have hmoves := Write.next_moves h f i w env
    obtain ⟨hlocked, hshard⟩ := of_decide_eq_true hr
    obtain ⟨hsent, hst⟩ := hmoves.lock hlocked
    rw [hsent] at hshard
    rcases hst with hst | hst
    · exact .inl (decide_eq_true ⟨hst, hshard⟩)
    · exact .inr (by rw [takes, if_pos hst, hshard])
  | delete d =>
    obtain ⟨hkey, hlock, -⟩ := Delete.next_moves env f d
    obtain ⟨hlocked, hshard⟩ := of_decide_eq_true hr
    have hshard' : r = shard d.key := hshard.trans (congrArg shard hkey)
    rcases hlock hlocked with hst | hst
    · exact .inl (decide_eq_true ⟨hst, hshard'⟩)
    · exact .inr (by rw [takes, if_pos hst, hshard'])

/-- a step leaves the temporary files of the other calls alone -/
theorem next_temps (hj : j ≠ i) : (c.next h env f i).1.temps j = f.temps j := by
  cases c with
  | write w =>
    rcases (Write.next_moves h f i w env).files with
      ⟨c, hfiles⟩ | ⟨-, c, hfiles⟩
    · exact (congrArg (Files.temps · j) hfiles).trans (Files.setTemp_ne hj _)
    · exact (congrArg (Files.temps · j) hfiles).trans (Files.setTemp_ne hj _)
  | delete d =>
    show (d.next env f).1.temps j = f.temps j
    rcases (Delete.next_moves env f d).2.2 with hfiles | ⟨-, hfiles⟩
    · rw [hfiles]
    · rw [hfiles]
      rfl

/-- a step changes a blob only under the lock of its shard -/
theorem next_blobs {key : String} (hkey : (c.next h env f i).1.blobs key ≠ f.blobs key) :
    c.holds h (shard key) := by
  cases c with
  | write w =>
    rcases (Write.next_moves h f i w env).files with
      ⟨c, hfiles⟩ | ⟨hst, c, hfiles⟩
    · exact absurd (congrArg (Files.blobs · key) hfiles) hkey
    · have hset : (w.next h env f i).1.blobs key = (f.setBlob (w.key h) (f.temps i)).blobs key := by
        rw [hfiles, Files.setTemp_blobs]
      have heq : key = w.key h := Files.eq_of_setBlob hset hkey
      refine decide_eq_true ⟨?_, by rw [heq, Write.key, shard_finalKey]⟩
      rcases hst with hst | hst <;> rw [hst] <;> rfl
  | delete d =>
    rcases (Delete.next_moves env f d).2.2 with hfiles | ⟨hst, hfiles⟩
    · exact absurd (congrArg (Files.blobs · key) hfiles) hkey
    · have heq : key = d.key :=
        Files.eq_of_setBlob (congrArg (Files.blobs · key) hfiles) hkey
      exact decide_eq_true ⟨hst ▸ rfl, congrArg shard heq⟩

end Call

/-! ## every run -/

/-- the stream of a call -/
def Call.stream : Call → Option Bytes
  | .write w => streamOf w.chunks
  | .delete _ => none

variable (h) in
/-- the bytes are those that stood at the key at first, or the whole stream of a call -/
def Sys.Whole (blobs₀ : String → Option Bytes) (s : Sys) (key : String) (c : Bytes) : Prop :=
  blobs₀ key = some c ∨ some c ∈ s.calls.map Call.stream ∧ key = finalKey h c

variable (h) in
/-- every call is sound, no shard is locked twice, and every blob is whole -/
structure Sys.Intact (C : Set Bytes) (blobs₀ : String → Option Bytes) (s : Sys) : Prop where
  sound : ∀ (i : CallId) (w : Write), s.calls[i]? = some (.write w) → w.Sound h s.files i
  fresh : ∀ i, s.calls.length ≤ i → s.files.temps i = none
  exclusive : Locks.Exclusive (Call.holds h) s.calls
  whole : ∀ key c, s.files.blobs key = some c → s.Whole h blobs₀ key c
  streams : ∀ c, some c ∈ s.calls.map Call.stream → c ∈ C

/-- what the stream of a new call gives -/
def Op.stream : Op → Option Bytes
  | .writeStream chunks _ => streamOf chunks
  | _ => none

variable (h) in
/-- a blob changes only when a call publishes its whole stream under the lock, or deletes it -/
def Op.Changes (s : Sys) (o : Op) : Prop :=
  ∀ key, (o.exec h s).files.blobs key ≠ s.files.blobs key →
    (∃ (i : CallId) (env : Env) (w : Write) (c : Bytes), o = .step i env ∧
      s.calls[i]? = some (.write w) ∧
      (w.stage = .linking ∨ w.stage = .replacing) ∧ streamOf w.chunks = some c ∧
      key = finalKey h c ∧ (o.exec h s).files.blobs key = some c) ∨
    ∃ (i : CallId) (env : Env) (d : Delete), o = .step i env ∧
      s.calls[i]? = some (.delete d) ∧ d.stage = .unlinking ∧
      key = d.key ∧ (o.exec h s).files.blobs key = none

namespace Sys.Intact

variable {C : Set Bytes} {blobs₀ : String → Option Bytes} {s : Sys} {c : Call}

/-- a call that starts -/
theorem start (hs : s.Intact h C blobs₀) (hc : ∀ r, ¬ c.holds h r)
    (hsound : ∀ w, c = .write w → w.Sound h s.files s.calls.length)
    (hstream : ∀ x, c.stream = some x → x ∈ C) :
    Sys.Intact h C blobs₀ { s with calls := s.calls ++ [c] } where
  sound := fun i w hi => by
    rcases getElem?_insert hi with hi | ⟨rfl, hw⟩
    · exact hs.sound i w hi
    · exact hsound w hw.symm
  fresh := fun i hi => by
    have hlen : s.calls.length + 1 ≤ i := by simpa using hi
    exact hs.fresh i (by omega)
  exclusive := hs.exclusive.append hc
  whole := fun key x hx => by
    rcases hs.whole key x hx with hfirst | ⟨hx, hkey⟩
    · exact .inl hfirst
    · refine .inr ⟨?_, hkey⟩
      rw [List.map_append]
      exact List.mem_append_left _ hx
  streams := fun x hx => by
    rw [List.map_append] at hx
    rcases List.mem_append.1 hx with hx | hx
    · exact hs.streams x hx
    · exact hstream x (List.mem_singleton.1 hx).symm

/-- the contents that can stand anywhere -/
theorem known (hs : s.Intact h C blobs₀) (h₀ : ∀ key c, blobs₀ key = some c → c ∈ C)
    (key : String) (x : Bytes) (hx : s.files.blobs key = some x) : x ∈ C := by
  rcases hs.whole key x hx with hfirst | ⟨hx, -⟩
  · exact h₀ key x hfirst
  · exact hs.streams x hx

theorem changes (hs : s.Intact h C blobs₀) (o : Op) : o.Changes h s := by
  intro key hkey
  cases o with
  | writeStream | delete | crash => exact absurd rfl hkey
  | step i env =>
    unfold Op.exec at hkey ⊢
    dsimp only at hkey ⊢
    cases hi : s.calls[i]? with
    | none =>
      rw [hi] at hkey
      exact absurd rfl hkey
    | some c =>
      rw [hi] at hkey
      dsimp only at hkey ⊢
      split_ifs at hkey ⊢ with hwait
      · exact absurd rfl hkey
      · cases c with
        | write w =>
          have hmoves := Write.next_moves h s.files i w env
          rcases hmoves.files with ⟨c, hfiles⟩ | ⟨hst, c, hfiles⟩
          · exact absurd (congrArg (Files.blobs · key) hfiles) hkey
          · have hset : (w.next h env s.files i).1.blobs key =
                (s.files.setBlob (w.key h) (s.files.temps i)).blobs key := by
              rw [hfiles, Files.setTemp_blobs]
            have heq : key = w.key h := Files.eq_of_setBlob hset hkey
            have hsound : s.files.temps i = some w.sent ∧ streamOf w.chunks = some w.sent := by
              have hw := hs.sound i w hi
              unfold Write.Sound at hw
              rcases hst with hst | hst
              · rw [hst] at hw
                exact ⟨hw.1, hw.2.1⟩
              · rw [hst] at hw
                exact ⟨hw.1, hw.2.1⟩
            have hblob : (w.next h env s.files i).1.blobs key = some w.sent := by
              rw [hset, heq, Files.setBlob_self, hsound.1]
            exact .inl ⟨i, env, w, w.sent, rfl, hi, hst, hsound.2, heq, hblob⟩
        | delete d =>
          rcases (Delete.next_moves env s.files d).2.2 with hfiles | ⟨hst, hfiles⟩
          · exact absurd (congrArg (Files.blobs · key) hfiles) hkey
          · have heq : key = d.key :=
              Files.eq_of_setBlob (congrArg (Files.blobs · key) hfiles) hkey
            have hblob : (d.next env s.files).1.blobs key = none := by
              rw [hfiles, heq, Files.setBlob_self]
            exact .inr ⟨i, env, d, rfl, hi, hst, heq, hblob⟩

/-- the calls after the step of one of them, which keeps its stream -/
theorem map_stream_set {r : Call} (hi : s.calls[i]? = some c) (hr : r.stream = c.stream) :
    (s.calls.set i r).map Call.stream = s.calls.map Call.stream := by
  apply List.ext_getElem?
  intro j
  rw [List.getElem?_map, List.getElem?_map, getElem?_set_row hi]
  split_ifs with hij
  · subst hij
    rw [hi, Option.map_some, Option.map_some, hr]
  · rfl

/-- the step of a call that need not wait -/
theorem step (hs : s.Intact h C blobs₀) (hC : Set.InjOn h.hexdigest C)
    (h₀ : ∀ key c, blobs₀ key = some c → c ∈ C) (hi : s.calls[i]? = some c)
    (hfree : ¬ (c.takes h).any (Locks.heldByOther (Call.holds h) s.calls i))
    (hexec : (Op.step i env).exec h s = { files := (c.next h env s.files i).1,
                                           calls := s.calls.set i (c.next h env s.files i).2 }) :
    ((Op.step i env).exec h s).Intact h C blobs₀ := by
  have hstream : (c.next h env s.files i).2.stream = c.stream := by
    cases c with
    | write w => exact congrArg streamOf (Write.next_moves ..).chunks
    | delete d => rfl
  have hchanges := hs.changes (.step i env)
  unfold Op.Changes at hchanges
  rw [hexec] at hchanges ⊢
  have hcalls := map_stream_set hi hstream
  refine ⟨fun j w hj => ?_, fun j hj => ?_, ?_, fun key x hx => ?_, fun x hx => ?_⟩
  · have hj' := hj
    rw [getElem?_set_row hi] at hj'
    split_ifs at hj' with hij
    · subst hij
      cases c with
      | write v =>
        cases hj'
        refine Write.next_sound (hs.sound i v hi) hC (hs.known h₀) fun x hx => hs.streams x ?_
        exact List.mem_map.2 ⟨_, List.mem_of_getElem? hi, hx⟩
      | delete d => cases hj'
    · refine (hs.sound j w hj').frame (Call.next_temps (Ne.symm hij)) fun hlocked => ?_
      by_contra hblob
      have hheld : Call.holds h (.write w) (shard (w.key h)) :=
        decide_eq_true ⟨hlocked, shard_finalKey _⟩
      exact hij (hs.exclusive.eq_of_holds hi hj' (Call.next_blobs hblob) hheld)
  · have hlt : i < s.calls.length := (List.getElem?_eq_some_iff.1 hi).1
    have hlen : s.calls.length ≤ j := by simpa using hj
    have hne : j ≠ i := Nat.ne_of_gt (Nat.lt_of_lt_of_le hlt hlen)
    exact (Call.next_temps hne).trans (hs.fresh j hlen)
  · refine hs.exclusive.set hi fun r hr => ?_
    rcases Call.next_holds hr with hheld | htakes
    · exact .inl hheld
    · rw [htakes] at hfree
      exact .inr hfree
  · unfold Sys.Whole
    rw [hcalls]
    by_cases hsame : (c.next h env s.files i).1.blobs key = s.files.blobs key
    · exact hs.whole key x (hsame ▸ hx)
    · rcases hchanges key hsame with ⟨j, env', w, y, hop, hj, -, hy, hkey, hblob⟩ |
        ⟨-, -, -, -, -, -, -, hblob⟩
      · obtain rfl : x = y := Option.some.inj (hx.symm.trans hblob)
        exact .inr ⟨List.mem_map.2 ⟨_, List.mem_of_getElem? hj, hy⟩, hkey⟩
      · exact absurd (hx.symm.trans hblob) (by simp)
  · rw [hcalls] at hx
    exact hs.streams x hx

/-- the process of a call dies -/
theorem crash (hs : s.Intact h C blobs₀) (hi : s.calls[i]? = some c) :
    Sys.Intact h C blobs₀ { s with calls := s.calls.set i c.kill } := by
  have hstream : c.kill.stream = c.stream := by cases c <;> rfl
  have hcalls := map_stream_set hi hstream
  refine ⟨fun j w hj => ?_, fun j hj => ?_, ?_, fun key x hx => ?_, fun x hx => ?_⟩
  · have hj' := hj
    rw [getElem?_set_row hi] at hj'
    split_ifs at hj' with hij
    · cases c with
      | write v =>
        cases hj'
        trivial
      | delete d => cases hj'
    · exact hs.sound j w hj'
  · exact hs.fresh j (by simpa using hj)
  · refine hs.exclusive.set hi fun r hr => ?_
    have hfree : ∀ r, ¬ c.kill.holds h r := by
      cases c <;> simp [Call.kill, Call.holds, Write.goto, Stage.locked, DeleteStage.locked]
    exact absurd hr (hfree r)
  · unfold Sys.Whole
    rw [hcalls]
    exact hs.whole key x hx
  · rw [hcalls] at hx
    exact hs.streams x hx

theorem exec (hs : s.Intact h C blobs₀) (hC : Set.InjOn h.hexdigest C)
    (h₀ : ∀ key c, blobs₀ key = some c → c ∈ C) (o : Op) (ho : ∀ c, o.stream = some c → c ∈ C) :
    (o.exec h s).Intact h C blobs₀ := by
  cases o with
  | writeStream chunks maxBytes =>
    refine hs.start (fun r hr => ?_) (fun w hw => ?_) ho
    · simp [Call.holds, Stage.locked] at hr
    · cases hw
      exact ⟨hs.fresh _ le_rfl, rfl, rfl, rfl⟩
  | delete key =>
    refine hs.start (fun r hr => ?_) (fun w hw => by cases hw) (fun x hx => by cases hx)
    simp [Call.holds, DeleteStage.locked] at hr
  | step i env =>
    cases hi : s.calls[i]? with
    | none =>
      have hexec : (Op.step i env).exec h s = s := by
        unfold Op.exec
        dsimp only
        rw [hi]
      rw [hexec]
      exact hs
    | some c =>
      by_cases hwait : (c.takes h).any (Locks.heldByOther (Call.holds h) s.calls i)
      · have hexec : (Op.step i env).exec h s = s := by
          unfold Op.exec
          dsimp only
          rw [hi]
          exact if_pos hwait
        rw [hexec]
        exact hs
      · refine hs.step hC h₀ hi hwait ?_
        unfold Op.exec
        dsimp only
        rw [hi]
        exact if_neg hwait
  | crash i =>
    show Sys.Intact h C blobs₀ { s with calls := s.calls.modify i Call.kill }
    cases hi : s.calls[i]? with
    | none =>
      rw [List.modify_eq_set_getElem?, hi]
      exact hs
    | some c =>
      rw [List.modify_eq_set_getElem?, hi]
      exact hs.crash hi

theorem start_empty (blobs₀ : String → Option Bytes) :
    Sys.Intact h C blobs₀ { files := { blobs := blobs₀ } } where
  sound := fun i w hi => by simp at hi
  fresh := fun _ _ => rfl
  exclusive := Locks.Exclusive.nil
  whole := fun _ _ hx => .inl hx
  streams := fun _ hx => by simp at hx

end Sys.Intact

variable (h f i) in
/-- what a call that has ended says of its final path and its temporary file -/
structure Write.Published (w : Write) : Prop where
  returned : ∀ blob, w.stage = .done (.ok blob) → ∃ c, streamOf w.chunks = some c ∧
    blob = ⟨finalKey h c, h.hexdigest c, c.length⟩ ∧ w.left = some (some c) ∧ f.temps i = none
  raised : ∀ e, w.stage = .done (.error e) →
    (w.left = w.found ∨ e.late ∧ ∃ c, streamOf w.chunks = some c ∧ w.left = some (some c)) ∧
      (e ≠ .osError .unlink → f.temps i = none)

theorem Write.Sound.published (hw : w.Sound h f i) : w.Published h f i where
  returned := fun blob hst => by
    unfold Write.Sound at hw
    rw [hst] at hw
    obtain ⟨htemp, ⟨hsent, hleft⟩, hblob⟩ := hw
    exact ⟨w.sent, hsent, hblob, hleft, htemp⟩
  raised := fun e hst => by
    unfold Write.Sound at hw
    rw [hst] at hw
    obtain ⟨htemp, hleaves⟩ := hw
    refine ⟨?_, htemp⟩
    rcases hleaves with hsame | ⟨hlate, hsent, hleft⟩
    · exact .inl hsame
    · exact .inr ⟨hlate, w.sent, hsent, hleft⟩

theorem openRead_ok {r : Resolved} {key : String} {c : Bytes} (hread : openRead r f key = .ok c) :
    f.blobs key = some c := by
  unfold openRead at hread
  cases hr : resolve r key with
  | some e =>
    rw [hr] at hread
    cases hread
  | none =>
    rw [hr] at hread
    cases hblob : f.blobs key with
    | none =>
      rw [hblob] at hread
      cases hread
    | some x =>
      rw [hblob] at hread
      cases hread
      rfl

/-- for contents whose hashes differ: in every state of every run, a call that has returned left its
stream at the final path, one that has raised left there what it found, unless it failed after the
publication, and a reader gets whole blobs -/
theorem always_published {C : Set Bytes} (hC : Set.InjOn h.hexdigest C)
    {blobs₀ : String → Option Bytes} (h₀ : ∀ key c, blobs₀ key = some c → c ∈ C) {os : List Op}
    (hos : ∀ o ∈ os, ∀ c, o.stream = some c → c ∈ C) :
    Run.Always (Op.exec h) (fun s =>
        (∀ (i : CallId) (w : Write), s.calls[i]? = some (.write w) → w.Published h s.files i) ∧
        ∀ r key c, openRead r s.files key = .ok c → s.Whole h blobs₀ key c)
      { files := { blobs := blobs₀ } } os ∧
    ∀ p ∈ Run.trace (Op.exec h) { files := { blobs := blobs₀ } } os, p.2.Changes h p.1 := by
  have hmeets : Run.Meets (Op.exec h) (fun _ o => ∀ c, o.stream = some c → c ∈ C)
      { files := { blobs := blobs₀ } } os :=
    Run.Meets.of_forall _ hos _
  have hstart : Sys.Intact h C blobs₀ { files := { blobs := blobs₀ } } := .start_empty blobs₀
  constructor
  · refine Run.always (fun s hs => ?_) (fun s o hs ho => hs.exec hC h₀ o ho) hstart hmeets
    exact ⟨fun i w hi => (hs.sound i w hi).published,
      fun r key c hread => hs.whole key c (openRead_ok hread)⟩
  · exact Run.trace_all_of_meets (fun s o hs ho => ⟨hs.changes o, hs.exec hC h₀ o ho⟩) hstart hmeets

/-! ## a blob that stays -/

/-- the step of a `delete` that unlinks the blob -/
def Op.unlinks (s : Sys) (key : String) : Op → Bool
  | .step i _ => (s.calls[i]?).any fun
      | .delete d => d.stage = .unlinking ∧ d.key = key
      | .write _ => false
  | _ => false

theorem hexdigest_of_finalKey {c c' : Bytes} (hkey : finalKey h c = finalKey h c') :
    h.hexdigest c = h.hexdigest c' := by
  have hlist := congrArg String.toList hkey
  rw [toList_shard_finalKey, toList_shard_finalKey] at hlist
  have hlen : ∀ b, ((h.hexdigest b).toList.take 2).length = 2 := fun b => by
    rw [List.length_take, h.length_eq]
    rfl
  have hcons := (List.append_inj hlist (by rw [hlen, hlen])).2
  exact String.toList_injective (List.cons.inj hcons).2

/-- a blob keeps its bytes but for a `delete` -/
theorem Sys.Intact.keeps_blob {C : Set Bytes} {blobs₀ : String → Option Bytes} {s : Sys} {c : Bytes}
    {o : Op} (hs : s.Intact h C blobs₀) (hC : Set.InjOn h.hexdigest C) (hc : c ∈ C)
    (hblob : s.files.blobs (finalKey h c) = some c) (ho : ¬ o.unlinks s (finalKey h c)) :
    (o.exec h s).files.blobs (finalKey h c) = some c := by
  by_contra hne
  rcases hs.changes o (finalKey h c) (by rw [hblob]; exact hne) with
    ⟨i, env, w, x, -, hi, -, hx, hkey, hset⟩ | ⟨i, env, d, rfl, hi, hst, hkey, -⟩
  · have hxC : x ∈ C := hs.streams x (List.mem_map.2 ⟨_, List.mem_of_getElem? hi, hx⟩)
    obtain rfl : c = x := hC hc hxC (hexdigest_of_finalKey hkey)
    exact hne hset
  · refine ho ?_
    show (s.calls[i]?).any _ = true
    rw [hi]
    exact decide_eq_true ⟨hst, hkey.symm⟩

theorem reads_back {c : Bytes} (hblob : f.blobs (finalKey h c) = some c) :
    openRead .inside f (finalKey h c) = .ok c ∧
      verify h .inside f (finalKey h c) (h.hexdigest c) (some c.length) := by
  have hkey : resolve .inside (finalKey h c) = none :=
    if_neg (not_not_intro (isStorageKey_finalKey c))
  unfold openRead verify
  rw [hkey, hblob]
  exact ⟨rfl, decide_eq_true ⟨rfl, decide_eq_true ⟨decide_eq_true rfl, rfl⟩⟩⟩

/-- for contents whose hashes differ: a blob that stands at its key in some state is read back as it
is, and verified, in every later state, as long as no `delete` unlinks it -/
theorem blob_stays {C : Set Bytes} (hC : Set.InjOn h.hexdigest C) {blobs₀ : String → Option Bytes}
    (h₀ : ∀ key c, blobs₀ key = some c → c ∈ C) {before after : List Op}
    (hbefore : ∀ o ∈ before, ∀ x, o.stream = some x → x ∈ C) {c : Bytes} {s : Sys}
    (hs : s = Run.run (Op.exec h) { files := { blobs := blobs₀ } } before)
    (hblob : s.files.blobs (finalKey h c) = some c)
    (hafter : Run.Meets (Op.exec h)
      (fun s o => (∀ x, o.stream = some x → x ∈ C) ∧ ¬ o.unlinks s (finalKey h c)) s after) :
    Run.Always (Op.exec h) (fun s => openRead .inside s.files (finalKey h c) = .ok c ∧
      verify h .inside s.files (finalKey h c) (h.hexdigest c) (some c.length)) s after := by
  have hreach : s.Intact h C blobs₀ := by
    rw [hs]
    exact Run.inv (fun s o hs ho => hs.exec hC h₀ o ho) (.start_empty blobs₀)
      (Run.Meets.of_forall _ hbefore _)
  refine Run.always (I := fun s => s.Intact h C blobs₀ ∧ s.files.blobs (finalKey h c) = some c)
    (fun s hs => reads_back hs.2) (fun s o hs ho => ⟨hs.1.exec hC h₀ o ho.1, ?_⟩) ⟨hreach, hblob⟩
    hafter
  exact hs.1.keeps_blob hC (hs.1.known h₀ _ c hs.2) hs.2 ho.2

/-! ## a repair, and a directory that cannot be flushed -/

def abc : Bytes := [97, 98, 99]
def abd : Bytes := [97, 98, 100]

/-- SHA-256 on these two -/
def sha256 : Sha256 where
  hexdigest b :=
    if b = abd then "a52d159f262b2c6ddb724a61840befc36eb30c88877a4030b65cbe86298449c9"
    else "ba7816bf8f01cfea414140de5dae2223b00361a396177a9cb410ff61f20015ad"
  length_eq b := by split_ifs <;> decide
  hex b := List.all_eq_true.1 (by split_ifs <;> decide)

/-- one call on `abc`, in two chunks, that goes on `n` steps -/
def writing (n : ℕ) : List Op :=
  .writeStream [some [97, 98], some [99]] 100 :: List.replicate n (.step 0 {})

/-- such a call at its end -/
def written (stage : Stage) (found left : Option Bytes) : Write where
  chunks := [some [97, 98], some [99]]
  maxBytes := 100
  rest := []
  sent := abc
  stage := stage
  found := some found
  left := some left

/-- what a call has written stays when another blob is deleted -/
theorem blob_stays_written :
    let s := Run.run (Op.exec sha256) { files := { blobs := fun _ => none } } (writing 12)
    let after : List Op := .delete (finalKey sha256 abd) :: List.replicate 4 (.step 1 {})
    openRead .inside (Run.run (Op.exec sha256) s after).files (finalKey sha256 abc) = .ok abc := by
  intro s after
  refine (@blob_stays sha256 {abc} (Set.injOn_singleton ..) _ (fun _ _ hc => by cases hc) (writing 12)
    after (fun o ho c hc => ?_) _ s rfl (by decide)
    ⟨⟨nofun, by decide⟩, ⟨nofun, by decide⟩, ⟨nofun, by decide⟩, ⟨nofun, by decide⟩,
      ⟨nofun, by decide⟩, trivial⟩).run.1
  rcases List.mem_cons.1 ho with rfl | ho
  · cases hc
    rfl
  · rw [List.eq_of_mem_replicate ho] at hc
    cases hc

/-- `abd` stands under the key of `abc` -/
def damaged (key : String) : Option Bytes := if key = finalKey sha256 abc then some abd else none

/-- the wrong bytes under the key are repaired -/
theorem always_published_repair :
    let s := Run.run (Op.exec sha256) { files := { blobs := damaged } } (writing 16)
    let blob : StoredBlob := ⟨finalKey sha256 abc, sha256.hexdigest abc, 3⟩
    let w := written (.done (.ok blob)) (some abd) (some abc)
    s.calls[0]? = some (.write w) ∧ w.Published sha256 s.files 0 := by
  have hC : Set.InjOn sha256.hexdigest {abc, abd} := by
    intro x hx y hy hxy
    rcases hx with rfl | rfl <;> rcases hy with rfl | rfl
    · rfl
    · exact absurd hxy (by decide)
    · exact absurd hxy (by decide)
    · rfl
  have h₀ : ∀ key c, damaged key = some c → c ∈ ({abc, abd} : Set Bytes) := by
    intro key c hc
    unfold damaged at hc
    split_ifs at hc
    cases hc
    exact .inr rfl
  have hos : ∀ o ∈ writing 16, ∀ c, o.stream = some c → c ∈ ({abc, abd} : Set Bytes) := by
    intro o ho c hc
    rcases List.mem_cons.1 ho with rfl | ho
    · cases hc
      exact .inl rfl
    · rw [List.eq_of_mem_replicate ho] at hc
      cases hc
  intro s blob w
  have hcall : s.calls[0]? = some (.write w) := by decide +kernel
  have hend := (always_published hC h₀ hos).1.run
  exact ⟨hcall, hend.1 0 w hcall⟩

/-- the directory cannot be flushed after the link: the call raises, and its blob stays -/
theorem raises_and_leaves :
    let os := writing 8 ++ [.step 0 { ioError := true }, .step 0 {}, .step 0 {}]
    let s := Run.run (Op.exec sha256) { files := { blobs := fun _ => none } } os
    let w := written (.done (.error (.osError .fsyncDir))) none (some abc)
    s.calls[0]? = some (.write w) ∧ ¬ (w.left = some none ∨ w.left = w.found) := by
  decide

end LifeAI.Storage
