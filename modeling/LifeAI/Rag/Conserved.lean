import LifeAI.Rag.CorpusBatch
import Mathlib.Data.List.Induction
import Mathlib.Data.List.Nodup
import Mathlib.Data.List.Perm.Subperm

/-!
# The bookkeeping of a corpus batch

* `Call.Fits`      a call that follows `log`: a file has one outcome of each stage, in their order;
* `Done`           every discovered file has its final outcome;
* `Conserved`      no increment is lost, `completed` is committed when the batch is done only, and
                   then `try_mark_completed` returns true;
* `Op.Keeps`       what a call, or a commit, must not lose;
* `conserved_iff`  all of this holds exactly when no call is made between `try_mark_completed` and
                   the flush.
-/

namespace LifeAI.Rag

namespace Call

def files : Call → Nat
  | .discoveryTotals files .. => files
  | _ => 0

/-- the file is in the vault -/
def stored? : Call → Option FileId
  | .storedOriginal f | .duplicate f => some f
  | _ => none

/-- the file has its outcome of the storage stage -/
def settled? : Call → Option FileId
  | .storedOriginal f | .duplicate f | .storageFailed f _ => some f
  | _ => none

/-- the file has its outcome of the parse stage -/
def read? : Call → Option FileId
  | .parsed f | .unsupported f | .parseFailed f _ => some f
  | _ => none

end Call

def discovered (log : List Call) : Nat := log.foldl (fun n c => n + c.files) 0
def stored (log : List Call) : List FileId := log.filterMap Call.stored?
def settled (log : List Call) : List FileId := log.filterMap Call.settled?
def read (log : List Call) : List FileId := log.filterMap Call.read?

/-- the call may follow `log` -/
def Call.Fits (log : List Call) (c : Call) : Prop :=
  (∀ f ∈ c.settled?, f < discovered log ∧ f ∉ settled log) ∧
    ∀ f ∈ c.read?, f ∈ stored log ∧ f ∉ read log

/-- every discovered file has its final outcome -/
def Done (log : List Call) : Prop :=
  ∀ f < discovered log, f ∈ settled log ∧ (f ∈ stored log → f ∈ read log)

/-- the counters after the calls -/
def total (log : List Call) : Counters := log.foldl (fun c d => c.add d.deltas) {}

/-- the committed calls, and those of the open transaction of the session -/
def Sys.log (s : Sys) (i : SessionId) : List Call :=
  s.history ++ (s.sessions[i]?.map Session.calls).getD []

/-- `try_mark_completed` has set attributes of the session's object that have not been flushed -/
def Sys.owes (s : Sys) (i : SessionId) : Bool :=
  s.sessions[i]?.any fun q => q.object.any (·.completedAt.isSome)

/-- what holds of every state -/
structure Conserved (s : Sys) : Prop where
  counted : s.row.counters = total s.history
  failures : s.failures = s.history.filterMap Call.failure?
  completed : s.row.status = .completed → Done s.history
  returns : ∀ (i : SessionId) (q : Session), s.sessions[i]? = some q →
    (s.load i q).loaded.counters = (s.view i).counters → Done (s.log i) → s.completes i q

/-- what a step does not lose: a call that need not wait is counted, a call leaves attributes that
have been set to the next flush, and a commit takes all calls of the session -/
def Op.Keeps (s : Sys) : Op → Prop
  | .record i c => i < s.sessions.length → ¬ s.waits i →
    (Op.exec s (.record i c)).log i = s.log i ++ [c] ∧
      (s.owes i → (Op.exec s (.record i c)).owes i)
  | .tryMarkCompleted i now => s.owes i → (Op.exec s (.tryMarkCompleted i now)).owes i
  | .commit i => (Op.exec s (.commit i)).history = s.log i
  | _ => True

/-- the files go through their outcomes one after the other -/
def Op.Proper (s : Sys) : Op → Prop
  | .record i c => i < s.sessions.length → ¬ s.waits i → c.Fits (s.log i)
  | _ => True

/-- a call finds nothing that has been set and not flushed -/
def Op.Flushed (s : Sys) : Op → Prop
  | .record i _ => ¬ s.waits i → ¬ s.owes i
  | _ => True

/-! ## the counters and the files -/

variable {log : List Call} {c : Call}

theorem total_snoc : total (log ++ [c]) = (total log).add c.deltas := by
  unfold total
  rw [List.foldl_append]
  rfl

theorem discovered_snoc : discovered (log ++ [c]) = discovered log + c.files := by
  unfold discovered
  rw [List.foldl_append]
  rfl

theorem total_discovered (log : List Call) : (total log).discoveredFiles = discovered log := by
  induction log using List.reverseRecOn with
  | nil => rfl
  | append_singleton log c ih =>
    rw [total_snoc, discovered_snoc, ← ih]
    cases c <;> rfl

theorem total_stored (log : List Call) :
    (total log).storedOriginalsDone = (stored log).length := by
  induction log using List.reverseRecOn with
  | nil => rfl
  | append_singleton log c ih =>
    have hlog : stored (log ++ [c]) = stored log ++ c.stored?.toList := by
      unfold stored
      rw [List.filterMap_append]
      cases c <;> rfl
    rw [total_snoc, hlog, List.length_append, ← ih]
    cases c <;> rfl

theorem total_settled (log : List Call) :
    (total log).storedOriginalsDone + (total log).storageFailedCount = (settled log).length := by
  induction log using List.reverseRecOn with
  | nil => rfl
  | append_singleton log c ih =>
    have hlog : settled (log ++ [c]) = settled log ++ c.settled?.toList := by
      unfold settled
      rw [List.filterMap_append]
      cases c <;> rfl
    have hadd : c.deltas.storedOriginalsDone + c.deltas.storageFailedCount =
        c.settled?.toList.length := by
      cases c <;> rfl
    rw [total_snoc, hlog, List.length_append, ← ih, ← hadd]
    exact Nat.add_add_add_comm _ _ _ _

theorem total_read (log : List Call) :
    (total log).parsedDone + (total log).unsupportedCount + (total log).semanticPendingCount +
      (total log).parseFailedCount = (read log).length := by
  induction log using List.reverseRecOn with
  | nil => rfl
  | append_singleton log c ih =>
    have hlog : read (log ++ [c]) = read log ++ c.read?.toList := by
      unfold read
      rw [List.filterMap_append]
      cases c <;> rfl
    have hadd : c.deltas.parsedDone + c.deltas.unsupportedCount + c.deltas.semanticPendingCount +
        c.deltas.parseFailedCount = c.read?.toList.length := by
      cases c <;> rfl
    rw [total_snoc, hlog, List.length_append, ← ih, ← hadd]
    simp only [Counters.add]
    omega

/-- the files of the calls, one after the other -/
structure Sound (log : List Call) : Prop where
  once : (settled log).Nodup
  known : ∀ f ∈ settled log, f < discovered log
  readOnce : (read log).Nodup
  inVault : ∀ f ∈ read log, f ∈ stored log

theorem mem_snoc {α : Type} {p : Call → Option α} {a : α} :
    a ∈ (log ++ [c]).filterMap p ↔ a ∈ log.filterMap p ∨ p c = some a := by
  rw [List.filterMap_append, List.mem_append]
  refine or_congr_right ?_
  simp only [List.mem_filterMap, List.mem_singleton, exists_eq_left]

theorem nodup_snoc {α : Type} {p : Call → Option α} (h : (log.filterMap p).Nodup)
    (hnew : ∀ a ∈ p c, a ∉ log.filterMap p) : ((log ++ [c]).filterMap p).Nodup := by
  rw [List.filterMap_append]
  cases hc : p c with
  | none =>
    rw [List.filterMap_cons_none hc]
    simpa using h
  | some a =>
    rw [List.filterMap_cons_some hc]
    refine List.nodup_append.2 ⟨h, List.nodup_singleton a, fun b hb d hd heq => ?_⟩
    obtain rfl := List.mem_singleton.1 hd
    exact hnew d hc (heq ▸ hb)

theorem Sound.snoc (h : Sound log) (hc : c.Fits log) : Sound (log ++ [c]) where
  once := nodup_snoc h.once fun f hf => (hc.1 f hf).2
  known := fun f hf => by
    rw [discovered_snoc]
    refine Nat.lt_add_right _ ?_
    rcases mem_snoc.1 hf with hf | hf
    · exact h.known f hf
    · exact (hc.1 f hf).1
  readOnce := nodup_snoc h.readOnce fun f hf => (hc.2 f hf).2
  inVault := fun f hf => mem_snoc.2 <| by
    rcases mem_snoc.1 hf with hf | hf
    · exact .inl (h.inVault f hf)
    · exact .inl (hc.2 f hf).1

theorem stored_sublist (log : List Call) : (stored log).Sublist (settled log) := by
  unfold stored settled
  induction log with
  | nil => exact .slnil
  | cons c log ih =>
    cases c with
    | storedOriginal f | duplicate f => exact ih.cons_cons f
    | storageFailed f _ => exact ih.cons f
    | _ => exact ih

/-- a list without repetitions within another one covers it when it is as long -/
theorem length_eq_iff {l m : List FileId} (hl : l.Nodup) (hm : m.Nodup) (hlm : l ⊆ m) :
    l.length = m.length ↔ m ⊆ l := by
  constructor
  · intro h
    exact ((List.subperm_of_subset hl hlm).perm_of_length_le (Nat.le_of_eq h.symm)).symm.subset
  · intro h
    exact Nat.le_antisymm (List.subperm_of_subset hl hlm).length_le
      (List.subperm_of_subset hm h).length_le

/-- the two equations hold when every file is done -/
theorem Sound.reconciles_iff (h : Sound log) : (total log).reconciles ↔ Done log := by
  have hstorage : (total log).discoveredFiles = (settled log).length ↔
      ∀ f < discovered log, f ∈ settled log := by
    have hcovers := length_eq_iff h.once List.nodup_range
      fun f hf => List.mem_range.2 (h.known f hf)
    rw [List.length_range] at hcovers
    rw [total_discovered, eq_comm, hcovers]
    exact ⟨fun hsub f hf => hsub (List.mem_range.2 hf),
      fun hall f hf => hall f (List.mem_range.1 hf)⟩
  have hparse : (read log).length = (stored log).length ↔ stored log ⊆ read log :=
    length_eq_iff h.readOnce ((stored_sublist log).nodup h.once) h.inVault
  unfold Counters.reconciles
  rw [decide_eq_true_iff, total_settled, total_read, total_stored, hstorage, hparse]
  constructor
  · rintro ⟨hsettled, hread⟩ f hf
    exact ⟨hsettled f hf, fun hs => hread hs⟩
  · intro hdone
    refine ⟨fun f hf => (hdone f hf).1, fun f hf => ?_⟩
    have hlt := h.known f ((stored_sublist log).subset hf)
    exact (hdone f hlt).2 hf

/-- a call that fits, finds files that are not done -/
theorem Call.Fits.not_done (h : c.Fits log) (hs : Sound log) (hc : c.alsoSet = none) :
    ¬ Done log := by
  intro hdone
  have hsettled : ∀ f, c.settled? ≠ some f := fun f hf => by
    obtain ⟨hlt, hnot⟩ := h.1 f hf
    exact hnot (hdone f hlt).1
  have hread : ∀ f, c.read? ≠ some f := fun f hf => by
    obtain ⟨hstored, hnot⟩ := h.2 f hf
    have hlt := hs.known f ((stored_sublist log).subset hstored)
    exact hnot ((hdone f hlt).2 hstored)
  cases c with
  | discoveryTotals => cases hc
  | storedOriginal f | duplicate f | storageFailed f => exact hsettled f rfl
  | parsed f | unsupported f | parseFailed f => exact hread f rfl

/-! ## the row and the sessions -/

variable {s : Sys} {i j : SessionId} {q : Session} {b : Batch}

/-- a row after the calls `log` -/
structure Counted (b : Batch) (log : List Call) : Prop where
  counters : b.counters = total log
  sound : Sound log
  check : b.check

theorem Counted.reconciles_iff (h : Counted b log) : b.reconciles ↔ Done log := by
  unfold Batch.reconciles
  rw [h.counters]
  exact h.sound.reconciles_iff

/-- no call that fits is refused by the CHECK -/
theorem Counted.increment (h : Counted b log) (hc : c.Fits log) :
    Counted (b.atomicIncrement c) (log ++ [c]) where
  counters := by
    rw [total_snoc, ← h.counters]
    rfl
  sound := h.sound.snoc hc
  check := by
    unfold Batch.check
    rw [decide_eq_true_iff]
    left
    intro hstatus
    have hset : c.alsoSet.getD b.status = .completed := hstatus
    cases hc' : c.alsoSet with
    | some st =>
      rw [hc'] at hset
      cases c with
      | discoveryTotals =>
        cases hc'
        cases hset
      | _ => cases hc'
    | none =>
      rw [hc'] at hset
      have hcheck := of_decide_eq_true h.check
      refine hc.not_done h.sound hc' (h.reconciles_iff.1 ?_)
      exact hcheck.resolve_left (not_not.2 hset)

/-- a session: what it sees is counted by the committed calls and its own; it has calls when it
holds the row only, and then its object is as fresh as the row -/
structure Good (s : Sys) (i : SessionId) (q : Session) : Prop where
  counted : Counted (s.view i) (s.history ++ q.calls)
  added : q.added = q.calls.filterMap Call.failure?
  idle : (∀ b, s.lock ≠ some (i, b)) → q.calls = []
  fresh : ∀ o b, q.object = some o → s.lock = some (i, b) → o.loaded.counters = b.counters
  completing : ∀ o time, q.object = some o → o.completedAt = some time → o.loaded.reconciles

structure Inv (s : Sys) : Prop where
  row : Counted s.row s.history
  failures : s.failures = s.history.filterMap Call.failure?
  holder : ∀ i b, s.lock = some (i, b) → i < s.sessions.length
  sessions : ∀ (i : SessionId) (q : Session), s.sessions[i]? = some q → Good s i q

theorem view_eq_row (h : ∀ b, s.lock ≠ some (i, b)) : s.view i = s.row := by
  unfold Sys.view
  cases hl : s.lock with
  | none => rfl
  | some p =>
    obtain ⟨j, b⟩ := p
    refine if_neg fun hji => ?_
    subst hji
    exact h b hl

theorem view_eq_of_lock (h : s.lock = some (i, b)) : s.view i = b := by
  unfold Sys.view
  rw [h]
  exact if_pos rfl

/-- a session that need not wait, and another one -/
theorem lock_ne_of_not_waits (h : ¬ s.waits i) (hji : j ≠ i) : ∀ b, s.lock ≠ some (j, b) := by
  intro b hb
  refine h ?_
  unfold Sys.waits
  rw [hb]
  exact decide_eq_true hji

theorem lock_ne_of_waits (h : s.waits i) : ∀ b, s.lock ≠ some (i, b) := by
  intro b hb
  unfold Sys.waits at h
  rw [hb] at h
  exact absurd rfl (of_decide_eq_true h)

/-- a session without calls sees the committed row -/
theorem Good.of_row {s' : Sys} (hrow : Counted s'.row s'.history)
    (hlock : ∀ b, s'.lock ≠ some (i, b)) (hcalls : q.calls = []) (hadded : q.added = [])
    (hcompleting : ∀ o time, q.object = some o → o.completedAt = some time →
      o.loaded.reconciles) : Good s' i q where
  counted := by
    rw [view_eq_row hlock, hcalls, List.append_nil]
    exact hrow
  added := by
    rw [hadded, hcalls]
    rfl
  idle := fun _ => hcalls
  fresh := fun o b _ hb => absurd hb (hlock b)
  completing := hcompleting

theorem view_congr {s' : Sys} (hrow : s'.row = s.row)
    (hlock : ∀ b, s'.lock = some (i, b) ↔ s.lock = some (i, b)) : s'.view i = s.view i := by
  by_cases h : ∃ b, s.lock = some (i, b)
  · obtain ⟨b, hb⟩ := h
    rw [view_eq_of_lock hb, view_eq_of_lock ((hlock b).2 hb)]
  · have hno := not_exists.1 h
    rw [view_eq_row hno, view_eq_row fun b hb => hno b ((hlock b).1 hb), hrow]

/-- a session stays good while the committed row and its own lock stay -/
theorem Good.of_view {s' : Sys} (h : Good s i q) (hhistory : s'.history = s.history)
    (hrow : s'.row = s.row)
    (hlock : ∀ b, s'.lock = some (i, b) ↔ s.lock = some (i, b)) : Good s' i q where
  counted := by
    rw [view_congr hrow hlock, hhistory]
    exact h.counted
  added := h.added
  idle := fun hno => h.idle fun b hb => hno b ((hlock b).2 hb)
  fresh := fun o b ho hb => h.fresh o b ho ((hlock b).1 hb)
  completing := h.completing

/-! ## the steps -/

theorem start_inv : Inv .start where
  row := ⟨rfl, ⟨List.nodup_nil, nofun, List.nodup_nil, nofun⟩, rfl⟩
  failures := rfl
  holder := nofun
  sessions := nofun

theorem Inv.begins (h : Inv s) : Inv (Op.exec s .begins) where
  row := h.row
  failures := h.failures
  holder := fun i b hb => by
    have hlt := h.holder i b hb
    show i < (s.sessions ++ [_]).length
    rw [List.length_append]
    exact Nat.lt_add_right _ hlt
  sessions := fun i q hq => by
    rcases getElem?_insert hq with hold | ⟨rfl, rfl⟩
    · exact (h.sessions i q hold).of_view rfl rfl fun _ => Iff.rfl
    · refine .of_row h.row (fun b hb => ?_) rfl rfl fun o time ho htime => ?_
      · exact Nat.lt_irrefl _ (h.holder _ b hb)
      · cases ho
        cases htime

/-- another object for a session -/
theorem Inv.set_object (h : Inv s) (hq : s.sessions[i]? = some q) {object : Option BatchObject}
    (hfresh : ∀ o b, object = some o → s.lock = some (i, b) → o.loaded.counters = b.counters)
    (hcompleting : ∀ o time, object = some o → o.completedAt = some time → o.loaded.reconciles) :
    Inv { s with sessions := s.sessions.set i { q with object } } where
  row := h.row
  failures := h.failures
  holder := fun j b hb => by
    show j < (s.sessions.set i _).length
    rw [List.length_set]
    exact h.holder j b hb
  sessions := fun j q' hq' => by
    rw [getElem?_set_row hq] at hq'
    split_ifs at hq' with hij
    · subst hij
      cases hq'
      have hgood := h.sessions i q hq
      exact ⟨hgood.counted, hgood.added, hgood.idle, hfresh, hcompleting⟩
    · exact (h.sessions j q' hq').of_view rfl rfl fun _ => Iff.rfl

/-- the loaded object of a session that holds the row -/
theorem Good.load (h : Good s i q) (hb : s.lock = some (i, b)) :
    (s.load i q).loaded.counters = b.counters := by
  unfold Sys.load
  cases ho : q.object with
  | none =>
    show (s.view i).counters = b.counters
    rw [view_eq_of_lock hb]
  | some o => exact h.fresh o b ho hb

theorem Inv.tryMarkCompleted (h : Inv s) (hq : s.sessions[i]? = some q) (now : Time) :
    Inv (s.tryMarkCompleted i q now) := by
  refine h.set_object hq (fun o b ho hb => ?_) fun o time ho htime => ?_
  · cases ho
    exact (h.sessions i q hq).load hb
  · cases ho
    dsimp only at htime ⊢
    split_ifs at htime with hc
    · exact hc
    · unfold Sys.load at htime ⊢
      cases hobj : q.object with
      | none =>
        rw [hobj] at htime
        cases htime
      | some o =>
        rw [hobj] at htime
        exact (h.sessions i q hq).completing o time hobj htime

theorem Inv.refresh (h : Inv s) (hq : s.sessions[i]? = some q) :
    Inv { s with
      sessions := s.sessions.set i { q with object := some { loaded := s.view i } } } := by
  refine h.set_object hq (fun o b ho hb => ?_) fun o time ho htime => ?_
  · cases ho
    rw [view_eq_of_lock hb]
  · cases ho
    cases htime

/-- a call that fits and need not wait -/
theorem record_eq (h : Inv s) (hq : s.sessions[i]? = some q) (hwaits : ¬ s.waits i)
    (hc : c.Fits (s.history ++ q.calls)) : s.record i q c =
      { s with
        lock := some (i, (s.view i).atomicIncrement c)
        sessions := s.sessions.set i
          { object := c.failure?.map fun _ => { loaded := (s.view i).atomicIncrement c }
            added := q.added ++ c.failure?.toList
            calls := q.calls ++ [c] } } := by
  unfold Sys.record
  rw [if_neg hwaits]
  exact if_neg (not_not.2 ((h.sessions i q hq).counted.increment hc).check)

theorem Inv.record (h : Inv s) (hq : s.sessions[i]? = some q) (hwaits : ¬ s.waits i)
    (hc : c.Fits (s.history ++ q.calls)) : Inv (s.record i q c) := by
  have hgood := h.sessions i q hq
  rw [record_eq h hq hwaits hc]
  refine ⟨h.row, h.failures, fun j b hb => ?_, fun j q' hq' => ?_⟩
  · cases hb
    show i < (s.sessions.set i _).length
    rw [List.length_set]
    exact (List.getElem?_eq_some_iff.1 hq).1
  · rw [getElem?_set_row hq] at hq'
    split_ifs at hq' with hij
    · subst hij
      cases hq'
      refine ⟨?_, ?_, fun hno => absurd rfl (hno _), fun o b ho hb => ?_, fun o time ho htime => ?_⟩
      · rw [view_eq_of_lock rfl]
        show Counted _ (s.history ++ (q.calls ++ [c]))
        rw [← List.append_assoc]
        exact hgood.counted.increment hc
      · show q.added ++ _ = _
        rw [hgood.added, List.filterMap_append]
        cases c <;> rfl
      · cases hb
        obtain ⟨_, -, rfl⟩ := Option.map_eq_some_iff.1 ho
        rfl
      · obtain ⟨_, -, rfl⟩ := Option.map_eq_some_iff.1 ho
        cases htime
    · have hlock := lock_ne_of_not_waits hwaits (Ne.symm hij)
      have hlock' : ∀ b, some (i, (s.view i).atomicIncrement c) ≠ some (j, b) := fun b hb =>
        hij (Prod.mk.inj (Option.some.inj hb)).1
      exact (h.sessions j q' hq').of_view rfl rfl fun b => iff_of_false (hlock' b) (hlock b)

/-- the lock without the session -/
theorem lock_filter_ne (b : Batch) : s.lock.filter (·.1 ≠ i) ≠ some (i, b) := by
  intro hb
  obtain ⟨-, hne⟩ := Option.filter_eq_some_iff.1 hb
  exact of_decide_eq_true hne rfl

theorem lock_filter_iff (hij : i ≠ j) :
    s.lock.filter (·.1 ≠ i) = some (j, b) ↔ s.lock = some (j, b) := by
  rw [Option.filter_eq_some_iff]
  exact and_iff_left (decide_eq_true (Ne.symm hij))

theorem Inv.rollback (h : Inv s) (i : SessionId) : Inv (s.rollback i) where
  row := h.row
  failures := h.failures
  holder := fun j b hb => by
    show j < (s.sessions.set i _).length
    rw [List.length_set]
    exact h.holder j b (Option.filter_eq_some_iff.1 hb).1
  sessions := fun j q' hq' => by
    by_cases hij : i = j
    · subst hij
      have hlt : i < s.sessions.length := by
        have := (List.getElem?_eq_some_iff.1 hq').1
        rwa [show (s.rollback i).sessions = s.sessions.set i _ from rfl, List.length_set] at this
      have hself : some q' = some { object := none } := by
        rw [← hq']
        exact List.getElem?_set_self hlt
      cases hself
      exact .of_row h.row (fun b => lock_filter_ne b) rfl rfl nofun
    · have hold : s.sessions[j]? = some q' := by
        rw [← hq']
        exact (List.getElem?_set_ne hij).symm
      exact (h.sessions j q' hold).of_view rfl rfl fun b => lock_filter_iff hij

theorem written_of_not_dirty {o : BatchObject} (h : ¬ o.dirty) (b : Batch) : o.written b = b := by
  have hsame : o.written o.loaded = o.loaded := by
    by_contra hne
    exact h (decide_eq_true hne)
  cases o with
  | mk loaded completedAt =>
    cases completedAt with
    | none => rfl
    | some time =>
      have hstatus := congrArg Batch.status hsame
      have htime := congrArg Batch.completedAt hsame
      dsimp only [BatchObject.written] at hstatus htime ⊢
      have hs : loaded.status = .completed := by
        split_ifs at hstatus with hs
        · exact hs
        · exact hstatus.symm
      have ht : loaded.completedAt = some time := by
        split_ifs at htime with ht
        · exact ht
        · exact htime.symm
      rw [if_pos hs, if_pos ht]

theorem written_counters (o : BatchObject) (b : Batch) : (o.written b).counters = b.counters := by
  unfold BatchObject.written
  cases o.completedAt <;> rfl

theorem flush_counters (q : Session) (b : Batch) : (q.flush b).counters = b.counters := by
  unfold Session.flush
  cases q.object with
  | none => rfl
  | some o => exact written_counters o b

theorem flush_of_not_dirty (h : ¬ q.object.any (·.dirty)) (b : Batch) : q.flush b = b := by
  unfold Session.flush
  cases ho : q.object with
  | none => rfl
  | some o =>
    rw [ho] at h
    exact written_of_not_dirty h b

/-- the flush of a session that holds the row is not refused -/
theorem Good.check (h : Good s i q) (hb : s.lock = some (i, b)) (hdirty : q.object.any (·.dirty)) :
    (q.flush (s.view i)).check := by
  obtain ⟨o, ho, hodirty⟩ := (Option.any_eq_true _ _).1 hdirty
  have htime : ∃ time, o.completedAt = some time := by
    by_contra hno
    have hnone : o.completedAt = none := Option.eq_none_iff_forall_ne_some.2 (not_exists.1 hno)
    refine of_decide_eq_true hodirty ?_
    unfold BatchObject.written
    rw [hnone]
  obtain ⟨time, htime⟩ := htime
  have hrec : o.loaded.reconciles := h.completing o time ho htime
  unfold Batch.check
  rw [decide_eq_true_iff]
  right
  unfold Batch.reconciles at hrec ⊢
  rw [flush_counters, view_eq_of_lock hb, ← h.fresh o b ho hb]
  exact hrec

/-- a commit that goes through: it takes the calls of the session -/
structure Commits (s s' : Sys) (i : SessionId) (q : Session) : Prop where
  row : s'.row = q.flush (s.view i)
  lock : s'.lock = s.lock.filter (·.1 ≠ i)
  failures : s'.failures = s.failures ++ q.added
  history : s'.history = s.history ++ q.calls
  sessions : s'.sessions = s.sessions.set i
    { object := q.object.map fun o => { loaded := o.written o.loaded } }
  check : q.object.any (·.dirty) → s'.row.check
  free : q.object.any (·.dirty) → ¬ s.waits i

/-- a commit waits, is refused without calls, or goes through -/
theorem commit_cases (h : Good s i q) : s.commit i q = s ∧ q.calls = [] ∨
    s.commit i q = s.rollback i ∧ q.calls = [] ∨ Commits s (s.commit i q) i q := by
  unfold Sys.commit
  split_ifs with hwaits hrefused
  · exact .inl ⟨rfl, h.idle (lock_ne_of_waits hwaits.2)⟩
  · refine .inr (.inl ⟨rfl, h.idle fun b hb => hrefused.2 (h.check hb hrefused.1)⟩)
  · refine .inr (.inr ⟨rfl, rfl, rfl, rfl, rfl, fun hdirty => ?_, fun hdirty hw => ?_⟩)
    · by_contra hno
      exact hrefused ⟨hdirty, hno⟩
    · exact hwaits ⟨hdirty, hw⟩

theorem Inv.commits {s' : Sys} (h : Inv s) (hq : s.sessions[i]? = some q)
    (hc : Commits s s' i q) : Inv s' := by
  have hgood := h.sessions i q hq
  have hrow : Counted s'.row s'.history := by
    refine ⟨?_, ?_, ?_⟩
    · rw [hc.row, flush_counters, hc.history]
      exact hgood.counted.counters
    · rw [hc.history]
      exact hgood.counted.sound
    · by_cases hdirty : q.object.any (·.dirty)
      · exact hc.check hdirty
      · rw [hc.row, flush_of_not_dirty hdirty]
        exact hgood.counted.check
  refine ⟨hrow, ?_, fun j b hb => ?_, fun j q' hq' => ?_⟩
  · rw [hc.failures, hc.history, h.failures, hgood.added, List.filterMap_append]
  · rw [hc.lock] at hb
    rw [hc.sessions, List.length_set]
    exact h.holder j b (Option.filter_eq_some_iff.1 hb).1
  · rw [hc.sessions, getElem?_set_row hq] at hq'
    split_ifs at hq' with hij
    · subst hij
      cases hq'
      refine .of_row hrow (fun b hb => ?_) rfl rfl fun o time ho htime => ?_
      · rw [hc.lock] at hb
        exact lock_filter_ne b hb
      · obtain ⟨_, -, rfl⟩ := Option.map_eq_some_iff.1 ho
        cases htime
    · have hother := h.sessions j q' hq'
      by_cases hwaits : s.waits i
      · -- nothing was dirty, and the session had no calls
        have hnot : ¬ q.object.any (·.dirty) := fun hdirty => hc.free hdirty hwaits
        have hlock := lock_ne_of_waits hwaits
        refine hother.of_view ?_ ?_ fun b => ?_
        · rw [hc.history, hgood.idle hlock, List.append_nil]
        · rw [hc.row, flush_of_not_dirty hnot, view_eq_row hlock]
        · rw [hc.lock]
          exact lock_filter_iff hij
      · have hlock := lock_ne_of_not_waits hwaits (Ne.symm hij)
        have hcalls := hother.idle hlock
        refine .of_row hrow (fun b hb => ?_) hcalls ?_ hother.completing
        · rw [hc.lock] at hb
          exact hlock b (Option.filter_eq_some_iff.1 hb).1
        · rw [hother.added, hcalls]
          rfl

theorem log_eq (hq : s.sessions[i]? = some q) : s.log i = s.history ++ q.calls := by
  unfold Sys.log
  rw [hq]
  rfl

theorem exec_eq {f : Session → Sys} (hq : s.sessions[i]? = some q) :
    (s.sessions[i]?.map f).getD s = f q := by
  rw [hq]
  rfl

theorem exec_missing {f : Session → Sys} (hq : s.sessions[i]? = none) :
    (s.sessions[i]?.map f).getD s = s := by
  rw [hq]
  rfl

theorem record_waits (h : s.waits i) : s.record i q c = s := by
  unfold Sys.record
  exact if_pos h

theorem Inv.exec (h : Inv s) {o : Op} (ho : o.Proper s) : Inv (o.exec s) := by
  cases o with
  | begins => exact h.begins
  | rollback i => exact h.rollback i
  | record i c =>
    show Inv ((s.sessions[i]?.map (s.record i · c)).getD s)
    cases hq : s.sessions[i]? with
    | none => exact h
    | some q =>
      show Inv (s.record i q c)
      by_cases hwaits : s.waits i
      · rw [record_waits hwaits]
        exact h
      · have hfits := ho (List.getElem?_eq_some_iff.1 hq).1 hwaits
        rw [log_eq hq] at hfits
        exact h.record hq hwaits hfits
  | tryMarkCompleted i now =>
    show Inv ((s.sessions[i]?.map (s.tryMarkCompleted i · now)).getD s)
    cases hq : s.sessions[i]? with
    | none => exact h
    | some q => exact h.tryMarkCompleted hq now
  | refresh i =>
    unfold Op.exec
    dsimp only
    cases hq : s.sessions[i]? with
    | none => exact h
    | some q => exact h.refresh hq
  | commit i =>
    show Inv ((s.sessions[i]?.map (s.commit i ·)).getD s)
    cases hq : s.sessions[i]? with
    | none => exact h
    | some q =>
      show Inv (s.commit i q)
      rcases commit_cases (h.sessions i q hq) with ⟨heq, -⟩ | ⟨heq, -⟩ | hc
      · rw [heq]
        exact h
      · rw [heq]
        exact h.rollback i
      · exact h.commits hq hc

theorem Inv.conserved (h : Inv s) : Conserved s where
  counted := h.row.counters
  failures := h.failures
  completed := fun hstatus => by
    have hcheck := of_decide_eq_true h.row.check
    exact h.row.reconciles_iff.1 (hcheck.resolve_left (not_not.2 hstatus))
  returns := fun i q hq hloaded hdone => by
    have hcounted := (h.sessions i q hq).counted
    rw [log_eq hq] at hdone
    have hview : (s.view i).counters.reconciles := hcounted.reconciles_iff.2 hdone
    unfold Sys.completes Batch.reconciles
    rw [hloaded]
    exact hview

theorem owes_set {s' : Sys} {q' : Session} (hq : s.sessions[i]? = some q)
    (hs : s'.sessions = s.sessions.set i q') :
    s'.owes i = q'.object.any (·.completedAt.isSome) := by
  unfold Sys.owes
  rw [hs, getElem?_set_row hq, if_pos rfl, Option.any_some]

theorem log_set {s' : Sys} {q' : Session} (hq : s.sessions[i]? = some q)
    (hs : s'.sessions = s.sessions.set i q') : s'.log i = s'.history ++ q'.calls := by
  refine log_eq ?_
  rw [hs, getElem?_set_row hq, if_pos rfl]

/-- a call is counted, and leaves nothing to the next flush -/
theorem Inv.record_keeps (h : Inv s) (hq : s.sessions[i]? = some q) (hwaits : ¬ s.waits i)
    (hc : c.Fits (s.history ++ q.calls)) :
    (s.record i q c).log i = s.log i ++ [c] ∧ ¬ (s.record i q c).owes i := by
  rw [record_eq h hq hwaits hc]
  constructor
  · rw [log_set hq rfl, log_eq hq, List.append_assoc]
  · rw [owes_set hq rfl]
    cases c <;> exact Bool.false_ne_true

theorem tryMarkCompleted_keeps (hq : s.sessions[i]? = some q) (now : Time) (h : s.owes i) :
    (s.tryMarkCompleted i q now).owes i := by
  rw [show (s.tryMarkCompleted i q now).owes i = _ from owes_set hq rfl]
  unfold Sys.owes at h
  rw [hq, Option.any_some] at h
  obtain ⟨o, ho, htime⟩ := (Option.any_eq_true _ _).1 h
  have hload : s.load i q = o := by
    unfold Sys.load
    rw [ho]
    rfl
  rw [hload, Option.any_some]
  dsimp only
  split_ifs
  · rfl
  · exact htime

theorem Inv.commit_keeps (h : Inv s) (hq : s.sessions[i]? = some q) :
    (s.commit i q).history = s.log i := by
  rw [log_eq hq]
  rcases commit_cases (h.sessions i q hq) with ⟨heq, hcalls⟩ | ⟨heq, hcalls⟩ | hc
  · rw [heq, hcalls, List.append_nil]
  · rw [heq, hcalls, List.append_nil]
    rfl
  · exact hc.history

/-- a step loses nothing exactly when it finds its session flushed -/
theorem Inv.keeps_iff (h : Inv s) {o : Op} (ho : o.Proper s) : o.Keeps s ↔ o.Flushed s := by
  cases o with
  | begins | rollback | refresh => exact Iff.rfl
  | record i c =>
    cases hq : s.sessions[i]? with
    | none =>
      refine iff_of_true (fun hlt => ?_) fun _ howes => ?_
      · exact absurd hlt (Nat.not_lt.2 (List.getElem?_eq_none_iff.1 hq))
      · unfold Sys.owes at howes
        rw [hq] at howes
        cases howes
    | some q =>
      have hlt := (List.getElem?_eq_some_iff.1 hq).1
      have hexec : Op.exec s (.record i c) = s.record i q c := exec_eq hq
      unfold Op.Keeps Op.Flushed
      dsimp only
      rw [hexec]
      constructor
      · intro hkeeps hwaits howes
        have hfits := ho hlt hwaits
        rw [log_eq hq] at hfits
        exact (h.record_keeps hq hwaits hfits).2 ((hkeeps hlt hwaits).2 howes)
      · intro hflushed _ hwaits
        have hfits := ho hlt hwaits
        rw [log_eq hq] at hfits
        exact ⟨(h.record_keeps hq hwaits hfits).1, fun howes => absurd howes (hflushed hwaits)⟩
  | tryMarkCompleted i now =>
    refine iff_of_true (fun howes => ?_) trivial
    cases hq : s.sessions[i]? with
    | none =>
      unfold Sys.owes at howes
      rw [hq] at howes
      cases howes
    | some q =>
      rw [show Op.exec s (.tryMarkCompleted i now) = s.tryMarkCompleted i q now from exec_eq hq]
      exact tryMarkCompleted_keeps hq now howes
  | commit i =>
    refine iff_of_true ?_ trivial
    unfold Op.Keeps
    dsimp only
    cases hq : s.sessions[i]? with
    | none =>
      rw [show Op.exec s (.commit i) = s from exec_missing hq]
      unfold Sys.log
      rw [hq, Option.map_none, Option.getD_none, List.append_nil]
    | some q =>
      rw [show Op.exec s (.commit i) = s.commit i q from exec_eq hq]
      exact h.commit_keeps hq

/-- When every file goes through its outcomes in order, the bookkeeping is conserved in every state
and no step loses anything exactly when no call is made on a completion that is not flushed. -/
theorem conserved_iff (os : List Op) (h : Run.Meets Op.exec (fun s o => o.Proper s) .start os) :
    Run.Always Op.exec Conserved .start os ∧ (∀ p ∈ Run.trace Op.exec .start os, p.2.Keeps p.1) ↔
      Run.Meets Op.exec (fun s o => o.Flushed s) .start os := by
  have hstep : ∀ (s : Sys) (o : Op), Inv s → o.Proper s → Inv (o.exec s) :=
    fun s o hs ho => hs.exec ho
  have hall : Run.Always Op.exec Conserved .start os :=
    Run.always (fun s hs => hs.conserved) hstep start_inv h
  have hkeeps : ∀ p ∈ Run.trace Op.exec .start os, (p.2.Keeps p.1 ↔ p.2.Flushed p.1) :=
    Run.trace_all_of_meets (fun s o hs ho => ⟨hs.keeps_iff ho, hstep s o hs ho⟩) start_inv h
  have hflushed : (∀ p ∈ Run.trace Op.exec .start os, p.2.Flushed p.1) ↔
      Run.Meets Op.exec (fun s o => o.Flushed s) .start os :=
    Run.trace_iff_meets (I := fun _ => True) (fun _ _ _ => Iff.rfl) (fun _ _ _ _ => trivial)
      trivial os
  rw [← hflushed, and_iff_right hall]
  exact forall₂_congr hkeeps

/-! ## a completion that is lost -/

instance (log : List Call) (c : Call) : Decidable (c.Fits log) := by
  unfold Call.Fits
  infer_instance

instance (s : Sys) (o : Op) : Decidable (o.Proper s) := by
  cases o <;> unfold Op.Proper <;> infer_instance

/-- session 0 has loaded the row before session 1 discovers a file; it takes the batch for done, and
then stores the file -/
def stale : List Op :=
  [.begins, .begins, .record 1 (.discoveryTotals 1 0 0 0 0 3), .commit 1, .tryMarkCompleted 0 10,
    .record 0 (.storedOriginal 0)]

theorem conserved_iff_stale :
    Run.Always Op.exec Conserved .start stale ∧
      (∀ p ∈ Run.trace Op.exec .start stale, p.2.Keeps p.1) ↔
        Run.Meets Op.exec (fun s o => o.Flushed s) .start stale :=
  conserved_iff stale (by decide)

/-- what session 0 has set does not outlive its next call -/
theorem stale_loses : ¬ ∀ os, Run.Meets Op.exec (fun s o => o.Proper s) .start os →
    Run.Always Op.exec Conserved .start os ∧
      ∀ p ∈ Run.trace Op.exec .start os, p.2.Keeps p.1 := by
  intro h
  have hlast : (Run.run Op.exec .start (stale.take 5), Op.record 0 (.storedOriginal 0)) ∈
      Run.trace Op.exec .start stale := by decide
  have hkeeps := (h stale (by decide)).2 _ hlast
  exact absurd (hkeeps (by decide) (by decide)).2 (by decide)

end LifeAI.Rag
