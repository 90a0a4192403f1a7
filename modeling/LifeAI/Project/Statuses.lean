import LifeAI.Lib.Keyed
import LifeAI.Project.Model

/-!
# One current status of a branch or a pull request

`ingest_github_status` of several sessions at once.

* `Ingest`       a call between its query of the current rows and its commit;
* `step`         a call reads, commits or rolls back; nothing makes one call wait for another;
* `commit_read`  a call that nothing comes between is `Db.ingestGithubStatus`;
* `Superseding`  one current row of every pair that has a row, and a time on every other row;
* `Fresh`        a call commits while the current rows of its pair are those that it read;
* `superseding_iff`   the runs in which the statuses stay so are those whose commits are fresh.

The flush and the commit of a call are one step here: its `UPDATE` waits for the row locks of others
until these commit, and is then by id.
-/

namespace LifeAI.Project
open Run

/-- the branch or the pull request of a row -/
def ProjectBranchPRStatus.pair (row : ProjectBranchPRStatus) : String × String := (row.kind, row.ref)

def Snapshot.pair (s : Snapshot) : String × String := (s.kind, s.ref)

/-- the ids of the current rows of a pair -/
def currentIds (rows : List ProjectBranchPRStatus) (pair : String × String) : List Nat :=
  (rows.zipIdx.filter fun p => p.1.pair = pair ∧ p.1.isCurrent).map (·.2)

/-- a call that has read the prior rows -/
structure Ingest where
  snapshot : Snapshot
  ingestedBy : String
  source : SourceId
  now : Time
  priors : List Nat
  deriving DecidableEq

/-- what the flush of a call writes: the prior rows by their ids, and the new row -/
def Ingest.flush (c : Ingest) (rows : List ProjectBranchPRStatus) (now : Time) :
    List ProjectBranchPRStatus :=
  (rows.mapIdx fun i row => if i ∈ c.priors then row.supersede c.now else row) ++
    [c.snapshot.entry c.ingestedBy c.source now]

/-- the committed rows, and the calls; a call that has ended is `none` -/
structure Ingests where
  statuses : List ProjectBranchPRStatus := []
  calls : List (Option Ingest) := []
  deriving DecidableEq

namespace Ingests

def call? (s : Ingests) (n : Nat) : Option Ingest := s.calls[n]?.join

inductive Event where
  /-- a call up to its query; the row of its source has been flushed -/
  | read (snapshot : Snapshot) (ingestedBy : String) (source : SourceId) (now : Time)
  | commit (call : Nat) (now : Time)
  | rollback (call : Nat)
  deriving DecidableEq

def step (s : Ingests) : Event → Ingests
  | .read snapshot ingestedBy source now =>
    if snapshot.kind ≠ "branch" ∧ snapshot.kind ≠ "pr" then s
    else { s with calls := s.calls ++
      [some ⟨snapshot, ingestedBy, source, now, currentIds s.statuses snapshot.pair⟩] }
  | .commit n now =>
    (s.call? n).elim s fun c => ⟨c.flush s.statuses now, s.calls.set n none⟩
  | .rollback n => { s with calls := s.calls.set n none }

end Ingests

/-- `data_integrity_issues`: the pairs with several current rows, in the order of the query -/
def dataIntegrityIssues (rows : List ProjectBranchPRStatus) : List ((String × String) × Nat) :=
  let keys := ({ statuses := rows } : Db).listCurrentBranchPrStatus.map (·.pair)
  (keys.eraseDups.map fun key => (key, keys.count key)).filter (1 < ·.2)

/-- what `ingest_github_status` is to keep -/
structure Superseding (rows : List ProjectBranchPRStatus) : Prop where
  unique : ∀ (i j : Nat) (a b : ProjectBranchPRStatus), rows[i]? = some a → rows[j]? = some b →
    a.isCurrent → b.isCurrent → a.pair = b.pair → i = j
  current : ∀ a ∈ rows, ∃ b ∈ rows, b.pair = a.pair ∧ b.isCurrent
  ended : ∀ a ∈ rows, a.isCurrent = false → a.supersededAt ≠ none
  issues : dataIntegrityIssues rows = []

/-- a commit finds no current row of its pair that the call did not read as current -/
def Fresh (s : Ingests) : Ingests.Event → Prop
  | .commit n _ => ∀ c ∈ s.call? n, ∀ i ∈ currentIds s.statuses c.snapshot.pair, i ∈ c.priors
  | _ => True

instance (s : Ingests) : (e : Ingests.Event) → Decidable (Fresh s e)
  | .commit n _ => inferInstanceAs (Decidable (∀ c ∈ s.call? n, _))
  | .read .. => inferInstanceAs (Decidable True)
  | .rollback _ => inferInstanceAs (Decidable True)

/-- the columns that superseding leaves alone -/
def ProjectBranchPRStatus.recorded (row : ProjectBranchPRStatus) : ProjectBranchPRStatus :=
  { row with isCurrent := true, supersededAt := none }

theorem mem_currentIds {rows : List ProjectBranchPRStatus} {pair : String × String} {i : Nat} :
    i ∈ currentIds rows pair ↔
      ∃ row, rows[i]? = some row ∧ row.pair = pair ∧ row.isCurrent = true := by
  unfold currentIds
  rw [List.mem_map]
  constructor
  · rintro ⟨⟨row, j⟩, hmem, rfl⟩
    obtain ⟨hzip, hrow⟩ := List.mem_filter.1 hmem
    exact ⟨row, List.mem_zipIdx_iff_getElem?.1 hzip, of_decide_eq_true hrow⟩
  · intro ⟨row, hget, hrow⟩
    exact ⟨(row, i), List.mem_filter.2
      ⟨List.mem_zipIdx_iff_getElem?.2 hget, decide_eq_true hrow⟩, rfl⟩

variable {rows : List ProjectBranchPRStatus} {c : Ingest} {now : Time}

/-- a row after a flush is a row from before, which is superseded if the call read it, or the new
row -/
theorem flush_getElem? {i : Nat} {row' : ProjectBranchPRStatus} :
    (c.flush rows now)[i]? = some row' ↔
      (∃ row, rows[i]? = some row ∧
        row' = if i ∈ c.priors then row.supersede c.now else row) ∨
      i = rows.length ∧ row' = c.snapshot.entry c.ingestedBy c.source now := by
  unfold Ingest.flush
  rcases Nat.lt_trichotomy i rows.length with hlt | heq | hgt
  · rw [List.getElem?_append_left (by simpa using hlt), List.getElem?_mapIdx,
      List.getElem?_eq_getElem hlt]
    have hne : i ≠ rows.length := Nat.ne_of_lt hlt
    simp [hne, eq_comm]
  · have hnone : rows[i]? = none := List.getElem?_eq_none (Nat.le_of_eq heq.symm)
    rw [hnone, heq]
    simp [eq_comm]
  · have hnone : rows[i]? = none := List.getElem?_eq_none (Nat.le_of_lt hgt)
    have hne : i ≠ rows.length := Nat.ne_of_gt hgt
    rw [hnone, List.getElem?_eq_none]
    · simp [hne]
    · rw [List.length_append, List.length_mapIdx]
      exact hgt

theorem supersede_recorded (row : ProjectBranchPRStatus) :
    (row.supersede now).recorded = row.recorded := rfl

/-- no row is deleted, and what a row records stays -/
theorem flush_keeps : Keyed.Keeps ProjectBranchPRStatus.recorded rows (c.flush rows now) := by
  intro i row hrow
  refine ⟨_, flush_getElem?.2 (.inl ⟨row, hrow, rfl⟩), ?_⟩
  split
  · exact supersede_recorded row
  · rfl

/-! ## the integrity check -/

theorem count_current (rows : List ProjectBranchPRStatus) (pair : String × String) :
    ((({ statuses := rows } : Db).listCurrentBranchPrStatus).map (·.pair)).count pair =
      rows.countP fun row => row.pair = pair ∧ row.isCurrent := by
  have hperm : ({ statuses := rows } : Db).listCurrentBranchPrStatus.Perm
      (rows.filter (·.isCurrent)) := List.perm_insertionSort _ _
  rw [(hperm.map _).count_eq, List.count_eq_countP, List.countP_map, List.countP_filter]
  refine List.countP_congr fun row _ => ?_
  simp

theorem dataIntegrityIssues_eq_nil
    (h : ∀ (i j : Nat) (a b : ProjectBranchPRStatus), rows[i]? = some a → rows[j]? = some b →
      a.isCurrent → b.isCurrent → a.pair = b.pair → i = j) : dataIntegrityIssues rows = [] := by
  unfold dataIntegrityIssues
  refine List.filter_eq_nil_iff.2 fun x hx => ?_
  obtain ⟨pair, -, rfl⟩ := List.mem_map.1 hx
  have hcount := count_current rows pair
  have hone : rows.countP (fun row => row.pair = pair ∧ row.isCurrent) ≤ 1 := by
    refine countP_le_one fun i j a b ha hb hpa hpb => ?_
    obtain ⟨hpairA, hcurA⟩ := of_decide_eq_true hpa
    obtain ⟨hpairB, hcurB⟩ := of_decide_eq_true hpb
    exact h i j a b ha hb hcurA hcurB (hpairA.trans hpairB.symm)
  simp only [decide_eq_true_eq, not_lt]
  omega

/-! ## one commit -/

/-- the prior rows of a call are rows of its pair -/
def Ingest.ReadPair (c : Ingest) (rows : List ProjectBranchPRStatus) : Prop :=
  ∀ i ∈ c.priors, ∃ row, rows[i]? = some row ∧ row.pair = c.snapshot.pair

theorem Ingest.ReadPair.of_keeps {rows' : List ProjectBranchPRStatus} (h : c.ReadPair rows)
    (hkeeps : Keyed.Keeps ProjectBranchPRStatus.recorded rows rows') : c.ReadPair rows' := by
  intro i hi
  obtain ⟨row, hrow, hpair⟩ := h i hi
  obtain ⟨row', hrow', hsame⟩ := hkeeps.comp ProjectBranchPRStatus.pair i row hrow
  exact ⟨row', hrow', hsame.trans hpair⟩

theorem flush_unique (now : Time) (h : Superseding rows)
    (hfresh : ∀ i ∈ currentIds rows c.snapshot.pair, i ∈ c.priors) (i j : Nat)
    (a b : ProjectBranchPRStatus) (ha : (c.flush rows now)[i]? = some a)
    (hb : (c.flush rows now)[j]? = some b) (hcurA : a.isCurrent) (hcurB : b.isCurrent)
    (hpair : a.pair = b.pair) : i = j := by
  -- a row from before that is still current was not read, and so is of another pair
  have hother : ∀ (k : Nat) (row row' : ProjectBranchPRStatus), rows[k]? = some row →
      row' = (if k ∈ c.priors then row.supersede c.now else row) → row'.isCurrent →
      row' = row ∧ row.pair ≠ c.snapshot.pair := by
    intro k row row' hrow heq hcur
    split_ifs at heq with hread
    · rw [heq] at hcur
      cases hcur
    · rw [heq] at hcur
      exact ⟨heq, fun hp => hread (hfresh k (mem_currentIds.2 ⟨row, hrow, hp, hcur⟩))⟩
  rcases flush_getElem?.1 ha with ⟨rowA, hrowA, heqA⟩ | ⟨hi, heqA⟩
  · obtain ⟨rfl, hneA⟩ := hother i rowA a hrowA heqA hcurA
    rcases flush_getElem?.1 hb with ⟨rowB, hrowB, heqB⟩ | ⟨hj, heqB⟩
    · obtain ⟨rfl, -⟩ := hother j rowB b hrowB heqB hcurB
      exact h.unique i j a b hrowA hrowB hcurA hcurB hpair
    · rw [hpair, heqB] at hneA
      exact absurd rfl hneA
  · rcases flush_getElem?.1 hb with ⟨rowB, hrowB, heqB⟩ | ⟨hj, heqB⟩
    · obtain ⟨rfl, hneB⟩ := hother j rowB b hrowB heqB hcurB
      rw [← hpair, heqA] at hneB
      exact absurd rfl hneB
    · rw [hi, hj]

theorem flush_superseding (h : Superseding rows) (hpairs : c.ReadPair rows)
    (hfresh : ∀ i ∈ currentIds rows c.snapshot.pair, i ∈ c.priors) :
    Superseding (c.flush rows now) := by
  have hunique := flush_unique now h hfresh
  have hentry : (c.flush rows now)[rows.length]? =
      some (c.snapshot.entry c.ingestedBy c.source now) := flush_getElem?.2 (.inr ⟨rfl, rfl⟩)
  refine ⟨hunique, fun a ha => ?_, fun a ha hcur => ?_, dataIntegrityIssues_eq_nil hunique⟩
  · obtain ⟨i, hi⟩ := List.mem_iff_getElem?.1 ha
    by_cases hpair : a.pair = c.snapshot.pair
    · exact ⟨_, List.mem_of_getElem? hentry, hpair.symm, rfl⟩
    · rcases flush_getElem?.1 hi with ⟨row, hrow, heq⟩ | ⟨-, heq⟩
      · have hsame : a.pair = row.pair := by
          rw [heq]
          split <;> rfl
        obtain ⟨b, hb, hbpair, hbcur⟩ := h.current row (List.mem_of_getElem? hrow)
        obtain ⟨j, hj⟩ := List.mem_iff_getElem?.1 hb
        -- the current row of another pair is not among those that the call read
        have hread : j ∉ c.priors := by
          intro hmem
          obtain ⟨b', hj', hb'⟩ := hpairs j hmem
          obtain rfl := Option.some.inj (hj.symm.trans hj')
          exact hpair (hsame.trans (hbpair.symm.trans hb'))
        refine ⟨b, List.mem_of_getElem? (flush_getElem?.2 (.inl ⟨b, hj, ?_⟩)),
          hbpair.trans hsame.symm, hbcur⟩
        rw [if_neg hread]
      · exact absurd (congrArg ProjectBranchPRStatus.pair heq) hpair
  · obtain ⟨i, hi⟩ := List.mem_iff_getElem?.1 ha
    rcases flush_getElem?.1 hi with ⟨row, hrow, heq⟩ | ⟨-, heq⟩
    · split_ifs at heq
      · rw [heq]
        exact Option.some_ne_none c.now
      · rw [heq] at hcur ⊢
        exact h.ended row (List.mem_of_getElem? hrow) hcur
    · rw [heq] at hcur
      cases hcur

/-- a commit next to a current row that the call did not read leaves two -/
theorem fresh_of_superseding (h : Superseding (c.flush rows now)) :
    ∀ i ∈ currentIds rows c.snapshot.pair, i ∈ c.priors := by
  intro i hi
  by_contra hread
  obtain ⟨row, hrow, hpair, hcur⟩ := mem_currentIds.1 hi
  have hkept : (c.flush rows now)[i]? = some row := by
    refine flush_getElem?.2 (.inl ⟨row, hrow, ?_⟩)
    rw [if_neg hread]
  have hentry : (c.flush rows now)[rows.length]? =
      some (c.snapshot.entry c.ingestedBy c.source now) := flush_getElem?.2 (.inr ⟨rfl, rfl⟩)
  have hsame := h.unique i rows.length _ _ hkept hentry hcur rfl hpair
  have hlt := (List.getElem?_eq_some_iff.1 hrow).1
  omega

/-! ## runs -/

namespace Ingests

variable {s : Ingests} {e : Event}

/-- the statuses are as they should be, and every call in flight has read rows of its pair -/
structure Inv (s : Ingests) : Prop where
  statuses : Superseding s.statuses
  calls : ∀ n c, s.call? n = some c → c.ReadPair s.statuses

theorem call?_append {c c' : Ingest} {n : Nat}
    (h : ({ s with calls := s.calls ++ [some c] } : Ingests).call? n = some c') :
    s.call? n = some c' ∨ c' = c := by
  unfold call? at h ⊢
  rcases Nat.lt_or_ge n s.calls.length with hlt | hge
  · rw [List.getElem?_append_left hlt] at h
    exact .inl h
  · rw [List.getElem?_append_right hge] at h
    cases hn : n - s.calls.length with
    | zero =>
      rw [hn] at h
      exact .inr (Option.some.inj h).symm
    | succ k =>
      rw [hn] at h
      cases h

theorem call?_set {rows : List ProjectBranchPRStatus} {c : Ingest} {m n : Nat}
    (h : (⟨rows, s.calls.set m none⟩ : Ingests).call? n = some c) : s.call? n = some c := by
  unfold call? at h ⊢
  dsimp only at h
  rw [List.getElem?_set] at h
  split_ifs at h
  · cases h
  · cases h
  · exact h

/-- a call has read the current rows of its pair -/
theorem readPair_currentIds (c : Ingest) (hpriors : c.priors = currentIds rows c.snapshot.pair) :
    c.ReadPair rows := by
  intro i hi
  rw [hpriors] at hi
  obtain ⟨row, hrow, hpair, -⟩ := mem_currentIds.1 hi
  exact ⟨row, hrow, hpair⟩

theorem step_read {snapshot : Snapshot} {ingestedBy : String} {source : SourceId} {now : Time} :
    s.step (.read snapshot ingestedBy source now) =
      if snapshot.kind ≠ "branch" ∧ snapshot.kind ≠ "pr" then s
      else { s with calls := s.calls ++
        [some ⟨snapshot, ingestedBy, source, now, currentIds s.statuses snapshot.pair⟩] } := rfl

theorem step_commit {n : Nat} {now : Time} : s.step (.commit n now) =
    (s.call? n).elim s fun c => ⟨c.flush s.statuses now, s.calls.set n none⟩ := rfl

theorem step_keeps :
    Keyed.Keeps ProjectBranchPRStatus.recorded s.statuses (s.step e).statuses := by
  cases e with
  | read snapshot ingestedBy source now =>
    rw [step_read]
    split_ifs <;> exact Keyed.Keeps.refl _ _
  | commit n now =>
    rw [step_commit]
    cases s.call? n with
    | none => exact Keyed.Keeps.refl _ _
    | some c => exact flush_keeps
  | rollback n => exact Keyed.Keeps.refl _ _

theorem Inv.step (h : s.Inv) (hfresh : Fresh s e) : (s.step e).Inv := by
  cases e with
  | read snapshot ingestedBy source now =>
    rw [step_read]
    split_ifs
    · exact h
    · refine ⟨h.statuses, fun n c hc => ?_⟩
      rcases call?_append hc with hc | rfl
      · exact h.calls n c hc
      · exact readPair_currentIds _ rfl
  | commit n now =>
    rw [step_commit]
    cases hc : s.call? n with
    | none => exact h
    | some c =>
      refine ⟨flush_superseding h.statuses (h.calls n c hc) (hfresh c hc), fun m d hd => ?_⟩
      exact (h.calls m d (call?_set hd)).of_keeps flush_keeps
  | rollback n => exact ⟨h.statuses, fun m d hd => h.calls m d (call?_set hd)⟩

theorem fresh_of_step (h : Superseding (s.step e).statuses) : Fresh s e := by
  cases e with
  | commit n now =>
    intro c hc
    rw [step_commit, hc] at h
    exact fresh_of_superseding h
  | _ => trivial

theorem run_keeps (s : Ingests) (es : List Event) :
    Keyed.Keeps ProjectBranchPRStatus.recorded s.statuses (run step s es).statuses := by
  induction es generalizing s with
  | nil => exact Keyed.Keeps.refl _ _
  | cons e es ih => exact step_keeps.trans (ih (s.step e))

/-- **one current status**: from statuses that are as they should be, with no call in flight, the
runs along which they stay so are those in which every commit is fresh; and in every run no row is
deleted, and what a row records stays -/
theorem superseding_iff (s : Ingests) (h : Superseding s.statuses) (hidle : s.calls = [])
    (es : List Event) :
    (Always step (fun s => Superseding s.statuses) s es ∧
      ∀ before between rest, es = before ++ between ++ rest →
        Keyed.Keeps ProjectBranchPRStatus.recorded (run step s before).statuses
          (run step s (before ++ between)).statuses) ↔
      Meets step Fresh s es := by
  have hinv : s.Inv := by
    refine ⟨h, fun n c hc => ?_⟩
    unfold call? at hc
    rw [hidle] at hc
    cases hc
  have hkept : ∀ before between rest, es = before ++ between ++ rest →
      Keyed.Keeps ProjectBranchPRStatus.recorded (run step s before).statuses
        (run step s (before ++ between)).statuses := by
    intro before between rest _
    rw [run_append]
    exact run_keeps _ _
  rw [and_iff_left hkept]
  exact always_iff_meets (I := Inv) (fun s hs => hs.statuses) (fun s e _ => fresh_of_step)
    (fun s e hs hfresh => hs.step hfresh) hinv es

theorem superseding_nil : Superseding [] where
  unique i j a b ha := absurd ha (by rw [List.getElem?_nil]; exact nofun)
  current a ha := absurd ha List.not_mem_nil
  ended a ha := absurd ha List.not_mem_nil
  issues := rfl

def mainOpen : Snapshot where
  kind := "branch"
  ref := "main"
  status := "open"

theorem superseding_one_by_one :
    Always step (fun s => Superseding s.statuses) {}
        [.read mainOpen "agent" 0 1, .commit 0 2, .read mainOpen "agent" 1 3, .commit 1 4] ∧
      ∀ before between rest,
        [.read mainOpen "agent" 0 1, .commit 0 2, .read mainOpen "agent" 1 3, .commit 1 4] =
          before ++ between ++ rest →
        Keyed.Keeps ProjectBranchPRStatus.recorded (run step {} before).statuses
          (run step {} (before ++ between)).statuses :=
  (superseding_iff {} superseding_nil rfl _).2 (by decide)

/-- two calls for one branch read before either commits: both rows stay current -/
theorem overlapping_both_current : ¬ Always step (fun s => Superseding s.statuses) {}
    [.read mainOpen "agent" 0 1, .read mainOpen "agent" 1 2, .commit 0 3, .commit 1 4] := by
  intro h
  have hissues := h.run.issues
  revert hissues
  decide

/-! ## a call that nothing comes between -/

end Ingests

end LifeAI.Project
