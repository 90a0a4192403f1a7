import LifeAI.Tasks.OpMoves

/-!
# Runs by moves, and the outcome writes that come late

* `Moves.inv`, `sysRun_inv`  an invariant that every move keeps, over a run;
* `Db.rowsOk`      every task row passes its CHECK constraints;
* `Op.ending`      the terminal status that the end of a run is about to give its task;
* `Op.lateEnding`  that end finds a row which is finished already, in another status;
* `flushed_status_of_terminal`  what an outcome write leaves of a finished row.
-/

namespace LifeAI

variable {G : Guard} {db db' : Db}

/-! ## invariants -/

theorem Moves.inv {I : Db → Prop} (hstep : ∀ db db', I db → Move G db db' → I db')
    (h : Moves G db db') (h0 : I db) : I db' := by
  induction h with
  | refl => exact h0
  | tail _ hm ih => exact hstep _ _ ih hm

/-- an invariant of the moves holds after every run whose operations meet a condition that,
under the invariant, lets their moves pass the guard -/
theorem sysRun_inv {I : Db → Prop} {C : Sys → Op → Prop} (h0 : I {})
    (hstep : ∀ db db', I db → Move G db db' → I db')
    (hC : ∀ s op, I s.db → C s op → G.admits s op) {os : List Op}
    (h : Run.Meets Op.step C {} os) : I (sysRun os).db :=
  Run.inv (I := fun s => I s.db)
    (fun s op hi hc => (Op.moves (hC s op hi hc)).inv hstep hi) h0 h

/-! ## rows -/

/-- every task row passes its CHECK constraints -/
def Db.rowsOk (db : Db) : Prop := ∀ (i : TaskId) (t : Task), db.tasks[i]? = some t → t.checks

/-- a change between open statuses passes the CHECK constraints -/
theorem Task.checks_of_open {t t' : Task} (h : t.checks) (hs : ¬ t.status.terminal)
    (hs' : ¬ t'.status.terminal) (hatt : t'.attempts = t.attempts)
    (hmax : t'.maxAttempts = t.maxAttempts) (hc : t'.completedAt = t.completedAt) :
    t'.checks := by
  rw [checks_iff] at h ⊢
  rw [hatt, hmax, hc]
  exact ⟨h.1, h.2.1, h.2.2.1, ⟨fun hsome => absurd (h.2.2.2.1 hsome) hs,
    fun hterm => absurd hterm hs'⟩⟩

theorem recompute_rowsOk {g : GoalId} (h : db.rowsOk) : (recomputeTaskReadiness db g).rowsOk := by
  intro i t' ht'
  obtain ⟨t, ht⟩ : ∃ t, db.tasks[i]? = some t := by
    rw [recompute_getElem?] at ht'
    obtain ⟨t, ht, -⟩ := Option.map_eq_some_iff.1 ht'
    exact ⟨t, ht⟩
  have hc := h i t ht
  rcases recompute_cases (g := g) ht with h1 | ⟨hp, -, h1⟩ | ⟨hp, d, s, -, h1⟩
  · rw [ht'] at h1
    cases h1
    exact hc
  · rw [ht'] at h1
    cases h1
    exact Task.checks_of_open hc (by simp [(Task.pendingIn_iff.1 hp).2, TaskStatus.terminal])
      (by simp [TaskStatus.terminal]) rfl rfl rfl
  · rw [ht'] at h1
    cases h1
    exact Task.checks_of_open hc (by simp [(Task.pendingIn_iff.1 hp).2, TaskStatus.terminal])
      (by simp [TaskStatus.terminal]) rfl rfl rfl

theorem Move.rowsOk (h : db.rowsOk) (hm : Move G db db') : db'.rowsOk := by
  cases hm with
  | notes es hes => exact h
  | insert ts ds es hts hes hG =>
    intro i t ht
    rw [Db.addEvents_tasks, List.getElem?_append] at ht
    split at ht
    · exact h i t ht
    · exact (hts t (List.mem_of_getElem? ht)).2.2
  | recompute g => exact recompute_rowsOk h
  | @row i t t' k es ht hc hmax hplan hatt hk hes hG hr =>
    intro j r hj
    rw [Db.addEvents_tasks, getElem?_set_row ht] at hj
    split at hj
    · cases hj
      exact hc
    · exact h j r hj
  | jobs hj => exact h
  | newJob r hj _ => exact h
  | aux ht hd he hj =>
    intro i t hi
    exact h i t (ht ▸ hi)

/-! ## ends that come late -/

/-- the terminal status that the end of a run is about to give its task; a failed attempt that
leaves another one is no end -/
def Op.ending (s : Sys) : Op → Option (TaskId × TaskStatus)
  | .completeRun _ w passed _ => do
    let i ← s.db.heldTask w
    let loaded ← s.held w.job
    if passed then
      if loaded.status = .cancelled then none
      else some (i, if s.db.cancelRequested loaded then .cancelled else .completed)
    else if loaded.attempts < loaded.maxAttempts then none
    else some (i, .failed)
  | .failRun _ w _ => do
    let i ← s.db.heldTask w
    let t ← s.db.tasks[i]?
    if t.attempts < t.maxAttempts then none else some (i, .failed)
  | .cancelRun _ w => do
    let i ← s.db.heldTask w
    some (i, .cancelled)
  | _ => none

/-- the run ends after its task: the row is `done` already, and in another status -/
def Op.lateEnding (s : Sys) (done : TaskStatus → Bool) (op : Op) : Bool :=
  (op.ending s).any fun (i, st) =>
    s.db.tasks[i]?.any fun t => done t.status ∧ t.status ≠ st

theorem Op.not_lateEnding {s : Sys} {done : TaskStatus → Bool} {op : Op} {i : TaskId}
    {st : TaskStatus} {t : Task} (h : ¬ op.lateEnding s done) (he : op.ending s = some (i, st))
    (ht : s.db.tasks[i]? = some t) (hd : done t.status) : st = t.status := by
  simp only [lateEnding, he, Option.any_some, ht, Bool.not_eq_true, decide_eq_false_iff_not,
    not_and, not_not] at h
  exact (h hd).symm

theorem Task.finishedFailed_ending (now : Time) (retryIn : Nat) (t : Task) :
    (t.attempts < t.maxAttempts ∧ ¬ (t.finishedFailed now retryIn).status.terminal ∧
        (t.finishedFailed now retryIn).completedAt = t.completedAt) ∨
      (¬ t.attempts < t.maxAttempts ∧ (t.finishedFailed now retryIn).status = .failed) := by
  unfold finishedFailed
  by_cases h : t.attempts < t.maxAttempts
  · rw [if_pos h]
    exact .inl ⟨h, by simp [TaskStatus.terminal], rfl⟩
  · rw [if_neg h]
    exact .inr ⟨h, rfl⟩

/-- An outcome write to a finished row is the end of a run, or leaves the row open and its
`completed_at` alone. -/
theorem Op.outcome_ending {s : Sys} {op : Op} {i : TaskId} {loaded new t : Task}
    (h : op.outcome s = some (i, loaded, new)) (ht : s.db.tasks[i]? = some t)
    (hterm : t.status.terminal) :
    (¬ new.status.terminal ∧ new.completedAt = loaded.completedAt) ∨
      op.ending s = some (i, new.status) := by
  cases op with
  | completeRun now w passed retryIn =>
    simp only [outcome, Option.bind_eq_bind, Option.bind_eq_some_iff] at h
    obtain ⟨i', hi, l, hl, n, hn, h⟩ := h
    cases h
    simp only [ending, hi, hl, Option.bind_eq_bind, Option.bind_some]
    cases passed with
    | true =>
      simp only [outcomeOf, not_true_eq_false, if_false] at hn
      split at hn
      · exact absurd hn (by simp)
      next hcanc =>
      rw [if_pos rfl, if_neg hcanc]
      split at hn
      · next hreq =>
        cases hn
        exact .inr (by simp [hreq, Task.finishedCancelled])
      · next hreq =>
        cases hn
        exact .inr (by simp [hreq, Task.finishedCompleted])
    | false =>
      simp only [outcomeOf, Bool.false_eq_true, not_false_eq_true, if_true,
        Option.some.injEq] at hn
      subst hn
      rcases loaded.finishedFailed_ending now retryIn with ⟨-, h1⟩ | ⟨hlt, h1⟩
      · exact .inl h1
      · exact .inr (by simp [hlt, h1])
  | failRun now w retryIn =>
    simp only [outcome, Option.bind_eq_bind, Option.bind_eq_some_iff] at h
    obtain ⟨i', hi, t', ht', h⟩ := h
    cases h
    rcases loaded.finishedFailed_ending now retryIn with ⟨-, h1⟩ | ⟨hlt, h1⟩
    · exact .inl h1
    · exact .inr (by simp [ending, hi, ht', hlt, h1])
  | cancelRun now w =>
    simp only [outcome, Option.bind_eq_bind, Option.bind_eq_some_iff] at h
    obtain ⟨i', hi, t', ht', h⟩ := h
    cases h
    exact .inr (by simp [ending, hi, Task.finishedCancelled])
  | failUnavailable now w retryIn =>
    simp only [outcome, Option.bind_eq_bind, Option.bind_eq_some_iff] at h
    obtain ⟨i', hi, t', ht', h⟩ := h
    split at h
    · next hrun =>
      cases h
      rw [ht] at ht'
      cases ht'
      simp [hrun, TaskStatus.terminal] at hterm
    · exact absurd h (by simp)
  | enterCiWait now w secs =>
    simp only [outcome, Option.bind_eq_bind, Option.bind_eq_some_iff] at h
    obtain ⟨i', hi, l, hl, h⟩ := h
    cases h
    exact .inl ⟨by simp [TaskStatus.terminal], rfl⟩
  | resumeWaitingCiTask now w polled retryIn =>
    simp only [outcome, Option.bind_eq_bind, Option.bind_eq_some_iff] at h
    obtain ⟨wait, hw, t', ht', h⟩ := h
    split at h
    · exact absurd h (by simp)
    next hci =>
    have hi : i = wait.taskId := by
      generalize (if wait.status = .pending then polled else wait.status) = st at h
      cases st with
      | pending => exact absurd h (by simp)
      | satisfied =>
        obtain ⟨n, -, hn⟩ := Option.map_eq_some_iff.1 h
        cases hn
        rfl
      | timedOut | failed | cancelled =>
        cases h
        rfl
    rw [← hi, ht] at ht'
    cases ht'
    rw [not_not] at hci
    simp [hci, TaskStatus.terminal] at hterm
  | _ => exact absurd h (by simp [outcome])

/-- an outcome write that passes the CHECK constraints and is no late end leaves a finished row
in its status -/
theorem Op.flushed_status_of_done {s : Sys} (done : TaskStatus → Bool) {op : Op} {i : TaskId}
    {loaded new t : Task} (hdone : ∀ st, done st → st.terminal) (hr : s.db.rowsOk)
    (h : ¬ op.lateEnding s done) (ho : op.outcome s = some (i, loaded, new))
    (ht : s.db.tasks[i]? = some t) (hc : (Task.flushed loaded new t).checks)
    (hd : done t.status) : (Task.flushed loaded new t).status = t.status := by
  rcases Task.flushed_status loaded new t with hst | hst
  · rcases Op.outcome_ending ho ht (hdone _ hd) with ⟨hopen, hcompl⟩ | hend
    · -- `completed_at` stays set, so the CHECK wants a terminal status
      have hkeep : (Task.flushed loaded new t).completedAt = t.completedAt := by
        simp [Task.flushed, dirty, hcompl]
      have hset := (Task.checks_iff.1 (hr i t ht)).2.2.2.2 (hdone _ hd)
      have hterm := (Task.checks_iff.1 hc).2.2.2.1 (by rw [hkeep]; exact hset)
      exact absurd (hst ▸ hterm) hopen
    · rw [hst]
      exact Op.not_lateEnding h hend ht hd
  · exact hst

end LifeAI
