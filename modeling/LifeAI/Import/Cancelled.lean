import LifeAI.Import.Steps

/-!
# What becomes of a cancelled import

A purge cancels the job of its document while a worker may be at it.  Claims, requeues and the
cancellation itself look at the status that they find; the other writers write over it.

* `Worker.heeds`  the next write of the worker leaves a cancelled row cancelled;
* `Op.heeds`      the condition of a step.
-/

namespace LifeAI.Import

open FileRun (cancelled)

variable {β : Type} {P : Pipeline β} {env : Env} {w : Worker β}

/-- A first start finds `running` in the session and writes nothing; a roll-up computes `cancelled`
when a file saw the cancellation and none was indexed.  A second start, a failure and a retry write
over what they find. -/
def Worker.heeds (w : Worker β) : Prop :=
  match w.pc with
  | .starting _ => w.held = some .running
  | .rollingUp p => 0 < count p.outcomes .cancelled ∧ count p.outcomes .indexed = 0
  | .refused | .unreadable | .handling _ => False
  | _ => True

/-- no writer whose row is cancelled writes over it -/
def Op.heeds (s : Sys β) : Op β → Prop
  | .step i env => env.dbError = false → match s.proc i with
    | some (.worker w) => cancelled s.store w.job → w.heeds
    | some (.reconcile ids) => ∀ j ∈ ids, ¬ cancelled s.store j
    | _ => True
  | _ => True

theorem cancelled_iff {s : Store β} {j : ImportJobId} :
    cancelled s j ↔ ∃ r, s.jobs[j]? = some r ∧ r.status = .cancelled := by
  unfold cancelled
  rw [Option.any_eq_true]
  exact ⟨fun ⟨r, hr, h⟩ => ⟨r, hr, of_decide_eq_true h⟩, fun ⟨r, hr, h⟩ => ⟨r, hr, decide_eq_true h⟩⟩

/-- jobs go on under new rows that keep `cancelled` -/
theorem cancelled_of_rows {s t : Store β} {j : ImportJobId}
    (h : ∀ r, s.jobs[j]? = some r → r.status = .cancelled →
      ∃ r', t.jobs[j]? = some r' ∧ r'.status = .cancelled)
    (hc : cancelled s j) : cancelled t j := by
  obtain ⟨r, hr, hst⟩ := cancelled_iff.1 hc
  exact cancelled_iff.2 (h r hr hst)

/-! ## the roll-up -/

theorem rolledUpStatus_cancelled_iff {outcomes : List FileOutcome} :
    rolledUpStatus outcomes = .cancelled ↔
      0 < count outcomes .cancelled ∧ count outcomes .indexed = 0 := by
  unfold rolledUpStatus
  dsimp only
  constructor
  · intro h
    by_contra hno
    rw [if_neg hno] at h
    split at h
    · exact absurd h (by simp)
    · split at h
      · split at h <;> exact absurd h (by simp)
      · exact absurd h (by simp)
  · intro h
    rw [if_pos h]

theorem rolledUpStatus_ne_running (outcomes : List FileOutcome) :
    rolledUpStatus outcomes ≠ .running := by
  unfold rolledUpStatus
  dsimp only
  repeat' split
  all_goals simp

theorem rolledUp_cancelled_iff {now : Time} {stuck : Bool} {outcomes : List FileOutcome}
    {r : ImportJob} (hr : r.status = .cancelled) :
    (rolledUp now stuck outcomes r).status = .cancelled ↔
      0 < count outcomes .cancelled ∧ count outcomes .indexed = 0 := by
  rw [← rolledUpStatus_cancelled_iff]
  have hst : (rolledUp now stuck outcomes r).status =
      if stuck ∧ (rolledUpStatus outcomes = .completed ∨ rolledUpStatus outcomes = .partly ∨
        rolledUpStatus outcomes = .failed) then .pending
      else dirty .running (rolledUpStatus outcomes) r.status := by
    unfold rolledUp
    simp only [decide_eq_true_eq]
  rw [hst, hr]
  split
  · next h =>
    refine iff_of_false (by simp) fun hc => ?_
    rw [hc] at h
    exact absurd h.2 (by simp)
  · unfold dirty
    rw [if_neg (rolledUpStatus_ne_running outcomes)]

/-! ## one step -/

theorem Worker.Goes.cancelled {s : Store β} {self : ProcId} {r : ImportJob} {a : Act β}
    {w' : Option (Worker β)} (h : w.Goes P env s self r a w') (hr : r.status = .cancelled)
    (hh : w.heeds) : (a.onJob s w.job r).status = .cancelled := by
  unfold Worker.heeds at hh
  cases h with
  | refuse h | failUnreadable h | retry e h | fail e h =>
    rw [h] at hh
    exact hh.elim
  | start raw h =>
    rw [h] at hh
    have hheld : w.held = some .running := hh
    show (if w.job = w.job then _ else r : ImportJob).status = _
    rw [if_pos rfl, hheld]
    exact hr
  | rollUp p h =>
    rw [h] at hh
    show (if w.job = w.job then rolledUp .. else r : ImportJob).status = _
    rw [if_pos rfl]
    exact (rolledUp_cancelled_iff hr).2 hh
  | openZip | openFile | record =>
    show (if w.job = w.job then _ else r : ImportJob).status = _
    rw [if_pos rfl]
    exact hr
  | renew =>
    show (if w.job = w.job then _ else r : ImportJob).status = _
    rw [if_pos rfl]
    unfold JobWrite.apply
    dsimp only
    split <;> exact hr
  | unlock exc a h ha => rcases ha with rfl | rfl <;> exact hr
  | file p f f' a h hf | fileDone p f a o h hf | fileError p f a e h hf => cases hf <;> exact hr
  | _ => exact hr

/-- the row of a worker after a step that writes it -/
theorem Worker.step_row {s : Store β} {self : ProcId} {r : ImportJob} {x : JobWrite}
    {w' : Option (Worker β)} (hr : s.jobs[w.job]? = some r)
    (hn : w.next P env s self = (.job w.job x, w')) (hdb : env.dbError = false)
    (hx : (Act.job (β := β) w.job x).accepted P) (hc : cancelled (w.step P env s self).1 w.job) :
    (x.apply s.clock (s.stuck w.job) r).status = .cancelled := by
  rw [Worker.step_eq hn hdb hx, cancelled_iff, Store.apply_job, hr] at hc
  obtain ⟨r', hr', hst⟩ := hc
  cases hr'
  exact (if_pos rfl : (if w.job = w.job then x.apply s.clock (s.stuck w.job) r else r) = _) ▸ hst

/-- a worker whose row is cancelled leaves it so exactly when it heeds -/
theorem Worker.heeds_of_kept {s : Store β} {self : ProcId} (hdb : env.dbError = false)
    (hc : cancelled s w.job) (hkept : cancelled (w.step P env s self).1 w.job) : w.heeds := by
  obtain ⟨r, hr, hst⟩ := cancelled_iff.1 hc
  unfold Worker.heeds
  cases hpc : w.pc with
  | starting raw =>
    have hn : w.next P env s self = (.job w.job (.start (w.held.getD r.status)),
        some { w with held := some .running, pc := .opening raw }) := by
      unfold Worker.next
      rw [hr, hpc]
    have hrow : dirty (w.held.getD r.status) .running r.status = .cancelled :=
      Worker.step_row hr hn hdb rfl hkept
    unfold dirty at hrow
    split at hrow
    · next hrun =>
      cases hheld : w.held with
      | none =>
        rw [hheld, Option.getD_none, hst] at hrun
        exact absurd hrun (by simp)
      | some st =>
        rw [hheld, Option.getD_some] at hrun
        exact congrArg some hrun.symm
    · exact absurd hrow (by simp)
  | rollingUp p =>
    have hn : w.next P env s self =
        (.job w.job (.rollUp p.outcomes), some (w.goto (.unlocking none))) := by
      unfold Worker.next
      rw [hr, hpc]
    exact (rolledUp_cancelled_iff hst).1 (Worker.step_row hr hn hdb rfl hkept)
  | refused =>
    have hn : w.next P env s self = (.job w.job (.fail .identicalImport none), none) := by
      unfold Worker.next
      rw [hr, hpc]
    exact absurd (Worker.step_row hr hn hdb rfl hkept) (by simp [JobWrite.apply])
  | unreadable =>
    have hn : w.next P env s self =
        (.job w.job (.fail .unreadable none), some (w.goto (.unlocking none))) := by
      unfold Worker.next
      rw [hr, hpc]
    exact absurd (Worker.step_row hr hn hdb rfl hkept) (by simp [JobWrite.apply])
  | handling e =>
    by_cases he : e.transient ∧ r.attemptCount + 1 < r.maxAttempts
    · have hn : w.next P env s self = (.job w.job .retry, some { w with
          held := some .pending, lockedBy := r.lockedBy, pc := .sleeping }) := by
        unfold Worker.next
        rw [hr, hpc]
        exact if_pos he
      exact absurd (Worker.step_row hr hn hdb rfl hkept) (by simp [JobWrite.apply])
    · have hn : w.next P env s self =
          (.job w.job (.fail e.reason (some e.transient)), none) := by
        unfold Worker.next
        rw [hr, hpc]
        exact if_neg he
      exact absurd (Worker.step_row hr hn hdb rfl hkept) (by simp [JobWrite.apply])
  | _ => trivial

/-- the other way round -/
theorem Worker.kept_of_heeds {s : Store β} {self : ProcId} {j : ImportJobId}
    (hh : cancelled s w.job → w.heeds) (hc : cancelled s j) :
    cancelled (w.step P env s self).1 j := by
  rcases hstep : w.step P env s self with ⟨t, w'⟩
  cases Worker.steps hstep with
  | lost | faults => exact hc
  | goes r a w' hr hgoes =>
    refine cancelled_of_rows (fun q hq hst => ⟨a.onJob s j q, ?_, ?_⟩) hc
    · rw [Store.apply_job, hq, Option.map_some]
    · by_cases hj : j = w.job
      · subst hj
        obtain rfl : r = q := Option.some.inj (hr.symm.trans hq)
        exact hgoes.cancelled hst (hh hc)
      · rw [hgoes.job_ne hj]
        exact hst

theorem Proc.step_cancelled {s : Store β} {self : ProcId} {p : Proc β} {j : ImportJobId}
    (hw : ∀ w, p ≠ .worker w) (hids : ∀ ids, p ≠ .reconcile ids) (hc : cancelled s j) :
    cancelled (p.step P env s self).1 j :=
  cancelled_of_rows (fun r hr hst => ⟨r, Proc.step_jobs hw hids hr, hst⟩) hc

theorem Op.keeps_of_heeds {s : Sys β} {o : Op β} (ho : o.heeds s) {j : ImportJobId}
    (hc : cancelled s.store j) : cancelled (o.exec P s).store j := by
  have hpurged : ∀ i d, cancelled (s.store.purged i d) j := by
    intro i d
    refine cancelled_of_rows (fun r hr hst => ⟨_, by rw [Store.purged_job, hr]; rfl, ?_⟩) hc
    dsimp only
    split
    · rfl
    · exact hst
  generalize hexec : o.exec P s = t
  cases does hexec with
  | purge owner i d hd hlive howner t ht =>
    rcases ht with rfl | ⟨key, -, rfl⟩
    · exact hpurged i d
    · exact hpurged i d
  | requeue =>
    refine cancelled_of_rows (fun r hr hst => ⟨r, ?_, hst⟩) hc
    have hno : ¬ r.requeueEligible := by simp [ImportJob.requeueEligible, hst]
    show s.store.requeued.jobs[j]? = some r
    rw [Store.requeued_job, hr, Option.map_some, if_neg hno]
  | claim name n k r hk hr hcl hfree =>
    refine cancelled_of_rows (fun q hq hst => ⟨q, ?_, hst⟩) hc
    have hkj : k ≠ j := by
      rintro rfl
      obtain rfl : r = q := Option.some.inj (hr.symm.trans hq)
      simp [ImportJob.claimable, hst] at hcl
    show (s.store.jobs.modify k _)[j]? = some q
    rw [Store.modify_getElem?, hq, Option.map_some, if_neg hkj]
  | step i env p hp hfree =>
    cases p with
    | worker w =>
      by_cases hdb : env.dbError = false
      · have hh : cancelled s.store w.job → w.heeds := by
          have := ho hdb
          rw [hp] at this
          exact this
        exact Worker.kept_of_heeds hh hc
      · show cancelled (w.step P env s.store i).1 j
        rw [Worker.step_of_dbError (by simpa using hdb)]
        exact hc
    | reconcile ids =>
      show cancelled (if env.dbError then s.store else s.store.reopened ids) j
      split
      · exact hc
      · next hdb =>
        have hids : ∀ j ∈ ids, ¬ cancelled s.store j := by
          have := ho (by simpa using hdb)
          rw [hp] at this
          exact this
        refine cancelled_of_rows (fun r hr hst => ⟨r, ?_, hst⟩) hc
        rw [Store.reopened_job, hr, Option.map_some, if_neg fun hj => hids j hj hc]
    | upload u | memory m | deletion d => exact Proc.step_cancelled (by simp) (by simp) hc
  | _ => exact hc

theorem Op.keeps_iff_heeds (s : Sys β) (o : Op β) :
    (∀ j, cancelled s.store j → cancelled (o.exec P s).store j) ↔ o.heeds s := by
  refine ⟨fun hkept => ?_, fun ho j hc => Op.keeps_of_heeds ho hc⟩
  cases o with
  | step i env =>
    intro hdb
    cases hp : s.proc i with
    | none => trivial
    | some p =>
      cases p with
      | worker w =>
        intro hc
        by_cases htakes : (Proc.worker w).takes P = none
        · have hstep := hkept w.job hc
          rw [exec_step_store hp htakes] at hstep
          exact Worker.heeds_of_kept hdb hc hstep
        · unfold Worker.heeds
          cases hpc : w.pc with
          | working p f => trivial
          | _ => exact absurd (by simp [Proc.takes, hpc]) htakes
      | reconcile ids =>
        intro j hj hc
        have hstep := hkept j hc
        rw [exec_step_store hp rfl] at hstep
        have hif : (if env.dbError then s.store else s.store.reopened ids) =
            s.store.reopened ids := if_neg (by simp [hdb])
        have hopen : cancelled (s.store.reopened ids) j := hif ▸ hstep
        obtain ⟨r, hr, hst⟩ := cancelled_iff.1 hopen
        rw [Store.reopened_job, Option.map_eq_some_iff] at hr
        obtain ⟨q, -, hq⟩ := hr
        rw [if_pos hj] at hq
        rw [← hq] at hst
        exact absurd hst (by simp [Store.reopen])
      | _ => trivial
  | _ => trivial

/-! ## every run -/

/-- Along every run, from the state in which a job is cancelled to every later one it stays so,
exactly if each writer that finds its row cancelled heeds that. -/
theorem cancelled_stays_iff (P : Pipeline β) (ops : List (Op β)) :
    (∀ a b c j, ops = a ++ b ++ c → cancelled (importRun P a).store j →
      cancelled (importRun P (a ++ b)).store j) ↔
      Run.Meets (Op.exec P) Op.heeds {} ops :=
  Run.stays_iff_meets Op.keeps_iff_heeds {} ops

/-- the source is purged while its text is embedded -/
def purgedWhileEmbedding : List (Op String) := uploadedFile ++ turns 1 21 ++ [.purgeSource 0 0]

/-- The worker does not look again, and its roll-up completes the job. -/
theorem cancelled_completed :
    cancelled (importRun plainPipeline purgedWhileEmbedding).store 0 ∧
      ((importRun plainPipeline (purgedWhileEmbedding ++ turns 1 6)).store.jobs[0]?).any
        (·.status = .completed) := by
  decide

end LifeAI.Import
