import LifeAI.Tasks.Endings

/-!
# Finished tasks

`completed`, `failed` and `cancelled` are left by no operation, except by the end of a run that
comes after its task: the success path looks for `cancelled` on a copy that may be old, and the
failing and the cancelled ends do not look at the status at all.  The CHECK constraints stop only
the ends that leave the row open.
-/

namespace LifeAI

/-- every finished task of `db` has kept its status in `db'` -/
def Db.finishedKept (db db' : Db) : Prop :=
  ∀ (i : TaskId) (t : Task), db.tasks[i]? = some t → t.status.terminal →
    ∃ t', db'.tasks[i]? = some t' ∧ t'.status = t.status

theorem Db.finishedKept.refl (db : Db) : db.finishedKept db := fun _ t ht _ => ⟨t, ht, rfl⟩

theorem Db.finishedKept.trans {a b c : Db} (hab : a.finishedKept b) (hbc : b.finishedKept c) :
    a.finishedKept c := by
  intro i t ht hterm
  obtain ⟨t1, ht1, hs1⟩ := hab i t ht hterm
  obtain ⟨t2, ht2, hs2⟩ := hbc i t1 ht1 (hs1 ▸ hterm)
  exact ⟨t2, ht2, hs2.trans hs1⟩

/-- an outcome write leaves a finished row in its status -/
def absorbGuard : Guard where
  insert _ _ _ := True
  row _ _ t t' := t.status.terminal → t'.status = t.status
  resume _ _ := True

theorem TaskStatus.not_terminal_of_resumable {st : TaskStatus} (h : st.resumable) :
    ¬ st.terminal := by
  cases st <;> simp [resumable, terminal] at *

/-- no turn but an outcome touches a finished row's status -/
theorem Turn.changes_finished {db : Db} {i : TaskId} {t t' : Task} {k : Turn}
    (hk : k.changes db i t t') (hG : k.guarded → absorbGuard.row i k t t')
    (hterm : t.status.terminal) : t'.status = t.status := by
  cases k with
  | touch => exact hk.1
  | dispatch | retry | reset | park | wake => simp [hk.1, TaskStatus.terminal] at hterm
  | repairPark => exact absurd hterm hk.1
  | resume => exact absurd hterm (TaskStatus.not_terminal_of_resumable hk.1)
  | cancel => exact absurd hterm hk.1
  | outcome => exact hG rfl hterm

theorem Move.finishedKept {db db' : Db} (h : Move absorbGuard db db') : db.finishedKept db' := by
  cases h with
  | notes es hes => exact .refl db
  | insert ts ds es hts hes hG =>
    intro i t ht _
    exact ⟨t, by rw [Db.addEvents_tasks, List.getElem?_append_left (List.getElem?_eq_some_iff.1 ht).1, ht], rfl⟩
  | recompute g =>
    intro i t ht hterm
    refine ⟨t, recompute_not_pending ht ?_, rfl⟩
    intro hp
    simp [hp, TaskStatus.terminal] at hterm
  | @row i t t' k es ht hc hmax hplan hatt hk hes hG hr =>
    intro j r hj hterm
    rw [Db.addEvents_tasks, getElem?_set_row ht]
    split
    · next hij =>
      subst hij
      rw [ht] at hj
      cases hj
      exact ⟨t', rfl, Turn.changes_finished hk hG hterm⟩
    · exact ⟨r, hj, rfl⟩
  | jobs hj => exact .refl db
  | newJob r hj _ => exact .refl db
  | aux ht hd he hj =>
    intro i t hi _
    exact ⟨t, ht ▸ hi, rfl⟩

theorem Moves.finishedKept {db db' : Db} (h : Moves absorbGuard db db') : db.finishedKept db' := by
  induction h with
  | refl => exact .refl db
  | tail _ hm ih => exact ih.trans hm.finishedKept

end LifeAI
