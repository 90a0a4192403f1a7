import LifeAI.Import.References

/-!
# Jobs that run again

`storage_key_still_referenced_global` counts the raw blob of a job that a claim, a requeue or a
reconcile can bring back to running.  Three writes make a job resumable that is not: those of a
worker whose job was closed under it, that of a worker that takes up a paused document of a closed
job, and that of a reconcile that has selected its jobs before.

* `Op.reopens`, `Op.reopensCounted`  the jobs that a step makes resumable, and the condition;
* `Op.exec_resumes`                  which jobs are resumable after a step;
* `rerun_referenced`                 every job that runs again was counted.
-/

namespace LifeAI.Import

variable {β : Type} {P : Pipeline β} {env : Env} {s t : Store β} {j : ImportJobId}

/-! ## the condition -/

/-- the policy counts the raw blob of the job for the job itself -/
def Store.resumes (s : Store β) (j : ImportJobId) : Bool :=
  (s.jobs[j]?).any fun r => r.stillNeedsRawBlob ∨ s.stuck j

/-- the policy counts the raw blob of the job, if the job is there -/
def Store.counts (s : Store β) (j : ImportJobId) : Bool :=
  (s.jobs[j]?).all fun r => s.stillReferenced r.sourceStorageKey

/-- the jobs that an operation makes resumable, or keeps so -/
def Op.reopens (s : Sys β) : Op β → List ImportJobId
  | .step i env =>
    if env.dbError then []
    else match s.proc i with
      | some (.worker w) => w.reopens s.store
      | some (.reconcile ids) => ids
      | _ => []
  | _ => []

/-- none of them is closed, unless its raw blob was counted in `s₀` -/
def Op.reopensCounted (s₀ : Store β) (s : Sys β) (o : Op β) : Bool :=
  (o.reopens s).all fun j => s.store.resumes j ∨ s₀.counts j

/-! ## the references after an operation -/

namespace Store.Refers

variable {K K' : String → Prop} {J J' : ImportJobId → Prop}

theorem mono (h : s.Refers t K J) (hK : ∀ key, K key → K' key) (hJ : ∀ j, J j → J' j) :
    s.Refers t K' J' := by
  refine ⟨fun d key hd hk hlive => ?_, fun j r hr => ?_, h.rows, fun j hst => ?_, fun key hk => ?_⟩
  · exact (h.docs d key hd hk hlive).imp_right (hK key)
  · rcases h.jobs j r hr with ⟨r₀, hr₀, hsame, hneed⟩ | ⟨hnew, hkey⟩
    · exact .inl ⟨r₀, hr₀, hsame, fun hn => (hneed hn).imp_right (hJ j)⟩
    · exact .inr ⟨hnew, hK _ hkey⟩
  · exact (h.stuck j hst).imp_right (hJ j)
  · exact (h.keys key hk).imp_right (hK key)

/-- the tables stay -/
theorem tables (hjobs : t.jobs = s.jobs) (hdocs : t.documents = s.documents)
    (hkeys : ∀ key ∈ t.projectKeys, key ∈ s.projectKeys ∨ K key) : s.Refers t K J := by
  refine ⟨fun d key hd hk hlive => .inl ⟨d, hdocs ▸ hd, hk, hlive⟩,
    fun j r hr => .inl ⟨r, hjobs ▸ hr, rfl, .inl⟩, Nat.le_of_eq (congrArg List.length hjobs.symm),
    fun j hst => .inl ?_, hkeys⟩
  unfold Store.stuck at hst ⊢
  rwa [hdocs] at hst

/-- a job that is resumable afterwards -/
theorem resumes (h : s.Refers t K J) (hj : t.resumes j) :
    s.resumes j ∨ J j ∨ s.jobs[j]? = none := by
  unfold Store.resumes at hj ⊢
  obtain ⟨r, hr, hneed⟩ := (Option.any_eq_true _ _).1 hj
  rw [decide_eq_true_iff] at hneed
  rcases h.jobs j r hr with ⟨r₀, hr₀, -, hneeds⟩ | ⟨hnew, -⟩
  · have hold : (r₀.stillNeedsRawBlob ∨ s.stuck j) ∨ J j := by
      rcases hneed with hneed | hstuck
      · exact (hneeds hneed).imp_left .inl
      · exact (h.stuck j hstuck).imp_left .inr
    rcases hold with hold | hJ
    · refine .inl ?_
      rw [hr₀, Option.any_some]
      exact decide_eq_true hold
    · exact .inr (.inl hJ)
  · exact .inr (.inr hnew)

end Store.Refers

theorem Proc.step_refers {s : Store β} {self : ProcId} {p : Proc β} (hw : ∀ w, p ≠ .worker w)
    (hids : ∀ ids, p ≠ .reconcile ids) :
    s.Refers (p.step P env s self).1 (fun _ => True) fun _ => False := by
  cases p with
  | worker w => exact absurd rfl (hw w)
  | reconcile ids => exact absurd rfl (hids ids)
  | upload u =>
    show s.Refers (u.step P env s).1 _ _
    rcases hstep : u.step P env s with ⟨t, q⟩
    cases Upload.goes hstep with
    | commit hst =>
      refine ⟨fun d key hd hk hlive => .inl ⟨d, hd, hk, hlive⟩, fun j r hr => ?_, by simp,
        fun j hst => .inl hst, fun key hk => .inl hk⟩
      rcases getElem?_insert hr with hr | ⟨hj, rfl⟩
      · exact .inl ⟨r, hr, rfl, .inl⟩
      · exact .inr ⟨by simp [hj], trivial⟩
    | _ => exact .tables rfl rfl fun _ hk => .inl hk
  | memory m =>
    show s.Refers (m.step P env s).1 _ _
    rcases hstep : m.step P env s with ⟨t, q⟩
    cases MemoryWrite.goes hstep <;> exact .tables rfl rfl fun _ _ => .inr trivial
  | deletion d =>
    show s.Refers (d.step env s).1 _ _
    rcases hstep : d.step env s with ⟨t, q⟩
    cases Deletion.goes hstep with
    | settle st i hst hi => exact .setDeletion i st
    | _ => exact .tables rfl rfl fun _ hk => .inl hk

/-- an operation makes only the jobs of `Op.reopens` resumable -/
theorem Op.exec_refers (s : Sys β) (o : Op β) :
    s.store.Refers (o.exec P s).store (fun _ => True) (· ∈ o.reopens s) := by
  generalize hexec : o.exec P s = t
  cases does hexec with
  | purge owner i d hd hlive howner t ht =>
    rcases ht with rfl | ⟨key, -, rfl⟩ <;> exact .purged i d
  | settled => exact .setDeletion _ _
  | requeue => exact .requeued
  | claim name n j r hj hr hc => exact .claimed hr hc
  | step i env p hi hfree =>
    cases p with
    | worker w =>
      have hreopens : ¬ env.dbError → (Op.step i env).reopens s = w.reopens s.store := by
        intro hdb
        unfold Op.reopens
        dsimp only
        rw [if_neg hdb, hi]
      show s.store.Refers (w.step P env s.store i).1 _ _
      rcases hstep : w.step P env s.store i with ⟨t, q⟩
      cases Worker.steps hstep with
      | lost | faults => exact .refl
      | goes r a o hr hg hdb =>
        rw [hreopens (by simp [hdb])]
        exact (hg.refers hr).mono (fun _ _ => trivial) fun _ hj => hj
    | reconcile ids =>
      show s.store.Refers (if env.dbError then s.store else s.store.reopened ids) _ _
      by_cases hdb : env.dbError
      · rw [if_pos hdb]
        exact .refl
      · have hreopens : (Op.step i env).reopens s = ids := by
          unfold Op.reopens
          dsimp only
          rw [if_neg hdb, hi]
        rw [if_neg hdb, hreopens]
        exact .reopened ids
    | _ => exact (Proc.step_refers (by simp) (by simp)).mono (fun _ hk => hk) nofun
  | _ => exact .tables rfl rfl fun _ hk => .inl hk

/-! ## every run -/

/-- since `s₀`, only jobs whose raw blob was counted there have become resumable -/
structure Sys.Counted (s₀ : Store β) (s : Sys β) : Prop where
  rows : s₀.jobs.length ≤ s.store.jobs.length
  counted : ∀ j, s.store.resumes j → s₀.counts j

namespace Sys.Counted

variable {s₀ : Store β} {s : Sys β} {o : Op β}

theorem exec (h : s.Counted s₀) (ho : o.reopensCounted s₀ s) : (o.exec P s).Counted s₀ := by
  have href : s.store.Refers (o.exec P s).store _ _ := Op.exec_refers s o
  refine ⟨Nat.le_trans h.rows href.rows, fun j hj => ?_⟩
  rcases href.resumes hj with hold | hreopened | hnew
  · exact h.counted j hold
  · have hcond : s.store.resumes j ∨ s₀.counts j := by
      simpa using List.all_eq_true.1 ho j hreopened
    exact hcond.elim (h.counted j) id
  · have hgone : s₀.jobs[j]? = none :=
      List.getElem?_eq_none (Nat.le_trans h.rows (List.getElem?_eq_none_iff.1 hnew))
    unfold Store.counts
    rw [hgone]
    rfl

end Sys.Counted

/-- In every run from any state in which each job that a step makes resumable was resumable before
it, or had its raw blob counted at the start: a job that runs had its raw blob counted at the start. -/
theorem rerun_referenced (P : Pipeline β) (s₀ : Sys β) (ops : List (Op β))
    (hops : Run.Meets (Op.exec P) (fun s o => o.reopensCounted s₀.store s) s₀ ops) :
    Run.Always (Op.exec P)
      (fun s => ∀ (j : ImportJobId) (r₀ r : ImportJob), s₀.store.jobs[j]? = some r₀ →
        s.store.jobs[j]? = some r → r.status = .running →
          s₀.store.stillReferenced r₀.sourceStorageKey) s₀ ops := by
  have hinit : s₀.Counted s₀.store := by
    refine ⟨Nat.le_refl _, fun j hj => ?_⟩
    obtain ⟨r, hr, hneed⟩ := (Option.any_eq_true _ _).1 hj
    unfold Store.counts
    rw [hr, Option.all_some]
    exact Store.stillReferenced_iff.2 (.inr (.inl ⟨j, r, hr, rfl, of_decide_eq_true hneed⟩))
  refine Run.always (I := Sys.Counted s₀.store) (fun s h j r₀ r hr₀ hr hrun => ?_)
    (fun s o h ho => h.exec ho) hinit hops
  have hresumes : s.store.resumes j := by
    unfold Store.resumes
    rw [hr, Option.any_some]
    simp [ImportJob.stillNeedsRawBlob, hrun]
  have hcounts := h.counted j hresumes
  unfold Store.counts at hcounts
  rwa [hr₀, Option.all_some] at hcounts

/-- a job whose only file is paused on the provider -/
def blockedFile : List (Op String) :=
  uploadedFile ++ turns 1 20 ++ [.step 1 { verification := .notConfigured }] ++ turns 1 5

set_option maxRecDepth 8000 in
/-- it is requeued, claimed and done -/
theorem rerun_referenced_requeued :
    Run.Always (Op.exec plainPipeline)
      (fun s => ∀ (j : ImportJobId) (r₀ r : ImportJob),
        (importRun plainPipeline blockedFile).store.jobs[j]? = some r₀ →
          s.store.jobs[j]? = some r → r.status = .running →
            (importRun plainPipeline blockedFile).store.stillReferenced r₀.sourceStorageKey)
      (importRun plainPipeline blockedFile)
      ([.requeueBlockedJobs .ok, .claimNextJob "w" 120] ++ turns 2 20) :=
  rerun_referenced plainPipeline _ _ (by decide)

/-! ## a paused document of a completed job -/

/-- a package is a text, with a file for each of its letters -/
def packagePipeline : Pipeline String :=
  { plainPipeline with
    unzip := fun _ c => some
      { entries := c.toList.map fun x => ⟨String.ofList [x, '.', 't', 'x', 't'],
          .ok (String.ofList [x])⟩
        manifest := none } }

/-- The first file of a package is indexed and the second one paused on the provider, so that the
job is completed; then the second file is uploaded for itself. -/
def partlyPaused : List (Op String) :=
  .importPackage 0 "p.zip" "ab" :: turns 0 4 ++ [.claimNextJob "w" 120] ++ turns 1 40 ++
    [.step 1 { verification := .notConfigured }] ++ turns 1 6 ++
      .importPackage 0 "b.txt" "b" :: turns 2 4

/-- The worker of that upload takes up the paused document and dies; a reconcile makes the first
job pending, and a claim takes it. -/
def resumedByAnother : List (Op String) :=
  .claimNextJob "w" 120 :: turns 3 8 ++ [.crash 3, .reconcileOrphanedDocuments] ++ turns 4 1 ++
    [.claimNextJob "w" 120]

set_option maxRecDepth 8000 in
theorem resumedByAnother_uncounted : ¬ Run.Always (Op.exec packagePipeline)
    (fun s => ∀ (j : ImportJobId) (r₀ r : ImportJob),
      (importRun packagePipeline partlyPaused).store.jobs[j]? = some r₀ →
        s.store.jobs[j]? = some r → r.status = .running →
          (importRun packagePipeline partlyPaused).store.stillReferenced r₀.sourceStorageKey)
    (importRun packagePipeline partlyPaused) resumedByAnother := by
  intro h
  have huncounted : ((importRun packagePipeline partlyPaused).store.jobs[0]?).any fun r =>
      ¬ (importRun packagePipeline partlyPaused).store.stillReferenced r.sourceStorageKey := by
    decide
  have hruns : ((Run.run (Op.exec packagePipeline) (importRun packagePipeline partlyPaused)
      resumedByAnother).store.jobs[0]?).any fun r => r.status = .running := by
    decide
  obtain ⟨r₀, hr₀, hno⟩ := (Option.any_eq_true _ _).1 huncounted
  obtain ⟨r, hr, hrun⟩ := (Option.any_eq_true _ _).1 hruns
  exact of_decide_eq_true hno (h.run 0 r₀ r hr₀ hr (of_decide_eq_true hrun))

end LifeAI.Import
