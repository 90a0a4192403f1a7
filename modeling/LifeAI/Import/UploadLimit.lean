import LifeAI.Import.Steps
import LifeAI.Zip.Model

/-!
# The size limit on the files of a package

`_run_once` passes the length of the package as the limit to the storage of each of its files, which
may be longer once they are extracted.

* `zipPipeline`        the import with `validate_and_extract_zip` as it is;
* `importStep`         an operation during which the storage backend has no error;
* `Sys.Extracted`      every file at work comes out of a package under the limit of that package;
* `Sys.NoneRejected`   no file ends as `storage_failed`;
* `storage_limit_law`  none ever does exactly if every file that is written is no longer than its
                       package.
-/

namespace LifeAI.Import

open Zip (Bytes Library Limits ZipEntryResult validateAndExtractZip)

/-! ## the packages -/

/-- a row of the extraction, as the loop of `_run_once` sees it -/
def entryOf (e : ZipEntryResult) : Entry Bytes where
  filename := e.filename
  status := match e.status with
    | .ok => .ok (e.content.getD [])
    | .encrypted => .encrypted
    | .skipped => .skipped
    | .rejected => .rejected

/-- the import with `validate_and_extract_zip` and `len` -/
def zipPipeline (lib : Library) (lim : Limits) (P : Pipeline Bytes) : Pipeline Bytes :=
  { P with
    size := List.length
    unzip := fun name raw =>
      match validateAndExtractZip lib lim raw name with
      | .ok r => some ⟨r.1.entries.map entryOf, r.1.manifest⟩
      | .error _ => none }

/-- an operation without an error of the storage backend -/
def Op.calm {β : Type} : Op β → Op β
  | .step i env => .step i { env with storageError := false }
  | o => o

/-- an operation on the import, without an error of the storage backend -/
def importStep (lib : Library) (lim : Limits) (P : Pipeline Bytes) (s : Sys Bytes) (o : Op Bytes) :
    Sys Bytes :=
  o.calm.exec (zipPipeline lib lim P) s

/-- the loop is at work on an upload -/
structure Pass.Of (lib : Library) (lim : Limits) (p : Pass Bytes) (name : String) (raw : Bytes)
    (entries : List (Entry Bytes)) : Prop where
  limit : p.maxBytes = max raw.length 1
  todo : p.todo ⊆ entries
  file : p.zip = false → entries = [⟨name, .ok raw⟩]
  zip : p.zip = true → ∃ r opened, validateAndExtractZip lib lim raw name = .ok (r, opened) ∧
    entries = r.entries.map entryOf

/-- the loop that a worker is in, and the file that it is at -/
def Pc.file? {β : Type} : Pc β → Option (Pass β × Option (String × β))
  | .checking p | .recording p _ | .renewing p | .rollingUp p => some (p, none)
  | .looking p filename content | .creating p filename content => some (p, some (filename, content))
  | .working p f => some (p, some (f.filename, f.content))
  | _ => none

/-- the file comes out of the upload that the loop is at work on -/
def Pc.Extracts (lib : Library) (lim : Limits) (pc : Pc Bytes) : Prop :=
  ∀ p x, pc.file? = some (p, x) → ∃ name raw entries, p.Of lib lim name raw entries ∧
    ∀ file ∈ x, ⟨file.1, .ok file.2⟩ ∈ entries

/-- every file at work comes out of a package under the limit of that package -/
def Sys.Extracted (lib : Library) (lim : Limits) (s : Sys Bytes) : Prop :=
  ∀ i w, s.proc i = some (.worker w) → w.pc.Extracts lib lim

/-- no file ends as `storage_failed` -/
structure Sys.NoneRejected (s : Sys Bytes) : Prop where
  documents : ∀ d ∈ s.store.documents, d.status ≠ .storageFailed
  files : ∀ i w p f, s.proc i = some (.worker w) → w.pc = .working p f →
    f.stage ≠ .ending .storageFailed

/-- A file of a package that is about to be written is no longer than the package.  The write is not
made when the connection or the disk fails, or the job is gone. -/
def Op.fits (s : Sys Bytes) : Op Bytes → Prop
  | .step i env => env.dbError = false → env.osError = false → ∀ w p f,
      s.proc i = some (.worker w) → w.pc = .working p f → f.stage = .writing → p.zip = true →
        (s.store.jobs[w.job]?).isSome → f.content.length ≤ p.maxBytes
  | _ => True

variable {lib : Library} {lim : Limits} {P : Pipeline Bytes} {env : Env} {s t : Sys Bytes}
  {st : Store Bytes} {w w' : Worker Bytes} {p : Pass Bytes} {f f' : FileRun Bytes} {i : ProcId}
  {self : ProcId} {a : Act Bytes} {r : ImportJob} {o : Op Bytes}

/-! ## the files of a pass -/

theorem Pass.Of.congr {q : Pass Bytes} {name : String} {raw : Bytes} {entries : List (Entry Bytes)}
    (h : p.Of lib lim name raw entries) (hzip : q.zip = p.zip) (hlimit : q.maxBytes = p.maxBytes)
    (htodo : q.todo ⊆ p.todo) : q.Of lib lim name raw entries where
  limit := hlimit.trans h.limit
  todo := List.Subset.trans htodo h.todo
  file hq := h.file (hzip.symm.trans hq)
  zip hq := h.zip (hzip.symm.trans hq)

theorem throw_extracts {e : Exc} (hw : w.pc.Extracts lib lim) (h : w.throw e = some w') :
    w'.pc.Extracts lib lim := by
  rcases Worker.throw_cases h with ⟨-, rfl | rfl⟩ | ⟨rfl, -⟩
  · exact nofun
  · exact nofun
  · exact hw

/-- the pass goes on, with the same file or none -/
theorem Worker.goto_extracts {pc pc' : Pc Bytes} {q : Pass Bytes} {x y : Option (String × Bytes)}
    (hw : w.pc.Extracts lib lim) (hpc : w.pc = pc) (hx : pc.file? = some (p, x))
    (hy : pc'.file? = some (q, y)) (hq : q.zip = p.zip ∧ q.maxBytes = p.maxBytes ∧ q.todo ⊆ p.todo)
    (hfile : ∀ file ∈ y, file ∈ x) : pc'.Extracts lib lim := by
  intro p' x' hnext
  obtain ⟨rfl, rfl⟩ := Prod.mk.inj (Option.some.inj (hy.symm.trans hnext))
  obtain ⟨name, raw, entries, hp, hfiles⟩ := hw p x (hpc ▸ hx)
  exact ⟨name, raw, entries, hp.congr hq.1 hq.2.1 hq.2.2, fun file h => hfiles file (hfile file h)⟩

/-- the loop and what is left of it stay -/
theorem Pass.same (p : Pass Bytes) (outcomes : List FileOutcome) :
    { p with outcomes }.zip = p.zip ∧ { p with outcomes }.maxBytes = p.maxBytes ∧
      { p with outcomes }.todo ⊆ p.todo :=
  ⟨rfl, rfl, List.Subset.refl _⟩

theorem Worker.Enters.extracts {e : Entry Bytes} {todo : List (Entry Bytes)}
    (h : w.Enters st { p with todo } e w') (hpc : w.pc = .checking p) (ht : p.todo = e :: todo)
    (hw : w.pc.Extracts lib lim) : w'.pc.Extracts lib lim := by
  have hsub : todo ⊆ p.todo := by
    rw [ht]
    exact List.subset_cons_self e todo
  cases h with
  | heed hc | skip st' hst he => exact w.goto_extracts hw hpc rfl rfl ⟨rfl, rfl, hsub⟩ nofun
  | look content he hm hc =>
    intro q x hnext
    obtain ⟨rfl, rfl⟩ := Prod.mk.inj (Option.some.inj hnext)
    have hfile : w.pc.file? = some (p, none) := by rw [hpc]; rfl
    obtain ⟨name, raw, entries, hp, -⟩ := hw p none hfile
    refine ⟨name, raw, entries, hp.congr rfl rfl hsub, fun file hmem => ?_⟩
    obtain rfl := Option.some.inj hmem
    have hentry : e ∈ entries := hp.todo (by rw [ht]; exact List.mem_cons_self)
    rw [← he]
    exact hentry

theorem Worker.Finds.extracts {filename : String} {content : Bytes} {o : Option (Worker Bytes)}
    (h : w.Finds (zipPipeline lib lim P) st p filename content o) (ho : o = some w')
    (hpc : w.pc = .looking p filename content) (hw : w.pc.Extracts lib lim) :
    w'.pc.Extracts lib lim := by
  cases h with
  | unhashable => exact throw_extracts hw ho
  | resumes i d | missing =>
    cases ho
    exact w.goto_extracts hw hpc rfl rfl (p.same p.outcomes) fun file h => h
  | _ =>
    cases ho
    exact w.goto_extracts hw hpc rfl rfl (p.same _) nofun

/-- a worker goes on with files of the upload that it has opened -/
theorem Worker.Goes.extracts {o : Option (Worker Bytes)}
    (h : w.Goes (zipPipeline lib lim P) env st self r a o) (ho : o = some w')
    (hw : w.pc.Extracts lib lim) : w'.pc.Extracts lib lim := by
  cases h with
  | lockDown | readError | zipError | fileError => exact throw_extracts hw ho
  | openZip raw package hpc hz hu =>
    cases ho
    intro p x hnext
    obtain ⟨rfl, rfl⟩ := Prod.mk.inj (Option.some.inj hnext)
    unfold zipPipeline at hu
    dsimp only at hu
    split at hu
    · next result hresult =>
      obtain rfl := Option.some.inj hu
      exact ⟨r.sourceFilename, raw, _,
        ⟨rfl, List.Subset.refl _, nofun, fun _ => ⟨result.1, result.2, hresult, rfl⟩⟩, nofun⟩
    · cases hu
  | openFile raw hpc hz =>
    cases ho
    intro p x hnext
    obtain ⟨rfl, rfl⟩ := Prod.mk.inj (Option.some.inj hnext)
    exact ⟨r.sourceFilename, raw, _, ⟨rfl, List.Subset.refl _, fun _ => rfl, nofun⟩, nofun⟩
  | enter p e todo w'' hpc ht he =>
    cases ho
    exact he.extracts hpc ht hw
  | look p filename content w'' hpc hf => exact hf.extracts ho hpc hw
  | create p filename content title category hpc =>
    cases ho
    exact w.goto_extracts hw hpc rfl rfl (p.same p.outcomes) fun file h => h
  | file p f f' a hpc hf =>
    cases ho
    obtain ⟨hname, hcontent, -⟩ := hf.same
    refine w.goto_extracts hw hpc rfl rfl (p.same p.outcomes) fun file hfile => ?_
    rw [hname, hcontent] at hfile
    exact hfile
  | fileDone p f a o hpc hf =>
    cases ho
    exact w.goto_extracts hw hpc rfl rfl (p.same _) nofun
  | record p tried pc hpc hpc' =>
    cases ho
    rcases hpc' with rfl | rfl
    · exact w.goto_extracts hw hpc rfl rfl (p.same p.outcomes) nofun
    · exact w.goto_extracts hw hpc rfl rfl (p.same p.outcomes) nofun
  | renew p hpc | last p hpc ht =>
    cases ho
    exact w.goto_extracts hw hpc rfl rfl (p.same p.outcomes) nofun
  | unlock exc =>
    cases exc with
    | none => cases ho
    | some e =>
      cases ho
      exact nofun
  | refuse | fail => cases ho
  | _ =>
    cases ho
    exact nofun

/-! ## one file -/

/-- a file that has been written fits, and no stage leads to `storage_failed` -/
def Stage.Fits (fits : Prop) : Stage → Prop
  | .verifying | .republishing => fits
  | .ending st | .pausing st => st ≠ .storageFailed
  | _ => True

namespace FileRun

/-- no stage of the pipeline leads to `storage_failed` -/
theorem next_piped {job : ImportJobId} {maxBytes : Nat}
    (h : (f.next (zipPipeline lib lim P) env st job maxBytes).2 = .inl f')
    (hpiped : f.stage.piped) {fits : Prop} : f'.stage.Fits fits := by
  unfold next at h
  cases hst : f.stage with
  | validating | extractingText | embeddingCall =>
    rw [hst] at h
    cases h
    show Stage.Fits _ (if _ then _ else _)
    split_ifs
    · trivial
    · exact nofun
  | chunking =>
    rw [hst] at h
    cases h
    show Stage.Fits _ (if _ then _ else _)
    split_ifs
    · exact nofun
    · trivial
  | extracting | embedding =>
    rw [hst] at h
    cases h
    show Stage.Fits _ (if _ then _ else _)
    split_ifs <;> trivial
  | extracted =>
    rw [hst] at h
    cases h
    trivial
  | transcribing =>
    rw [hst] at h
    dsimp only at h
    split_ifs at h
    all_goals cases h
    all_goals first | trivial | exact nofun
  | checkingProvider =>
    rw [hst] at h
    dsimp only at h
    split_ifs at h
    · cases h
      exact nofun
    · cases hv : env.verification with
      | ok =>
        rw [hv] at h
        cases h
        trivial
      | notConfigured | notOk =>
        rw [hv] at h
        cases h
        exact nofun
  | pausing st | finishing =>
    rw [hst] at h
    cases h
  | _ =>
    rw [hst] at hpiped
    cases hpiped

/-- only the write can lead to `storage_failed`, when the backend has no error -/
theorem next_fits {job : ImportJobId} {maxBytes : Nat}
    (h : (f.next (zipPipeline lib lim P) env st job maxBytes).2 = .inl f')
    (hcalm : env.storageError = false)
    (hfits : env.osError = false → f.stage = .writing → f.content.length ≤ maxBytes)
    (hf : f.stage.Fits (f.content.length ≤ maxBytes)) :
    f'.stage.Fits (f'.content.length ≤ maxBytes) := by
  by_cases hpiped : f.stage.piped
  · exact next_piped h hpiped
  · unfold next at h
    cases hst : f.stage with
    | writing =>
      rw [hst] at h
      dsimp only at h
      split_ifs at h with hos hfull
      · cases h
        rcases hfull with hstorage | hsize
        · rw [hcalm] at hstorage
          exact absurd hstorage Bool.false_ne_true
        · exact absurd hsize (Nat.not_lt.2 (hfits (Bool.not_eq_true _ ▸ hos) hst))
      · cases h
        exact hfits (Bool.not_eq_true _ ▸ hos) hst
    | verifying =>
      rw [hst] at h hf
      dsimp only at h
      split_ifs at h
      · cases h
        trivial
      · cases h
        exact hf
    | republishing =>
      rw [hst] at h
      dsimp only at h
      split_ifs at h with hos hstorage
      · rw [hcalm] at hstorage
        exact absurd hstorage Bool.false_ne_true
      · cases h
        trivial
    | askingFirst =>
      rw [hst] at h
      cases h
      show Stage.Fits _ (if _ then _ else _)
      split_ifs
      · exact nofun
      · trivial
    | askingAgain =>
      rw [hst] at h
      cases h
      split_ifs
      · exact nofun
      · unfold pipeline
        show (if isMedia f.filename then Stage.validating else Stage.extracting).Fits _
        split_ifs <;> trivial
    | versioning | storing | linking =>
      rw [hst] at h
      cases h
      trivial
    | ending st =>
      rw [hst] at h
      cases h
    | _ =>
      rw [hst] at hpiped
      exact absurd rfl hpiped

end FileRun

/-! ## the rows of documents -/

/-- no act of a file that fits writes `storage_failed` -/
theorem FileRun.Goes.onDoc {x : FileRun Bytes ⊕ FileOutcome ⊕ Exc} {job : ImportJobId} {maxBytes : Nat}
    (h : f.Goes P env st job maxBytes a x) {fits : Prop} (hf : f.stage.Fits fits) {k : DocId}
    {d : Document} (hd : d.status ≠ .storageFailed) : (a.onDoc k d).status ≠ .storageFailed := by
  have hset : ∀ {held new : IndexStatus}, new ≠ .storageFailed → (if f.doc = k then
      { d with status := dirty held new d.status } else d).status ≠ .storageFailed := by
    intro held new hnew
    split_ifs
    · unfold dirty
      split_ifs
      · exact hd
      · exact hnew
    · exact hd
  cases h with
  | store => exact hset nofun
  | mark st' stage h hst =>
    rcases hst with ⟨-, rfl⟩ | ⟨-, rfl⟩ | ⟨-, rfl⟩
    · exact hset nofun
    · exact hset nofun
    · exact hset nofun
  | pause st' h =>
    rw [h] at hf
    exact hset hf
  | ends st' h =>
    rw [h] at hf
    exact hset hf
  | finish =>
    show (if f.doc = k then { d with status := .indexed, chunkCount := _ } else d).status ≠ _
    split_ifs
    · exact nofun
    · exact hd
  | link =>
    show (if f.doc = k then { d with storageKey := _, status := .originalStored } else d).status ≠ _
    split_ifs
    · exact nofun
    · exact hd
  | _ => exact hd

/-- the file of the worker fits, if it has been written -/
def Worker.Fits (w : Worker Bytes) : Prop :=
  ∀ p f, w.pc = .working p f → f.stage.Fits (f.content.length ≤ p.maxBytes)

theorem Worker.Goes.onDoc {x : Option (Worker Bytes)} (h : w.Goes P env st self r a x)
    (hw : w.Fits) {k : DocId} {d : Document} (hd : d.status ≠ .storageFailed) :
    (a.onDoc k d).status ≠ .storageFailed := by
  cases h with
  | file p f f' a hpc hf | fileDone p f a o hpc hf | fileError p f a e hpc hf =>
    exact hf.onDoc (hw p f hpc) hd
  | unlock exc a hpc ha =>
    rcases ha with rfl | rfl
    · exact hd
    · exact hd
  | _ => exact hd

/-- the rows that an act adds have been received -/
theorem Worker.Goes.newDocs {x : Option (Worker Bytes)} (h : w.Goes P env st self r a x) :
    ∀ d ∈ a.newDocs, d.status ≠ .storageFailed := by
  have hnone : ∀ {f : FileRun Bytes} {job : ImportJobId} {maxBytes : Nat}
      {y : FileRun Bytes ⊕ FileOutcome ⊕ Exc}, f.Goes P env st job maxBytes a y →
        ∀ d ∈ a.newDocs, d.status ≠ .storageFailed := by
    intro f job maxBytes y hf
    cases hf <;> exact fun d hd => absurd hd List.not_mem_nil
  cases h with
  | file p f f' a hpc hf | fileDone p f a o hpc hf | fileError p f a e hpc hf => exact hnone hf
  | create =>
    intro d hd
    obtain rfl := List.mem_singleton.1 hd
    exact nofun
  | unlock exc a hpc ha =>
    rcases ha with rfl | rfl <;> exact fun d hd => absurd hd List.not_mem_nil
  | _ => exact fun d hd => absurd hd List.not_mem_nil

/-- rows of documents that change in other columns -/
theorem status_of_modify {documents : List Document} {k : DocId} {g : Document → Document}
    (hg : ∀ d, d.status ≠ .storageFailed → (g d).status ≠ .storageFailed)
    (h : ∀ d ∈ documents, d.status ≠ .storageFailed) :
    ∀ d ∈ documents.modify k g, d.status ≠ .storageFailed := by
  intro d hd
  obtain ⟨i, hi⟩ := List.mem_iff_getElem?.1 hd
  rw [Store.modify_getElem?] at hi
  obtain ⟨d₀, hd₀, rfl⟩ := Option.map_eq_some_iff.1 hi
  have hclean := h d₀ (List.mem_of_getElem? hd₀)
  split_ifs
  · exact hg d₀ hclean
  · exact hclean

/-- a worker that stays at its file has taken the next step of it -/
theorem Worker.step_working {q : Pass Bytes} (hpc : w.pc = .working p f)
    (h : (w.step P env st self).2 = some w') (hpc' : w'.pc = .working q f') :
    q = p ∧ (f.next P env st w.job p.maxBytes).2 = .inl f' ∧ env.dbError = false := by
  unfold Worker.step at h
  dsimp only at h
  split_ifs at h with hfault
  · exact absurd hpc' (Worker.throw_pc h)
  · have hdb : env.dbError = false := Bool.not_eq_true _ ▸ (not_or.1 hfault).1
    unfold Worker.next at h
    cases hr : st.jobs[w.job]? with
    | none =>
      rw [hr] at h
      cases h
    | some r =>
      rw [hr, hpc] at h
      dsimp only at h
      rcases hnext : f.next P env st w.job p.maxBytes with ⟨a, f'' | o | e⟩
      · rw [hnext] at h
        obtain rfl := Option.some.inj h
        obtain ⟨rfl, rfl⟩ := Pc.working.inj hpc'
        exact ⟨rfl, rfl, hdb⟩
      · rw [hnext] at h
        obtain rfl := Option.some.inj h
        cases hpc'
      · rw [hnext] at h
        exact absurd hpc' (Worker.throw_pc h)

theorem Worker.Goes.documents {x : Option (Worker Bytes)} (h : w.Goes P env st self r a x)
    (hw : w.Fits) (hdocs : ∀ d ∈ st.documents, d.status ≠ .storageFailed) :
    ∀ d ∈ (st.apply P a).documents, d.status ≠ .storageFailed := by
  intro d hd
  obtain ⟨k, hk⟩ := List.mem_iff_getElem?.1 hd
  rcases Store.of_apply_doc hk with ⟨d₀, hd₀, rfl⟩ | ⟨-, hnew⟩
  · exact h.onDoc hw (hdocs d₀ (List.mem_of_getElem? hd₀))
  · exact h.newDocs d hnew

/-- the documents after a step of a process that is no worker -/
theorem Proc.documents_step {q : Proc Bytes} (hq : ∀ w, q ≠ .worker w)
    (hdocs : ∀ d ∈ st.documents, d.status ≠ .storageFailed) :
    ∀ d ∈ (q.step P env st self).1.documents, d.status ≠ .storageFailed := by
  obtain ⟨-, -, hstep⟩ := @Proc.step_docs Bytes P env st self q hq
  rcases hstep with hsame | ⟨k, status, hmodify⟩
  · rw [hsame]
    exact hdocs
  · rw [hmodify]
    exact status_of_modify (fun _ hd => hd) hdocs

/-! ## the system -/

/-- where a worker comes from: it was there, it is new, or it has taken a step -/
theorem exec_worker (h : (o.exec P s).proc i = some (.worker w')) :
    s.proc i = some (.worker w') ∨ w'.pc = .loading ∨
      ∃ w env, o = .step i env ∧ s.proc i = some (.worker w) ∧
        (w.step P env s.store i).2 = some w' := by
  have hspawn : ∀ {u : Sys Bytes} {q : Proc Bytes}, u.procs = s.procs → (∀ w, q ≠ .worker w) →
      (u.spawn q).proc i = some (.worker w') → s.proc i = some (.worker w') := by
    intro u q hprocs hq hi
    rcases Sys.proc_spawn hi with hold | ⟨-, hnew⟩
    · unfold Sys.proc at hold ⊢
      rw [← hprocs]
      exact hold
    · exact absurd hnew.symm (hq w')
  generalize hexec : o.exec P s = t at h
  cases does hexec with
  | stays | tick | requeue | settled => exact .inl h
  | upload | memory | delete | retryPurge | reconcile => exact .inl (hspawn rfl (by simp) h)
  | purge owner k d hd hlive howner t ht =>
    rcases ht with rfl | ⟨key, -, rfl⟩
    · exact .inl h
    · exact .inl (hspawn rfl (by simp) h)
  | claim name n j r =>
    rcases Sys.proc_spawn h with hold | ⟨-, hnew⟩
    · exact .inl hold
    · obtain rfl := Proc.worker.inj hnew
      exact .inr (.inl rfl)
  | step k env q hi hfree =>
    rcases Sys.proc_set h with ⟨rfl, hk⟩ | ⟨-, hk⟩
    · cases q with
      | worker w =>
        obtain ⟨v, hv, heq⟩ := Option.map_eq_some_iff.1 hk
        obtain rfl := Proc.worker.inj heq
        exact .inr (.inr ⟨w, env, rfl, hi, hv⟩)
      | upload u | memory m | deletion d | reconcile ids =>
        exact absurd hk ((Proc.step_other (by simp)).1 w')
    · exact .inl hk
  | crash k =>
    rcases Sys.proc_set h with ⟨-, hk⟩ | ⟨-, hk⟩
    · cases hk
    · exact .inl hk

theorem Sys.Extracted.exec (h : s.Extracted lib lim) (o : Op Bytes) :
    (o.exec (zipPipeline lib lim P) s).Extracted lib lim := by
  intro i v hv
  rcases exec_worker hv with hold | hnew | ⟨w, env, rfl, hi, hstep⟩
  · exact h i v hold
  · rw [hnew]
    exact nofun
  · have hw := h i w hi
    rcases hrun : w.step (zipPipeline lib lim P) env s.store i with ⟨st, x⟩
    rw [hrun] at hstep
    cases Worker.steps hrun with
    | lost => cases hstep
    | faults => exact throw_extracts hw hstep
    | goes r a x hr hg hdb => exact hg.extracts hstep hw

/-- what holds in the runs in which every file of a package that is written fits -/
structure Sys.Fitting (lib : Library) (lim : Limits) (s : Sys Bytes) : Prop where
  extracted : s.Extracted lib lim
  documents : ∀ d ∈ s.store.documents, d.status ≠ .storageFailed
  workers : ∀ i w, s.proc i = some (.worker w) → w.Fits

namespace Sys.Fitting

theorem noneRejected (h : s.Fitting lib lim) : s.NoneRejected where
  documents := h.documents
  files := by
    intro i w p f hi hpc hstage
    have hfits := h.workers i w hi p f hpc
    rw [hstage] at hfits
    exact hfits rfl

/-- no file that is written is longer than the limit -/
theorem limit (h : s.Fitting lib lim) (ho : (Op.step i env).fits s) (hdb : env.dbError = false)
    (hi : s.proc i = some (.worker w)) (hr : s.store.jobs[w.job]? = some r)
    (hpc : w.pc = .working p f) (hos : env.osError = false) (hst : f.stage = .writing) :
    f.content.length ≤ p.maxBytes := by
  cases hzip : p.zip with
  | true =>
    have hrow : (s.store.jobs[w.job]?).isSome := by
      rw [hr]
      rfl
    exact ho hdb hos w p f hi hpc hst hzip hrow
  | false =>
    -- an upload that is no package is its only file
    have hfile : w.pc.file? = some (p, some (f.filename, f.content)) := by rw [hpc]; rfl
    obtain ⟨name, raw, entries, hp, hx⟩ := h.extracted i w hi p _ hfile
    have hentry := hx _ rfl
    rw [hp.file hzip, List.mem_singleton] at hentry
    obtain ⟨-, hcontent⟩ := Entry.mk.inj hentry
    have hraw : f.content = raw := EntryStatus.ok.inj hcontent
    rw [hraw, hp.limit]
    exact Nat.le_max_left _ _

theorem stepWorker (h : s.Fitting lib lim) (hi : s.proc i = some (.worker w))
    (hcalm : env.storageError = false) (ho : (Op.step i env).fits s)
    (hstep : (w.step (zipPipeline lib lim P) env s.store i).2 = some w') : w'.Fits := by
  intro p f' hpc'
  rcases hrun : w.step (zipPipeline lib lim P) env s.store i with ⟨st, x⟩
  have hx : x = some w' := by
    rw [hrun] at hstep
    exact hstep
  cases Worker.steps hrun with
  | lost => cases hx
  | faults => exact absurd hpc' (Worker.throw_pc hx)
  | goes r a x hr hg hdb =>
    rcases hg.working hx hpc' with ⟨f, hpc, -⟩ | ⟨_, _, _, _, -, -, -, -, -, rfl⟩ |
      ⟨_, _, _, _, -, -, rfl⟩
    · obtain ⟨-, hfile, -⟩ := Worker.step_working hpc hstep hpc'
      refine FileRun.next_fits hfile hcalm (fun hos hst => ?_) (h.workers i w hi p f hpc)
      exact h.limit ho hdb hi hr hpc hos hst
    · show (if isMedia _ then Stage.validating else Stage.extracting).Fits _
      split_ifs <;> trivial
    · trivial

theorem documents_exec (h : s.Fitting lib lim) (o : Op Bytes) :
    ∀ d ∈ (o.exec P s).store.documents, d.status ≠ .storageFailed := by
  have hpurged : ∀ k d₀, ∀ d ∈ (s.store.purged k d₀).documents, d.status ≠ .storageFailed := by
    intro k d₀
    refine status_of_modify (fun d hd => ?_) h.documents
    dsimp only
    split_ifs
    · exact hd
    · exact nofun
  generalize hexec : o.exec P s = t
  cases does hexec with
  | purge owner k d hd hlive howner t ht =>
    rcases ht with rfl | ⟨key, -, rfl⟩
    · exact hpurged k d
    · exact hpurged k d
  | settled owner k d => exact status_of_modify (fun _ hd => hd) h.documents
  | step i env q hi hfree =>
    cases q with
    | worker w =>
      rcases hrun : w.step P env s.store i with ⟨st, x⟩
      show ∀ d ∈ (w.step P env s.store i).1.documents, d.status ≠ .storageFailed
      rw [hrun]
      cases Worker.steps hrun with
      | lost | faults => exact h.documents
      | goes r a x hr hg => exact hg.documents (h.workers i w hi) h.documents
    | upload u | memory m | deletion d | reconcile ids =>
      exact Proc.documents_step (by simp) h.documents
  | _ => exact h.documents

theorem exec (h : s.Fitting lib lim) (ho : o.fits s) :
    (o.calm.exec (zipPipeline lib lim P) s).Fitting lib lim where
  extracted := h.extracted.exec o.calm
  documents := h.documents_exec o.calm
  workers := by
    intro i v hv
    rcases exec_worker hv with hold | hnew | ⟨w, env, hcalm, hi, hstep⟩
    · exact h.workers i v hold
    · intro p f hpc
      rw [hnew] at hpc
      cases hpc
    · cases o with
      | step i' env' =>
        obtain ⟨rfl, rfl⟩ := Op.step.inj hcalm
        have hfits : (Op.step i' { env' with storageError := false }).fits s := ho
        exact h.stepWorker hi rfl hfits hstep
      | _ => cases hcalm

end Sys.Fitting

/-- a process after a step that waits for no lock -/
theorem exec_step_proc {q : Proc Bytes} (hq : s.proc i = some q) (htakes : q.takes P = none) :
    ((Op.step i env).exec P s).proc i = (q.step P env s.store i).2 := by
  have hjoin : s.procs[i]?.join = some q := hq
  have hlt : i < s.procs.length := by
    by_contra hge
    rw [List.getElem?_eq_none (Nat.le_of_not_lt hge)] at hjoin
    cases hjoin
  unfold Op.exec Sys.proc
  dsimp only
  rw [hjoin]
  dsimp only
  rw [htakes]
  show (s.procs.set i _)[i]?.join = _
  rw [List.getElem?_set_self hlt]
  rfl

/-- a file that is longer than the limit is rejected -/
theorem Op.fits_of_noneRejected (h : (o.calm.exec (zipPipeline lib lim P) s).NoneRejected) :
    o.fits s := by
  cases o with
  | step i env =>
    intro hdb hos w p f hi hpc hst hzip hrow
    by_contra hlong
    obtain ⟨r, hr⟩ := Option.isSome_iff_exists.1 hrow
    let env' : Env := { env with storageError := false }
    let rejected := w.goto (.working p (f.goto (.ending .storageFailed)))
    have hfree : (Proc.worker w).takes (zipPipeline lib lim P) = none := by
      simp [Proc.takes, hpc, hst]
    -- the write goes on to `storage_failed`
    have hfile : f.next (zipPipeline lib lim P) env' s.store w.job p.maxBytes =
        (.idle, .inl (f.goto (.ending .storageFailed))) := by
      unfold FileRun.next
      rw [hst]
      show (if env.osError = true then _ else if _ ∨ _ then _ else _) = _
      rw [if_neg (by rw [hos]; exact Bool.false_ne_true), if_pos (.inr (Nat.lt_of_not_le hlong))]
    have hnext : w.next (zipPipeline lib lim P) env' s.store i = (.idle, some rejected) := by
      unfold Worker.next
      rw [hr, hpc]
      dsimp only
      rw [hfile]
    have hstep : (w.step (zipPipeline lib lim P) env' s.store i).2 = some rejected := by
      rw [Worker.step_eq hnext hdb rfl]
    have hproc : ((Op.step i env').exec (zipPipeline lib lim P) s).proc i =
        some (.worker rejected) := by
      rw [exec_step_proc hi hfree]
      show (w.step (zipPipeline lib lim P) env' s.store i).2.map Proc.worker = _
      rw [hstep]
      rfl
    exact h.files i rejected p (f.goto (.ending .storageFailed)) hproc rfl rfl
  | _ => trivial

/-- In every run whose storage backend has no error: every file at work comes out of a package under
the limit of that package; and no file ends as `storage_failed` exactly if every file of a package
that is written is no longer than the package. -/
theorem storage_limit_law (lib : Library) (lim : Limits) (P : Pipeline Bytes) (ops : List (Op Bytes)) :
    Run.Always (importStep lib lim P) (Sys.Extracted lib lim) {} ops ∧
    (Run.Always (importStep lib lim P) Sys.NoneRejected {} ops ↔
      Run.Meets (importStep lib lim P) Op.fits {} ops) := by
  have hempty : ({} : Sys Bytes).Extracted lib lim := fun i w hi => absurd hi (by simp [Sys.proc])
  have hinit : ({} : Sys Bytes).Fitting lib lim :=
    ⟨hempty, fun d hd => absurd hd List.not_mem_nil, fun i w hi => absurd hi (by simp [Sys.proc])⟩
  constructor
  · exact Run.always_of_inv (fun _ h => h) (fun s o h => h.exec o.calm) hempty ops
  · exact Run.always_iff_meets (fun s h => h.noneRejected) (fun s o _ h => Op.fits_of_noneRejected h)
      (fun s o h ho => h.exec ho) hinit ops

/-! ## a package that is shorter than its file -/

/-- two hundred letters -/
def letters : Bytes := List.replicate 200 97

/-- a package of 114 bytes with a file `a.txt` of these -/
def lettersZip : Bytes :=
  [80, 75, 3, 4, 20, 0, 0, 0, 8, 0, 0, 0, 33, 0, 88, 240, 154, 89, 6, 0, 0, 0, 200, 0, 0, 0, 5, 0, 0,
    0, 97, 46, 116, 120, 116, 75, 76, 28, 30, 0, 0, 80, 75, 1, 2, 20, 3, 20, 0, 0, 0, 8, 0, 0, 0, 33,
    0, 88, 240, 154, 89, 6, 0, 0, 0, 200, 0, 0, 0, 5, 0, 0, 0, 0, 0, 0, 0, 0, 0, 0, 0, 128, 1, 0, 0,
    0, 0, 97, 46, 116, 120, 116, 80, 75, 5, 6, 0, 0, 0, 0, 1, 0, 1, 0, 51, 0, 0, 0, 41, 0, 0, 0, 0,
    0]

/-- the library on these -/
def lettersLibrary : Library where
  sha256 raw :=
    if raw = letters then "c2a908d98f5df987ade41b5fce213067efbcc21ef2240212a41e54b5e7c28ae5"
    else if raw = lettersZip then "24bcbd29d3286414daa7e9162c48d8cf2ef90aaf352173fc8858b8237bd915f2"
    else ""
  zipFile raw :=
    if raw = lettersZip then
      .ok [{ filename := "a.txt", fileSize := 200, compressSize := 6, chunks := [letters] }]
    else .error ⟨.badZipFile, "File is not a zip file"⟩
  loads _ := .error ""
  repr name := s!"'{name}'"
  ratioText a b := toString (a / b)

/-- files of letters as texts -/
def lettersPipeline : Pipeline Bytes where
  sha256 := lettersLibrary.sha256
  size := List.length
  unzip _ _ := none
  extractText _ content := some (String.ofList (content.map fun b => Char.ofNat b.toNat))
  chunkText text := [text]
  validMedia _ _ := true
  transcribe _ _ := none
  accepts _ _ := true

/-- an upload of the package, and a worker at its job -/
def importedLetters : List (Op Bytes) :=
  .importPackage 0 "p.zip" lettersZip :: turns 0 4 ++ [.claimNextJob "w" 120] ++ turns 1 13

set_option maxRecDepth 8000 in
/-- the extraction accepts the file, which ends as `storage_failed` -/
theorem lettersZip_rejected :
    (validateAndExtractZip lettersLibrary {} lettersZip "p.zip").toOption.map
        (fun r => r.1.entries.map fun e => (e.status, e.content)) = some [(.ok, some letters)] ∧
      (Run.run (importStep lettersLibrary {} lettersPipeline) {} importedLetters).store.documents.map
        (·.status) = [.storageFailed] := by
  constructor <;> decide

end LifeAI.Import
