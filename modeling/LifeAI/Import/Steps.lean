import LifeAI.Import.System

/-!
# What a step can do

`FileRun.Goes` and `Worker.Goes` have one case for each way on in `FileRun.next` and `Worker.next`,
and `Does` one for each way that an operation ends; the invariants are proved by cases on them.

* `Act.onJob`, `Act.onDoc`  what an act makes of a row;
* `Sys.proc`                the process with an id.
-/

namespace LifeAI.Import

variable {β : Type} {P : Pipeline β} {env : Env} {s : Store β} {self : ProcId} {w : Worker β}

/-! ## rows under an act -/

/-- what an act makes of a row of `knowledge_import_jobs` -/
def Act.onJob (s : Store β) (j : ImportJobId) (r : ImportJob) : Act β → ImportJob
  | .job i x => if i = j then x.apply s.clock (s.stuck j) r else r
  | _ => r

/-- what an act makes of a row of `documents` -/
def Act.onDoc (i : DocId) (d : Document) : Act β → Document
  | .status k held st _ => if k = i then { d with status := dirty held st d.status } else d
  | .link k key => if k = i then { d with storageKey := some key, status := .originalStored } else d
  | .index k texts _ =>
    if k = i then { d with status := .indexed, chunkCount := texts.length } else d
  | _ => d

/-- the rows that an act adds to `documents` -/
def Act.newDocs : Act β → List Document
  | .create d _ _ _ => [d]
  | _ => []

namespace Store

theorem modify_getElem? {α : Type} (rows : List α) (i j : Nat) (f : α → α) :
    (rows.modify i f)[j]? = rows[j]?.map fun r => if i = j then f r else r := by
  rw [List.getElem?_modify]
  by_cases h : i = j
  · simp only [h, if_true]
    rfl
  · simp [h]

@[simp] theorem apply_clock (a : Act β) : (s.apply P a).clock = s.clock := by
  cases a <;> rfl

@[simp] theorem apply_projectKeys (a : Act β) : (s.apply P a).projectKeys = s.projectKeys := by
  cases a <;> rfl

theorem apply_job (a : Act β) (j : ImportJobId) :
    (s.apply P a).jobs[j]? = s.jobs[j]?.map fun r => a.onJob s j r := by
  cases a with
  | job i x =>
    show (s.jobs.modify i fun r => x.apply s.clock (s.stuck i) r)[j]? = _
    rw [modify_getElem?]
    refine Option.map_congr fun r _ => ?_
    show _ = if i = j then _ else r
    by_cases h : i = j
    · rw [if_pos h, if_pos h, h]
    · rw [if_neg h, if_neg h]
  | _ => exact Option.map_id'.symm

theorem apply_docs (a : Act β) : (s.apply P a).documents =
    (s.documents.mapIdx fun i d => a.onDoc i d) ++ a.newDocs := by
  have hmap : ∀ (k : DocId) (f : Document → Document), s.documents.modify k f =
      s.documents.mapIdx fun i d => if k = i then f d else d := by
    intro k f
    apply List.ext_getElem?
    intro i
    rw [modify_getElem?, List.getElem?_mapIdx]
  have hid : s.documents = s.documents.mapIdx fun _ d => d := by
    apply List.ext_getElem?
    intro i
    rw [List.getElem?_mapIdx]
    exact Option.map_id'.symm
  cases a with
  | status k held st preview | link k key | index k texts preview =>
    exact (hmap k _).trans (List.append_nil _).symm
  | create d title category filename => exact congrArg (· ++ [d]) hid
  | _ => exact hid.trans (List.append_nil _).symm

/-- a row that is there before the act -/
theorem apply_doc (a : Act β) {i : DocId} {d : Document} (h : s.documents[i]? = some d) :
    (s.apply P a).documents[i]? = some (a.onDoc i d) := by
  have hi : i < s.documents.length := (List.getElem?_eq_some_iff.1 h).1
  rw [apply_docs, List.getElem?_append_left (by rwa [List.length_mapIdx]), List.getElem?_mapIdx, h]
  rfl

/-- a row that is there after it -/
theorem of_apply_doc {a : Act β} {i : DocId} {d : Document}
    (h : (s.apply P a).documents[i]? = some d) :
    (∃ d₀, s.documents[i]? = some d₀ ∧ d = a.onDoc i d₀) ∨
      i = s.documents.length ∧ d ∈ a.newDocs := by
  rw [apply_docs, List.getElem?_append, List.length_mapIdx] at h
  split at h
  · rw [List.getElem?_mapIdx, Option.map_eq_some_iff] at h
    obtain ⟨d₀, h₀, hd⟩ := h
    exact .inl ⟨d₀, h₀, hd.symm⟩
  · next hi =>
    refine .inr ⟨?_, List.mem_of_getElem? h⟩
    have hlen : a.newDocs.length ≤ 1 := by cases a <;> simp [Act.newDocs]
    have hlt : i - s.documents.length < a.newDocs.length := (List.getElem?_eq_some_iff.1 h).1
    have hzero : i - s.documents.length = 0 := Nat.lt_one_iff.1 (Nat.lt_of_lt_of_le hlt hlen)
    exact Nat.le_antisymm (Nat.sub_eq_zero_iff_le.1 hzero) (Nat.not_lt.1 hi)

/-- what the UPDATE of a reconcile makes of a row -/
def reopen (r : ImportJob) : ImportJob :=
  { r with status := .pending, completedAt := none, failureReason := none }

theorem reopened_job (ids : List ImportJobId) (j : ImportJobId) :
    (s.reopened ids).jobs[j]? = s.jobs[j]?.map fun r => if j ∈ ids then reopen r else r := by
  unfold reopened
  induction ids generalizing s with
  | nil => simp
  | cons i ids ih =>
    rw [List.foldl_cons, ih]
    show ((s.jobs.modify i reopen)[j]?).map _ = _
    rw [modify_getElem?, Option.map_map]
    refine Option.map_congr fun r _ => ?_
    by_cases hij : i = j
    · subst hij
      by_cases hi : i ∈ ids <;> simp [hi, reopen]
    · have hji : ¬ j = i := fun h => hij h.symm
      simp [hij, hji]

/-- the UPDATE of a reconcile writes job rows only -/
theorem reopened_frame (ids : List ImportJobId) :
    s.reopened ids = { s with jobs := (s.reopened ids).jobs } := by
  unfold reopened
  induction ids generalizing s with
  | nil => rfl
  | cons i ids ih => exact ih

theorem requeued_job (j : ImportJobId) : s.requeued.jobs[j]? =
    s.jobs[j]?.map fun r => if r.requeueEligible then reopen r else r := by
  show (s.jobs.map _)[j]? = _
  rw [List.getElem?_map]
  rfl

theorem purged_job (i : DocId) (d : Document) (j : ImportJobId) :
    (s.purged i d).jobs[j]? = s.jobs[j]?.map fun r => if d.importJobId = j ∧ purgeCancels r then
      { r with status := .cancelled, completedAt := some s.clock } else r := by
  show (s.jobs.modify d.importJobId _)[j]? = _
  rw [modify_getElem?]
  refine Option.map_congr fun r _ => ?_
  by_cases h : d.importJobId = j
  · simp only [h, if_true, true_and]
    rfl
  · simp only [h, if_false, false_and]

theorem apply_versions (a : Act β) : s.versions ⊆ (s.apply P a).versions := by
  cases a with
  | version d filename => exact List.subset_append_left ..
  | _ => exact List.Subset.refl _

end Store

@[simp] theorem Act.onDoc_checksum (a : Act β) (i : DocId) (d : Document) :
    (a.onDoc i d).checksum = d.checksum := by
  cases a <;> simp only [Act.onDoc] <;> split <;> rfl

theorem Document.holds_iff {d : Document} {owner : OwnerId} {checksum : String} :
    d.holds owner checksum ↔ ¬ d.deleted ∧ d.uploadedBy = owner ∧ d.checksum = checksum := by
  unfold Document.holds
  exact decide_eq_true_iff

/-! ## one file -/

namespace Stage

/-- between the original and the end -/
def piped : Stage → Bool
  | .validating | .extracting | .extractingText | .extracted | .transcribing | .embedding
  | .chunking | .checkingProvider | .pausing _ | .embeddingCall | .finishing => true
  | _ => false

/-- a status that a file pauses or ends with is one of those that the source sets there -/
def Sound : Stage → Prop
  | .pausing st => st.paused
  | .ending st => st.failedIndex ∨ st = .cancelled
  | _ => True

end Stage

namespace FileRun

variable (P env s) (job : ImportJobId) (maxBytes : Nat) (f : FileRun β)

inductive Goes : Act β → FileRun β ⊕ FileOutcome ⊕ Exc → Prop where
  | version (h : f.stage = .versioning) :
    Goes (.version f.doc f.filename) (.inl (f.goto .askingFirst))
  | heed (h : f.stage = .askingFirst ∨ f.stage = .askingAgain) (hc : cancelled s job) :
    Goes .idle (.inl (f.goto (.ending .cancelled)))
  | askFirst (h : f.stage = .askingFirst) (hc : ¬ cancelled s job) :
    Goes .idle (.inl (f.goto .storing))
  | store (h : f.stage = .storing) :
    Goes (.status f.doc f.held .originalStoring none) (.inl (f.set .originalStoring .writing))
  | osError (h : f.stage = .writing ∨ f.stage = .verifying ∨ f.stage = .republishing)
      (he : env.osError) : Goes .idle (.inr (.inr .osError))
  | storageError (h : f.stage = .writing ∨ f.stage = .republishing)
      (he : env.storageError ∨ maxBytes < P.size f.content) :
    Goes .idle (.inl (f.goto (.ending .storageFailed)))
  | write (h : f.stage = .writing) (hsize : P.size f.content ≤ maxBytes) :
    Goes (.publish f.content) (.inl (f.goto .verifying))
  | verified (h : f.stage = .verifying) (hv : s.verify P (P.sha256 f.content)) :
    Goes .idle (.inl (f.goto .linking))
  | damaged (h : f.stage = .verifying) (hv : ¬ s.verify P (P.sha256 f.content)) :
    Goes .idle (.inl (f.goto .republishing))
  | republish (h : f.stage = .republishing) :
    Goes (.publish f.content) (.inl (f.goto .linking))
  | link (h : f.stage = .linking) :
    Goes (.link f.doc (P.sha256 f.content)) (.inl (f.set .originalStored .askingAgain))
  | askAgain (h : f.stage = .askingAgain) (hc : ¬ cancelled s job) :
    Goes .idle (.inl f.pipeline)
  | check (stage : Stage) (h : f.stage.piped)
      (hs : stage.piped ∨ ∃ st : IndexStatus, st.failedIndex ∧ stage = .ending st)
      (hp : ∀ st, stage = .pausing st → st.paused) :
    Goes .idle (.inl (f.goto stage))
  | mark (st : IndexStatus) (stage : Stage) (h : f.stage.piped)
      (hst : f.stage = .extracting ∧ st = .extracting ∨ f.stage = .extracted ∧ st = .extracted ∨
        f.stage = .embedding ∧ st = .embedding) (hs : stage.piped)
      (hp : ∀ st, stage ≠ .pausing st) :
    Goes (.status f.doc f.held st none) (.inl (f.set st stage))
  | pause (st : IndexStatus) (h : f.stage = .pausing st) :
    Goes (.status f.doc f.held st (some (f.preview P))) (.inr (.inl (f.outcomeOf st)))
  | finish (h : f.stage = .finishing) :
    Goes (.index f.doc (f.texts P) (f.preview P)) (.inr (.inl (f.outcomeOf .indexed)))
  | ends (st : IndexStatus) (h : f.stage = .ending st) :
    Goes (.status f.doc f.held st none) (.inr (.inl (f.outcomeOf st)))

variable {P env s job maxBytes f}

theorem pipeline_piped : f.pipeline.stage.piped := by
  show (if isMedia f.filename then Stage.validating else Stage.extracting).piped
  split <;> rfl

theorem goes : f.Goes P env s job maxBytes (f.next P env s job maxBytes).1
    (f.next P env s job maxBytes).2 := by
  have hfail : ∀ st : IndexStatus, st.failedIndex → ∀ st', Stage.ending st = .pausing st' →
      st'.paused := fun _ _ _ h => nomatch h
  unfold next
  cases hst : f.stage with
  | versioning => exact .version hst
  | askingFirst =>
    dsimp only
    by_cases hc : cancelled s job
    · rw [if_pos hc]
      exact .heed (.inl hst) hc
    · rw [if_neg hc]
      exact .askFirst hst hc
  | storing => exact .store hst
  | writing =>
    dsimp only
    by_cases he : env.osError
    · rw [if_pos he]
      exact .osError (.inl hst) he
    · by_cases hs : env.storageError ∨ maxBytes < P.size f.content
      · rw [if_neg he, if_pos hs]
        exact .storageError (.inl hst) hs
      · rw [if_neg he, if_neg hs]
        exact .write hst (Nat.not_lt.1 (not_or.1 hs).2)
  | verifying =>
    dsimp only
    by_cases he : env.osError
    · rw [if_pos he]
      exact .osError (.inr (.inl hst)) he
    · by_cases hv : s.verify P (P.sha256 f.content)
      · rw [if_neg he, if_pos hv]
        exact .verified hst hv
      · rw [if_neg he, if_neg hv]
        exact .damaged hst hv
  | republishing =>
    dsimp only
    by_cases he : env.osError
    · rw [if_pos he]
      exact .osError (.inr (.inr hst)) he
    · by_cases hs : env.storageError
      · rw [if_neg he, if_pos hs]
        exact .storageError (.inr hst) (.inl hs)
      · rw [if_neg he, if_neg hs]
        exact .republish hst
  | linking => exact .link hst
  | askingAgain =>
    dsimp only
    by_cases hc : cancelled s job
    · rw [if_pos hc]
      exact .heed (.inr hst) hc
    · rw [if_neg hc]
      exact .askAgain hst hc
  | validating | extractingText | chunking | embeddingCall =>
    refine .check _ (by rw [hst]; rfl) ?_ ?_ <;> split <;> simp [Stage.piped, IndexStatus.failedIndex]
  | extracting =>
    refine .mark _ _ (by rw [hst]; rfl) (.inl ⟨hst, rfl⟩) ?_ ?_ <;> split <;> simp [Stage.piped]
  | extracted => exact .mark _ _ (by rw [hst]; rfl) (.inr (.inl ⟨hst, rfl⟩)) rfl nofun
  | transcribing =>
    dsimp only
    by_cases hr : env.raises ∨ P.transcribe f.filename f.content = none
    · rw [if_pos hr]
      exact .check _ (by rw [hst]; rfl) (.inr ⟨_, rfl, rfl⟩) nofun
    · rw [if_neg hr]
      refine .check _ (by rw [hst]; rfl) ?_ ?_ <;> split <;>
        simp [Stage.piped, IndexStatus.failedIndex]
  | embedding =>
    refine .mark _ _ (by rw [hst]; rfl) (.inr (.inr ⟨hst, rfl⟩)) ?_ ?_ <;> split <;> simp [Stage.piped]
  | checkingProvider =>
    dsimp only
    by_cases hr : env.raises
    · rw [if_pos hr]
      exact .check _ (by rw [hst]; rfl) (.inr ⟨_, rfl, rfl⟩) nofun
    · rw [if_neg hr]
      cases env.verification with
      | ok => exact .check _ (by rw [hst]; rfl) (.inl rfl) nofun
      | notConfigured =>
        exact .check _ (by rw [hst]; rfl) (.inl rfl) fun st h => by cases h; rfl
      | notOk => exact .check _ (by rw [hst]; rfl) (.inl rfl) fun st h => by cases h; rfl
  | pausing st => exact .pause st hst
  | finishing => exact .finish hst
  | ending st => exact .ends st hst

/-- the file stays -/
theorem Goes.same {a : Act β} {f' : FileRun β} (h : f.Goes P env s job maxBytes a (.inl f')) :
    f'.filename = f.filename ∧ f'.content = f.content ∧ f'.doc = f.doc := by
  cases h <;> exact ⟨rfl, rfl, rfl⟩

/-- the lock on the key comes from the check of the blob -/
theorem Goes.locked {a : Act β} {f' : FileRun β} (h : f.Goes P env s job maxBytes a (.inl f'))
    (hst : f'.stage = .republishing ∨ f'.stage = .linking) :
    f.stage = .verifying ∨ f.stage = .republishing := by
  cases h with
  | verified h | damaged h => exact .inl h
  | republish h => exact .inr h
  | askAgain =>
    have hp : f.pipeline.stage.piped := pipeline_piped
    rcases hst with hst | hst <;> simp [hst, Stage.piped] at hp
  | check stage h hs =>
    rcases hs with hs | ⟨st, -, rfl⟩
    · rcases hst with rfl | rfl <;> cases hs
    · rcases hst with hst | hst <;> cases hst
  | mark st stage h hmark hs => rcases hst with rfl | rfl <;> cases hs
  | _ => rcases hst with hst | hst <;> cases hst

/-- a file is linked to a blob that was found intact, or that was just published -/
theorem Goes.linking {a : Act β} {f' : FileRun β} (h : f.Goes P env s job maxBytes a (.inl f'))
    (hst : f'.stage = .linking) :
    a = .idle ∧ s.verify P (P.sha256 f.content) ∨ a = .publish f.content := by
  cases h with
  | verified h hv => exact .inl ⟨rfl, hv⟩
  | republish => exact .inr rfl
  | askAgain =>
    have hp : f.pipeline.stage.piped := pipeline_piped
    have hst : f.pipeline.stage = .linking := hst
    simp [hst, Stage.piped] at hp
  | check stage h hs =>
    have hst : stage = .linking := hst
    rcases hs with hs | ⟨st, -, rfl⟩
    · simp [hst, Stage.piped] at hs
    · cases hst
  | mark st stage h hmark hs =>
    have hst : stage = .linking := hst
    simp [hst, Stage.piped] at hs
  | _ => cases hst

end FileRun

/-! ## a worker -/

/-- the entry of the manifest that is looked at for a file -/
def Pass.entryFor (p : Pass β) (filename : String) : Json :=
  manifestEntryFor (if p.zip then p.manifest else none) filename

namespace Worker

section
variable (P s w) (p : Pass β) (filename : String) (content : β)

/-- how the query for an existing document ends -/
inductive Finds : Option (Worker β) → Prop where
  | resumes (i : DocId) (d : Document) (hd : s.documents[i]? = some d)
      (hh : s.documents.find? (·.holds w.owner (P.sha256 content)) = some d)
      (hs : d.status.paused ∨ d.status.resumable) :
    Finds (some (w.goto (.working p
      (FileRun.pipeline ⟨filename, content, i, d.status, .versioning⟩))))
  | failed (i : DocId) (d : Document) (hd : s.documents[i]? = some d)
      (hh : s.documents.find? (·.holds w.owner (P.sha256 content)) = some d)
      (hs : d.status.failedIndex) :
    Finds (some (w.done p ⟨filename, .failed, some i⟩))
  | duplicate (i : DocId) (d : Document) (hd : s.documents[i]? = some d)
      (hh : s.documents.find? (·.holds w.owner (P.sha256 content)) = some d)
      (hs : d.status = .indexed ∨ d.status = .cancelled) :
    Finds (some (w.done p ⟨filename, .duplicate, some i⟩))
  | unhashable (hno : ∀ d ∈ s.documents, ¬ d.holds w.owner (P.sha256 content))
      (hu : unhashable (field "classification" (p.entryFor filename)) ∨
        unhashable (field "active_truth_status" (p.entryFor filename))) : Finds (w.throw .typeError)
  | mismatch (hno : ∀ d ∈ s.documents, ¬ d.holds w.owner (P.sha256 content))
      (hm : declaresOther (p.entryFor filename) (P.sha256 content)) :
    Finds (some (w.done p ⟨filename, .failed, none⟩))
  | missing (hno : ∀ d ∈ s.documents, ¬ d.holds w.owner (P.sha256 content)) :
    Finds (some (w.goto (.creating p filename content)))

/-- how the head of the loop ends for an entry -/
inductive Enters (e : Entry β) : Worker β → Prop where
  | heed (hc : FileRun.cancelled s w.job) : Enters e
      (w.goto (.recording { p with outcomes := p.outcomes ++ [⟨e.filename, .cancelled, none⟩] } false))
  | skip (st : OutcomeStatus) (hst : st = .encrypted ∨ st = .skipped)
      (he : ∀ content, e.status = .ok content → p.zip ∧ isManifest e.filename) :
    Enters e (w.done p ⟨e.filename, st, none⟩)
  | look (content : β) (he : e.status = .ok content) (hm : ¬ (p.zip ∧ isManifest e.filename))
      (hc : ¬ FileRun.cancelled s w.job) :
    Enters e (w.goto (.looking p e.filename content))

end

variable {p : Pass β} {filename : String} {content : β}

/-- an exception moves the worker to its handlers, and writes nothing -/
theorem throw_cases {e : Exc} {w' : Worker β} (h : w.throw e = some w') :
    (∀ exc, w.pc ≠ .unlocking exc) ∧
        (w' = w.goto (.handling e) ∨ w' = w.goto (.unlocking (some e))) ∨
      w' = w ∧ (w.pc = .sleeping ∨ ∃ exc, w.pc = .unlocking exc) := by
  unfold throw at h
  cases hpc : w.pc with
  | unlocking exc =>
    rw [hpc] at h
    exact .inr ⟨(Option.some.inj h).symm, .inr ⟨exc, rfl⟩⟩
  | sleeping =>
    rw [hpc] at h
    exact .inr ⟨(Option.some.inj h).symm, .inl rfl⟩
  | handling e' =>
    rw [hpc] at h
    cases h
  | loading | locking | refused =>
    rw [hpc] at h
    exact .inl ⟨nofun, .inl (Option.some.inj h).symm⟩
  | _ =>
    rw [hpc] at h
    exact .inl ⟨nofun, .inr (Option.some.inj h).symm⟩

theorem finds : w.Finds P s p filename content (w.lookUp P s p filename content) := by
  unfold lookUp
  dsimp only
  cases hfind : s.documents.findIdx? (·.holds w.owner (P.sha256 content)) with
  | some i =>
    have hi : i < s.documents.length := (List.findIdx?_eq_some_iff_getElem.1 hfind).1
    have hd : s.documents[i]? = some s.documents[i] := List.getElem?_eq_getElem hi
    have hh : s.documents.find? (·.holds w.owner (P.sha256 content)) = some s.documents[i] := by
      rw [List.find?_eq_bind_findIdx?_getElem?, hfind]
      exact hd
    show w.Finds P s p filename content ((s.documents[i]?).map _)
    rw [hd, Option.map_some]
    unfold existing
    dsimp only
    by_cases hs : s.documents[i].status.paused ∨ s.documents[i].status.resumable
    · rw [if_pos hs]
      exact .resumes i _ hd hh hs
    · rw [if_neg hs]
      by_cases hf : s.documents[i].status.failedIndex
      · rw [if_pos hf]
        exact .failed i _ hd hh hf
      · rw [if_neg hf]
        refine .duplicate i _ hd hh ?_
        cases hst : s.documents[i].status <;>
          simp_all [IndexStatus.paused, IndexStatus.resumable, IndexStatus.failedIndex]
  | none =>
    have hno : ∀ d ∈ s.documents, ¬ d.holds w.owner (P.sha256 content) := by
      intro d hd
      simpa using List.findIdx?_eq_none_iff.1 hfind d hd
    show w.Finds P s p filename content (if
        unhashable (field "classification" (p.entryFor filename)) ∨
          unhashable (field "active_truth_status" (p.entryFor filename)) then _
      else if declaresOther (p.entryFor filename) (P.sha256 content) then _ else _)
    by_cases hu : unhashable (field "classification" (p.entryFor filename)) ∨
        unhashable (field "active_truth_status" (p.entryFor filename))
    · rw [if_pos hu]
      exact .unhashable hno hu
    · rw [if_neg hu]
      by_cases hm : declaresOther (p.entryFor filename) (P.sha256 content)
      · rw [if_pos hm]
        exact .mismatch hno hm
      · rw [if_neg hm]
        exact .missing hno

theorem enters (e : Entry β) : w.Enters s p e (w.enter s p e) := by
  unfold enter
  by_cases hc : FileRun.cancelled s w.job
  · rw [if_pos hc]
    exact .heed hc
  · rw [if_neg hc]
    cases he : e.status with
    | ok content =>
      dsimp only
      by_cases hm : p.zip ∧ isManifest e.filename
      · rw [if_pos hm]
        exact .skip .skipped (.inr rfl) fun _ _ => hm
      · rw [if_neg hm]
        exact .look content he hm hc
    | encrypted => exact .skip .encrypted (.inl rfl) fun _ h => nomatch he ▸ h
    | skipped | rejected => exact .skip .skipped (.inr rfl) fun _ h => nomatch he ▸ h

variable (P env s self w) in
/-- one statement of a worker whose row is `r` -/
inductive Goes (r : ImportJob) : Act β → Option (Worker β) → Prop where
  | load (h : w.pc = .loading) :
    Goes r .idle (some { w with
      held := some (w.held.getD r.status)
      lockedBy := if w.held = none then r.lockedBy else w.lockedBy
      pc := .locking })
  | lockDown (h : w.pc = .locking) (he : env.redisDown) :
    Goes r .idle (w.throw .jobLockUnavailable)
  | locked (h : w.pc = .locking) : Goes r .idle (some (w.goto .refused))
  | lock (h : w.pc = .locking)
      (hfree : ∀ l ∈ s.locks, ¬ (l.owner = w.owner ∧ l.checksum = r.sourceChecksum ∧
        s.clock < l.expiresAt)) :
    Goes r (.lock ⟨w.owner, r.sourceChecksum, self, s.clock + 60⟩) (some (w.goto .reading))
  | refuse (h : w.pc = .refused) : Goes r (.job w.job (.fail .identicalImport none)) none
  | readError (h : w.pc = .reading) (he : env.osError) : Goes r .idle (w.throw .osError)
  | cannotRead (h : w.pc = .reading)
      (he : env.storageError ∨ s.disk r.sourceStorageKey = none) :
    Goes r .idle (some (w.goto .unreadable))
  | read (h : w.pc = .reading) (raw : β) (hraw : s.disk r.sourceStorageKey = some raw) :
    Goes r .idle (some (w.goto (.starting raw)))
  | failUnreadable (h : w.pc = .unreadable) :
    Goes r (.job w.job (.fail .unreadable none)) (some (w.goto (.unlocking none)))
  | start (raw : β) (h : w.pc = .starting raw) :
    Goes r (.job w.job (.start (w.held.getD r.status)))
      (some { w with held := some .running, pc := .opening raw })
  | zipError (raw : β) (h : w.pc = .opening raw) (hz : isZip r.sourceFilename)
      (hu : P.unzip r.sourceFilename raw = none) : Goes r .idle (w.throw .zipSecurity)
  | openZip (raw : β) (package : Package β) (h : w.pc = .opening raw) (hz : isZip r.sourceFilename)
      (hu : P.unzip r.sourceFilename raw = some package) :
    Goes r (.job w.job (.total package.manifest package.entries.length))
      (some (w.goto (.checking
        ⟨true, package.manifest, max (P.size raw) 1, package.entries, []⟩)))
  | openFile (raw : β) (h : w.pc = .opening raw) (hz : ¬ isZip r.sourceFilename) :
    Goes r (.job w.job (.total r.manifest 1)) (some (w.goto (.checking
      ⟨false, none, max (P.size raw) 1, [⟨r.sourceFilename, .ok raw⟩], []⟩)))
  | last (p : Pass β) (h : w.pc = .checking p) (ht : p.todo = []) :
    Goes r .idle (some (w.goto (.rollingUp p)))
  | enter (p : Pass β) (e : Entry β) (todo : List (Entry β)) (w' : Worker β)
      (h : w.pc = .checking p) (ht : p.todo = e :: todo)
      (he : w.Enters s { p with todo } e w') : Goes r .idle (some w')
  | look (p : Pass β) (filename : String) (content : β) (w' : Option (Worker β))
      (h : w.pc = .looking p filename content) (hf : w.Finds P s p filename content w') :
    Goes r .idle w'
  | create (p : Pass β) (filename : String) (content : β) (title category : Json)
      (h : w.pc = .creating p filename content) :
    Goes r (.create
        { uploadedBy := w.owner, checksum := P.sha256 content, importJobId := w.job }
        title category filename)
      (some (w.goto (.working p
        ⟨filename, content, s.documents.length, .received, .versioning⟩)))
  | file (p : Pass β) (f f' : FileRun β) (a : Act β) (h : w.pc = .working p f)
      (hf : f.Goes P env s w.job p.maxBytes a (.inl f')) :
    Goes r a (some (w.goto (.working p f')))
  | fileDone (p : Pass β) (f : FileRun β) (a : Act β) (o : FileOutcome) (h : w.pc = .working p f)
      (hf : f.Goes P env s w.job p.maxBytes a (.inr (.inl o))) : Goes r a (some (w.done p o))
  | fileError (p : Pass β) (f : FileRun β) (a : Act β) (e : Exc) (h : w.pc = .working p f)
      (hf : f.Goes P env s w.job p.maxBytes a (.inr (.inr e))) : Goes r a (w.throw e)
  | record (p : Pass β) (tried : Bool) (pc : Pc β) (h : w.pc = .recording p tried)
      (hpc : pc = .renewing p ∨ pc = .checking p) :
    Goes r (.job w.job (.record p.outcomes)) (some (w.goto pc))
  | renew (p : Pass β) (h : w.pc = .renewing p) :
    Goes r (.job w.job (.renew (w.lockedBy.getD "") env.leaseSeconds))
      (some (w.goto (.checking p)))
  | rollUp (p : Pass β) (h : w.pc = .rollingUp p) :
    Goes r (.job w.job (.rollUp p.outcomes)) (some (w.goto (.unlocking none)))
  | unlock (exc : Option Exc) (a : Act β) (h : w.pc = .unlocking exc)
      (ha : a = .idle ∨ a = .unlock w.owner r.sourceChecksum self) :
    Goes r a (exc.map fun e => w.goto (.handling e))
  | retry (e : Exc) (h : w.pc = .handling e)
      (he : e.transient ∧ r.attemptCount + 1 < r.maxAttempts) :
    Goes r (.job w.job .retry)
      (some { w with held := some .pending, lockedBy := r.lockedBy, pc := .sleeping })
  | fail (e : Exc) (h : w.pc = .handling e)
      (he : ¬ (e.transient ∧ r.attemptCount + 1 < r.maxAttempts)) :
    Goes r (.job w.job (.fail e.reason (some e.transient))) none
  | wake (h : w.pc = .sleeping) : Goes r .idle (some (w.goto .loading))

theorem goes {r : ImportJob} (hr : s.jobs[w.job]? = some r) :
    w.Goes P env s self r (w.next P env s self).1 (w.next P env s self).2 := by
  unfold next
  rw [hr]
  cases hpc : w.pc with
  | loading => exact .load hpc
  | locking =>
    dsimp only
    by_cases hd : env.redisDown
    · rw [if_pos hd]
      exact .lockDown hpc hd
    · rw [if_neg hd]
      split
      · exact .locked hpc
      · next hfree =>
        refine .lock hpc fun l hl hheld => hfree ?_
        exact List.any_eq_true.2 ⟨l, hl, decide_eq_true hheld⟩
  | refused => exact .refuse hpc
  | reading =>
    dsimp only
    by_cases ho : env.osError
    · rw [if_pos ho]
      exact .readError hpc ho
    · rw [if_neg ho]
      by_cases hs : env.storageError
      · rw [if_pos hs]
        exact .cannotRead hpc (.inl hs)
      · rw [if_neg hs]
        cases hraw : s.disk r.sourceStorageKey with
        | none => exact .cannotRead hpc (.inr hraw)
        | some raw => exact .read hpc raw hraw
  | unreadable => exact .failUnreadable hpc
  | starting raw => exact .start raw hpc
  | opening raw =>
    dsimp only
    by_cases hz : isZip r.sourceFilename
    · rw [if_pos hz]
      cases hu : P.unzip r.sourceFilename raw with
      | none => exact .zipError raw hpc hz hu
      | some package => exact .openZip raw package hpc hz hu
    · rw [if_neg hz]
      exact .openFile raw hpc hz
  | checking p =>
    dsimp only
    cases ht : p.todo with
    | nil => exact .last p hpc ht
    | cons e todo => exact .enter p e todo _ hpc ht (enters e)
  | looking p filename content => exact .look p filename content _ hpc finds
  | creating p filename content => exact .create p filename content _ _ hpc
  | working p f =>
    have hf : f.Goes P env s w.job p.maxBytes (f.next P env s w.job p.maxBytes).1
        (f.next P env s w.job p.maxBytes).2 := FileRun.goes
    dsimp only
    rcases hn : f.next P env s w.job p.maxBytes with ⟨a, f' | o | e⟩
    · rw [hn] at hf
      exact .file p f f' a hpc hf
    · rw [hn] at hf
      exact .fileDone p f a o hpc hf
    · rw [hn] at hf
      exact .fileError p f a e hpc hf
  | recording p tried =>
    refine .record p tried _ hpc ?_
    split
    · exact .inl rfl
    · exact .inr rfl
  | renewing p => exact .renew p hpc
  | rollingUp p => exact .rollUp p hpc
  | unlocking exc =>
    refine .unlock exc _ hpc ?_
    dsimp only
    split
    · exact .inl rfl
    · exact .inr rfl
  | handling e =>
    dsimp only
    by_cases he : e.transient ∧ r.attemptCount + 1 < r.maxAttempts
    · rw [if_pos he]
      exact .retry e hpc he
    · rw [if_neg he]
      exact .fail e hpc he
  | sleeping => exact .wake hpc

/-- the process, its job and its owner stay -/
def Same (w w' : Worker β) : Prop := w'.name = w.name ∧ w'.job = w.job ∧ w'.owner = w.owner

theorem throw_same {e : Exc} {w' : Worker β} (h : w.throw e = some w') : w.Same w' := by
  rcases throw_cases h with ⟨-, rfl | rfl⟩ | ⟨rfl, -⟩ <;> exact ⟨rfl, rfl, rfl⟩

theorem Goes.same {r : ImportJob} {a : Act β} {o : Option (Worker β)} {w' : Worker β}
    (h : w.Goes P env s self r a o) (ho : o = some w') : w.Same w' := by
  cases h with
  | lockDown | readError | zipError | fileError => exact throw_same ho
  | look p filename content w' h hf =>
    cases hf with
    | unhashable => exact throw_same ho
    | _ =>
      cases ho
      exact ⟨rfl, rfl, rfl⟩
  | enter p e todo w' h ht he =>
    cases he <;> cases ho <;> exact ⟨rfl, rfl, rfl⟩
  | unlock exc =>
    cases exc with
    | none => cases ho
    | some e =>
      cases ho
      exact ⟨rfl, rfl, rfl⟩
  | _ =>
    cases ho
    try exact ⟨rfl, rfl, rfl⟩

/-- a worker writes no other job row than its own -/
theorem Goes.job_ne {r r' : ImportJob} {a : Act β}
    {w' : Option (Worker β)} (h : w.Goes P env s self r a w') {j : ImportJobId} (hj : j ≠ w.job) :
    a.onJob s j r' = r' := by
  have hne : ∀ x, (Act.job (β := β) w.job x).onJob s j r' = r' := fun x => if_neg (Ne.symm hj)
  cases h with
  | refuse | failUnreadable | retry | fail | start | rollUp | openZip | openFile | record | renew =>
    exact hne _
  | unlock exc a h ha => rcases ha with rfl | rfl <;> rfl
  | file p f f' a h hf | fileDone p f a o h hf | fileError p f a e h hf => cases hf <;> rfl
  | _ => rfl

theorem throw_pc {e : Exc} {w' : Worker β} (h : w.throw e = some w') {f : FileRun β} :
    w'.pc ≠ .working p f := by
  rcases throw_cases h with ⟨-, rfl | rfl⟩ | ⟨rfl, hst | ⟨exc, hst⟩⟩
  · exact nofun
  · exact nofun
  · rw [hst]
    exact nofun
  · rw [hst]
    exact nofun

/-- how a worker has come to the file that it is at -/
theorem Goes.working {r : ImportJob} {a : Act β} {o : Option (Worker β)} {w' : Worker β}
    {f' : FileRun β} (h : w.Goes P env s self r a o) (ho : o = some w')
    (hpc : w'.pc = .working p f') :
    (∃ f, w.pc = .working p f ∧ f.Goes P env s w.job p.maxBytes a (.inl f')) ∨
    (∃ filename content i d, w.pc = .looking p filename content ∧ a = .idle ∧
      s.documents[i]? = some d ∧
      s.documents.find? (·.holds w.owner (P.sha256 content)) = some d ∧
      (d.status.paused ∨ d.status.resumable) ∧
      f' = FileRun.pipeline ⟨filename, content, i, d.status, .versioning⟩) ∨
    ∃ filename content title category, w.pc = .creating p filename content ∧
      a = .create { uploadedBy := w.owner, checksum := P.sha256 content, importJobId := w.job }
        title category filename ∧
      f' = ⟨filename, content, s.documents.length, .received, .versioning⟩ := by
  cases h with
  | lockDown | readError | zipError | fileError => exact absurd hpc (throw_pc ho)
  | look p' filename content w' h hf =>
    cases hf with
    | unhashable => exact absurd hpc (throw_pc ho)
    | resumes i d hd hh hs =>
      cases ho
      cases hpc
      exact .inr (.inl ⟨filename, content, i, d, h, rfl, hd, hh, hs, rfl⟩)
    | _ =>
      cases ho
      cases hpc
  | create p' filename content title category h =>
    cases ho
    cases hpc
    exact .inr (.inr ⟨filename, content, title, category, h, rfl, rfl⟩)
  | file p' f f'' a h hf =>
    cases ho
    cases hpc
    exact .inl ⟨f, h, hf⟩
  | enter p' e todo w' h ht he => cases he <;> (cases ho; cases hpc)
  | record p' tried pc h hpc' =>
    cases ho
    rcases hpc' with rfl | rfl <;> cases hpc
  | unlock exc =>
    cases exc <;> cases ho
    cases hpc
  | _ =>
    cases ho
    try cases hpc

theorem step_eq {a : Act β} {w' : Option (Worker β)} (h : w.next P env s self = (a, w'))
    (hdb : env.dbError = false) (ha : a.accepted P) :
    w.step P env s self = (s.apply P a, w') := by
  unfold step
  dsimp only
  rw [h, if_neg]
  rintro (h | h)
  · exact absurd h (by simp [hdb])
  · exact h ha

theorem step_of_dbError (hdb : env.dbError) :
    w.step P env s self = (s, w.throw .dbError) := by
  unfold step
  exact if_pos (.inl hdb)

variable (P env s self w) in
/-- how a step of a worker ends -/
inductive Steps : Store β → Option (Worker β) → Prop where
  | lost (h : s.jobs[w.job]? = none) : Steps s none
  | faults : Steps s (w.throw .dbError)
  | goes (r : ImportJob) (a : Act β) (w' : Option (Worker β)) (hr : s.jobs[w.job]? = some r)
      (h : w.Goes P env s self r a w') (hdb : env.dbError = false) (ha : a.accepted P) :
    Steps (s.apply P a) w'

theorem steps {t : Store β} {w' : Option (Worker β)} (h : w.step P env s self = (t, w')) :
    w.Steps P env s self t w' := by
  obtain rfl : (w.step P env s self).1 = t := by rw [h]
  obtain rfl : (w.step P env s self).2 = w' := by rw [h]
  unfold step
  dsimp only
  split
  · exact .faults
  · next hok =>
    obtain ⟨hdb, ha⟩ := not_or.1 hok
    cases hr : s.jobs[w.job]? with
    | none =>
      have hn : w.next P env s self = (.idle, none) := by
        unfold next
        rw [hr]
      rw [hn]
      exact .lost hr
    | some r => exact .goes r _ _ hr (goes hr) (by simpa using hdb) (not_not.1 ha)

end Worker

/-! ## the other processes -/

section
variable (P s)

inductive Upload.Goes (u : Upload β) : Store β → Option (Proc β) → Prop where
  | ends : Goes u s none
  | write (h : u.stage = .writing) (q : Proc β)
      (hq : q = .upload { u with stage := .matching } ∨
        q = .deletion ⟨P.sha256 u.content, none, .checking⟩) :
    Goes u (s.apply P (.publish u.content)) (some q)
  | lock (h : u.stage = .matching) (hno : s.completedJob u.owner (P.sha256 u.content) = none) :
    Goes u s (some (.upload { u with stage := .locking }))
  | found (h : u.stage = .locking) (hd : s.disk (P.sha256 u.content) ≠ none) :
    Goes u s (some (.upload { u with stage := .committing }))
  | commit (h : u.stage = .committing) : Goes u { s with jobs := s.jobs ++ [u.row P] } none

inductive MemoryWrite.Goes (m : MemoryWrite β) : Store β → Option (Proc β) → Prop where
  | ends : Goes m s none
  | write (h : m.stage = .writing) :
    Goes m (s.apply P (.publish m.content)) (some (.memory { m with stage := .verifying }))
  | verified (h : m.stage = .verifying) (hv : s.verify P (P.sha256 m.content)) :
    Goes m s (some (.memory { m with stage := .linking }))
  | damaged (h : m.stage = .verifying) :
    Goes m s (some (.memory { m with stage := .republishing }))
  | republish (h : m.stage = .republishing) :
    Goes m (s.apply P (.publish m.content)) (some (.memory { m with stage := .linking }))
  | link (h : m.stage = .linking) :
    Goes m { s with projectKeys := s.projectKeys ++ [P.sha256 m.content] } none

variable (d : Deletion)

inductive Deletion.Goes : Store β → Option (Proc β) → Prop where
  | ends : Goes s none
  | keep (h : d.stage = .checking) :
    Goes s (some (.deletion { d with stage := .settling .pending }))
  | lock (h : d.stage = .checking) (hno : ¬ s.stillReferenced d.key) :
    Goes s (some (.deletion { d with stage := .deleting }))
  | fails (h : d.stage = .deleting) :
    Goes s (some (.deletion { d with stage := .settling .failed }))
  | delete (h : d.stage = .deleting) :
    Goes { s with disk := fun k => if k = d.key then none else s.disk k }
      (some (.deletion { d with stage := .settling .purged }))
  | settle (st : DeletionStatus) (i : DocId) (h : d.stage = .settling st) (hi : d.doc = some i) :
    Goes (s.setDoc i fun r => { r with deletionStatus := st }) none

variable {P s d}

variable {t : Store β} {q : Option (Proc β)}

theorem Upload.goes {u : Upload β} (h : u.step P env s = (t, q)) : u.Goes P s t q := by
  obtain rfl : (u.step P env s).1 = t := by rw [h]
  obtain rfl : (u.step P env s).2 = q := by rw [h]
  unfold Upload.step
  cases hst : u.stage with
  | writing =>
    dsimp only
    split
    · exact .ends
    · split
      · exact .write hst _ (.inr rfl)
      · exact .write hst _ (.inl rfl)
  | matching =>
    dsimp only
    by_cases hc : env.dbError ∨ (s.completedJob u.owner (P.sha256 u.content)).isSome
    · rw [if_pos hc]
      exact .ends
    · rw [if_neg hc]
      exact .lock hst (Option.not_isSome_iff_eq_none.1 (not_or.1 hc).2)
  | locking =>
    dsimp only
    by_cases hc : env.dbError ∨ s.disk (P.sha256 u.content) = none
    · rw [if_pos hc]
      exact .ends
    · rw [if_neg hc]
      exact .found hst (not_or.1 hc).2
  | committing =>
    dsimp only
    split
    · exact .ends
    · exact .commit hst

theorem MemoryWrite.goes {m : MemoryWrite β} (h : m.step P env s = (t, q)) : m.Goes P s t q := by
  obtain rfl : (m.step P env s).1 = t := by rw [h]
  obtain rfl : (m.step P env s).2 = q := by rw [h]
  unfold MemoryWrite.step
  dsimp only
  by_cases he : env.dbError ∨ env.osError ∨ env.storageError
  · rw [if_pos he]
    exact .ends
  · rw [if_neg he]
    cases hst : m.stage with
    | writing => exact .write hst
    | verifying =>
      dsimp only
      by_cases hv : s.verify P (P.sha256 m.content)
      · rw [if_pos hv]
        exact .verified hst hv
      · rw [if_neg hv]
        exact .damaged hst
    | republishing => exact .republish hst
    | linking => exact .link hst

theorem Deletion.goes (h : d.step env s = (t, q)) : d.Goes s t q := by
  obtain rfl : (d.step env s).1 = t := by rw [h]
  obtain rfl : (d.step env s).2 = q := by rw [h]
  unfold Deletion.step
  dsimp only
  by_cases he : env.dbError
  · rw [if_pos he]
    exact .ends
  · rw [if_neg he]
    cases hst : d.stage with
    | checking =>
      dsimp only
      by_cases hr : s.stillReferenced d.key
      · rw [if_pos hr]
        exact .keep hst
      · rw [if_neg hr]
        exact .lock hst hr
    | deleting =>
      dsimp only
      split
      · exact .ends
      · split
        · exact .fails hst
        · exact .delete hst
    | settling st =>
      cases hi : d.doc with
      | none =>
        have hs : d.settle s st = s := by
          unfold Deletion.settle
          rw [hi]
        dsimp only
        rw [hs]
        exact .ends
      | some i =>
        have hs : d.settle s st = s.setDoc i fun r => { r with deletionStatus := st } := by
          unfold Deletion.settle
          rw [hi]
        dsimp only
        rw [hs]
        exact .settle st i hst hi

end

/-- the rows that processes other than workers and reconciles leave behind -/
theorem Proc.step_jobs {p : Proc β} {j : ImportJobId} {r : ImportJob}
    (hw : ∀ w, p ≠ .worker w) (hids : ∀ ids, p ≠ .reconcile ids) (hr : s.jobs[j]? = some r) :
    (p.step P env s self).1.jobs[j]? = some r := by
  cases p with
  | worker w => exact absurd rfl (hw w)
  | reconcile ids => exact absurd rfl (hids ids)
  | upload u =>
    show (u.step P env s).1.jobs[j]? = some r
    rcases hstep : u.step P env s with ⟨t, q⟩
    cases Upload.goes hstep with
    | commit =>
      show (s.jobs ++ [u.row P])[j]? = some r
      rw [List.getElem?_append_left (List.getElem?_eq_some_iff.1 hr).1, hr]
    | _ => exact hr
  | memory m =>
    show (m.step P env s).1.jobs[j]? = some r
    rcases hstep : m.step P env s with ⟨t, q⟩
    cases MemoryWrite.goes hstep <;> exact hr
  | deletion d =>
    show (d.step env s).1.jobs[j]? = some r
    rcases hstep : d.step env s with ⟨t, q⟩
    cases Deletion.goes hstep <;> exact hr

/-- processes other than workers start no worker, and leave the clock alone -/
theorem Proc.step_other {p : Proc β} (hw : ∀ w, p ≠ .worker w) :
    (∀ w, (p.step P env s self).2 ≠ some (.worker w)) ∧
      (p.step P env s self).1.clock = s.clock := by
  cases p with
  | worker w => exact absurd rfl (hw w)
  | reconcile ids =>
    refine ⟨by simp [Proc.step], ?_⟩
    show (if env.dbError then s else s.reopened ids).clock = s.clock
    split
    · rfl
    · rw [Store.reopened_frame]
  | upload u =>
    rcases hstep : u.step P env s with ⟨t, q⟩
    show (∀ w, (u.step P env s).2 ≠ some (.worker w)) ∧ (u.step P env s).1.clock = s.clock
    rw [hstep]
    cases Upload.goes hstep with
    | write h q hq =>
      refine ⟨fun w hw => ?_, Store.apply_clock _⟩
      rcases hq with rfl | rfl <;> cases hw
    | _ => exact ⟨by simp, rfl⟩
  | memory m =>
    rcases hstep : m.step P env s with ⟨t, q⟩
    show (∀ w, (m.step P env s).2 ≠ some (.worker w)) ∧ (m.step P env s).1.clock = s.clock
    rw [hstep]
    cases MemoryWrite.goes hstep <;> exact ⟨by simp, rfl⟩
  | deletion d =>
    rcases hstep : d.step env s with ⟨t, q⟩
    show (∀ w, (d.step env s).2 ≠ some (.worker w)) ∧ (d.step env s).1.clock = s.clock
    rw [hstep]
    cases Deletion.goes hstep <;> exact ⟨by simp, rfl⟩

/-- processes other than workers write at most the `deletion_status` of a document -/
theorem Proc.step_docs {p : Proc β} (hw : ∀ w, p ≠ .worker w) :
    (p.step P env s self).1.versions = s.versions ∧ (p.step P env s self).1.chunks = s.chunks ∧
      ((p.step P env s self).1.documents = s.documents ∨
        ∃ k st, (p.step P env s self).1.documents =
          s.documents.modify k fun d => { d with deletionStatus := st }) := by
  cases p with
  | worker w => exact absurd rfl (hw w)
  | reconcile ids =>
    unfold Proc.step
    dsimp only
    split
    · exact ⟨rfl, rfl, .inl rfl⟩
    · rw [Store.reopened_frame]
      exact ⟨rfl, rfl, .inl rfl⟩
  | upload u =>
    rcases hstep : u.step P env s with ⟨t, q⟩
    unfold Proc.step
    dsimp only
    rw [hstep]
    cases Upload.goes hstep <;> exact ⟨rfl, rfl, .inl rfl⟩
  | memory m =>
    rcases hstep : m.step P env s with ⟨t, q⟩
    unfold Proc.step
    dsimp only
    rw [hstep]
    cases MemoryWrite.goes hstep <;> exact ⟨rfl, rfl, .inl rfl⟩
  | deletion d =>
    rcases hstep : d.step env s with ⟨t, q⟩
    unfold Proc.step
    dsimp only
    rw [hstep]
    cases Deletion.goes hstep with
    | settle st i => exact ⟨rfl, rfl, .inr ⟨i, st, rfl⟩⟩
    | _ => exact ⟨rfl, rfl, .inl rfl⟩

/-! ## the system -/

namespace Sys

/-- the process with an id -/
def proc (s : Sys β) (i : ProcId) : Option (Proc β) := s.procs[i]?.join

variable {s : Sys β} {i k : ProcId} {p q : Proc β}

theorem proc_spawn (h : (s.spawn p).proc i = some q) :
    s.proc i = some q ∨ i = s.procs.length ∧ q = p := by
  unfold proc spawn at *
  obtain ⟨o, ho, hq⟩ := Option.join_eq_some_iff.1 h |> fun h => (⟨_, h, rfl⟩ : ∃ o, _ ∧ o = some q)
  subst hq
  rcases getElem?_insert ho with ho | ⟨hi, hq⟩
  · exact .inl (by rw [ho]; rfl)
  · exact .inr ⟨hi, Option.some.inj hq⟩

/-- a process after a step of the `i`-th -/
theorem proc_set {store : Store β} {o : Option (Proc β)}
    (h : (⟨store, s.procs.set i o⟩ : Sys β).proc k = some q) :
    k = i ∧ o = some q ∨ k ≠ i ∧ s.proc k = some q := by
  unfold proc at *
  by_cases hk : k = i
  · subst hk
    refine .inl ⟨rfl, ?_⟩
    rw [List.getElem?_set] at h
    simp only [if_true] at h
    split at h
    · exact h
    · exact absurd h (by simp)
  · rw [List.getElem?_set_ne (Ne.symm hk)] at h
    exact .inr ⟨hk, h⟩

end Sys

/-- the store after a step of a process that waits for no lock -/
theorem exec_step_store {s : Sys β} {i : ProcId} {p : Proc β} (hp : s.proc i = some p)
    (htakes : p.takes P = none) :
    ((Op.step i env).exec P s).store = (p.step P env s.store i).1 := by
  have hp' : s.procs[i]?.join = some p := hp
  unfold Op.exec
  dsimp only
  rw [hp']
  dsimp only
  rw [htakes]
  rfl

variable (P) in
/-- how an operation ends -/
inductive Does (s : Sys β) : Op β → Sys β → Prop where
  | stays (o : Op β) : Does s o s
  | tick (n : Nat) : Does s (.tick n) { s with store := { s.store with clock := s.store.clock + n } }
  | upload (owner : OwnerId) (filename : String) (content : β) :
    Does s (.importPackage owner filename content) (s.spawn (.upload { owner, filename, content }))
  | memory (content : β) : Does s (.writeMemory content) (s.spawn (.memory { content }))
  | purge (owner : OwnerId) (i : DocId) (d : Document) (hd : s.store.documents[i]? = some d)
      (hlive : ¬ d.deleted) (howner : d.uploadedBy = owner) (t : Sys β)
      (ht : t = { s with store := s.store.purged i d } ∨ ∃ key, d.storageKey = some key ∧
        t = ({ s with store := s.store.purged i d } : Sys β).spawn
          (.deletion ⟨key, some i, .checking⟩)) :
    Does s (.purgeSource owner i) t
  | settled (owner : OwnerId) (i : DocId) (d : Document) (hd : s.store.documents[i]? = some d)
      (hdel : d.deleted) :
    Does s (.retrySourceBlobPurge owner i)
      { s with store := s.store.setDoc i fun r => { r with deletionStatus := .purged } }
  | retryPurge (owner : OwnerId) (i : DocId) (d : Document) (key : String)
      (hd : s.store.documents[i]? = some d) (hdel : d.deleted) :
    Does s (.retrySourceBlobPurge owner i) (s.spawn (.deletion ⟨key, some i, .checking⟩))
  | delete (key : String) :
    Does s (.deleteBlob key) (s.spawn (.deletion ⟨key, none, .checking⟩))
  | requeue : Does s (.requeueBlockedJobs .ok) { s with store := s.store.requeued }
  | reconcile : Does s .reconcileOrphanedDocuments (s.spawn (.reconcile s.store.orphanedJobs))
  | claim (name : String) (n : Nat) (j : ImportJobId) (r : ImportJob)
      (hj : s.store.jobs.findIdx? (·.claimable s.store.clock) = some j)
      (hr : s.store.jobs[j]? = some r) (hc : r.claimable s.store.clock) (hfree : ¬ s.busy name) :
    Does s (.claimNextJob name n)
      (({ s with store := s.store.claimed name n j } : Sys β).spawn
        (.worker { name, job := j, owner := r.ownerId }))
  | step (i : ProcId) (env : Env) (p : Proc β) (hp : s.proc i = some p)
      (hfree : ∀ key, p.takes P = some key → ¬ s.locked P i key) :
    Does s (.step i env)
      ⟨(p.step P env s.store i).1, s.procs.set i (p.step P env s.store i).2⟩
  | crash (i : ProcId) : Does s (.crash i) { s with procs := s.procs.set i none }

theorem does {s t : Sys β} {o : Op β} (h : o.exec P s = t) : Does P s o t := by
  subst h
  cases o with
  | tick n => exact .tick n
  | importPackage owner filename content => exact .upload owner filename content
  | writeMemory content => exact .memory content
  | purgeSource owner i =>
    unfold Op.exec
    dsimp only
    cases hd : s.store.documents[i]? with
    | none => exact .stays _
    | some d =>
      dsimp only
      by_cases hc : d.deleted ∨ d.uploadedBy ≠ owner
      · rw [if_pos hc]
        exact .stays _
      · rw [if_neg hc]
        obtain ⟨hlive, howner⟩ := not_or.1 hc
        cases hk : d.storageKey with
        | none => exact .purge owner i d hd hlive (not_not.1 howner) _ (.inl rfl)
        | some key => exact .purge owner i d hd hlive (not_not.1 howner) _ (.inr ⟨key, hk, rfl⟩)
  | retrySourceBlobPurge owner i =>
    unfold Op.exec
    dsimp only
    cases hd : s.store.documents[i]? with
    | none => exact .stays _
    | some d =>
      dsimp only
      by_cases hc : ¬ d.deleted ∨ d.uploadedBy ≠ owner ∨ d.deletionStatus = .purged
      · rw [if_pos hc]
        exact .stays _
      · rw [if_neg hc]
        have hdel : d.deleted = true := not_not.1 (not_or.1 hc).1
        cases hk : d.storageKey with
        | none => exact .settled owner i d hd hdel
        | some key => exact .retryPurge owner i d key hd hdel
  | deleteBlob key => exact .delete key
  | requeueBlockedJobs verification =>
    unfold Op.exec
    dsimp only
    cases verification with
    | ok => exact .requeue
    | _ => exact .stays _
  | reconcileOrphanedDocuments => exact .reconcile
  | claimNextJob name n =>
    unfold Op.exec
    dsimp only
    cases hj : s.store.jobs.findIdx? (·.claimable s.store.clock) with
    | none => exact .stays _
    | some j =>
      obtain ⟨hlt, hc, -⟩ := List.findIdx?_eq_some_iff_getElem.1 hj
      have hr : s.store.jobs[j]? = some s.store.jobs[j] := List.getElem?_eq_getElem hlt
      dsimp only
      rw [hr]
      dsimp only
      by_cases hb : s.busy name
      · rw [if_pos hb]
        exact .stays _
      · rw [if_neg hb]
        exact .claim name n j _ hj hr hc hb
  | step i env =>
    unfold Op.exec
    dsimp only
    cases hp : s.procs[i]?.join with
    | none => exact .stays _
    | some p =>
      dsimp only
      by_cases hl : (p.takes P).any (s.locked P i)
      · rw [if_pos hl]
        exact .stays _
      · rw [if_neg hl]
        refine .step i env p hp fun key hk hlocked => hl ?_
        rw [hk]
        exact hlocked
  | crash i => exact .crash i

end LifeAI.Import
