import LifeAI.Import.Blobs

/-!
# The originals of the documents

A document is processed under its row, its version and its stored original; the resume path takes
the original for granted.

* `Op.findsOriginal`    the condition of a step: no import resumes a document that is still
                        waiting for its original;
* `Sys.KeepsOriginals`  every processed document has its original and its version.
-/

namespace LifeAI.Import

variable {β : Type} {P : Pipeline β} {env : Env} {s t : Store β} {self : ProcId} {w : Worker β}
  {f f' : FileRun β} {i : DocId} {d : Document}

namespace IndexStatus

/-- the original is not known to be stored -/
def early : IndexStatus → Bool
  | .pending | .received | .originalStoring => true
  | _ => false

/-- `original_stored` or further along -/
def processed : IndexStatus → Bool
  | .originalStored | .extracting | .extracted | .awaitingClassification | .classifying
  | .embedding | .indexing | .indexed | .awaitingProvider | .blockedProvider => true
  | _ => false

theorem processed_of_resumed {st : IndexStatus} (h : st.paused ∨ st.resumable) (he : ¬ st.early) :
    st.processed := by
  cases st <;> simp_all [paused, resumable, early, processed]

end IndexStatus

namespace Sys

/-- the worker with an id -/
def worker (s : Sys β) (i : ProcId) : Option (Worker β) :=
  match s.proc i with
  | some (.worker w) => some w
  | _ => none

variable (P) in
/-- every processed document has the key of its original and a version, and an original is about to
be linked only while its blob is intact -/
structure KeepsOriginals (s : Sys β) : Prop where
  documents : ∀ i d, s.store.documents[i]? = some d → d.status.processed →
    d.storageKey = some d.checksum ∧ i ∈ s.store.versions
  verified : ∀ i w p f, s.proc i = some (.worker w) → w.pc = .working p f → f.stage = .linking →
    s.store.verify P (P.sha256 f.content)

end Sys

variable (P) in
/-- the query of the worker does not find a document that waits for its original -/
def Worker.findsOriginal (s : Store β) (w : Worker β) : Bool :=
  match w.pc with
  | .looking _ _ content =>
    (s.documents.find? (·.holds w.owner (P.sha256 content))).all fun d => ¬ d.status.early
  | _ => true

variable (P) in
def Op.findsOriginal (s : Sys β) : Op β → Bool
  | .step i env => env.dbError ∨ (s.worker i).all fun w => w.findsOriginal P s.store
  | _ => true

theorem Stage.sound_of {stage : Stage} (hp : ∀ st, stage = .pausing st → st.paused)
    (he : ∀ st, stage = .ending st → st.failedIndex ∨ st = .cancelled) : stage.Sound := by
  cases stage with
  | pausing st => exact hp st rfl
  | ending st => exact he st rfl
  | _ => trivial

theorem FileRun.pipeline_sound : f.pipeline.stage.Sound := by
  show (if isMedia f.filename then Stage.validating else Stage.extracting).Sound
  split <;> trivial

/-! ## what stays -/

/-- checksums, versions and keys of originals stay -/
structure Store.Keeps (s t : Store β) : Prop where
  docs : ∀ (i : DocId) (d : Document), s.documents[i]? = some d →
    ∃ d' : Document, t.documents[i]? = some d' ∧
    d'.checksum = d.checksum ∧
      (d.storageKey = some d.checksum → d'.storageKey = some d.checksum)
  versions : s.versions ⊆ t.versions

theorem Store.Keeps.ofEq (hdocs : t.documents = s.documents) (hver : t.versions = s.versions) :
    s.Keeps t :=
  ⟨fun _ d h => ⟨d, hdocs ▸ h, rfl, id⟩, hver ▸ List.Subset.refl _⟩

variable (P) in
/-- what holds of a file on its way -/
structure FileRun.Sound (s : Store β) (f : FileRun β) : Prop where
  doc : ∃ d, s.documents[f.doc]? = some d ∧ d.checksum = P.sha256 f.content ∧
    (f.stage = .askingAgain ∨ f.stage.piped → d.storageKey = some d.checksum)
  version : f.stage ≠ .versioning → (∀ st, f.stage ≠ .ending st) → f.doc ∈ s.versions
  stage : f.stage.Sound

namespace FileRun.Sound

theorem mono (h : f.Sound P s) (hst : s.Keeps t) : f.Sound P t := by
  obtain ⟨d, hd, hsum, hkey⟩ := h.doc
  obtain ⟨d', hd', hsum', hkey'⟩ := hst.docs f.doc d hd
  refine ⟨⟨d', hd', hsum'.trans hsum, fun hstage => ?_⟩, fun hv he => ?_, h.stage⟩
  · rw [hsum']
    exact hkey' (hkey hstage)
  · exact hst.versions (h.version hv he)

/-- the file goes on within the part of the way that it is on -/
theorem goto (h : f.Sound P s) {stage : Stage} (st : IndexStatus)
    (hkey : stage = .askingAgain ∨ stage.piped → f.stage = .askingAgain ∨ f.stage.piped)
    (hver : (∀ st, stage ≠ .ending st) → f.stage ≠ .versioning ∧ ∀ st, f.stage ≠ .ending st)
    (hs : stage.Sound) : ({ f with held := st, stage } : FileRun β).Sound P s := by
  obtain ⟨d, hd, hsum, hk⟩ := h.doc
  exact ⟨⟨d, hd, hsum, fun hstage => hk (hkey hstage)⟩,
    fun _ he => h.version (hver he).1 (hver he).2, hs⟩

end FileRun.Sound

/-! ## one statement of a file -/

namespace FileRun.Goes

variable {job : ImportJobId} {maxBytes : Nat} {a : Act β} {e : FileOutcome}

/-- the statement keeps the originals -/
theorem keeps {x : FileRun β ⊕ FileOutcome ⊕ Exc} (h : f.Goes P env s job maxBytes a x)
    (hf : f.Sound P s) : s.Keeps (s.apply P a) := by
  refine ⟨fun i d hd => ⟨a.onDoc i d, Store.apply_doc a hd, Act.onDoc_checksum a i d, fun hk => ?_⟩,
    Store.apply_versions a⟩
  have hif : ∀ (c : Prop) [Decidable c] (q : Document), q.storageKey = d.storageKey →
      (if c then q else d).storageKey = some d.checksum := by
    intro c _ q hq
    split
    · exact hq.trans hk
    · exact hk
  cases h with
  | store | mark | pause | ends | finish => exact hif _ _ rfl
  | link =>
    obtain ⟨d₀, hd₀, hsum, -⟩ := hf.doc
    show (if f.doc = i then _ else d).storageKey = _
    split
    · next hi =>
      subst hi
      obtain rfl : d₀ = d := Option.some.inj (hd₀.symm.trans hd)
      rw [hsum]
    · exact hk
  | _ => exact hk

/-- the statement leaves processed documents with their originals -/
theorem processed {x : FileRun β ⊕ FileOutcome ⊕ Exc} (h : f.Goes P env s job maxBytes a x)
    (hf : f.Sound P s) (hd : s.documents[i]? = some d)
    (hold : d.status.processed → d.storageKey = some d.checksum ∧ i ∈ s.versions)
    (hp : (a.onDoc i d).status.processed) :
    (a.onDoc i d).storageKey = some d.checksum ∧ i ∈ s.versions := by
  -- a status that says `processed` is written behind the original
  have hpiped : f.stage.piped → f.doc = i → d.storageKey = some d.checksum ∧ i ∈ s.versions := by
    rintro hst rfl
    obtain ⟨d₀, hd₀, -, hkey⟩ := hf.doc
    obtain rfl : d₀ = d := Option.some.inj (hd₀.symm.trans hd)
    refine ⟨hkey (.inr hst), hf.version ?_ ?_⟩
    · intro hv
      simp [hv, Stage.piped] at hst
    · intro st he
      simp [he, Stage.piped] at hst
  have hstatus : ∀ (held st : IndexStatus) (preview : Option String), (f.stage.piped ∨ ¬ st.processed) →
      ((Act.status (β := β) f.doc held st preview).onDoc i d).status.processed →
      ((Act.status (β := β) f.doc held st preview).onDoc i d).storageKey = some d.checksum ∧
        i ∈ s.versions := by
    intro held st preview hst hp
    simp only [Act.onDoc] at hp ⊢
    by_cases hi : f.doc = i
    · rw [if_pos hi] at hp ⊢
      rcases hst with hst | hst
      · exact hpiped hst hi
      · unfold dirty at hp
        dsimp only at hp
        split at hp
        · exact hold hp
        · exact absurd hp hst
    · rw [if_neg hi] at hp ⊢
      exact hold hp
  cases h with
  | store => exact hstatus _ _ _ (.inr (by decide)) hp
  | mark st stage h => exact hstatus _ _ _ (.inl h) hp
  | pause st h => exact hstatus _ _ _ (.inl (by rw [h]; rfl)) hp
  | ends st h =>
    have hst : st.failedIndex ∨ st = .cancelled := by
      have := hf.stage
      rw [h] at this
      exact this
    refine hstatus _ _ _ (.inr fun hp => ?_) hp
    cases st <;> simp_all [IndexStatus.failedIndex, IndexStatus.processed]
  | finish h =>
    simp only [Act.onDoc] at hp ⊢
    by_cases hi : f.doc = i
    · rw [if_pos hi]
      exact hpiped (by rw [h]; rfl) hi
    · rw [if_neg hi] at hp ⊢
      exact hold hp
  | link h =>
    simp only [Act.onDoc] at hp ⊢
    by_cases hi : f.doc = i
    · subst hi
      obtain ⟨d₀, hd₀, hsum, -⟩ := hf.doc
      obtain rfl : d₀ = d := Option.some.inj (hd₀.symm.trans hd)
      rw [if_pos rfl, hsum]
      exact ⟨rfl, hf.version (by simp [h]) (by simp [h])⟩
    · rw [if_neg hi] at hp ⊢
      exact hold hp
  | _ => exact hold hp

theorem sound (h : f.Goes P env s job maxBytes a (.inl f')) (hf : f.Sound P s) :
    f'.Sound P (s.apply P a) := by
  have hf' : f.Sound P (s.apply P a) := hf.mono (h.keeps hf)
  cases h with
  | version h =>
    obtain ⟨d, hd, hsum, -⟩ := hf'.doc
    refine ⟨⟨d, hd, hsum, fun hst => ?_⟩, fun _ _ => ?_, trivial⟩
    · rcases hst with hst | hst <;> cases hst
    · exact List.mem_append_right _ (List.mem_singleton_self _)
  | link h =>
    obtain ⟨d, hd, hsum, -⟩ := hf.doc
    refine ⟨⟨_, Store.apply_doc _ hd, ?_, fun _ => ?_⟩, fun _ _ => ?_, trivial⟩
    · rw [Act.onDoc_checksum]
      exact hsum
    · rw [Act.onDoc_checksum, hsum]
      show (if f.doc = f.doc then _ else d).storageKey = _
      rw [if_pos rfl]
    · exact hf.version (by simp [h]) (by simp [h])
  | askAgain h =>
    exact hf'.goto f.held (fun _ => .inl h) (fun _ => by simp [h]) pipeline_sound
  | check stage h hs hp =>
    refine hf'.goto f.held (fun _ => .inr h) (fun _ => ⟨?_, ?_⟩) ?_
    · intro hv
      simp [hv, Stage.piped] at h
    · intro st he
      simp [he, Stage.piped] at h
    · refine Stage.sound_of hp fun st he => .inl ?_
      rcases hs with hs | ⟨st', hst', hs⟩
      · simp [he, Stage.piped] at hs
      · cases he.symm.trans hs
        exact hst'
  | mark st stage h hst hs hp =>
    refine hf'.goto st (fun _ => .inr h) (fun _ => ⟨?_, ?_⟩) ?_
    · intro hv
      simp [hv, Stage.piped] at h
    · intro st he
      simp [he, Stage.piped] at h
    · refine Stage.sound_of (fun st he => absurd he (hp st)) fun st he => ?_
      simp [he, Stage.piped] at hs
  | heed h | storageError h =>
    refine hf'.goto f.held ?_ (fun he => absurd rfl (he _)) ?_
    · rintro (hst | hst) <;> cases hst
    · simp [Stage.Sound, IndexStatus.failedIndex]
  | store h | askFirst h | write h | verified h | damaged h | republish h =>
    refine hf'.goto _ ?_ (fun _ => by simp [h]) trivial
    rintro (hst | hst) <;> cases hst

end FileRun.Goes

/-! ## one step of the system -/

/-- every processed document has its original and its version -/
def Store.Originals (s : Store β) : Prop :=
  ∀ (i : DocId) (d : Document), s.documents[i]? = some d → d.status.processed →
    d.storageKey = some d.checksum ∧ i ∈ s.versions

variable (P) in
structure Sys.Original (s : Sys β) : Prop where
  documents : s.store.Originals
  files : ∀ i w p f, s.proc i = some (.worker w) → w.pc = .working p f → f.Sound P s.store

/-- only the file at hand is written by a worker -/
theorem Worker.Goes.originals {r : ImportJob} {a : Act β} {o : Option (Worker β)}
    (h : w.Goes P env s self r a o) (hdocs : s.Originals)
    (hfile : ∀ p f, w.pc = .working p f → f.Sound P s) :
    s.Keeps (s.apply P a) ∧ (s.apply P a).Originals := by
  have hquiet : ∀ a : Act β, (∀ i d, a.onDoc i d = d) → (∀ d ∈ a.newDocs, ¬ d.status.processed) →
      s.Keeps (s.apply P a) ∧ (s.apply P a).Originals := by
    intro a ha hnew
    have hver : s.versions ⊆ (s.apply P a).versions := Store.apply_versions a
    refine ⟨⟨fun i d hd => ⟨d, ?_, rfl, id⟩, hver⟩, fun i d hd hp => ?_⟩
    · rw [Store.apply_doc a hd, ha]
    · rcases Store.of_apply_doc hd with ⟨d₀, hd₀, rfl⟩ | ⟨-, hd⟩
      · rw [ha] at hp ⊢
        obtain ⟨hk, hv⟩ := hdocs i d₀ hd₀ hp
        exact ⟨hk, hver hv⟩
      · exact absurd hp (hnew d hd)
  have hgo : ∀ p f (x : FileRun β ⊕ FileOutcome ⊕ Exc), w.pc = .working p f →
      f.Goes P env s w.job p.maxBytes a x → s.Keeps (s.apply P a) ∧ (s.apply P a).Originals := by
    intro p f x hpc hf
    have hsound := hfile p f hpc
    refine ⟨hf.keeps hsound, fun i d hd hp => ?_⟩
    rcases Store.of_apply_doc hd with ⟨d₀, hd₀, rfl⟩ | ⟨-, hd⟩
    · rw [Act.onDoc_checksum]
      obtain ⟨hk, hv⟩ := hf.processed hsound hd₀ (hdocs i d₀ hd₀) hp
      exact ⟨hk, Store.apply_versions a hv⟩
    · cases hf <;> cases hd
  cases h with
  | file p f f' a h hf => exact hgo p f _ h hf
  | fileDone p f a o h hf => exact hgo p f _ h hf
  | fileError p f a e h hf => exact hgo p f _ h hf
  | create =>
    refine hquiet _ (fun i d => rfl) fun d hd => ?_
    rw [List.mem_singleton.1 hd]
    exact nofun
  | unlock exc a h ha =>
    rcases ha with rfl | rfl <;>
      exact hquiet _ (fun i d => rfl) (fun _ hd => absurd hd List.not_mem_nil)
  | _ => exact hquiet _ (fun i d => rfl) (fun _ hd => absurd hd List.not_mem_nil)

theorem Worker.Goes.sound {r : ImportJob} {a : Act β} {o : Option (Worker β)} {w' : Worker β}
    (h : w.Goes P env s self r a o) (ho : o = some w') (hdocs : s.Originals)
    (hfile : ∀ p f, w.pc = .working p f → f.Sound P s) (hfind : w.findsOriginal P s)
    {p : Pass β} (hpc : w'.pc = .working p f') : f'.Sound P (s.apply P a) := by
  rcases h.working ho hpc with ⟨f, hf, hgo⟩ | ⟨filename, content, i, d, hlook, rfl, hd, hfirst, hst, rfl⟩ |
    ⟨filename, content, title, category, hcreate, rfl, rfl⟩
  · exact hgo.sound (hfile p f hf)
  · have hp : (FileRun.pipeline ⟨filename, content, i, d.status, .versioning⟩ : FileRun β).stage.piped :=
      FileRun.pipeline_piped
    have hearly : ¬ d.status.early := by
      simp only [Worker.findsOriginal, hlook, hfirst] at hfind
      simpa using hfind
    obtain ⟨hkey, hver⟩ := hdocs i d hd (IndexStatus.processed_of_resumed hst hearly)
    have hheld : d.holds w.owner (P.sha256 content) :=
      List.find?_some (p := fun d : Document => d.holds w.owner (P.sha256 content)) hfirst
    refine ⟨⟨d, hd, (Document.holds_iff.1 hheld).2.2, fun _ => hkey⟩, fun _ _ => hver, ?_⟩
    exact FileRun.pipeline_sound
  · refine ⟨⟨{ uploadedBy := w.owner, checksum := P.sha256 content, importJobId := w.job }, ?_, rfl,
      ?_⟩, ?_, trivial⟩
    · show (s.documents ++ [_])[s.documents.length]? = _
      rw [List.getElem?_append_right (Nat.le_refl _), Nat.sub_self]
      rfl
    · rintro (hst | hst) <;> cases hst
    · exact fun hv => absurd rfl hv

namespace Sys.Original

variable {s t : Sys β} {o : Op β} {k : ProcId}

/-- no file comes, and the documents keep what they have -/
theorem mono (h : s.Original P) (hst : s.store.Keeps t.store) (hdocs : t.store.Originals)
    (hfiles : ∀ i w p f, t.proc i = some (.worker w) → w.pc = .working p f →
      s.proc i = some (.worker w) ∨ f.Sound P t.store) : t.Original P := by
  refine ⟨hdocs, fun i w p f hi hpc => ?_⟩
  rcases hfiles i w p f hi hpc with hi | hf
  · exact (h.files i w p f hi hpc).mono hst
  · exact hf

theorem spawn (h : s.Original P) {p : Proc β}
    (hp : ∀ w pass f, p = .worker w → w.pc ≠ .working pass f) : (s.spawn p).Original P := by
  refine h.mono (.ofEq rfl rfl) h.documents fun i w pass f hi hpc => .inl ?_
  rcases Sys.proc_spawn hi with hi | ⟨-, hi⟩
  · exact hi
  · exact absurd hpc (hp w pass f hi.symm)

/-- rows of documents change in other columns than those of the original -/
theorem setDoc (h : s.Original P) (store : Store β) {g : Document → Document}
    (hdocs : store.documents = s.store.documents.modify k g)
    (hver : store.versions = s.store.versions)
    (hg : ∀ d, (g d).checksum = d.checksum ∧ (g d).storageKey = d.storageKey)
    (hst : ∀ d, (g d).status.processed → d.status.processed) :
    (⟨store, s.procs⟩ : Sys β).Original P := by
  refine h.mono ⟨fun i d hd => ⟨if k = i then g d else d, ?_, ?_⟩, hver ▸ List.Subset.refl _⟩
    (fun i d hd hp => ?_) fun i w p f hi _ => .inl hi
  · rw [hdocs, Store.modify_getElem?, hd]
    rfl
  · split
    · exact ⟨(hg d).1, fun hk => (hg d).2.trans hk⟩
    · exact ⟨rfl, id⟩
  · dsimp only at hd ⊢
    rw [hdocs, Store.modify_getElem?, Option.map_eq_some_iff] at hd
    rw [hver]
    obtain ⟨d₀, hd₀, rfl⟩ := hd
    split at hp
    · next hk =>
      rw [if_pos hk, (hg d₀).1, (hg d₀).2]
      exact h.documents i d₀ hd₀ (hst d₀ hp)
    · next hk =>
      rw [if_neg hk]
      exact h.documents i d₀ hd₀ hp

theorem purged (h : s.Original P) (i : DocId) (d : Document) :
    ({ s with store := s.store.purged i d } : Sys β).Original P := by
  refine h.setDoc (s.store.purged i d) rfl rfl (fun _ => ⟨rfl, rfl⟩) fun d hp => ?_
  dsimp only at hp
  split at hp
  · exact hp
  · cases hp

/-- a step of a process that is no worker -/
theorem stepOther (h : s.Original P) {i : ProcId} {p : Proc β} (hp : ∀ w, p ≠ .worker w) :
    (⟨(p.step P env s.store i).1, s.procs.set i (p.step P env s.store i).2⟩ : Sys β).Original P := by
  obtain ⟨hver, -, hdocs⟩ := @Proc.step_docs β P env s.store i p hp
  have hmid : (⟨(p.step P env s.store i).1, s.procs⟩ : Sys β).Original P := by
    rcases hdocs with hdocs | ⟨k, st, hdocs⟩
    · refine h.mono (.ofEq hdocs hver) (fun k d hd => ?_) fun k w pass f hk _ => .inl hk
      rw [hdocs] at hd
      rw [hver]
      exact h.documents k d hd
    · exact h.setDoc _ hdocs hver (fun _ => ⟨rfl, rfl⟩) fun _ => id
  refine hmid.mono (.ofEq rfl rfl) hmid.documents fun k w pass f hk _ => .inl ?_
  rcases Sys.proc_set hk with ⟨-, hk⟩ | ⟨-, hk⟩
  · exact absurd hk ((Proc.step_other hp).1 w)
  · exact hk

theorem stepWorker (h : s.Original P) {i : ProcId} (hi : s.proc i = some (.worker w))
    (hfind : env.dbError ∨ w.findsOriginal P s.store) {st : Store β} {o : Option (Worker β)}
    (hstep : w.step P env s.store i = (st, o)) :
    (⟨st, s.procs.set i (o.map .worker)⟩ : Sys β).Original P := by
  have hfile : ∀ p f, w.pc = .working p f → f.Sound P s.store := fun p f => h.files i w p f hi
  have hproc : ∀ (t : Store β) k v pass f,
      (⟨t, s.procs.set i (o.map .worker)⟩ : Sys β).proc k = some (.worker v) →
      v.pc = .working pass f → s.proc k = some (.worker v) ∨ o = some v := by
    intro t k v pass f hk hpc
    rcases Sys.proc_set hk with ⟨-, hv⟩ | ⟨-, hk⟩
    · obtain ⟨v', hv', hvv⟩ := Option.map_eq_some_iff.1 hv
      cases hvv
      exact .inr hv'
    · exact .inl hk
  cases Worker.steps hstep with
  | lost hno =>
    refine h.mono (.ofEq rfl rfl) h.documents fun k v pass f hk hpc => ?_
    exact (hproc s.store k v pass f hk hpc).imp_right nofun
  | faults =>
    refine h.mono (.ofEq rfl rfl) h.documents fun k v pass f hk hpc => ?_
    rcases hproc s.store k v pass f hk hpc with hk | hv
    · exact .inl hk
    · exact absurd hpc (Worker.throw_pc hv)
  | goes r a o hr hg hdb =>
    have hfind : w.findsOriginal P s.store := hfind.resolve_left (by simp [hdb])
    obtain ⟨hkeeps, hdocs⟩ := hg.originals h.documents hfile
    refine h.mono hkeeps hdocs fun k v pass f hk hpc => ?_
    rcases hproc _ k v pass f hk hpc with hk | hv
    · exact .inl hk
    · exact .inr (hg.sound hv h.documents hfile hfind hpc)

theorem exec (h : s.Original P) (ho : o.findsOriginal P s) : (o.exec P s).Original P := by
  generalize hexec : o.exec P s = t
  cases does hexec with
  | stays => exact h
  | tick | requeue => exact h.mono (.ofEq rfl rfl) h.documents fun i w p f hi _ => .inl hi
  | upload | memory | delete | retryPurge | reconcile => exact h.spawn (by simp)
  | purge owner i d hd hlive howner t ht =>
    rcases ht with rfl | ⟨key, -, rfl⟩
    · exact h.purged i d
    · exact (h.purged i d).spawn (by simp)
  | settled owner i d =>
    exact h.setDoc (k := i) _ rfl rfl (fun _ => ⟨rfl, rfl⟩) fun _ => id
  | claim name n j r =>
    have hclaimed : ({ s with store := s.store.claimed name n j } : Sys β).Original P :=
      h.mono (.ofEq rfl rfl) h.documents fun i w p f hi _ => .inl hi
    exact hclaimed.spawn fun w pass f hw => by cases hw; exact nofun
  | step i env p hi hfree =>
    cases p with
    | worker w =>
      have hfind : env.dbError ∨ w.findsOriginal P s.store := by
        simpa [Op.findsOriginal, Sys.worker, hi] using ho
      exact h.stepWorker hi hfind rfl
    | upload u | memory m | deletion d | reconcile ids => exact h.stepOther (by simp)
  | crash i =>
    refine h.mono (.ofEq rfl rfl) h.documents fun k w p f hk hpc => .inl ?_
    rcases Sys.proc_set hk with ⟨-, hk⟩ | ⟨-, hk⟩
    · cases hk
    · exact hk

end Sys.Original

/-! ## every run -/

/-- In every run whose imports resume no document that still waits for its original, every
processed document has the key of its original and a version, and the blob of an original that is
about to be linked is there, intact. -/
theorem originals_kept (P : Pipeline β) (ops : List (Op β))
    (hops : Run.Meets (Op.exec P) (fun s o => o.findsOriginal P s) {} ops) :
    Run.Always (Op.exec P) (Sys.KeepsOriginals P) {} ops := by
  have hinit : ({} : Sys β).Original P ∧ ({} : Sys β).Stored P := by
    refine ⟨⟨fun i d hd => ?_, fun i w p f hi => ?_⟩, Sys.Stored.run P []⟩
    · cases hd
    · exact absurd hi (by simp [Sys.proc])
  refine Run.always (I := fun s => s.Original P ∧ s.Stored P) (fun s h => ?_)
    (fun s o h ho => ⟨h.1.exec ho, h.2.exec⟩) hinit hops
  refine ⟨h.1.documents, fun i w p f hi hpc hst => h.2.intact.verify ?_⟩
  exact h.2.backed i _ _ hi (backs_worker.2 ⟨p, f, hpc, hst, rfl⟩)

/-- a worker that dies behind the link, and one that takes the job up again -/
theorem originals_kept_resumed :
    Run.Always (Op.exec plainPipeline) (Sys.KeepsOriginals plainPipeline) {}
      (uploadedFile ++ turns 1 15 ++ [.crash 1, .tick 130, .claimNextJob "w" 120] ++ turns 2 20) :=
  originals_kept plainPipeline _ (by decide)

/-- the worker dies before the original is linked, and the next one finds the document -/
def resumedEarly : List (Op String) :=
  uploadedFile ++ turns 1 11 ++ [.crash 1, .tick 130, .claimNextJob "w" 120] ++ turns 2 20

set_option maxRecDepth 8000 in
/-- The document is indexed and has no original. -/
theorem resumedEarly_indexed :
    (importRun plainPipeline resumedEarly).store.documents[0]? =
      some { uploadedBy := 0, checksum := "x", importJobId := 0, status := .indexed,
             storageKey := none, chunkCount := 1 } := by
  decide

end LifeAI.Import
