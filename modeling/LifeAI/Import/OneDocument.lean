import LifeAI.Import.Originals

/-!
# One live document for each content

`_import_one_file` asks for a live document with the bytes of the file, and inserts one if there is
none.  The query and the insert are two transactions, and the lock on the package does not cover a
file that another package shares.

* `Op.stillMissing`      the condition of a step: an insert finds that what its query said holds;
* `Op.apart`             no worker asks while another one stands between its own query for the same
                         bytes and the insert; under it every insert meets `Op.stillMissing`;
* `Store.OnePerContent`  no two live documents of an owner have the same checksum.
-/

namespace LifeAI.Import

variable {β : Type} {P : Pipeline β} {env : Env} {s t : Store β} {self : ProcId} {w : Worker β}

/-- no two live documents of an owner have the same checksum -/
def Store.OnePerContent (s : Store β) : Prop :=
  ∀ (owner : OwnerId) (checksum : String) (i k : DocId) (d e : Document),
    s.documents[i]? = some d → s.documents[k]? = some e →
    d.holds owner checksum → e.holds owner checksum → i = k

/-- owner and checksum of the document that the worker is about to insert -/
def Worker.inserting (P : Pipeline β) (w : Worker β) : Option (OwnerId × String) :=
  match w.pc with
  | .creating _ _ content => some (w.owner, P.sha256 content)
  | _ => none

variable (P) in
/-- no live document has the bytes that the worker is about to insert -/
def Worker.stillMissing (s : Store β) (w : Worker β) : Bool :=
  (w.inserting P).all fun k => s.documents.all fun d => ¬ d.holds k.1 k.2

variable (P) in
/-- the database takes what the worker writes -/
def Worker.written (env : Env) (s : Store β) (self : ProcId) (w : Worker β) : Bool :=
  env.dbError = false ∧ w.job < s.jobs.length ∧ (w.next P env s self).1.accepted P

variable (P) in
/-- an insert that the database takes finds no live document with the bytes -/
def Op.stillMissing (s : Sys β) : Op β → Bool
  | .step i env =>
    (s.worker i).all fun w => w.written P env s.store i → w.stillMissing P s.store
  | _ => true

variable (P) in
/-- no worker that is about to ask for some bytes leaves another one about to insert them -/
def Op.apart (s : Sys β) : Op β → Bool
  | .step i env => env.dbError ∨ (s.worker i).all fun w => match w.pc with
    | .looking _ _ content => (List.range s.procs.length).all fun k =>
        (s.worker k).all fun v => v.inserting P ≠ some (w.owner, P.sha256 content)
    | _ => true
  | _ => true

theorem Worker.stillMissing_iff {w : Worker β} : w.stillMissing P s ↔
    ∀ k, w.inserting P = some k → ∀ d ∈ s.documents, ¬ d.holds k.1 k.2 := by
  simp [stillMissing, Option.all_eq_true]

theorem Worker.inserting_iff {w : Worker β} {k : OwnerId × String} : w.inserting P = some k ↔
    ∃ p filename content, w.pc = .creating p filename content ∧ k = (w.owner, P.sha256 content) := by
  unfold inserting
  constructor
  · intro h
    cases hpc : w.pc with
    | creating p filename content =>
      rw [hpc] at h
      exact ⟨p, filename, content, rfl, (Option.some.inj h).symm⟩
    | _ =>
      rw [hpc] at h
      cases h
  · rintro ⟨p, filename, content, hpc, rfl⟩
    rw [hpc]

theorem Worker.written_iff {w : Worker β} : w.written P env s self ↔ env.dbError = false ∧
    (∃ r, s.jobs[w.job]? = some r) ∧ (w.next P env s self).1.accepted P := by
  have hrow : (∃ r, s.jobs[w.job]? = some r) ↔ w.job < s.jobs.length :=
    ⟨fun ⟨_, hr⟩ => (List.getElem?_eq_some_iff.1 hr).1, fun h => ⟨_, List.getElem?_eq_getElem h⟩⟩
  rw [hrow]
  exact decide_eq_true_iff

theorem Sys.worker_eq_some {s : Sys β} {i : ProcId} :
    s.worker i = some w ↔ s.proc i = some (.worker w) := by
  unfold Sys.worker
  cases hp : s.proc i with
  | none => simp
  | some p => cases p <;> simp

/-! ## rows that only go -/

/-- the live documents of `t` are live in `s`, with the same owner and content -/
def Store.Within (t s : Store β) : Prop :=
  ∀ (i : DocId) (d' : Document), t.documents[i]? = some d' → ¬ d'.deleted →
    ∃ d, s.documents[i]? = some d ∧ ¬ d.deleted ∧ d.uploadedBy = d'.uploadedBy ∧
      d.checksum = d'.checksum

namespace Store.Within

theorem ofEq (h : t.documents = s.documents) : t.Within s :=
  fun _ d hd hlive => ⟨d, h ▸ hd, hlive, rfl, rfl⟩

/-- a row of `documents` is written, in other columns or as deleted -/
theorem setDoc (k : DocId) {g : Document → Document}
    (hg : ∀ d, (g d).uploadedBy = d.uploadedBy ∧ (g d).checksum = d.checksum ∧
      (d.deleted → (g d).deleted)) (h : t.documents = s.documents.modify k g) : t.Within s := by
  intro i d' hd hlive
  rw [h, Store.modify_getElem?, Option.map_eq_some_iff] at hd
  obtain ⟨d, hd, rfl⟩ := hd
  refine ⟨d, hd, ?_⟩
  split at hlive
  · next hk =>
    rw [if_pos hk]
    obtain ⟨howner, hsum, hdel⟩ := hg d
    exact ⟨fun h => hlive (hdel h), howner.symm, hsum.symm⟩
  · next hk =>
    rw [if_neg hk]
    exact ⟨hlive, rfl, rfl⟩

/-- what a query found missing stays missing -/
theorem missing (h : t.Within s) {owner : OwnerId} {checksum : String}
    (hs : ∀ d ∈ s.documents, ¬ d.holds owner checksum) :
    ∀ d ∈ t.documents, ¬ d.holds owner checksum := by
  intro d' hd hholds
  obtain ⟨hlive, howner, hsum⟩ := Document.holds_iff.1 hholds
  obtain ⟨i, hi⟩ := List.getElem?_of_mem hd
  obtain ⟨d, hd, hlive', howner', hsum'⟩ := h i d' hi hlive
  exact hs d (List.mem_of_getElem? hd)
    (Document.holds_iff.2 ⟨hlive', howner'.trans howner, hsum'.trans hsum⟩)

theorem onePerContent (h : t.Within s) (hs : s.OnePerContent) : t.OnePerContent := by
  have hback : ∀ (owner : OwnerId) (checksum : String) (i : DocId) (d' : Document),
      t.documents[i]? = some d' → d'.holds owner checksum →
      ∃ d, s.documents[i]? = some d ∧ d.holds owner checksum := by
    intro owner checksum i d' hd hholds
    obtain ⟨hlive, howner, hsum⟩ := Document.holds_iff.1 hholds
    obtain ⟨d, hd, hlive', howner', hsum'⟩ := h i d' hd hlive
    exact ⟨d, hd, Document.holds_iff.2 ⟨hlive', howner'.trans howner, hsum'.trans hsum⟩⟩
  intro owner checksum i k d e hi hk hd he
  obtain ⟨d₀, hi₀, hd₀⟩ := hback owner checksum i d hi hd
  obtain ⟨e₀, hk₀, he₀⟩ := hback owner checksum k e hk he
  exact hs owner checksum i k d₀ e₀ hi₀ hk₀ hd₀ he₀

/-- an act that inserts nothing -/
theorem apply (a : Act β) (hnew : a.newDocs = []) : (s.apply P a).Within s := by
  intro i d' hd hlive
  rcases Store.of_apply_doc hd with ⟨d, hd, rfl⟩ | ⟨-, hd⟩
  · have hsame : (a.onDoc i d).deleted = d.deleted ∧ (a.onDoc i d).uploadedBy = d.uploadedBy := by
      cases a with
      | status | link | index =>
        simp only [Act.onDoc]
        split <;> exact ⟨rfl, rfl⟩
      | _ => exact ⟨rfl, rfl⟩
    refine ⟨d, ‹_›, ?_, hsame.2.symm, (Act.onDoc_checksum a i d).symm⟩
    rwa [← hsame.1]
  · rw [hnew] at hd
    cases hd

/-- processes other than workers insert nothing -/
theorem stepOther {p : Proc β} (hp : ∀ w, p ≠ .worker w) : (p.step P env s self).1.Within s := by
  obtain ⟨-, -, hdocs | ⟨k, st, hdocs⟩⟩ := @Proc.step_docs β P env s self p hp
  · exact ofEq hdocs
  · refine setDoc k ?_ hdocs
    exact fun _ => ⟨rfl, rfl, id⟩

end Store.Within

/-- the only act of a worker that inserts -/
theorem Worker.Goes.inserts {r : ImportJob} {a : Act β} {o : Option (Worker β)}
    (h : w.Goes P env s self r a o) : a.newDocs = [] ∨ ∃ k, w.inserting P = some k ∧
      ∃ title category filename, a = .create
        { uploadedBy := k.1, checksum := k.2, importJobId := w.job } title category filename := by
  cases h with
  | create p filename content title category h =>
    exact .inr ⟨_, inserting_iff.2 ⟨p, filename, content, h, rfl⟩, title, category, filename, rfl⟩
  | file p f f' a h hf | fileDone p f a o h hf | fileError p f a e h hf =>
    cases hf <;> exact .inl rfl
  | unlock exc a h ha => rcases ha with rfl | rfl <;> exact .inl rfl
  | _ => exact .inl rfl

theorem Worker.throw_inserting {e : Exc} {w' : Worker β} (h : w.throw e = some w') :
    w'.inserting P = none := by
  rcases throw_cases h with ⟨-, rfl | rfl⟩ | ⟨rfl, hst | ⟨exc, hst⟩⟩
  · rfl
  · rfl
  · rw [inserting, hst]
  · rw [inserting, hst]

/-- how a worker has come to the insert that it is at -/
theorem Worker.Goes.inserting {r : ImportJob} {a : Act β} {o : Option (Worker β)} {w' : Worker β}
    {k : OwnerId × String} (h : w.Goes P env s self r a o) (ho : o = some w')
    (hk : w'.inserting P = some k) :
    ∃ p filename content, w.pc = .looking p filename content ∧ k = (w.owner, P.sha256 content) ∧
      a = .idle ∧ ∀ d ∈ s.documents, ¬ d.holds k.1 k.2 := by
  cases h with
  | lockDown | readError | zipError | fileError =>
    rw [throw_inserting ho] at hk
    cases hk
  | look p filename content w' h hf =>
    cases hf with
    | unhashable =>
      rw [throw_inserting ho] at hk
      cases hk
    | missing hno =>
      cases ho
      cases hk
      exact ⟨p, filename, content, h, rfl, rfl, hno⟩
    | _ =>
      cases ho
      cases hk
  | enter p e todo w' h ht he => cases he <;> (cases ho; cases hk)
  | record p tried pc h hpc =>
    cases ho
    rcases hpc with rfl | rfl <;> cases hk
  | unlock exc =>
    cases exc <;> cases ho
    cases hk
  | _ =>
    cases ho
    try cases hk

/-! ## an insert -/

/-- one more live document, of bytes that no live document has -/
theorem Store.OnePerContent.add {new : Document} (hs : s.OnePerContent)
    (hdocs : t.documents = s.documents ++ [new])
    (hno : ∀ d ∈ s.documents, ¬ d.holds new.uploadedBy new.checksum) : t.OnePerContent := by
  have hsplit : ∀ (i : DocId) (d : Document), t.documents[i]? = some d →
      s.documents[i]? = some d ∨ i = s.documents.length ∧ d = new := by
    intro i d hd
    rw [hdocs] at hd
    exact getElem?_insert hd
  have hold : ∀ (owner : OwnerId) (checksum : String) (i : DocId) (d : Document),
      s.documents[i]? = some d → d.holds owner checksum → ¬ new.holds owner checksum := by
    intro owner checksum i d hd hholds hnew
    obtain ⟨-, rfl, rfl⟩ := Document.holds_iff.1 hnew
    exact hno d (List.mem_of_getElem? hd) hholds
  intro owner checksum i k d e hi hk hd he
  rcases hsplit i d hi with hi | ⟨rfl, rfl⟩ <;> rcases hsplit k e hk with hk | ⟨rfl, rfl⟩
  · exact hs owner checksum i k d e hi hk hd he
  · exact absurd he (hold owner checksum i d hi hd)
  · exact absurd hd (hold owner checksum k e hk he)
  · rfl

/-- an insert that leaves one live document found none with its bytes -/
theorem Store.OnePerContent.of_add {new : Document} (ht : t.OnePerContent)
    (hdocs : t.documents = s.documents ++ [new]) (hlive : ¬ new.deleted) :
    ∀ d ∈ s.documents, ¬ d.holds new.uploadedBy new.checksum := by
  intro d hd hholds
  obtain ⟨i, hi⟩ := List.getElem?_of_mem hd
  have hlt : i < s.documents.length := (List.getElem?_eq_some_iff.1 hi).1
  have hi' : t.documents[i]? = some d := by
    rw [hdocs, List.getElem?_append_left hlt]
    exact hi
  have hnew : t.documents[s.documents.length]? = some new := by
    rw [hdocs, List.getElem?_append_right (Nat.le_refl _), Nat.sub_self]
    rfl
  have heq : i = s.documents.length := ht new.uploadedBy new.checksum i _ d new hi' hnew hholds
    (Document.holds_iff.2 ⟨hlive, rfl, rfl⟩)
  exact absurd heq (Nat.ne_of_lt hlt)

/-! ## one step of the system -/

namespace Sys

variable {s : Sys β} {o : Op β}

/-- an operation other than a step of a worker inserts nothing -/
theorem exec_within (ho : ∀ i env, o = .step i env → s.worker i = none) :
    (o.exec P s).store.Within s.store := by
  generalize hexec : o.exec P s = t
  cases does hexec with
  | purge owner i d hd hlive howner t ht =>
    have hpurged : (s.store.purged i d).Within s.store := by
      refine .setDoc i ?_ rfl
      exact fun _ => ⟨rfl, rfl, fun _ => rfl⟩
    rcases ht with rfl | ⟨key, -, rfl⟩
    · exact hpurged
    · exact hpurged
  | settled owner i d =>
    refine .setDoc i ?_ rfl
    exact fun _ => ⟨rfl, rfl, id⟩
  | step i env p hp =>
    refine .stepOther fun w hw => ?_
    subst hw
    exact absurd (ho i env rfl) (by simp [Sys.worker_eq_some.2 hp])
  | _ => exact .ofEq rfl

/-- a step of a worker inserts nothing, or the document that the worker is about to insert -/
theorem exec_inserts (env : Env) {i : ProcId} (hw : s.worker i = some w) :
    ((Op.step i env).exec P s).store.Within s.store ∨
      ∃ k, w.inserting P = some k ∧ w.written P env s.store i ∧
        ((Op.step i env).exec P s).store.documents = s.store.documents ++
          [{ uploadedBy := k.1, checksum := k.2, importJobId := w.job }] := by
  generalize hexec : (Op.step i env).exec P s = t
  cases does hexec with
  | stays => exact .inl (.ofEq rfl)
  | step _ _ p hp =>
    obtain rfl : p = .worker w := Option.some.inj (hp.symm.trans (Sys.worker_eq_some.1 hw))
    show (w.step P env s.store i).1.Within s.store ∨ ∃ k, _ ∧ _ ∧
      (w.step P env s.store i).1.documents = _
    unfold Worker.step
    dsimp only
    by_cases hfail : env.dbError ∨ ¬ (w.next P env s.store i).1.accepted P
    · rw [if_pos hfail]
      exact .inl (.ofEq rfl)
    · rw [if_neg hfail]
      obtain ⟨hdb, ha⟩ := not_or.1 hfail
      cases hr : s.store.jobs[w.job]? with
      | none =>
        have hnext : w.next P env s.store i = (.idle, none) := by
          unfold Worker.next
          rw [hr]
        rw [hnext]
        exact .inl (.ofEq rfl)
      | some r =>
        have hgoes : w.Goes P env s.store i r (w.next P env s.store i).1 (w.next P env s.store i).2 :=
          Worker.goes hr
        rcases hgoes.inserts with hnew | ⟨k, hk, title, category, filename, hact⟩
        · exact .inl (.apply _ hnew)
        · refine .inr ⟨k, hk, Worker.written_iff.2 ⟨by simpa using hdb, ⟨r, hr⟩, not_not.1 ha⟩, ?_⟩
          rw [hact]
          rfl

/-- and it inserts the document if the database takes it -/
theorem exec_insert {i : ProcId} {k : OwnerId × String} (hw : s.worker i = some w)
    (hk : w.inserting P = some k) (hwrite : w.written P env s.store i) :
    ((Op.step i env).exec P s).store.documents = s.store.documents ++
      [{ uploadedBy := k.1, checksum := k.2, importJobId := w.job }] := by
  obtain ⟨p, filename, content, hpc, rfl⟩ := Worker.inserting_iff.1 hk
  obtain ⟨hdb, ⟨r, hr⟩, ha⟩ := Worker.written_iff.1 hwrite
  have htakes : (Proc.worker w).takes P = none := by
    unfold Proc.takes
    dsimp only
    rw [hpc]
  have hact : ∃ title category w', w.next P env s.store i = (.create
      { uploadedBy := w.owner, checksum := P.sha256 content, importJobId := w.job }
      title category filename, w') := by
    unfold Worker.next
    rw [hr]
    dsimp only
    rw [hpc]
    exact ⟨_, _, _, rfl⟩
  obtain ⟨title, category, w', hact⟩ := hact
  rw [exec_step_store (Sys.worker_eq_some.1 hw) htakes]
  show (w.step P env s.store i).1.documents = _
  rw [Worker.step_eq hact hdb (by rw [hact] at ha; exact ha)]
  rfl

theorem stillMissing_iff : o.stillMissing P s ↔ ∀ i env w k, o = .step i env →
    s.worker i = some w → w.written P env s.store i → w.inserting P = some k →
    ∀ d ∈ s.store.documents, ¬ d.holds k.1 k.2 := by
  cases o with
  | step i env =>
    have hop : (Op.step i env).stillMissing P s ↔ ∀ w, s.worker i = some w →
        w.written P env s.store i → w.stillMissing P s.store := by
      simp [Op.stillMissing, Option.all_eq_true, or_iff_not_imp_left]
    rw [hop]
    constructor
    · rintro h _ _ w k ⟨rfl, rfl⟩ hw hwrite hk
      exact Worker.stillMissing_iff.1 (h w hw hwrite) k hk
    · intro h w hw hwrite
      exact Worker.stillMissing_iff.2 fun k hk => h i env w k rfl hw hwrite hk
  | _ => exact iff_of_true rfl (fun _ _ _ _ h => nomatch h)

/-- an operation keeps one document for each content exactly if its insert, if it makes one, finds
what its query found -/
theorem onePerContent_exec (h : s.store.OnePerContent) :
    (o.exec P s).store.OnePerContent ↔ o.stillMissing P s := by
  rw [stillMissing_iff]
  constructor
  · rintro ht i env w k rfl hw hwrite hk
    exact ht.of_add (exec_insert hw hk hwrite) Bool.false_ne_true
  · intro ho
    by_cases hworker : ∀ i env, o = .step i env → s.worker i = none
    · exact (exec_within hworker).onePerContent h
    · push Not at hworker
      obtain ⟨i, env, rfl, hw⟩ := hworker
      obtain ⟨w, hw⟩ := Option.ne_none_iff_exists'.1 hw
      rcases exec_inserts env hw with hin | ⟨k, hk, hwrite, hdocs⟩
      · exact hin.onePerContent h
      · exact h.add hdocs (ho i env w k rfl hw hwrite hk)

end Sys

/-! ## queries and inserts apart -/

variable (P) in
/-- no live document has the bytes of an insert to come, and the inserts to come differ -/
structure Sys.Apart (s : Sys β) : Prop where
  missing : ∀ i w k, s.worker i = some w → w.inserting P = some k →
    ∀ d ∈ s.store.documents, ¬ d.holds k.1 k.2
  differ : ∀ i j v w k, s.worker i = some v → s.worker j = some w → v.inserting P = some k →
    w.inserting P = some k → i = j

/-- what the condition says of a query -/
theorem Sys.not_inserting {s : Sys β} {i : ProcId} {p : Pass β} {filename : String} {content : β}
    (ho : (Op.step i env).apart P s) (hdb : env.dbError = false) (hw : s.worker i = some w)
    (hpc : w.pc = .looking p filename content) {j : ProcId} {v : Worker β}
    (hj : s.worker j = some v) : v.inserting P ≠ some (w.owner, P.sha256 content) := by
  have hlen : j < s.procs.length := by
    have hproc : s.procs[j]?.join = some (.worker v) := Sys.worker_eq_some.1 hj
    exact (List.getElem?_eq_some_iff.1 (Option.join_eq_some_iff.1 hproc)).1
  have hall : ∀ j < s.procs.length, ∀ v, s.worker j = some v →
      v.inserting P ≠ some (w.owner, P.sha256 content) := by
    simpa [Op.apart, hdb, hw, hpc, Option.all_eq_true] using ho
  exact hall j hlen v hj

namespace Sys.Apart

variable {s t : Sys β} {o : Op β}

/-- no insert to come, and no document -/
theorem mono (h : s.Apart P) (hst : t.store.Within s.store)
    (hw : ∀ i w k, t.worker i = some w → w.inserting P = some k → s.worker i = some w) :
    t.Apart P := by
  refine ⟨fun i w k hi hk => ?_, fun i j v w k hi hj hv hk => ?_⟩
  · exact hst.missing (h.missing i w k (hw i w k hi hk) hk)
  · exact h.differ i j v w k (hw i v k hi hv) (hw j w k hj hk) hv hk

theorem stillMissing (h : s.Apart P) : o.stillMissing P s :=
  stillMissing_iff.2 fun i _ w k _ hw _ hk => h.missing i w k hw hk

/-- an operation other than a step of a worker brings no worker to an insert -/
theorem exec_worker (ho : ∀ i env, o = .step i env → s.worker i = none) {i : ProcId}
    {k : OwnerId × String} (hi : (o.exec P s).worker i = some w) (hk : w.inserting P = some k) :
    s.worker i = some w := by
  have hspawn : ∀ (store : Store β) (p : Proc β), (∀ w, p = .worker w → w.inserting P = none) →
      (({ s with store } : Sys β).spawn p).proc i = some (.worker w) → s.proc i = some (.worker w) := by
    intro store p hp h
    rcases Sys.proc_spawn h with h | ⟨-, h⟩
    · exact h
    · rw [hp w h.symm] at hk
      cases hk
  have hset : ∀ (store : Store β) (j : ProcId) (q : Option (Proc β)), (∀ w, q ≠ some (.worker w)) →
      (⟨store, s.procs.set j q⟩ : Sys β).proc i = some (.worker w) → s.proc i = some (.worker w) := by
    intro store j q hq h
    rcases Sys.proc_set h with ⟨-, h⟩ | ⟨-, h⟩
    · exact absurd h (hq w)
    · exact h
  rw [Sys.worker_eq_some] at hi ⊢
  generalize hexec : o.exec P s = t at hi
  cases does hexec with
  | stays | tick | requeue | settled => exact hi
  | upload | memory | delete | retryPurge | reconcile => exact hspawn _ _ (by simp) hi
  | purge owner i d hd hlive howner t ht =>
    rcases ht with rfl | ⟨key, -, rfl⟩
    · exact hi
    · exact hspawn _ _ (by simp) hi
  | claim name n j r =>
    refine hspawn _ _ (fun w hw => ?_) hi
    cases hw
    rfl
  | step j env p hp =>
    have hother : ∀ w, p ≠ .worker w := by
      rintro w rfl
      exact absurd (ho j env rfl) (by simp [Sys.worker_eq_some.2 hp])
    exact hset _ _ _ (Proc.step_other hother).1 hi
  | crash j => exact hset _ _ _ (by simp) hi

/-- a worker whose query finds no document joins those that are about to insert -/
theorem join (h : s.Apart P) {i : ProcId} {k : OwnerId × String}
    (hmissing : ∀ d ∈ s.store.documents, ¬ d.holds k.1 k.2)
    (hno : ∀ j v, s.worker j = some v → v.inserting P ≠ some k)
    (hk : w.inserting P = some k) (hst : t.store.Within s.store)
    (ht : ∀ j v, t.worker j = some v → j = i ∧ v = w ∨ s.worker j = some v) : t.Apart P := by
  refine ⟨fun j v k' hj hv => ?_, fun j j' v v' k' hj hj' hv hv' => ?_⟩
  · rcases ht j v hj with ⟨rfl, rfl⟩ | hj
    · obtain rfl : k = k' := Option.some.inj (hk.symm.trans hv)
      exact hst.missing hmissing
    · exact hst.missing (h.missing j v k' hj hv)
  · rcases ht j v hj with ⟨rfl, rfl⟩ | hj <;> rcases ht j' v' hj' with ⟨rfl, rfl⟩ | hj'
    · rfl
    · obtain rfl : k = k' := Option.some.inj (hk.symm.trans hv)
      exact absurd hv' (hno j' v' hj')
    · obtain rfl : k = k' := Option.some.inj (hk.symm.trans hv')
      exact absurd hv (hno j v hj)
    · exact h.differ j j' v v' k' hj hj' hv hv'

/-- a worker inserts its document, and the others are about to insert other bytes -/
theorem insert (h : s.Apart P) {i : ProcId} {k : OwnerId × String} {job : ImportJobId}
    (hi : s.worker i = some w) (hk : w.inserting P = some k)
    (hdocs : t.store.documents =
      s.store.documents ++ [{ uploadedBy := k.1, checksum := k.2, importJobId := job }])
    (ht : ∀ j v k', t.worker j = some v → v.inserting P = some k' →
      j ≠ i ∧ s.worker j = some v) : t.Apart P := by
  refine ⟨fun j v k' hj hv d hd => ?_, fun j j' v v' k' hj hj' hv hv' => ?_⟩
  · obtain ⟨hne, hj⟩ := ht j v k' hj hv
    rw [hdocs] at hd
    rcases List.mem_append.1 hd with hd | hd
    · exact h.missing j v k' hj hv d hd
    · intro hholds
      rw [List.mem_singleton.1 hd] at hholds
      obtain ⟨-, howner, hsum⟩ := Document.holds_iff.1 hholds
      have hkk : k = k' := Prod.ext howner hsum
      subst hkk
      exact hne (h.differ j i v w k hj hi hv hk)
  · exact h.differ j j' v v' k' (ht j v k' hj hv).2 (ht j' v' k' hj' hv').2 hv hv'

theorem stepWorker (h : s.Apart P) {i : ProcId} (hi : s.proc i = some (.worker w))
    (hapart : (Op.step i env).apart P s) {st : Store β} {o : Option (Worker β)}
    (hstep : w.step P env s.store i = (st, o)) :
    (⟨st, s.procs.set i (o.map .worker)⟩ : Sys β).Apart P := by
  have hw : s.worker i = some w := Sys.worker_eq_some.2 hi
  have hproc : ∀ (t : Store β) j v, (⟨t, s.procs.set i (o.map .worker)⟩ : Sys β).worker j = some v →
      j = i ∧ o = some v ∨ j ≠ i ∧ s.worker j = some v := by
    intro t j v hj
    rw [Sys.worker_eq_some] at hj ⊢
    rcases Sys.proc_set hj with ⟨hji, hv⟩ | hj
    · obtain ⟨v', hv', hvv⟩ := Option.map_eq_some_iff.1 hv
      cases hvv
      exact .inl ⟨hji, hv'⟩
    · exact .inr hj
  cases Worker.steps hstep with
  | lost hno =>
    refine h.mono (.ofEq rfl) fun j v k hj hv => ?_
    exact (hproc s.store j v hj).elim (fun hj => nomatch hj.2) (·.2)
  | faults =>
    refine h.mono (.ofEq rfl) fun j v k hj hv => ?_
    rcases hproc s.store j v hj with ⟨-, hj⟩ | ⟨-, hj⟩
    · rw [Worker.throw_inserting hj] at hv
      cases hv
    · exact hj
  | goes r a o hr hg hdb =>
    by_cases hjoin : ∃ w' k, o = some w' ∧ w'.inserting P = some k
    · obtain ⟨w', k, rfl, hk⟩ := hjoin
      obtain ⟨p, filename, content, hlook, rfl, rfl, hmissing⟩ := hg.inserting rfl hk
      refine h.join (i := i) hmissing (fun j v hj hv => ?_) hk (.ofEq rfl) fun j v hj => ?_
      · exact Sys.not_inserting hapart hdb hw hlook hj hv
      · rcases hproc _ j v hj with ⟨hji, hj⟩ | ⟨-, hj⟩
        · exact .inl ⟨hji, (Option.some.inj hj).symm⟩
        · exact .inr hj
    · have hothers : ∀ (t : Store β) j v k,
          (⟨t, s.procs.set i (o.map .worker)⟩ : Sys β).worker j = some v →
          v.inserting P = some k → j ≠ i ∧ s.worker j = some v := by
        intro t j v k hj hv
        rcases hproc t j v hj with ⟨-, hj⟩ | hj
        · exact absurd ⟨v, k, hj, hv⟩ hjoin
        · exact hj
      rcases hg.inserts with hnew | ⟨k, hk, title, category, filename, rfl⟩
      · exact h.mono (.apply a hnew) fun j v k hj hv => (hothers _ j v k hj hv).2
      · exact h.insert hw hk rfl (hothers _)

theorem exec (h : s.Apart P) (ho : o.apart P s) : (o.exec P s).Apart P := by
  by_cases hworker : ∀ i env, o = .step i env → s.worker i = none
  · exact h.mono (exec_within hworker) fun i w k hi hk => exec_worker hworker hi hk
  · push Not at hworker
    obtain ⟨i, env, rfl, hw⟩ := hworker
    obtain ⟨w, hw⟩ := Option.ne_none_iff_exists'.1 hw
    have hi : s.proc i = some (.worker w) := Sys.worker_eq_some.1 hw
    generalize hexec : (Op.step i env).exec P s = t
    cases does hexec with
    | stays => exact h
    | step _ _ p hp =>
      obtain rfl : p = .worker w := Option.some.inj (hp.symm.trans hi)
      exact h.stepWorker hi ho rfl

end Sys.Apart

/-! ## every run -/

/-- No two live documents of an owner have the same checksum in any state of a run, exactly if
every insert finds what its query found: that no live document has the bytes. -/
theorem one_document (P : Pipeline β) (ops : List (Op β)) :
    Run.Always (Op.exec P) (fun s => s.store.OnePerContent) {} ops ↔
      Run.Meets (Op.exec P) (fun s o => o.stillMissing P s) {} ops := by
  refine Run.always_iff_meets (I := fun s : Sys β => s.store.OnePerContent) (fun _ h => h)
    (fun s o h ht => (Sys.onePerContent_exec h).1 ht)
    (fun s o h ho => (Sys.onePerContent_exec h).2 ho) ?_ ops
  intro owner checksum i k d e hi
  cases hi

/-- It is so in every run where no worker asks for some bytes while another one is about to insert
them. -/
theorem one_document_of_apart (P : Pipeline β) (ops : List (Op β))
    (hops : Run.Meets (Op.exec P) (fun s o => o.apart P s) {} ops) :
    Run.Always (Op.exec P) (fun s => s.store.OnePerContent) {} ops := by
  have hinit : ({} : Sys β).store.OnePerContent ∧ ({} : Sys β).Apart P := by
    refine ⟨?_, fun i w k hi => ?_, fun i j v w k hi => ?_⟩
    · intro owner checksum i k d e hi
      cases hi
    · exact absurd hi (by simp [Sys.worker, Sys.proc])
    · exact absurd hi (by simp [Sys.worker, Sys.proc])
  refine Run.always (I := fun s : Sys β => s.store.OnePerContent ∧ s.Apart P) (fun _ h => h.1)
    (fun s o h ho => ⟨?_, h.2.exec ho⟩) hinit hops
  exact (Sys.onePerContent_exec h.1).2 h.2.stillMissing

/-- archives whose files are their letters -/
def letterPipeline : Pipeline String :=
  { plainPipeline with
    unzip := fun _ raw => some
      ⟨raw.toList.map fun c => ⟨String.ofList [c, '.', 't', 'x', 't'], .ok (String.ofList [c])⟩, none⟩ }

/-- two packages that share a file, and a worker for each -/
def sharedFile : List (Op String) :=
  .importPackage 0 "p.zip" "xy" :: turns 0 4 ++ .importPackage 0 "q.zip" "xz" :: turns 1 4 ++
    [.claimNextJob "v" 120, .claimNextJob "w" 120] ++ turns 2 7 ++ turns 3 7 ++ turns 2 1 ++ turns 3 1

/-- the second worker starts when the first one is done -/
def oneAfterOther : List (Op String) :=
  sharedFile.take 11 ++ turns 2 20 ++ .claimNextJob "w" 120 :: turns 3 20

theorem one_document_of_apart_sharedFile : Run.Always (Op.exec letterPipeline)
    (fun s => s.store.OnePerContent) {} oneAfterOther :=
  one_document_of_apart letterPipeline oneAfterOther (by decide +kernel)

/-- The two workers ask for the file before either of them inserts it. -/
theorem sharedFile_twice : ¬ Run.Always (Op.exec letterPipeline)
    (fun s => s.store.OnePerContent) {} sharedFile := by
  intro h
  have hrun : (importRun letterPipeline sharedFile).store.documents =
      [{ uploadedBy := 0, checksum := "x", importJobId := 0 },
       { uploadedBy := 0, checksum := "x", importJobId := 1 }] := by decide
  have hone : (importRun letterPipeline sharedFile).store.OnePerContent := h.run
  have heq := hone 0 "x" 0 1 { uploadedBy := 0, checksum := "x", importJobId := 0 }
    { uploadedBy := 0, checksum := "x", importJobId := 1 } (by rw [hrun]; rfl) (by rw [hrun]; rfl)
    (by decide) (by decide)
  exact absurd heq (by decide)

end LifeAI.Import
