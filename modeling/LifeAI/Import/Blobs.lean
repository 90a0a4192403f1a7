import LifeAI.Import.Steps
import LifeAI.Lib.Locks

/-!
# Blobs and the locks on their keys

A blob is removed under the lock on its key, and a writer that has found its blob keeps the lock
until the row that refers to it is committed.

* `procHolds`   the locks, as `Locks.Exclusive` takes them;
* `Proc.backs`  the key that a process has found on disk and is about to refer to;
* `Sys.Stored`  what holds of the storage root in every state of every run.
-/

namespace LifeAI.Import

variable {β : Type} {P : Pipeline β} {env : Env} {s : Store β} {self : ProcId} {p q : Proc β}
  {w : Worker β} {key : String}

/-! ## the locks -/

variable (P) in
/-- the process holds the lock on the key -/
def procHolds (o : Option (Proc β)) (key : String) : Bool := o.any fun p => p.holds P = some key

theorem Sys.locked_eq (s : Sys β) (i : ProcId) (key : String) :
    s.locked P i key = Locks.heldByOther (procHolds P) s.procs i key := by
  unfold Sys.locked Locks.heldByOther
  congr 1
  funext k
  congr 2
  cases s.procs[k]? with
  | none => rfl
  | some o => rfl

theorem holds_worker : (Proc.worker w).holds P = some key ↔ ∃ p f, w.pc = .working p f ∧
    (f.stage = .republishing ∨ f.stage = .linking) ∧ P.sha256 f.content = key := by
  cases hpc : w.pc with
  | working p f =>
    simp only [Proc.holds, hpc]
    constructor
    · intro h
      split at h
      · next hst => exact ⟨p, f, rfl, hst, Option.some.inj h⟩
      · cases h
    · rintro ⟨p', f', hpf, hst, hkey⟩
      cases hpf
      rw [if_pos hst, hkey]
  | _ => simp [Proc.holds, hpc]

theorem takes_worker : (Proc.worker w).takes P = some key ↔ ∃ p f, w.pc = .working p f ∧
    f.stage = .verifying ∧ P.sha256 f.content = key := by
  cases hpc : w.pc with
  | working p f =>
    simp only [Proc.takes, hpc]
    constructor
    · intro h
      split at h
      · next hst => exact ⟨p, f, rfl, hst, Option.some.inj h⟩
      · cases h
    · rintro ⟨p', f', hpf, hst, hkey⟩
      cases hpf
      rw [if_pos hst, hkey]
  | _ => simp [Proc.takes, hpc]

/-- the key that the process has found on disk, and that its next commit refers to -/
def Proc.backs (P : Pipeline β) : Proc β → Option String
  | .worker w => match w.pc with
    | .working _ f => if f.stage = .linking then some (P.sha256 f.content) else none
    | _ => none
  | .upload u => if u.stage = .committing then some (P.sha256 u.content) else none
  | .memory m => if m.stage = .linking then some (P.sha256 m.content) else none
  | _ => none

theorem backs_worker : (Proc.worker w).backs P = some key ↔ ∃ p f, w.pc = .working p f ∧
    f.stage = .linking ∧ P.sha256 f.content = key := by
  cases hpc : w.pc with
  | working p f =>
    simp only [Proc.backs, hpc]
    constructor
    · intro h
      split at h
      · next hst => exact ⟨p, f, rfl, hst, Option.some.inj h⟩
      · cases h
    · rintro ⟨p', f', hpf, hst, hkey⟩
      cases hpf
      rw [if_pos hst, hkey]
  | _ => simp [Proc.backs, hpc]

/-- what a process has found it holds the lock on -/
theorem Proc.holds_of_backs (h : p.backs P = some key) : p.holds P = some key := by
  cases p with
  | worker w =>
    obtain ⟨pass, f, hpc, hst, hkey⟩ := backs_worker.1 h
    exact holds_worker.2 ⟨pass, f, hpc, .inr hst, hkey⟩
  | upload u => exact h
  | memory m =>
    simp only [Proc.backs] at h
    split at h
    · next hst =>
      simp only [Proc.holds]
      rw [if_pos (.inr hst)]
      exact h
    · cases h
  | deletion d => cases h
  | reconcile ids => cases h

/-! ## the storage root -/

/-- each blob hashes to its key -/
def Store.Intact (P : Pipeline β) (s : Store β) : Prop :=
  ∀ key c, s.disk key = some c → P.sha256 c = key

theorem Store.Intact.verify (h : s.Intact P) (hd : s.disk key ≠ none) : s.verify P key := by
  obtain ⟨c, hc⟩ := Option.ne_none_iff_exists'.1 hd
  unfold Store.verify
  rw [hc]
  exact decide_eq_true (h key c hc)

theorem Store.of_verify (h : s.verify P key) : s.disk key ≠ none := by
  intro hno
  rw [Store.verify, hno] at h
  cases h

theorem Store.publish_disk (content : β) :
    ∃ b, (s.apply P (.publish content)).disk (P.sha256 content) = some b ∧
      P.sha256 b = P.sha256 content := by
  refine ⟨_, if_pos rfl, ?_⟩
  cases hf : (s.disk (P.sha256 content)).filter (P.sha256 · = P.sha256 content) with
  | none => rfl
  | some b =>
    obtain ⟨-, hb⟩ := Option.filter_eq_some_iff.1 hf
    exact of_decide_eq_true hb

/-- an act adds blobs only, each under its hash -/
theorem Store.apply_disk (a : Act β) (key : String) :
    (s.apply P a).disk key = s.disk key ∨
      ∃ b, (s.apply P a).disk key = some b ∧ P.sha256 b = key := by
  cases a with
  | publish content =>
    by_cases hk : key = P.sha256 content
    · subst hk
      exact .inr (Store.publish_disk content)
    · exact .inl (if_neg hk)
  | _ => exact .inl rfl

theorem Store.Intact.apply (h : s.Intact P) (a : Act β) : (s.apply P a).Intact P := by
  intro key c hc
  rcases Store.apply_disk a key with hk | ⟨b, hb, hhash⟩
  · exact h key c (hk ▸ hc)
  · rw [hb] at hc
    cases hc
    exact hhash

theorem Store.apply_disk_ne (a : Act β) (h : s.disk key ≠ none) : (s.apply P a).disk key ≠ none := by
  rcases Store.apply_disk a key with hk | ⟨b, hb, -⟩
  · rw [hk]
    exact h
  · rw [hb]
    exact Option.some_ne_none b

/-! ## one step of a process -/

/-- what a step of a process does to the storage root, and with the locks -/
structure StepsSafely (P : Pipeline β) (s t : Store β) (p : Proc β) (o : Option (Proc β)) :
    Prop where
  intact : s.Intact P → t.Intact P
  /-- a blob goes only under the lock on its key -/
  keeps : ∀ key, s.disk key ≠ none → t.disk key ≠ none ∨ p.holds P = some key ∧ p.backs P = none
  /-- a lock that is held afterwards was held or is taken -/
  locks : ∀ q key, o = some q → q.holds P = some key → p.holds P = some key ∨ p.takes P = some key
  backs : ∀ q key, o = some q → q.backs P = some key → t.disk key ≠ none

/-- a process that goes on -/
theorem StepsSafely.next {t : Store β} (hintact : s.Intact P → t.Intact P)
    (hkeeps : ∀ key, s.disk key ≠ none →
      t.disk key ≠ none ∨ p.holds P = some key ∧ p.backs P = none)
    (hlocks : ∀ key, q.holds P = some key → p.holds P = some key ∨ p.takes P = some key)
    (hbacks : ∀ key, q.backs P = some key → t.disk key ≠ none) :
    StepsSafely P s t p (some q) where
  intact := hintact
  keeps := hkeeps
  locks _ key hq := Option.some.inj hq ▸ hlocks key
  backs _ key hq := Option.some.inj hq ▸ hbacks key

/-- a process that ends -/
theorem StepsSafely.ends {t : Store β} (hdisk : t.disk = s.disk) : StepsSafely P s t p none where
  intact h key c hc := h key c (hdisk ▸ hc)
  keeps key h := .inl (by rwa [hdisk])
  locks q key hq := by cases hq
  backs q key hq := by cases hq

theorem Worker.step_safely : StepsSafely P s (w.step P env s self).1 (.worker w)
    ((w.step P env s self).2.map .worker) := by
  rcases hstep : w.step P env s self with ⟨t, o⟩
  have hout : ∀ q, o.map Proc.worker = some q → ∃ w', o = some w' ∧ q = .worker w' := by
    intro q hq
    obtain ⟨w', hw', hqw⟩ := Option.map_eq_some_iff.1 hq
    exact ⟨w', hw', hqw.symm⟩
  cases Worker.steps hstep with
  | lost => exact .ends rfl
  | faults =>
    have hno : ∀ q key, (w.throw .dbError).map Proc.worker = some q → q.holds P ≠ some key := by
      intro q key hq hk
      obtain ⟨w', hw', rfl⟩ := hout q hq
      obtain ⟨pass, f, hpc, -⟩ := holds_worker.1 hk
      exact absurd hpc (Worker.throw_pc hw')
    refine ⟨id, fun key h => .inl h, fun q key hq hk => absurd hk (hno q key hq), ?_⟩
    exact fun q key hq hk => absurd (Proc.holds_of_backs hk) (hno q key hq)
  | goes r a _ hr hg =>
    refine ⟨fun h => h.apply a, fun key h => .inl (Store.apply_disk_ne a h), fun q key hq hk => ?_,
      fun q key hq hk => ?_⟩
    · obtain ⟨w', hw', rfl⟩ := hout q hq
      obtain ⟨pass, f', hpc, hst, hkey⟩ := holds_worker.1 hk
      rcases hg.working hw' hpc with ⟨f, hf, hgo⟩ | ⟨filename, content, i, d, -, -, -, -, -, hf'⟩ |
        ⟨filename, content, title, category, -, -, hf'⟩
      · rw [hgo.same.2.1] at hkey
        rcases hgo.locked hst with hver | hrep
        · exact .inr (takes_worker.2 ⟨pass, f, hf, hver, hkey⟩)
        · exact .inl (holds_worker.2 ⟨pass, f, hf, .inl hrep, hkey⟩)
      · have hp : f'.stage.piped := hf' ▸ FileRun.pipeline_piped
        rcases hst with hst | hst <;> simp [hst, Stage.piped] at hp
      · subst hf'
        rcases hst with hst | hst <;> cases hst
    · obtain ⟨w', hw', rfl⟩ := hout q hq
      obtain ⟨pass, f', hpc, hst, hkey⟩ := backs_worker.1 hk
      rcases hg.working hw' hpc with ⟨f, hf, hgo⟩ | ⟨filename, content, i, d, -, -, -, -, -, hf'⟩ |
        ⟨filename, content, title, category, -, -, hf'⟩
      · rw [hgo.same.2.1] at hkey
        subst hkey
        rcases hgo.linking hst with ⟨rfl, hv⟩ | rfl
        · exact Store.of_verify hv
        · obtain ⟨b, hb, -⟩ := Store.publish_disk (P := P) (s := s) f.content
          rw [hb]
          exact Option.some_ne_none b
      · have hp : f'.stage.piped := hf' ▸ FileRun.pipeline_piped
        simp [hst, Stage.piped] at hp
      · subst hf'
        cases hst

theorem Upload.step_safely {u : Upload β} :
    StepsSafely P s (u.step P env s).1 (.upload u) (u.step P env s).2 := by
  rcases hstep : u.step P env s with ⟨t, o⟩
  dsimp only
  cases Upload.goes hstep with
  | ends => exact .ends rfl
  | write h q hq =>
    refine .next (fun h => h.apply _) (fun key h => .inl (Store.apply_disk_ne _ h)) ?_ ?_
    · intro key hk
      rcases hq with rfl | rfl <;> simp [Proc.holds] at hk
    · intro key hk
      rcases hq with rfl | rfl <;> simp [Proc.backs] at hk
  | lock h hno =>
    refine .next id (fun key h => .inl h) (fun key hk => ?_) fun key hk => ?_
    · simp [Proc.holds] at hk
    · simp [Proc.backs] at hk
  | found h hd =>
    refine .next id (fun key h => .inl h) ?_ ?_
    · intro key hk
      simpa [Proc.takes, Proc.holds, h] using hk
    · intro key hk
      have hkey : P.sha256 u.content = key := by simpa [Proc.backs] using hk
      exact hkey ▸ hd
  | commit h => exact .ends rfl

theorem MemoryWrite.step_safely {m : MemoryWrite β} :
    StepsSafely P s (m.step P env s).1 (.memory m) (m.step P env s).2 := by
  rcases hstep : m.step P env s with ⟨t, o⟩
  dsimp only
  cases MemoryWrite.goes hstep with
  | ends => exact .ends rfl
  | write h =>
    refine .next (fun h => h.apply _) (fun key h => .inl (Store.apply_disk_ne _ h)) ?_ ?_
    · intro key hk
      simp [Proc.holds] at hk
    · intro key hk
      simp [Proc.backs] at hk
  | verified h hv =>
    refine .next id (fun key h => .inl h) ?_ ?_
    · intro key hk
      simpa [Proc.takes, Proc.holds, h] using hk
    · intro key hk
      have hkey : P.sha256 m.content = key := by simpa [Proc.backs] using hk
      exact hkey ▸ Store.of_verify hv
  | damaged h =>
    refine .next id (fun key h => .inl h) ?_ ?_
    · intro key hk
      simpa [Proc.takes, Proc.holds, h] using hk
    · intro key hk
      simp [Proc.backs] at hk
  | republish h =>
    refine .next (fun h => h.apply _) (fun key h => .inl (Store.apply_disk_ne _ h)) ?_ ?_
    · intro key hk
      simpa [Proc.takes, Proc.holds, h] using hk
    · intro key hk
      have hkey : P.sha256 m.content = key := by simpa [Proc.backs] using hk
      obtain ⟨b, hb, -⟩ := Store.publish_disk (P := P) (s := s) m.content
      rw [← hkey, hb]
      exact Option.some_ne_none b
  | link h => exact .ends rfl

theorem Deletion.step_safely {d : Deletion} :
    StepsSafely P s (d.step env s).1 (.deletion d) (d.step env s).2 := by
  rcases hstep : d.step env s with ⟨t, o⟩
  dsimp only
  cases Deletion.goes hstep with
  | ends => exact .ends rfl
  | keep h | lock h hno =>
    refine .next id (fun key h => .inl h) (fun key hk => .inr ?_) fun key hk => ?_
    · simpa [Proc.holds, Proc.takes, h] using hk
    · cases hk
  | fails h =>
    refine .next id (fun key h => .inl h) ?_ ?_
    · intro key hk
      exact .inl (by simpa [Proc.holds, h] using hk)
    · intro key hk
      cases hk
  | delete h =>
    refine .next (fun hi key c hc => ?_) (fun key hd => ?_) ?_ ?_
    · dsimp only at hc
      split at hc
      · cases hc
      · exact hi key c hc
    · by_cases hkey : key = d.key
      · exact .inr ⟨by simp [Proc.holds, h, hkey], rfl⟩
      · exact .inl (by simpa [hkey] using hd)
    · intro key hk
      exact .inl (by simpa [Proc.holds, h] using hk)
    · intro key hk
      cases hk
  | settle => exact .ends rfl

theorem Proc.step_safely :
    StepsSafely P s (p.step P env s self).1 p (p.step P env s self).2 := by
  cases p with
  | worker w => exact Worker.step_safely
  | upload u => exact Upload.step_safely
  | memory m => exact MemoryWrite.step_safely
  | deletion d => exact Deletion.step_safely
  | reconcile ids =>
    have hdisk : (if env.dbError then s else s.reopened ids).disk = s.disk := by
      split
      · rfl
      · rw [Store.reopened_frame]
    exact .ends hdisk

/-! ## every run -/

/-- Each blob hashes to its key, no two processes hold the lock on a key, and what a process has
found under its lock is still there. -/
structure Sys.Stored (P : Pipeline β) (s : Sys β) : Prop where
  intact : s.store.Intact P
  exclusive : Locks.Exclusive (procHolds P) s.procs
  backed : ∀ i p key, s.proc i = some p → p.backs P = some key → s.store.disk key ≠ none

namespace Sys.Stored

variable {s t : Sys β} {o : Op β} {i k : ProcId}

theorem eq_of_holds (h : s.Stored P) (hi : s.proc i = some p) (hk : s.proc k = some q)
    (hp : p.holds P = some key) (hq : q.holds P = some key) : i = k := by
  have hi' : s.procs[i]? = some (some p) := Option.join_eq_some_iff.1 hi
  have hk' : s.procs[k]? = some (some q) := Option.join_eq_some_iff.1 hk
  exact h.exclusive.eq_of_holds hi' hk' (decide_eq_true hp) (decide_eq_true hq)

/-- the rows change, the storage root does not -/
theorem ofDisk (h : s.Stored P) (hdisk : t.store.disk = s.store.disk) (hprocs : t.procs = s.procs) :
    t.Stored P := by
  have hproc : ∀ i, t.proc i = s.proc i := by
    intro i
    unfold Sys.proc
    rw [hprocs]
  refine ⟨fun key c hc => h.intact key c (hdisk ▸ hc), hprocs ▸ h.exclusive, fun i p key hi hp => ?_⟩
  rw [hdisk]
  exact h.backed i p key (hproc i ▸ hi) hp

/-- a process starts, with no lock -/
theorem spawn (h : s.Stored P) (hp : p.holds P = none) : (s.spawn p).Stored P := by
  refine ⟨h.intact, h.exclusive.append fun key hk => ?_, fun i q key hi hq => ?_⟩
  · have hk : p.holds P = some key := of_decide_eq_true hk
    rw [hp] at hk
    cases hk
  · rcases Sys.proc_spawn hi with hi | ⟨-, rfl⟩
    · exact h.backed i q key hi hq
    · have hk := Proc.holds_of_backs hq
      rw [hp] at hk
      cases hk

theorem step (h : s.Stored P) (hi : s.proc i = some p)
    (hfree : ∀ key, p.takes P = some key → ¬ s.locked P i key) :
    (⟨(p.step P env s.store i).1, s.procs.set i (p.step P env s.store i).2⟩ : Sys β).Stored P := by
  have hsafe : StepsSafely P s.store (p.step P env s.store i).1 p (p.step P env s.store i).2 :=
    Proc.step_safely
  have hi' : s.procs[i]? = some (some p) := Option.join_eq_some_iff.1 hi
  refine ⟨hsafe.intact h.intact, h.exclusive.set hi' fun key hk => ?_, fun k q key hk hq => ?_⟩
  · obtain ⟨q, hq, hqk⟩ := (Option.any_eq_true _ _).1 hk
    rcases hsafe.locks q key hq (of_decide_eq_true hqk) with hp | htake
    · exact .inl (decide_eq_true hp)
    · exact .inr (Sys.locked_eq s i key ▸ hfree key htake)
  · rcases Sys.proc_set hk with ⟨-, hk⟩ | ⟨hki, hk⟩
    · exact hsafe.backs q key hk hq
    · rcases hsafe.keeps key (h.backed k q key hk hq) with hd | ⟨hp, -⟩
      · exact hd
      · exact absurd (h.eq_of_holds hk hi (Proc.holds_of_backs hq) hp) hki

theorem exec (h : s.Stored P) : (o.exec P s).Stored P := by
  generalize hexec : o.exec P s = t
  cases does hexec with
  | stays => exact h
  | upload | memory | delete | retryPurge | reconcile => exact h.spawn rfl
  | purge owner i d hd hlive howner t ht =>
    have hpurged : ({ s with store := s.store.purged i d } : Sys β).Stored P := h.ofDisk rfl rfl
    rcases ht with rfl | ⟨key, -, rfl⟩
    · exact hpurged
    · exact hpurged.spawn rfl
  | tick | settled | requeue => exact h.ofDisk rfl rfl
  | claim name n j r =>
    have hclaimed : ({ s with store := s.store.claimed name n j } : Sys β).Stored P :=
      h.ofDisk rfl rfl
    exact hclaimed.spawn rfl
  | step i env p hi hfree => exact h.step hi hfree
  | crash i =>
    refine ⟨h.intact, ?_, fun k q key hk hq => ?_⟩
    · by_cases hlt : i < s.procs.length
      · have hi : s.procs[i]? = some s.procs[i] := List.getElem?_eq_getElem hlt
        exact h.exclusive.set hi fun key hk => by cases hk
      · rw [List.set_eq_of_length_le (Nat.not_lt.1 hlt)]
        exact h.exclusive
    · rcases Sys.proc_set hk with ⟨-, hk⟩ | ⟨-, hk⟩
      · cases hk
      · exact h.backed k q key hk hq

theorem run (P : Pipeline β) (ops : List (Op β)) : (importRun P ops).Stored P := by
  have hinit : ({} : Sys β).Stored P :=
    ⟨fun key c hc => (by cases hc), Locks.Exclusive.nil,
      fun i p key hi => absurd hi (by simp [Sys.proc])⟩
  exact Run.inv_all (I := Sys.Stored P) (fun _ _ => exec) hinit ops

end Sys.Stored

end LifeAI.Import
