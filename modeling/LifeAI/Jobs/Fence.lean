import LifeAI.Jobs.Lease

/-!
# Lease fencing over whole runs

`LeaseOp` is everything that touches a claim, by any number of workers and in any order, with
time passing in between.  A row is either claimed (`Claimed`: the generation goes up by one) or
kept (`Kept`: generation and holder stay, and the job does not become running), see
`exec_cases`.  From this one fact: generations of a job's claims increase, and a guarded write
passes its fence exactly while its claim is `StillHeld`.
-/

namespace LifeAI

structure JobDb where
  jobs : List Job := []
  now : Time := 0
  deriving DecidableEq

/-- the writes that re-verify `(worker_id, lease_generation)` -/
inductive GuardedWrite where
  | recordClaimed
  | renew (leaseSeconds : Nat)
  | markCompleted (publicMessage : Option String)
  | markFailed (category : JobErrorCategory)
  | markFailedFlush (category : JobErrorCategory)
  | markCancelled
  | updateProgress (current total : Option Nat) (phase : Option String)
  | recordDocumentReviewed (current total : Nat) (provider model : String) (ref : Nat)
  | recordDocumentSkipped
  deriving DecidableEq

def GuardedWrite.exec (now : Time) (jobs : List Job) (j : JobId) (worker : String)
    (generation : Nat) : GuardedWrite → Except Err (List Job)
  | .recordClaimed => LifeAI.recordClaimed jobs j worker generation
  | .renew secs => renewMainaiJobLease now jobs j worker generation secs
  | .markCompleted m => LifeAI.markCompleted now jobs j worker generation m
  | .markFailed c => LifeAI.markFailed now jobs j worker generation c
  | .markFailedFlush c => LifeAI.markFailedFlush now jobs j worker generation c
  | .markCancelled => LifeAI.markCancelled now jobs j worker generation
  | .updateProgress c t p => LifeAI.updateProgress jobs j worker generation c t p
  | .recordDocumentReviewed c t p m ref =>
    LifeAI.recordDocumentReviewed jobs j worker generation c t p m ref
  | .recordDocumentSkipped => LifeAI.recordDocumentSkipped jobs j worker generation

/-- an `update_progress` with nothing to set -/
def GuardedWrite.vacuous : GuardedWrite → Bool
  | .updateProgress none none none => true
  | _ => false

inductive LeaseOp where
  | tick (seconds : Nat)
  | createJob (ownerId : OwnerId) (jobType : JobType) (inputRefs : List InputRef)
  | claimNext (worker : String) (leaseSeconds : Nat) (locked : List JobId)
  | claimSpecific (job : JobId) (worker : String) (leaseSeconds : Nat)
  | guarded (w : GuardedWrite) (job : JobId) (worker : String) (generation : Nat)
  | retryJob (job : JobId) (loaded : Job)
  | requestCancel (job : JobId) (loaded : Job)
  | markJobSuperseded (takingOver : Bool) (job by_ : JobId)
  | markJobFailedAfterDecline (takingOver : Bool) (job : JobId)
  deriving DecidableEq

namespace LeaseOp

/-- one operation: the claim it hands out, if any, and the tables after it -/
def exec (s : JobDb) : LeaseOp → Except Err (Option Claim × List Job)
  | .tick _ => .ok (none, s.jobs)
  | .createJob owner jobType refs =>
    .ok (none, s.jobs ++ [{ ownerId := owner, jobType := jobType, inputRefs := refs }])
  | .claimNext w secs locked => claimNextMainaiJob s.now s.jobs w secs locked
  | .claimSpecific j w secs => claimSpecificMainaiJob s.now s.jobs j w secs
  | .guarded gw j w g => (gw.exec s.now s.jobs j w g).map (none, ·)
  | .retryJob j loaded => (LifeAI.retryJob s.jobs j loaded).map (none, ·)
  | .requestCancel j loaded => (LifeAI.requestCancel s.jobs j loaded).map (none, ·)
  | .markJobSuperseded rec j b =>
    (LifeAI.markJobSuperseded s.now rec s.jobs j b).map (none, ·)
  | .markJobFailedAfterDecline rec j =>
    (markJobFailedAfterGovernedRecoveryDecline s.now rec s.jobs j).map (none, ·)

/-- an operation that raises rolls back -/
def step (s : JobDb) (o : LeaseOp) : JobDb :=
  { jobs := transact s.jobs ((exec s o).map Prod.snd)
    now := match o with
      | .tick n => s.now + n
      | _ => s.now }

/-- the claim that `o` hands out in the state `s` -/
def handed (p : JobDb × LeaseOp) : Option Claim :=
  match exec p.1 p.2 with
  | .ok (c, _) => c
  | .error _ => none

end LeaseOp

/-- the claims handed out along a run, in order -/
def claimsOf (s : JobDb) (os : List LeaseOp) : List Claim :=
  (Run.trace LeaseOp.step s os).filterMap LeaseOp.handed

def JobDb.isRunning (j : JobId) (s : JobDb) : Prop :=
  (s.jobs[j]?).any (fun r => r.status = .running) = true

/-- no other claim of the job was handed out along the run and the job never left `running` -/
def StillHeld (j : JobId) (s : JobDb) (os : List LeaseOp) : Prop :=
  (∀ c ∈ claimsOf s os, c.job ≠ j) ∧ Run.Always LeaseOp.step (JobDb.isRunning j) s os

/-! ## what one operation does to a row -/

/-- the claim columns stay and the job does not become running -/
structure Kept (r r' : Job) : Prop where
  generation : r'.leaseGeneration = r.leaseGeneration
  lockedBy : r'.lockedBy = r.lockedBy
  running : r'.status = .running → r.status = .running

theorem Kept.refl (r : Job) : Kept r r := ⟨rfl, rfl, id⟩

/-- every row of the table is kept -/
def TableKept (jobs jobs' : List Job) : Prop :=
  ∀ (j : JobId) (r : Job), jobs[j]? = some r → ∃ r', jobs'[j]? = some r' ∧ Kept r r'

theorem TableKept.refl (jobs : List Job) : TableKept jobs jobs :=
  fun _ r h => ⟨r, h, .refl r⟩

theorem TableKept.append (jobs new : List Job) : TableKept jobs (jobs ++ new) := by
  intro j r h
  have hj : j < jobs.length := (List.getElem?_eq_some_iff.1 h).1
  exact ⟨r, by rw [List.getElem?_append_left hj, h], .refl r⟩

theorem TableKept.set {jobs : List Job} {j : JobId} {r r' : Job} (h : jobs[j]? = some r)
    (hk : Kept r r') : TableKept jobs (jobs.set j r') := by
  intro i q hq
  rw [getElem?_set_row h]
  by_cases hi : j = i
  · subst hi
    rw [h] at hq
    cases hq
    exact ⟨r', by simp, hk⟩
  · exact ⟨q, by simp [hi, hq], .refl q⟩

theorem setRow_kept {jobs jobs' : List Job} {j : JobId} {r r' : Job} (h : jobs[j]? = some r)
    (hs : setRow jobs j r r' = .ok jobs') (hk : Kept r r') : TableKept jobs jobs' := by
  obtain ⟨-, rfl⟩ := setRow_ok hs
  exact .set h hk

/-- a write that passed the fence was made by the current claim of a running job -/
theorem guardedJobWrite_ok {jobs jobs' : List Job} {j : JobId} {w : String} {g : Nat}
    {set : Job → Job} (h : guardedJobWrite jobs j w g set = .ok jobs') :
    ∃ r, jobs[j]? = some r ∧ r.heldBy w g ∧ jobs' = jobs.set j (set r) := by
  unfold guardedJobWrite at h
  split at h
  · exact absurd h (by simp)
  · next r hr =>
    split at h
    · next hh => exact ⟨r, hr, hh, (setRow_ok h).2⟩
    · exact absurd h (by simp)

theorem guardedJobWrite_kept {jobs jobs' : List Job} {j : JobId} {w : String} {g : Nat}
    {set : Job → Job} (h : guardedJobWrite jobs j w g set = .ok jobs')
    (hset : ∀ r, Kept r (set r)) : TableKept jobs jobs' := by
  obtain ⟨r, hr, -, rfl⟩ := guardedJobWrite_ok h
  exact .set hr (hset r)

theorem GuardedWrite.exec_kept {now : Time} {jobs jobs' : List Job} {j : JobId} {w : String}
    {g : Nat} {gw : GuardedWrite} (h : gw.exec now jobs j w g = .ok jobs') :
    TableKept jobs jobs' := by
  cases gw with
  | recordClaimed => exact guardedJobWrite_kept h Kept.refl
  | renew secs => exact guardedJobWrite_kept h (fun r => ⟨rfl, rfl, id⟩)
  | markCompleted m | markFailed c | markFailedFlush c | markCancelled =>
    exact guardedJobWrite_kept h (fun r => ⟨rfl, rfl, by simp⟩)
  | updateProgress c t p =>
    simp only [GuardedWrite.exec, LifeAI.updateProgress] at h
    split at h
    · cases h
      exact .refl jobs
    · exact guardedJobWrite_kept h (fun r => ⟨rfl, rfl, id⟩)
  | recordDocumentReviewed c t p m ref =>
    exact guardedJobWrite_kept h (fun r => ⟨rfl, rfl, id⟩)
  | recordDocumentSkipped => exact guardedJobWrite_kept h Kept.refl

theorem retryJob_kept {jobs jobs' : List Job} {j : JobId} {loaded : Job}
    (h : retryJob jobs j loaded = .ok jobs') : TableKept jobs jobs' := by
  unfold retryJob at h
  split at h
  · exact absurd h (by simp)
  · next r hr =>
    rw [guard_eq_ok, guard_eq_ok] at h
    obtain ⟨-, -, h⟩ := h
    refine setRow_kept hr h ⟨rfl, rfl, fun hrun => ?_⟩
    -- the status column is `queued` or what the row held
    simp only [dirty] at hrun
    split at hrun
    · exact hrun
    · exact absurd hrun (by simp)

theorem requestCancel_kept {jobs jobs' : List Job} {j : JobId} {loaded : Job}
    (h : requestCancel jobs j loaded = .ok jobs') : TableKept jobs jobs' := by
  unfold requestCancel at h
  split at h
  · exact absurd h (by simp)
  · next r hr =>
    rw [guard_eq_ok] at h
    obtain ⟨-, h⟩ := h
    split at h
    · cases h
      exact .refl jobs
    · exact setRow_kept hr h ⟨rfl, rfl, id⟩

theorem markJobSuperseded_kept {now : Time} {rec : Bool} {jobs jobs' : List Job} {j b : JobId}
    (h : markJobSuperseded now rec jobs j b = .ok jobs') : TableKept jobs jobs' := by
  unfold markJobSuperseded at h
  split at h
  · exact absurd h (by simp)
  · next r hr =>
    split at h
    · exact setRow_kept hr h ⟨rfl, rfl, by simp⟩
    · exact absurd h (by simp)

theorem markJobFailedAfterDecline_kept {now : Time} {rec : Bool} {jobs jobs' : List Job}
    {j : JobId} (h : markJobFailedAfterGovernedRecoveryDecline now rec jobs j = .ok jobs') :
    TableKept jobs jobs' := by
  unfold markJobFailedAfterGovernedRecoveryDecline at h
  split at h
  · exact absurd h (by simp)
  · next r hr =>
    split at h
    · exact setRow_kept hr h ⟨rfl, rfl, by simp⟩
    · exact absurd h (by simp)

/-- what a claim did to the table: the row of the claim got the next generation, the worker and
`running`, every other row stayed -/
def Claimed (jobs jobs' : List Job) (c : Claim) : Prop :=
  ∃ r now secs, jobs[c.job]? = some r ∧ c.generation = r.leaseGeneration + 1 ∧
    jobs' = jobs.set c.job (claimed now c.worker secs r)

theorem claimRow_ok {now : Time} {jobs jobs' : List Job} {j : JobId} {r : Job} {w : String}
    {secs : Nat} {c : Option Claim} (hr : jobs[j]? = some r)
    (h : claimRow now jobs j r w secs = .ok (c, jobs')) :
    c = some ⟨j, w, r.leaseGeneration + 1⟩ ∧ Claimed jobs jobs' ⟨j, w, r.leaseGeneration + 1⟩ := by
  unfold claimRow at h
  obtain ⟨jobs1, h1, h2⟩ := bind_eq_ok.1 h
  cases h2
  exact ⟨rfl, r, now, secs, hr, rfl, (setRow_ok h1).2⟩

/-- **What one operation can do to the claims**: hand out the next generation of one job, or
keep every row. -/
theorem LeaseOp.exec_cases {s : JobDb} {o : LeaseOp} {c : Option Claim} {jobs' : List Job}
    (h : LeaseOp.exec s o = .ok (c, jobs')) :
    (∃ d, c = some d ∧ Claimed s.jobs jobs' d) ∨ (c = none ∧ TableKept s.jobs jobs') := by
  have plain : ∀ x : Except Err (List Job), x.map (none, ·) = .ok (c, jobs') →
      c = none ∧ x = .ok jobs' := by
    intro x hx
    cases x with
    | error e => exact absurd hx (by simp [Except.map])
    | ok a =>
      simp only [Except.map, Except.ok.injEq, Prod.mk.injEq] at hx
      exact ⟨hx.1.symm, by rw [hx.2]⟩
  cases o with
  | tick n =>
    cases h
    exact .inr ⟨rfl, .refl _⟩
  | createJob owner ty refs =>
    cases h
    exact .inr ⟨rfl, .append _ _⟩
  | claimNext w secs locked =>
    simp only [LeaseOp.exec, claimNextMainaiJob] at h
    split at h
    · cases h
      exact .inr ⟨rfl, .refl _⟩
    · split at h
      · cases h
        exact .inr ⟨rfl, .refl _⟩
      · next r hr => exact .inl ⟨_, claimRow_ok hr h⟩
  | claimSpecific j w secs =>
    simp only [LeaseOp.exec, claimSpecificMainaiJob] at h
    split at h
    · cases h
      exact .inr ⟨rfl, .refl _⟩
    · next r hr =>
      split at h
      · exact .inl ⟨_, claimRow_ok hr h⟩
      · cases h
        exact .inr ⟨rfl, .refl _⟩
  | guarded gw j w g => exact .inr ((plain _ h).imp_right GuardedWrite.exec_kept)
  | retryJob j loaded => exact .inr ((plain _ h).imp_right retryJob_kept)
  | requestCancel j loaded => exact .inr ((plain _ h).imp_right requestCancel_kept)
  | markJobSuperseded rec j b => exact .inr ((plain _ h).imp_right markJobSuperseded_kept)
  | markJobFailedAfterDecline rec j =>
    exact .inr ((plain _ h).imp_right markJobFailedAfterDecline_kept)

theorem LeaseOp.step_cases (s : JobDb) (o : LeaseOp) :
    (∃ d, handed (s, o) = some d ∧ Claimed s.jobs (step s o).jobs d) ∨
      (handed (s, o) = none ∧ TableKept s.jobs (step s o).jobs) := by
  cases he : LeaseOp.exec s o with
  | error e =>
    refine .inr ⟨by simp [handed, he], ?_⟩
    simpa [step, he, Except.map] using TableKept.refl s.jobs
  | ok p =>
    obtain ⟨c, jobs'⟩ := p
    have h1 : handed (s, o) = c := by simp [handed, he]
    have h2 : (step s o).jobs = jobs' := by simp [step, he, Except.map]
    rw [h1, h2]
    exact exec_cases he

theorem claimsOf_cons (s : JobDb) (o : LeaseOp) (os : List LeaseOp) :
    claimsOf s (o :: os) = (LeaseOp.handed (s, o)).toList ++ claimsOf (LeaseOp.step s o) os := by
  unfold claimsOf
  rw [Run.trace, List.filterMap_cons]
  cases LeaseOp.handed (s, o) <;> rfl

/-! ## generations increase -/

/-- the job has been claimed up to generation `n` at least -/
def GenAtLeast (j : JobId) (n : Nat) (s : JobDb) : Prop :=
  ∃ r, s.jobs[j]? = some r ∧ n ≤ r.leaseGeneration

/-- a claim reads the generation it hands out off the row, and leaves it there -/
theorem Claimed.row {jobs jobs' : List Job} {c : Claim} (h : Claimed jobs jobs' c) :
    ∃ r, jobs[c.job]? = some r ∧ c.generation = r.leaseGeneration + 1 ∧
      ∃ r', jobs'[c.job]? = some r' ∧ r'.heldBy c.worker c.generation := by
  obtain ⟨r, now, secs, hr, hg, rfl⟩ := h
  refine ⟨r, hr, hg, claimed now c.worker secs r, ?_, ?_⟩
  · rw [getElem?_set_row hr, if_pos rfl]
  · simp [Job.heldBy, claimed, hg]

theorem Claimed.other {jobs jobs' : List Job} {c : Claim} {j : JobId} (h : Claimed jobs jobs' c)
    (hj : c.job ≠ j) : jobs'[j]? = jobs[j]? := by
  obtain ⟨r, now, secs, hr, -, rfl⟩ := h
  rw [getElem?_set_row hr, if_neg hj]

theorem Job.heldBy_iff {r : Job} {w : String} {g : Nat} :
    r.heldBy w g ↔ r.lockedBy = some w ∧ r.leaseGeneration = g ∧ r.status = .running := by
  simp [Job.heldBy]

theorem GenAtLeast.step {j : JobId} {n : Nat} {s : JobDb} (h : GenAtLeast j n s) (o : LeaseOp) :
    GenAtLeast j n (LeaseOp.step s o) := by
  obtain ⟨r, hr, hn⟩ := h
  rcases LeaseOp.step_cases s o with ⟨d, -, hd⟩ | ⟨-, hk⟩
  · by_cases hj : d.job = j
    · subst hj
      obtain ⟨q, hq, hg, r', hr', hh⟩ := hd.row
      rw [hr] at hq
      cases hq
      exact ⟨r', hr', by rw [(Job.heldBy_iff.1 hh).2.1, hg]; omega⟩
    · exact ⟨r, by rw [hd.other hj, hr], hn⟩
  · obtain ⟨r', hr', k⟩ := hk j r hr
    exact ⟨r', hr', by rw [k.generation]; exact hn⟩

theorem claimsOf_gt {j : JobId} {n : Nat} {s : JobDb} {os : List LeaseOp}
    (h : GenAtLeast j n s) : ∀ c ∈ claimsOf s os, c.job = j → n < c.generation := by
  induction os generalizing s with
  | nil => intro c hc; exact absurd hc (by simp [claimsOf, Run.trace])
  | cons o os ih =>
    intro c hc hj
    rw [claimsOf_cons, List.mem_append] at hc
    rcases hc with hc | hc
    · rcases LeaseOp.step_cases s o with ⟨d, hd, hcl⟩ | ⟨hd, -⟩
      · rw [hd] at hc
        obtain rfl : c = d := by simpa using hc
        obtain ⟨q, hq, hg, -⟩ := hcl.row
        obtain ⟨r, hr, hn⟩ := h
        rw [hj, hr] at hq
        cases hq
        omega
      · rw [hd] at hc
        exact absurd hc (by simp)
    · exact ih (h.step o) c hc hj

/-- each claim hands out a greater generation than every earlier one for that job -/
theorem claimsOf_increasing (s : JobDb) (os : List LeaseOp) :
    (claimsOf s os).Pairwise fun a b => a.job = b.job → a.generation < b.generation := by
  induction os generalizing s with
  | nil => exact List.Pairwise.nil
  | cons o os ih =>
    rw [claimsOf_cons]
    rcases LeaseOp.step_cases s o with ⟨d, hd, hcl⟩ | ⟨hd, -⟩
    · rw [hd]
      refine List.pairwise_cons.2 ⟨fun b hb hj => ?_, ih _⟩
      obtain ⟨-, -, -, r', hr', hh⟩ := hcl.row
      exact claimsOf_gt ⟨r', hr', Nat.le_of_eq (Job.heldBy_iff.1 hh).2.1.symm⟩ b hb hj.symm
    · rw [hd]
      exact ih _

/-! ## the fence -/

/-- `(w, g)` is the current claim of the running job `j` -/
def HeldAt (j : JobId) (w : String) (g : Nat) (s : JobDb) : Prop :=
  ∃ r, s.jobs[j]? = some r ∧ r.heldBy w g

/-- the claim of generation `g` is over for good -/
def LostAt (j : JobId) (g : Nat) (s : JobDb) : Prop :=
  ∃ r, s.jobs[j]? = some r ∧ g ≤ r.leaseGeneration ∧
    (r.status = .running → g < r.leaseGeneration)

theorem HeldAt.isRunning {j : JobId} {w : String} {g : Nat} {s : JobDb} (h : HeldAt j w g s) :
    s.isRunning j := by
  obtain ⟨r, hr, hh⟩ := h
  simp [JobDb.isRunning, hr, (Job.heldBy_iff.1 hh).2.2]

theorem LostAt.step {j : JobId} {g : Nat} {s : JobDb} (h : LostAt j g s) (o : LeaseOp) :
    LostAt j g (LeaseOp.step s o) := by
  obtain ⟨r, hr, hg, hrun⟩ := h
  rcases LeaseOp.step_cases s o with ⟨d, -, hd⟩ | ⟨-, hk⟩
  · by_cases hj : d.job = j
    · -- a later claim: the generation passed `g`
      subst hj
      obtain ⟨q, hq, hgen, r', hr', hh⟩ := hd.row
      rw [hr] at hq
      cases hq
      have h1 : r'.leaseGeneration = r.leaseGeneration + 1 := by
        rw [(Job.heldBy_iff.1 hh).2.1, hgen]
      exact ⟨r', hr', by omega, fun _ => by omega⟩
    · exact ⟨r, by rw [hd.other hj, hr], hg, hrun⟩
  · obtain ⟨r', hr', k⟩ := hk j r hr
    refine ⟨r', hr', by rw [k.generation]; exact hg, fun h => ?_⟩
    rw [k.generation]
    exact hrun (k.running h)

theorem LostAt.run {j : JobId} {g : Nat} {s : JobDb} (h : LostAt j g s) (os : List LeaseOp) :
    LostAt j g (Run.run LeaseOp.step s os) := by
  induction os generalizing s with
  | nil => exact h
  | cons o os ih => exact ih (h.step o)

/-- one operation on a held claim: still held by the same generation, or over -/
theorem HeldAt.step {j : JobId} {w : String} {g : Nat} {s : JobDb} (h : HeldAt j w g s)
    (o : LeaseOp) :
    ((∀ c ∈ (LeaseOp.handed (s, o)).toList, c.job ≠ j) ∧ HeldAt j w g (LeaseOp.step s o)) ∨
      (((∃ c ∈ (LeaseOp.handed (s, o)).toList, c.job = j) ∨
        ¬ (LeaseOp.step s o).isRunning j) ∧ LostAt j g (LeaseOp.step s o)) := by
  obtain ⟨r, hr, hh⟩ := h
  obtain ⟨hw, hg, hs⟩ := Job.heldBy_iff.1 hh
  rcases LeaseOp.step_cases s o with ⟨d, hd, hcl⟩ | ⟨hd, hk⟩
  · rw [hd]
    by_cases hj : d.job = j
    · refine .inr ⟨.inl ⟨d, by simp, hj⟩, ?_⟩
      subst hj
      obtain ⟨q, hq, hgen, r', hr', hh'⟩ := hcl.row
      rw [hr] at hq
      cases hq
      have h1 : r'.leaseGeneration = g + 1 := by rw [(Job.heldBy_iff.1 hh').2.1, hgen, hg]
      exact ⟨r', hr', by omega, fun _ => by omega⟩
    · exact .inl ⟨by simpa using hj, r, by rw [hcl.other hj, hr], hh⟩
  · rw [hd]
    obtain ⟨r', hr', k⟩ := hk j r hr
    by_cases hrun : r'.status = .running
    · refine .inl ⟨by simp, r', hr', Job.heldBy_iff.2 ⟨?_, ?_, hrun⟩⟩
      · rw [k.lockedBy, hw]
      · rw [k.generation, hg]
    · refine .inr ⟨.inr ?_, r', hr', ?_, fun h => absurd h hrun⟩
      · simp [JobDb.isRunning, hr', hrun]
      · exact Nat.le_of_eq (hg.symm.trans k.generation.symm)

theorem StillHeld_cons (j : JobId) (s : JobDb) (o : LeaseOp) (os : List LeaseOp) :
    StillHeld j s (o :: os) ↔ s.isRunning j ∧
      (∀ c ∈ (LeaseOp.handed (s, o)).toList, c.job ≠ j) ∧ StillHeld j (LeaseOp.step s o) os := by
  unfold StillHeld
  rw [claimsOf_cons, Run.Always]
  simp only [List.mem_append, or_imp, forall_and]
  tauto

theorem StillHeld.isRunning {j : JobId} {s : JobDb} {os : List LeaseOp} (h : StillHeld j s os) :
    s.isRunning j := by
  cases os with
  | nil => exact h.2
  | cons o os => exact h.2.1

/-- a claim is held at the end of a run exactly if it was held all along it -/
theorem HeldAt.run {j : JobId} {w : String} {g : Nat} {s : JobDb} (h : HeldAt j w g s)
    (os : List LeaseOp) :
    (StillHeld j s os ∧ HeldAt j w g (Run.run LeaseOp.step s os)) ∨
      (¬ StillHeld j s os ∧ LostAt j g (Run.run LeaseOp.step s os)) := by
  induction os generalizing s with
  | nil => exact .inl ⟨⟨by simp [claimsOf, Run.trace], h.isRunning⟩, h⟩
  | cons o os ih =>
    rw [StillHeld_cons, Run.run_cons]
    rcases h.step o with ⟨hc, hh⟩ | ⟨hc, hl⟩
    · rcases ih hh with ⟨h1, h2⟩ | ⟨h1, h2⟩
      · exact .inl ⟨⟨h.isRunning, hc, h1⟩, h2⟩
      · exact .inr ⟨fun hs => h1 hs.2.2, h2⟩
    · refine .inr ⟨fun hs => ?_, hl.run os⟩
      rcases hc with ⟨c, hc, hj⟩ | hrun
      · exact hs.2.1 c hc hj
      · exact hrun hs.2.2.isRunning

theorem GuardedWrite.eq_of_vacuous {gw : GuardedWrite} (hv : gw.vacuous = true) :
    gw = .updateProgress none none none := by
  unfold vacuous at hv
  split at hv
  · rfl
  · exact absurd hv (by simp)

/-- a guarded write with something to set passes its fence exactly when its claim is current -/
theorem GuardedWrite.exec_fence {gw : GuardedWrite} (hv : gw.vacuous = false) (now : Time) :
    ∃ set, ∀ jobs j w g, gw.exec now jobs j w g = guardedJobWrite jobs j w g set := by
  cases gw with
  | updateProgress c t p =>
    refine ⟨_, fun _ _ _ _ => if_neg ?_⟩
    rintro ⟨hc, ht, hp⟩
    rw [Option.isNone_iff_eq_none] at hc ht hp
    subst hc ht hp
    exact absurd hv (by simp [vacuous])
  | _ => exact ⟨_, fun _ _ _ _ => rfl⟩

theorem guardedJobWrite_lost {s : JobDb} {j : JobId} {w : String} {g : Nat} {set : Job → Job}
    (h : LostAt j g s) :
    guardedJobWrite s.jobs j w g set = .error (.jobLeaseLost j w g) := by
  obtain ⟨r, hr, -, hrun⟩ := h
  unfold guardedJobWrite
  rw [hr]
  have hn : ¬ r.heldBy w g := by
    rw [Job.heldBy_iff]
    rintro ⟨-, hg, hs⟩
    have := hrun hs
    omega
  exact if_neg hn

theorem guardedJobWrite_held {s : JobDb} {j : JobId} {w : String} {g : Nat} (set : Job → Job)
    (h : HeldAt j w g s) :
    guardedJobWrite s.jobs j w g set ≠ .error (.jobLeaseLost j w g) := by
  obtain ⟨r, hr, hh⟩ := h
  unfold guardedJobWrite
  rw [hr]
  simp only [hh, if_true]
  intro he
  obtain ⟨c, hc⟩ := setRow_error he
  exact absurd hc (by simp)

/-- no guarded write, current or not, touches the row of another job -/
theorem GuardedWrite.other {s : JobDb} {gw : GuardedWrite} {i j : JobId} {w : String} {g : Nat}
    (hi : i ≠ j) :
    (LeaseOp.step s (.guarded gw j w g)).jobs[i]? = s.jobs[i]? := by
  have hset : ∀ set, (transact s.jobs (guardedJobWrite s.jobs j w g set))[i]? = s.jobs[i]? := by
    intro set
    cases he : guardedJobWrite s.jobs j w g set with
    | error e => rfl
    | ok jobs' =>
      obtain ⟨r, hr, -, rfl⟩ := guardedJobWrite_ok he
      rw [transact_ok, getElem?_set_row hr, if_neg (Ne.symm hi)]
  have hstep : (LeaseOp.step s (.guarded gw j w g)).jobs
      = transact s.jobs (gw.exec s.now s.jobs j w g) := by
    simp only [LeaseOp.step, LeaseOp.exec]
    cases gw.exec s.now s.jobs j w g <;> rfl
  rw [hstep]
  cases hv : gw.vacuous with
  | false =>
    obtain ⟨set, hs⟩ := GuardedWrite.exec_fence hv s.now
    rw [hs]
    exact hset set
  | true =>
    obtain rfl := eq_of_vacuous hv
    rfl

/-- **Lease fencing.**  From any table and along any run, the generations of a job's claims
increase; and a guarded write with something to set, made at the end of the run by the holder
of a claim handed out in it, is refused with `JobLeaseLostError` exactly if the claim is not
still held, and then changes nothing. -/
theorem lease_fencing (s : JobDb) (os : List LeaseOp) :
    ((claimsOf s os).Pairwise fun a b => a.job = b.job → a.generation < b.generation) ∧
    ∀ pre o mid c, os = pre ++ o :: mid →
      LeaseOp.handed (Run.run LeaseOp.step s pre, o) = some c →
      ∀ gw : GuardedWrite,
        let held := StillHeld c.job (Run.run LeaseOp.step s (pre ++ [o])) mid
        let t := Run.run LeaseOp.step s os
        let write := LeaseOp.guarded gw c.job c.worker c.generation
        (gw.vacuous = false →
          (LeaseOp.exec t write = .error (.jobLeaseLost c.job c.worker c.generation) ↔ ¬ held)) ∧
        (¬ held → LeaseOp.step t write = t) ∧
        (∀ i, i ≠ c.job → (LeaseOp.step t write).jobs[i]? = t.jobs[i]?) := by
  refine ⟨claimsOf_increasing s os, ?_⟩
  intro pre o mid c hos hc gw held t write
  -- the claim is held right after it was handed out
  have hsplit : t = Run.run LeaseOp.step (Run.run LeaseOp.step s (pre ++ [o])) mid := by
    rw [← Run.run_append, List.append_assoc]
    exact congrArg (Run.run LeaseOp.step s) hos
  have h1 : HeldAt c.job c.worker c.generation (Run.run LeaseOp.step s (pre ++ [o])) := by
    rw [Run.run_append, Run.run_cons, Run.run_nil]
    rcases LeaseOp.step_cases (Run.run LeaseOp.step s pre) o with ⟨d, hd, hcl⟩ | ⟨hd, -⟩
    · rw [hc] at hd
      cases hd
      obtain ⟨-, -, -, r', hr', hh⟩ := hcl.row
      exact ⟨r', hr', hh⟩
    · rw [hc] at hd
      exact absurd hd (by simp)
  have h2 := h1.run mid
  rw [← hsplit] at h2
  have hexec : ∀ set, gw.exec t.now t.jobs c.job c.worker c.generation
      = guardedJobWrite t.jobs c.job c.worker c.generation set →
      (LeaseOp.exec t write = .error (.jobLeaseLost c.job c.worker c.generation) ↔ ¬ held) := by
    intro set hset
    simp only [write, LeaseOp.exec, hset]
    rcases h2 with ⟨hh, hat⟩ | ⟨hh, hat⟩
    · have hne := guardedJobWrite_held set hat
      refine ⟨fun he => absurd ?_ hne, fun hn => absurd hh hn⟩
      cases hg : guardedJobWrite t.jobs c.job c.worker c.generation set with
      | error e => simpa [hg, Except.map] using he
      | ok jobs' => simp [hg, Except.map] at he
    · rw [guardedJobWrite_lost hat]
      exact ⟨fun _ => hh, fun _ => rfl⟩
  refine ⟨fun hv => ?_, fun hn => ?_, fun i hi => GuardedWrite.other hi⟩
  · obtain ⟨set, hset⟩ := GuardedWrite.exec_fence hv t.now
    exact hexec set (hset ..)
  · cases hv : gw.vacuous with
    | false =>
      obtain ⟨set, hset⟩ := GuardedWrite.exec_fence hv t.now
      have he := (hexec set (hset ..)).2 hn
      simp only [write] at he ⊢
      simp [LeaseOp.step, he, Except.map]
    | true =>
      obtain rfl := GuardedWrite.eq_of_vacuous hv
      rfl

/-- a first claim expires, a second worker reclaims the job -/
def reclaimed : List LeaseOp :=
  [.createJob 0 .corpusReview [], .claimNext "worker-1" 60 [], .tick 61,
    .claimNext "worker-2" 60 []]

theorem lease_fencing_reclaimed :
    LeaseOp.exec (Run.run LeaseOp.step {} reclaimed) (.guarded .recordClaimed 0 "worker-1" 1)
      = .error (.jobLeaseLost 0 "worker-1" 1) := by
  have h := ((lease_fencing {} reclaimed).2 [.createJob 0 .corpusReview []]
    (.claimNext "worker-1" 60 []) [.tick 61, .claimNext "worker-2" 60 []] ⟨0, "worker-1", 1⟩ rfl
    (by decide) .recordClaimed).1 (by decide)
  exact h.2 fun held => held.1 ⟨0, "worker-2", 2⟩ (by decide) rfl

/-- the stale holder's `update_progress` with nothing to set returns as if nothing were wrong -/
theorem updateProgress_unfenced :
    let s := Run.run LeaseOp.step {} reclaimed
    LeaseOp.handed (Run.run LeaseOp.step {} (reclaimed.take 1), .claimNext "worker-1" 60 [])
        = some ⟨0, "worker-1", 1⟩ ∧
      ¬ StillHeld 0 (Run.run LeaseOp.step {} (reclaimed.take 2)) (reclaimed.drop 2) ∧
      LeaseOp.exec s (.guarded (.updateProgress none none none) 0 "worker-1" 1)
        = .ok (none, s.jobs) := by
  refine ⟨by decide, ?_, by decide⟩
  exact fun held => held.1 ⟨0, "worker-2", 2⟩ (by decide) rfl

end LifeAI
