import LifeAI.Review.Job
import Mathlib.Data.List.Perm.Subperm

/-!
# A review that is taken up again

* `Goes`            how a run goes on, one case for each way;
* `Reviews`         what a step of a run does to its job and to the proposals;
* `review_resumes`  along a run of the system every step does so, exactly if no document is
                    reviewed again and no start of a run finds more progress than sources.
-/

namespace LifeAI.Review

variable {env : Env} {db : JobDb} {w w' : Corpus} {c : Claim} {st st' : Stage} {jobs : List Job}
  {next : Option Stage} {n : Tally} {r r' : Job} {d : DocId}

/-! ## one step of a run -/

def Stage.tally : Stage → Option Tally
  | .reviewing n _ | .renewing n _ _ | .fetching n _ _ | .asking n _ _ | .skipping n _
  | .recording n _ _ _ | .ending n | .completing n => some n
  | _ => none

/-- the documents that a run has before it -/
def Stage.rest : Stage → List DocId
  | .reviewing _ rest | .skipping _ rest => rest
  | .renewing _ d rest | .fetching _ d rest | .asking _ d rest | .recording _ d rest _ => d :: rest
  | _ => []

/-- the progress of the job is where the run stands -/
def InStep (_ : Corpus) (_ : Claim) (st : Stage) (r : Job) : Prop :=
  ∀ n ∈ st.tally, r.progressCurrent = n.reviewed

/-- what the proposals are about -/
def Corpus.about (w : Corpus) : List (JobId × DocId) := w.proposals.map fun p => (p.jobId, p.document)

/-- the proposals of a job -/
def Corpus.countOf (w : Corpus) (j : JobId) : Nat := w.about.countP (·.1 = j)

/-- what holds of a run, also of one that has lost its lease -/
structure Sane (w : Corpus) (jobs : List Job) (c : Claim) (st : Stage) : Prop where
  reviewed : ∀ n ∈ st.tally, n.reviewed ≤ w.countOf c.job
  total : ∀ n ∈ st.tally, ∀ r, jobs[c.job]? = some r → n.total = r.documentIds.length
  rest : ∀ d ∈ st.rest, ∀ r, jobs[c.job]? = some r → d ∈ r.documentIds
  completing : ∀ n, st = .completing n → 0 < n.providerFailed → 0 < n.reviewed

/-- the progress that a run is about to write: `current` and `total` -/
def writes (db : JobDb) (w : Corpus) (c : Claim) : Stage → Option (Nat × Nat)
  | .starting => (db.jobs[c.job]?).map fun r =>
    ((alreadyReviewedDocumentIds w c.job).length, r.documentIds.length)
  | .recording n d _ _ => (w.document d).map fun _ => (n.reviewed + 1, n.total)
  | _ => none

/-- the reads between two transactions -/
inductive Reads (w : Corpus) : Stage → Stage → Prop
  | through (n : Tally) : Reads w (.reviewing n []) (.ending n)
  | done (n : Tally) (d : DocId) (rest : List DocId) (h : some d ∈ n.already) :
      Reads w (.reviewing n (d :: rest)) (.reviewing n rest)
  | cancel (n : Tally) (d : DocId) (rest : List DocId) :
      Reads w (.reviewing n (d :: rest)) .cancelling
  | next (n : Tally) (d : DocId) (rest : List DocId) :
      Reads w (.reviewing n (d :: rest)) (.renewing n d rest)
  | deleted (n : Tally) (d : DocId) (rest : List DocId) : Reads w (.fetching n d rest)
      (.skipping { n with skippedDeleted := n.skippedDeleted + 1 } rest)
  | unavailable (n : Tally) (d : DocId) (rest : List DocId) : Reads w (.fetching n d rest)
      (.skipping { n with unavailable := n.unavailable + 1 } rest)
  | fetched (n : Tally) (d : DocId) (rest : List DocId) :
      Reads w (.fetching n d rest) (.asking n d rest)
  | failed (n : Tally) (d : DocId) (rest : List DocId) : Reads w (.asking n d rest)
      (.skipping { n with providerFailed := n.providerFailed + 1 } rest)
  | replied (n : Tally) (d : DocId) (rest : List DocId) (reply : Reply) :
      Reads w (.asking n d rest) (.recording n d rest reply)
  | raised (n : Tally) (d : DocId) (rest : List DocId) (e : Err) :
      Reads w (.asking n d rest) (.failing e)
  | gone (n : Tally) (d : DocId) (rest : List DocId) (reply : Reply) (e : Err)
      (h : w.document d = none) : Reads w (.recording n d rest reply) (.failing e)
  | unreviewed (n : Tally) : Reads w (.ending n) .unreviewed
  | complete (n : Tally) (h : 0 < n.providerFailed → 0 < n.reviewed) :
      Reads w (.ending n) (.completing n)

/-- the writes of the holder that leave the progress alone -/
inductive Keeps : Stage → Stage → Prop
  | claimed : Keeps .claiming .starting
  | declined : Keeps .claiming .declining
  | renewed (n : Tally) (d : DocId) (rest : List DocId) :
      Keeps (.renewing n d rest) (.fetching n d rest)
  | skipped (n : Tally) (rest : List DocId) : Keeps (.skipping n rest) (.reviewing n rest)

/-- the last write of a run -/
inductive Closes : Stage → JobStatus → Prop
  | declined : Closes .declining .failed
  | cancelled : Closes .cancelling .cancelled
  | unreviewed : Closes .unreviewed .failed
  | completed (n : Tally) : Closes (.completing n) .completed
  | failed (e : Err) : Closes (.failing e) .failed

/-- the row after the initial progress -/
def started (r : Job) (n : Tally) : Job :=
  { r with
    progressCurrent := n.reviewed
    progressTotal := some n.total
    currentPhase := some "reviewing" }

/-- the row after a review -/
def recorded (r : Job) (n : Tally) (reply : Reply) (ref : Nat) : Job :=
  { r with
    progressCurrent := n.reviewed + 1
    progressTotal := some n.total
    currentPhase := some "reviewing"
    provider := some reply.provider
    model := some reply.model
    outputRefs := r.outputRefs ++ [ref] }

inductive Goes (db : JobDb) (w : Corpus) (c : Claim) :
    Stage → List Job → Corpus → Option Stage → Prop
  | lost (st : Stage) (h : ∀ r, ¬ c.Held db.jobs r) : Goes db w c st db.jobs w none
  | reads {st st' : Stage} (h : Reads w st st') : Goes db w c st db.jobs w (some st')
  | keeps {r r' : Job} {st st' : Stage} (held : c.Held db.jobs r) (h : Keeps st st')
      (hq : Quiet r r') : Goes db w c st (db.jobs.set c.job r') w (some st')
  | starts {r : Job} (held : c.Held db.jobs r) :
      Goes db w c .starting (db.jobs.set c.job (started r (.start w c.job r))) w
        (some (.reviewing (.start w c.job r) r.documentIds))
  | records {r : Job} (n : Tally) (d : DocId) (rest : List DocId) (reply : Reply)
      (held : c.Held db.jobs r) (h : (w.document d).isSome) :
      Goes db w c (.recording n d rest reply)
        (db.jobs.set c.job (recorded r n reply w.proposals.length))
        { w with proposals := w.proposals ++ [proposal r c.job d reply] }
        (some (.reviewing { n with reviewed := n.reviewed + 1 } rest))
  | closes {r r' : Job} {st : Stage} (held : c.Held db.jobs r) (h : Closes st r'.status)
      (hq : Quiet r r') : Goes db w c st (db.jobs.set c.job r') w none

/-- the database takes the progress that a run is about to write -/
def Accepted (db : JobDb) (w : Corpus) (c : Claim) (st : Stage) : Prop :=
  ∀ p ∈ writes db w c st, ∀ r, c.Held db.jobs r → r.progressCurrent ≤ p.1 ∧ p.1 ≤ p.2

theorem checks_of_progress (h : r.checks) (hle : r'.progressCurrent ≤ n.total)
    (ht : r'.progressTotal = some n.total) (hst : r'.status = r.status)
    (hstart : r'.startedAt = r.startedAt) (hc : r'.completedAt = r.completedAt)
    (hretry : r'.retryCount = r.retryCount) (hmax : r'.maxRetries = r.maxRetries)
    (hby : r'.supersededByJobId = r.supersededByJobId) : r'.checks := by
  simp only [Job.checks, decide_eq_true_eq] at h ⊢
  rw [ht, hst, hstart, hc, hretry, hmax, hby]
  obtain ⟨hterm, hstarted, -, hret, hsup⟩ := h
  refine ⟨hterm, hstarted, fun m hm => ?_, hret, hsup⟩
  obtain rfl := Option.some.inj hm
  exact hle

theorem started_checks (h : r.checks) (hle : n.reviewed ≤ n.total) : (started r n).checks :=
  checks_of_progress h hle rfl rfl rfl rfl rfl rfl rfl

theorem recorded_checks {reply : Reply} {ref : Nat} (h : r.checks) (hle : n.reviewed + 1 ≤ n.total) :
    (recorded r n reply ref).checks :=
  checks_of_progress h hle rfl rfl rfl rfl rfl rfl rfl

/-- **How a run goes on.** -/
theorem goes (env : Env) (st : Stage) (hchecks : ∀ r ∈ db.jobs, r.checks)
    (haccepted : Accepted db w c st) :
    ∃ jobs w' next, step env db w c st = (jobs, w', next) ∧ Goes db w c st jobs w' next := by
  have hheld : ∀ {r}, c.Held db.jobs r → r.checks := fun hr => hchecks _ (List.mem_of_getElem? hr.1)
  have write : ∀ {set : Job → Job} {w' : Corpus} (next : Option Stage),
      (∀ r, c.Held db.jobs r → (set r).checks) →
      (∀ r, c.Held db.jobs r → r.progressCurrent ≤ (set r).progressCurrent) →
      (∀ r, c.Held db.jobs r → Goes db w c st (db.jobs.set c.job (set r)) w' next) →
      ∃ jobs w'' next', fenced db.jobs w (guardedJobWrite db.jobs c.job c.worker c.generation set) w'
          next .failing = (jobs, w'', next') ∧ Goes db w c st jobs w'' next' := by
    intro set w' next hset hkept hgoes
    rcases fenced_cases w w' next Stage.failing hset
      (fun r hr => (progressKept_running hr.running).2 (hkept r hr)) with ⟨hlost, h⟩ | ⟨r, hr, h⟩
    · exact ⟨_, _, none, h, .lost st hlost⟩
    · exact ⟨_, _, next, h, hgoes r hr⟩
  have reads : ∀ {st'}, Reads w st st' → ∃ jobs w' next,
      (db.jobs, w, some st') = (jobs, w', next) ∧ Goes db w c st jobs w' next :=
    fun h => ⟨_, _, _, rfl, .reads h⟩
  have noRow : db.jobs[c.job]? = none → ∃ jobs w' next,
      (db.jobs, w, none) = (jobs, w', next) ∧ Goes db w c st jobs w' next := by
    intro hnone
    refine ⟨_, _, none, rfl, .lost st fun r hr => ?_⟩
    rw [hr.1] at hnone
    cases hnone
  have closes : ∀ {status} {x : List Job → JobId → String → Nat → Except Err (List Job)},
      EndsWith status x → Closes st status →
      ∃ jobs w' next, fenced db.jobs w (x db.jobs c.job c.worker c.generation) w none .failing =
          (jobs, w', next) ∧ Goes db w c st jobs w' next := by
    intro status x hx hcl
    rcases hx.fenced_cases hchecks w Stage.failing with ⟨hlost, h⟩ | ⟨r, r', hr, hq, hst, h⟩
    · exact ⟨_, _, none, h, .lost st hlost⟩
    · exact ⟨_, _, none, h, .closes hr (hst ▸ hcl) hq⟩
  cases st with
  | claiming =>
    refine write _ (fun r hr => hheld hr) (fun r _ => Nat.le_refl _) fun r hr => ?_
    cases env.capability with
    | true => exact .keeps hr .claimed ⟨hheld hr, rfl, rfl, rfl⟩
    | false => exact .keeps hr .declined ⟨hheld hr, rfl, rfl, rfl⟩
  | declining => exact closes (markFailed_ends db.now _) .declined
  | starting =>
    unfold step
    dsimp only
    split
    · next hnone => exact noRow hnone
    · next q hq =>
      have hrow : ∀ r, c.Held db.jobs r → r = q ∧ r.progressCurrent ≤ (Tally.start w c.job q).reviewed ∧
          (Tally.start w c.job q).reviewed ≤ (Tally.start w c.job q).total := by
        intro r hr
        refine ⟨Option.some.inj (hr.1.symm.trans hq), haccepted (_, _) ?_ r hr⟩
        show (db.jobs[c.job]?).map _ = _
        rw [hq]
        rfl
      refine write (some _) (fun r hr => started_checks (hheld hr) (hrow r hr).2.2)
        (fun r hr => (hrow r hr).2.1) fun r hr => ?_
      obtain rfl := (hrow r hr).1
      exact .starts hr
  | reviewing n rest =>
    cases rest with
    | nil => exact reads (.through n)
    | cons d rest =>
      unfold step
      dsimp only
      split
      · next h => exact reads (.done n d rest h)
      · split
        · next hnone => exact noRow hnone
        · split
          · exact reads (.cancel n d rest)
          · exact reads (.next n d rest)
  | cancelling => exact closes (markCancelled_ends db.now) .cancelled
  | renewing n d rest =>
    exact write (some _) (fun r hr => (hheld hr : r.checks)) (fun r _ => Nat.le_refl _)
      fun r hr => .keeps hr (.renewed n d rest) ⟨(hheld hr : r.checks), rfl, rfl, rfl⟩
  | fetching n d rest =>
    unfold step
    dsimp only
    split
    · exact reads (.deleted n d rest)
    · split
      · exact reads (.unavailable n d rest)
      · exact reads (.fetched n d rest)
  | asking n d rest =>
    unfold step
    dsimp only
    split
    · next reply _ => exact reads (.replied n d rest reply)
    · exact reads (.failed n d rest)
    · exact reads (.failed n d rest)
    · exact reads (.raised n d rest _)
  | skipping n rest =>
    exact write (some _) (fun r hr => hheld hr) (fun r _ => Nat.le_refl _)
      fun r hr => .keeps hr (.skipped n rest) ⟨hheld hr, rfl, rfl, rfl⟩
  | recording n d rest reply =>
    unfold step
    dsimp only
    split
    · next hnone => exact noRow hnone
    · next hnone => exact reads (.gone n d rest reply _ hnone)
    · next q doc hq hdoc =>
      have hrow : ∀ r, c.Held db.jobs r → r = q ∧ r.progressCurrent ≤ n.reviewed + 1 ∧
          n.reviewed + 1 ≤ n.total := by
        intro r hr
        refine ⟨Option.some.inj (hr.1.symm.trans hq), haccepted (_, _) ?_ r hr⟩
        show (w.document d).map _ = _
        rw [hdoc]
        rfl
      refine write (some _) (fun r hr => recorded_checks (hheld hr) (hrow r hr).2.2)
        (fun r hr => (hrow r hr).2.1) fun r hr => ?_
      obtain rfl := (hrow r hr).1
      exact .records n d rest reply hr (by rw [hdoc]; rfl)
  | ending n =>
    unfold step
    dsimp only
    split
    · next hnone => exact noRow hnone
    · next q hq =>
      split
      · next hst =>
        refine ⟨_, _, none, rfl, .lost _ fun r hr => hst ?_⟩
        rw [← Option.some.inj (hr.1.symm.trans hq)]
        exact hr.running
      · split
        · exact reads (.unreviewed n)
        · next h => exact reads (.complete n fun hf => Nat.pos_of_ne_zero fun hz => h ⟨hz, hf⟩)
  | unreviewed => exact closes (markFailed_ends db.now _) .unreviewed
  | completing n => exact closes (markCompleted_ends db.now _) (.completed n)
  | failing e =>
    rcases (markFailed_ends db.now .unexpected).transact_cases hchecks with
      ⟨hlost, h⟩ | ⟨r, r', hr, hq, hst, h⟩
    · exact ⟨_, _, none, Prod.ext h rfl, .lost _ hlost⟩
    · exact ⟨_, _, none, Prod.ext h rfl, .closes hr (hst ▸ .failed e) hq⟩

/-! ## what the steps keep -/

theorem about_append (p : Proposal) :
    ({ w with proposals := w.proposals ++ [p] } : Corpus).about = w.about ++ [(p.jobId, p.document)] := by
  simp [Corpus.about]

theorem countOf_append (p : Proposal) (j : JobId) :
    ({ w with proposals := w.proposals ++ [p] } : Corpus).countOf j =
      w.countOf j + if p.jobId = j then 1 else 0 := by
  unfold Corpus.countOf
  rw [about_append, List.countP_append, List.countP_singleton]
  simp

/-- the documents that are gone count once -/
theorem already_le_countOf (w : Corpus) (j : JobId) :
    (alreadyReviewedDocumentIds w j).length ≤ w.countOf j := by
  have hle := (List.dedup_sublist ((w.proposals.filter (·.jobId = j)).map (·.sourceDocumentId))).length_le
  rw [List.length_map, ← List.countP_eq_length_filter] at hle
  unfold Corpus.countOf Corpus.about
  rw [List.countP_map]
  exact hle

theorem Sane.mono {jobs' : List Job} (h : Sane w jobs c st) (hcount : w.countOf c.job ≤ w'.countOf c.job)
    (hrow : ∃ r r', jobs[c.job]? = some r ∧ jobs'[c.job]? = some r' ∧ r'.inputRefs = r.inputRefs) :
    Sane w' jobs' c st := by
  obtain ⟨r, r', hr, hr', hrefs⟩ := hrow
  have hids : ∀ q, jobs'[c.job]? = some q → q.documentIds = r.documentIds := by
    intro q hq
    obtain rfl := Option.some.inj (hr'.symm.trans hq)
    unfold Job.documentIds
    rw [hrefs]
  refine ⟨fun n hn => Nat.le_trans (h.reviewed n hn) hcount, fun n hn q hq => ?_, fun d hd q hq => ?_,
    h.completing⟩
  · rw [hids q hq]
    exact h.total n hn r hr
  · rw [hids q hq]
    exact h.rest d hd r hr

theorem Sane.idle (hn : st.tally = none) (hrest : st.rest = []) (hst : ∀ n, st ≠ .completing n) :
    Sane w jobs c st := by
  refine ⟨fun n h => ?_, fun n h => ?_, fun d h => ?_, fun n h => absurd h (hst n)⟩
  · rw [hn] at h
    cases h
  · rw [hn] at h
    cases h
  · rw [hrest] at h
    cases h

/-- the reads count only what was not reviewed -/
theorem Reads.tally (h : Reads w st st') : ∀ m ∈ st'.tally, ∃ n ∈ st.tally,
    m.reviewed = n.reviewed ∧ m.total = n.total := by
  intro m hm
  cases h with
  | cancel n d rest | raised n d rest e | gone n d rest reply e h | unreviewed n => cases hm
  | through n | done n d rest h | next n d rest | deleted n d rest | unavailable n d rest
  | fetched n d rest | failed n d rest | replied n d rest reply | complete n h =>
    obtain rfl := Option.some.inj hm
    exact ⟨n, rfl, rfl, rfl⟩

theorem Reads.rest (h : Reads w st st') : ∀ d ∈ st'.rest, d ∈ st.rest := by
  intro e he
  cases h with
  | done n d rest h | deleted n d rest | unavailable n d rest | failed n d rest =>
    exact List.mem_cons_of_mem d he
  | next n d rest | fetched n d rest | replied n d rest reply => exact he
  | _ => cases he

theorem Reads.sane (h : Reads w st st') (hs : Sane w jobs c st) : Sane w jobs c st' := by
  refine ⟨fun m hm => ?_, fun m hm r hr => ?_, fun d hd => hs.rest d (h.rest d hd), fun n hn => ?_⟩
  · obtain ⟨n, hn, hrev, -⟩ := h.tally m hm
    rw [hrev]
    exact hs.reviewed n hn
  · obtain ⟨n, hn, -, htot⟩ := h.tally m hm
    rw [htot]
    exact hs.total n hn r hr
  · cases h with
    | complete m hm =>
      cases hn
      exact hm
    | _ => cases hn

theorem Goes.countOf (h : Goes db w c st jobs w' next) (j : JobId) : w.countOf j ≤ w'.countOf j := by
  cases h with
  | records n d rest reply held h =>
    rw [countOf_append]
    exact Nat.le_add_right _ _
  | _ => exact Nat.le_refl _

theorem Goes.ownWrite (h : Goes db w c st jobs w' next) (hchecks : ∀ r ∈ db.jobs, r.checks)
    (haccepted : Accepted db w c st) : HandlerSys.OwnWrite db.jobs c jobs := by
  have hheld : ∀ {r}, c.Held db.jobs r → r.checks := fun hr => hchecks _ (List.mem_of_getElem? hr.1)
  cases h with
  | lost st h | reads h => exact .inl rfl
  | keeps held h hq | closes held h hq =>
    exact .inr ⟨_, _, held, rfl, hq.checks, hq.generation, hq.refs⟩
  | starts held =>
    refine .inr ⟨_, _, held, rfl, started_checks (hheld held) ?_, rfl, rfl⟩
    refine (haccepted (_, _) ?_ _ held).2
    show (db.jobs[c.job]?).map _ = _
    rw [held.1]
    rfl
  | records n d rest reply held h =>
    refine .inr ⟨_, _, held, rfl, recorded_checks (hheld held) ?_, rfl, rfl⟩
    obtain ⟨doc, hdoc⟩ := Option.isSome_iff_exists.1 h
    refine (haccepted (_, _) ?_ _ held).2
    show (w.document d).map _ = _
    rw [hdoc]
    rfl

theorem Goes.inStep (h : Goes db w c st jobs w' (some st'))
    (hrow : ∀ r, c.Held db.jobs r → InStep w c st r) : ∀ r, c.Held jobs r → InStep w' c st' r := by
  intro q hq m hm
  cases h with
  | reads h =>
    obtain ⟨n, hn, hrev, -⟩ := h.tally m hm
    rw [hrev]
    exact hrow q hq n hn
  | keeps held h hquiet =>
    rw [held.set hq, hquiet.current]
    cases h with
    | claimed | declined => cases hm
    | renewed n d rest | skipped n rest => exact hrow _ held m hm
  | starts held | records n d rest reply held h =>
    obtain rfl := Option.some.inj hm
    rw [held.set hq]
    rfl

theorem Goes.sane (h : Goes db w c st jobs w' (some st')) (hs : Sane w db.jobs c st) :
    Sane w' db.jobs c st' := by
  cases h with
  | reads h => exact h.sane hs
  | keeps held h hq =>
    cases h with
    | claimed | declined => exact .idle rfl rfl fun _ h => nomatch h
    | renewed n d rest | skipped n rest =>
      exact ⟨hs.reviewed, hs.total, hs.rest, fun _ h => nomatch h⟩
  | starts held =>
    refine ⟨fun m hm => ?_, fun m hm r hr => ?_, fun d hd r hr => ?_, fun _ h => nomatch h⟩
    · obtain rfl := Option.some.inj hm
      exact already_le_countOf w c.job
    · obtain rfl := Option.some.inj hm
      rw [← Option.some.inj (held.1.symm.trans hr)]
      rfl
    · rw [← Option.some.inj (held.1.symm.trans hr)]
      exact hd
  | records n d rest reply held h =>
    refine ⟨fun m hm => ?_, fun m hm => ?_, fun e he => hs.rest e (List.mem_cons_of_mem d he),
      fun _ h => nomatch h⟩
    · obtain rfl := Option.some.inj hm
      rw [countOf_append, if_pos (show (proposal _ c.job d reply).jobId = c.job from rfl)]
      exact Nat.succ_le_succ (hs.reviewed n rfl)
    · obtain rfl := Option.some.inj hm
      exact hs.total n rfl

/-! ## proposals -/

/-- every proposal is about a document of its job -/
def Corpus.Within (w : Corpus) (jobs : List Job) : Prop :=
  ∀ a ∈ w.about, ∃ r, jobs[a.1]? = some r ∧ a.2 ∈ r.documentIds

/-- the documents of a job that have a proposal -/
def Corpus.documentsOf (w : Corpus) (j : JobId) : List DocId :=
  (w.about.filter (·.1 = j)).map (·.2)

theorem length_documentsOf (w : Corpus) (j : JobId) : (w.documentsOf j).length = w.countOf j := by
  unfold Corpus.documentsOf Corpus.countOf
  rw [List.length_map, List.countP_eq_length_filter]

theorem mem_documentsOf {j : JobId} : d ∈ w.documentsOf j ↔ (j, d) ∈ w.about := by
  simp [Corpus.documentsOf]

theorem nodup_documentsOf (h : w.about.Nodup) (j : JobId) : (w.documentsOf j).Nodup := by
  refine (List.nodup_map_iff_inj_on (h.sublist List.filter_sublist)).2 fun a ha b hb hab => ?_
  have hj : ∀ {a}, a ∈ w.about.filter (·.1 = j) → a.1 = j := fun ha => by
    simpa using (List.mem_filter.1 ha).2
  exact Prod.ext ((hj ha).trans (hj hb).symm) hab

theorem documentsOf_subset (h : w.Within jobs) {j : JobId} (hr : jobs[j]? = some r) :
    w.documentsOf j ⊆ r.documentIds := by
  intro d hd
  obtain ⟨q, hq, hmem⟩ := h (j, d) (mem_documentsOf.1 hd)
  rw [hr] at hq
  rwa [Option.some.inj hq]

/-- one proposal for a document at most, so no more of them than documents -/
theorem countOf_le (hnodup : w.about.Nodup) (h : w.Within jobs) {j : JobId}
    (hr : jobs[j]? = some r) : w.countOf j ≤ r.documentIds.length := by
  rw [← length_documentsOf]
  exact ((nodup_documentsOf hnodup j).subperm (documentsOf_subset h hr)).length_le

/-- and less, while a document has none -/
theorem countOf_lt (hnodup : w.about.Nodup) (h : w.Within jobs) {j : JobId}
    (hr : jobs[j]? = some r) (hd : d ∈ r.documentIds) (hnew : (j, d) ∉ w.about) :
    w.countOf j + 1 ≤ r.documentIds.length := by
  rw [← length_documentsOf]
  have hcons : (d :: w.documentsOf j).Nodup :=
    List.nodup_cons.2 ⟨fun hmem => hnew (mem_documentsOf.1 hmem), nodup_documentsOf hnodup j⟩
  have hsub : d :: w.documentsOf j ⊆ r.documentIds := by
    intro e he
    rcases List.mem_cons.1 he with rfl | he
    · exact hd
    · exact documentsOf_subset h hr he
  exact (hcons.subperm hsub).length_le

theorem Corpus.Within.rows {jobs' : List Job} (h : w.Within jobs)
    (hrows : ∀ {j : JobId} {r : Job}, jobs[j]? = some r →
      ∃ r', jobs'[j]? = some r' ∧ r'.inputRefs = r.inputRefs) : w.Within jobs' := by
  intro a ha
  obtain ⟨r, hr, hmem⟩ := h a ha
  obtain ⟨r', hr', hrefs⟩ := hrows hr
  refine ⟨r', hr', ?_⟩
  unfold Job.documentIds
  rw [hrefs]
  exact hmem

theorem Goes.distinct (h : Goes db w c st jobs w' next) (hnodup : w.about.Nodup)
    (hnew : ∀ n d rest reply, st = .recording n d rest reply → (w.document d).isSome →
      ∀ r, c.Held db.jobs r → (c.job, d) ∉ w.about) : w'.about.Nodup := by
  cases h with
  | records n d rest reply held h =>
    rw [about_append]
    refine List.nodup_append.2 ⟨hnodup, List.nodup_singleton _, fun a ha b hb hab => ?_⟩
    obtain rfl := List.mem_singleton.1 hb
    exact hnew n d rest reply rfl h _ held (hab ▸ ha)
  | _ => exact hnodup

theorem Goes.within (h : Goes db w c st jobs w' next) (hs : Sane w db.jobs c st)
    (hw : w.Within db.jobs) : w'.Within db.jobs := by
  cases h with
  | @records r n d rest reply held h =>
    intro a ha
    rw [about_append] at ha
    rcases List.mem_append.1 ha with ha | ha
    · exact hw a ha
    · obtain rfl := List.mem_singleton.1 ha
      exact ⟨r, held.1, hs.rest d List.mem_cons_self r held.1⟩
  | _ => exact hw

theorem outside_about (o : Outside) : (outside w o).about = w.about := by
  cases o with
  | createDocument d => rfl
  | editDocument id d =>
    unfold outside
    dsimp only
    split <;> rfl
  | deleteDocument id =>
    unfold Corpus.about outside
    dsimp only
    rw [List.map_map]
    refine List.map_congr_left fun p _ => ?_
    simp only [Function.comp]
    split <;> rfl

theorem outside_countOf (o : Outside) (j : JobId) : (outside w o).countOf j = w.countOf j := by
  unfold Corpus.countOf
  rw [outside_about]

/-! ## runs -/

variable {s t : HandlerSys Corpus Stage} {i : Nat} {x : JobRun Stage}

/-- what a step of the run `x`, the `i`-th, does -/
structure Reviews (s t : HandlerSys Corpus Stage) (i : Nat) (x : JobRun Stage) : Prop where
  /-- a progress that is not below the one of the job, and not above the total -/
  accepted : Accepted s.db s.work x.claim x.pc
  onePerDocument : t.work.about.Nodup
  /-- The lease was lost, or the job failed, or it was cancelled, or it is completed; not this, if
  a call of a provider failed and no document was ever reviewed. -/
  ended : t.run i = none → (∀ r, ¬ x.claim.Held s.db.jobs r) ∨
    ∃ r, t.db.jobs[x.claim.job]? = some r ∧
      (r.status = .failed ∨ x.pc = .cancelling ∧ r.status = .cancelled ∨
        r.status = .completed ∧ ∃ n, x.pc = .completing n ∧
          (0 < n.providerFailed → ∃ p ∈ s.work.proposals, p.jobId = x.claim.job))

/-- a step of a run reviews as it should -/
def Op.Reviews (s : HandlerSys Corpus Stage) (o : Op) : Prop :=
  ∀ i env x, o = .step i env → s.run i = some x → Review.Reviews s (o.exec s) i x

/-- The progress of a job that is taken up is not above its sources that are left, where those that
are gone are one; and a review of a document is the first one of the job. -/
def Op.fits (s : HandlerSys Corpus Stage) : Op → Prop
  | .step i _ => ∀ x, s.run i = some x → ∀ r, x.claim.Held s.db.jobs r →
      (x.pc = .starting →
        r.progressCurrent ≤ (alreadyReviewedDocumentIds s.work x.claim.job).length) ∧
      ∀ n d rest reply, x.pc = .recording n d rest reply → (s.work.document d).isSome →
        (x.claim.job, d) ∉ s.work.about
  | _ => True

structure Inv (s : HandlerSys Corpus Stage) : Prop where
  ok : s.Ok InStep
  distinct : s.work.about.Nodup
  within : s.work.Within s.db.jobs
  sane : ∀ i x, s.run i = some x → Sane s.work s.db.jobs x.claim x.pc

/-- the progress of a run that fits -/
theorem Inv.accepted (hs : Inv s) (hi : s.run i = some x) {env : Env}
    (hfits : Op.fits s (.step i env)) : Accepted s.db s.work x.claim x.pc := by
  intro p hp r hr
  have hcount := countOf_le hs.distinct hs.within hr.1
  have hsane := hs.sane i x hi
  obtain ⟨hstart, hnew⟩ := hfits x hi r hr
  cases hpc : x.pc with
  | starting =>
    rw [hpc] at hp
    have hp : (s.db.jobs[x.claim.job]?).map _ = some p := hp
    rw [hr.1] at hp
    obtain rfl := Option.some.inj hp
    exact ⟨hstart hpc, Nat.le_trans (already_le_countOf _ _) hcount⟩
  | recording n d rest reply =>
    rw [hpc] at hp hsane
    obtain ⟨doc, hdoc, rfl⟩ := Option.map_eq_some_iff.1 hp
    have hrow : r.progressCurrent = n.reviewed := hs.ok.rel i x r hi hr n (by rw [hpc]; rfl)
    have hlt := countOf_lt hs.distinct hs.within hr.1 (hsane.rest d List.mem_cons_self r hr.1)
      (hnew n d rest reply hpc (by rw [hdoc]; rfl))
    refine ⟨?_, ?_⟩
    · rw [hrow]
      exact Nat.le_succ _
    rw [hsane.total n rfl r hr.1]
    exact Nat.le_trans (Nat.succ_le_succ (hsane.reviewed n rfl)) hlt
  | _ =>
    rw [hpc] at hp
    cases hp

/-- where a step of a run that is accepted leads -/
theorem exec_goes (hs : Inv s) (hi : s.run i = some x) (env : Env)
    (haccepted : Accepted s.db s.work x.claim x.pc) :
    ∃ jobs w' next, Goes s.db s.work x.claim x.pc jobs w' next ∧
      Op.exec s (.step i env) = ⟨{ s.db with jobs }, w', s.runs.set i (next.map (⟨x.claim, ·⟩))⟩ ∧
      (Op.exec s (.step i env)).run i = next.map (⟨x.claim, ·⟩) := by
  obtain ⟨jobs, w', next, hstep, hgoes⟩ := goes env x.pc hs.ok.checks haccepted
  have hexec : Op.exec s (.step i env) = _ := HandlerSys.exec_step (h := reviewJob) hi hstep
  refine ⟨jobs, w', next, hgoes, hexec, ?_⟩
  rw [hexec]
  exact HandlerSys.run_set_self _ _ _ hi

theorem Goes.ended (h : Goes db w c st jobs w' none) (hs : Sane w db.jobs c st) :
    (∀ r, ¬ c.Held db.jobs r) ∨ ∃ r, jobs[c.job]? = some r ∧
      (r.status = .failed ∨ st = .cancelling ∧ r.status = .cancelled ∨
        r.status = .completed ∧ ∃ n, st = .completing n ∧
          (0 < n.providerFailed → ∃ p ∈ w.proposals, p.jobId = c.job)) := by
  cases h with
  | lost st h => exact .inl h
  | @closes r r' st held h hq =>
    refine .inr ⟨r', by rw [getElem?_set_row held.1, if_pos rfl], ?_⟩
    generalize hst : r'.status = status at h
    cases h with
    | declined | unreviewed | failed e => exact .inl rfl
    | cancelled => exact .inr (.inl ⟨rfl, rfl⟩)
    | completed n =>
      refine .inr (.inr ⟨rfl, n, rfl, fun hfailed => ?_⟩)
      -- what the run has counted as reviewed has a proposal
      have hpos : 0 < w.countOf c.job := Nat.lt_of_lt_of_le (hs.completing n rfl hfailed) (hs.reviewed n rfl)
      obtain ⟨a, ha, hj⟩ := List.countP_pos_iff.1 hpos
      obtain ⟨p, hp, rfl⟩ := List.mem_map.1 ha
      exact ⟨p, hp, by simpa using hj⟩

namespace Inv

/-- **A step of a run** does its duty exactly if it fits. -/
theorem reviews_iff (hs : Inv s) (o : Op) : Op.Reviews s o ↔ Op.fits s o := by
  cases o with
  | queue o | outside o | crash j => exact iff_of_true (fun _ _ _ h => nomatch h) trivial
  | step i env =>
    constructor
    · intro h x hi r hr
      have hreviews := h i env x rfl hi
      refine ⟨fun hpc => ?_, fun n d rest reply hpc hdoc hold => ?_⟩
      · have hp : ((alreadyReviewedDocumentIds s.work x.claim.job).length, r.documentIds.length) ∈
            writes s.db s.work x.claim x.pc := by
          rw [hpc]
          show (s.db.jobs[x.claim.job]?).map _ = _
          rw [hr.1]
          rfl
        exact (hreviews.accepted _ hp r hr).1
      · -- the proposal that is added is about the same document
        obtain ⟨jobs, w', next, hgoes, hexec, -⟩ := exec_goes hs hi env hreviews.accepted
        have hdistinct := hreviews.onePerDocument
        rw [hexec] at hdistinct
        rw [hpc] at hgoes
        cases hgoes with
        | lost st hlost => exact hlost r hr
        | reads h =>
          cases h with
          | gone n d rest reply e h =>
            rw [h] at hdoc
            cases hdoc
        | records n d rest reply held h =>
          have hdistinct : (Corpus.about _).Nodup := hdistinct
          rw [about_append] at hdistinct
          exact (List.nodup_append.1 hdistinct).2.2 _ hold _ (List.mem_singleton.2 rfl) rfl
        | keeps held h hq => cases h
        | closes held h hq => cases h
    · intro hfits j env' x ho hi
      cases ho
      have haccepted := hs.accepted hi hfits
      obtain ⟨jobs, w', next, hgoes, hexec, hrun⟩ := exec_goes hs hi env haccepted
      refine ⟨haccepted, ?_, fun hnone => ?_⟩
      · rw [hexec]
        exact hgoes.distinct hs.distinct fun n d rest reply hpc hdoc r hr =>
          (hfits x hi r hr).2 n d rest reply hpc hdoc
      · rw [hrun, Option.map_eq_none_iff] at hnone
        subst hnone
        rw [hexec]
        exact hgoes.ended (hs.sane i x hi)

/-- the invariant along the runs that fit -/
theorem exec (hs : Inv s) (o : Op) (hfits : Op.fits s o) : Inv (o.exec s) := by
  cases o with
  | queue o =>
    have hok : (Op.exec s (.queue o)).Ok InStep :=
      hs.ok.queue o (fun w c pc r r' hsame h n hn => hsame.current.trans (h n hn))
        fun w c owner r n hn => nomatch hn
    have hwork : (Op.exec s (.queue o)).work = s.work := HandlerSys.exec_queue_work o
    have hrows : ∀ {j : JobId} {r : Job}, s.db.jobs[j]? = some r →
        ∃ r', (Op.exec s (.queue o)).db.jobs[j]? = some r' ∧ r'.inputRefs = r.inputRefs :=
      fun hr => HandlerSys.exec_queue_refs o hr
    refine ⟨hok, hwork ▸ hs.distinct, hwork ▸ hs.within.rows hrows, fun k y hk => ?_⟩
    rw [hwork]
    rcases HandlerSys.run_queue hk with hk | ⟨owner, hpc⟩
    · obtain ⟨r, hr, -⟩ := hs.ok.bounded k y hk
      obtain ⟨r', hr', hrefs⟩ := hrows hr
      exact (hs.sane k y hk).mono (Nat.le_refl _) ⟨r, r', hr, hr', hrefs⟩
    · rw [hpc]
      exact .idle rfl rfl fun _ h => nomatch h
  | outside o =>
    refine ⟨hs.ok.outside o fun w c pc r h => h, (outside_about o).symm ▸ hs.distinct, ?_,
      fun k y hk => ?_⟩
    · intro a ha
      exact hs.within a ((outside_about (w := s.work) o) ▸ ha)
    · obtain ⟨r, hr, -⟩ := hs.ok.bounded k y hk
      exact (hs.sane k y hk).mono (Nat.le_of_eq (outside_countOf o _).symm) ⟨r, r, hr, hr, rfl⟩
  | crash j =>
    refine ⟨hs.ok.crash j, hs.distinct, hs.within, fun k y hk => ?_⟩
    rcases HandlerSys.run_set hk with ⟨-, hy⟩ | ⟨-, hk⟩
    · cases hy
    · exact hs.sane k y hk
  | step i env =>
    cases hi : s.run i with
    | none =>
      have hexec : Op.exec s (.step i env) = s := HandlerSys.exec_step_none hi
      exact hexec.symm ▸ hs
    | some x =>
      have haccepted := hs.accepted hi hfits
      obtain ⟨jobs, w', next, hstep, hgoes⟩ := goes env x.pc hs.ok.checks haccepted
      have hown := hgoes.ownWrite hs.ok.checks haccepted
      have hok : (Op.exec s (.step i env)).Ok InStep := by
        refine hs.ok.step hi hstep hown (fun y r _ _ h => h) fun pc r hpc hr => ?_
        subst hpc
        exact hgoes.inStep (fun r hr => hs.ok.rel i x r hi hr) r hr
      have hexec : Op.exec s (.step i env) = _ := HandlerSys.exec_step (h := reviewJob) hi hstep
      have hmono : ∀ k y st, s.run k = some y → Sane s.work s.db.jobs y.claim st →
          Sane w' jobs y.claim st := by
        intro k y st hk hsane
        obtain ⟨r, hr, -⟩ := hs.ok.bounded k y hk
        obtain ⟨r', hr', hrefs⟩ := hown.refs hr
        exact hsane.mono (hgoes.countOf _) ⟨r, r', hr, hr', hrefs⟩
      rw [hexec] at hok ⊢
      refine ⟨hok, ?_, ?_, fun k y hk => ?_⟩
      · exact hgoes.distinct hs.distinct fun n d rest reply hpc hdoc r hr =>
          (hfits x hi r hr).2 n d rest reply hpc hdoc
      · exact (hgoes.within (hs.sane i x hi) hs.within).rows fun hr => hown.refs hr
      · rcases HandlerSys.run_set hk with ⟨-, hy⟩ | ⟨-, hk⟩
        · obtain ⟨st', hst', rfl⟩ := Option.map_eq_some_iff.1 hy
          subst hst'
          obtain ⟨r, hr, -⟩ := hs.ok.bounded i x hi
          obtain ⟨r', hr', hrefs⟩ := hown.refs hr
          exact (hgoes.sane (hs.sane i x hi)).mono (Nat.le_refl _) ⟨r, r', hr, hr', hrefs⟩
        · exact hmono k y y.pc hk (hs.sane k y hk)

end Inv

/-- any documents, and no jobs yet -/
def start (documents : List (Option Document)) : HandlerSys Corpus Stage :=
  { work := { documents } }

theorem start_inv (documents : List (Option Document)) : Inv (start documents) := by
  have hrun : ∀ i, (start documents).run i = none := fun _ => rfl
  refine ⟨⟨fun r hr => absurd hr List.not_mem_nil, fun i x hi => ?_, fun i k x y hi => ?_,
      fun i x r hi => ?_⟩, List.nodup_nil, fun a ha => absurd ha List.not_mem_nil, fun i x hi => ?_⟩ <;>
  · rw [hrun] at hi
    cases hi

/-- **When a corpus review resumes.**  Along every run of any number of workers, with deaths, reclaims,
retries, any answers of the providers and documents that come and go: every step of a run of the
job writes an acceptable progress, leaves one proposal for a document at most, and does not complete
a job without reviews whose calls failed, exactly if every review of a document is the first
one of the job and the progress of a job that is taken up is not above the sources that are left. -/
theorem review_resumes (documents : List (Option Document)) (os : List Op) :
    (∀ p ∈ Run.trace Op.exec (start documents) os, Op.Reviews p.1 p.2) ↔
      Run.Meets Op.exec Op.fits (start documents) os :=
  Run.trace_iff_meets (I := Inv) (D := Op.Reviews) (fun _ o hs => hs.reviews_iff o)
    (fun _ o hs hD => hs.exec o ((hs.reviews_iff o).1 hD)) (start_inv documents) os

/-- a document that is listed twice, up to the second review of it -/
def listedTwice : List Op :=
  [.queue (.createJob 0 .corpusReview [⟨.document, 0⟩, ⟨.document, 0⟩]),
    .queue (.claimNext "worker-1" 60 [])] ++
    List.replicate 11 (.step 0 { answer := .reply ⟨"a finding", "provider", "model"⟩ })

/-- The document gets two proposals; and when the worker dies then, the next run finds one source
where the progress is two, and its job fails. -/
theorem review_twice :
    let documents := [some { uploadedBy := 0, chunks := ["text"], contentPreview := none }]
    let os := listedTwice ++ [.step 0 {}]
    let died : List Op := [.crash 0, .queue (.tick 61), .queue (.claimNext "worker-2" 60 []),
      .step 1 {}, .step 1 {}, .step 1 {}]
    ¬ (∀ p ∈ Run.trace Op.exec (start documents) os, Op.Reviews p.1 p.2) ∧
    (Run.run Op.exec (start documents) os).work.about = [(0, 0), (0, 0)] ∧
    (Run.run Op.exec (start documents) (os ++ died)).db.jobs.map (·.status) = [.failed] := by
  intro documents os died
  have hrun : (Run.run Op.exec (start documents) listedTwice).run 0 =
      some ⟨⟨0, "worker-1", 1⟩, .recording ⟨2, [], 1, 0, 0, 0⟩ 0 [] ⟨"a finding", "provider", "model"⟩⟩ := by
    decide
  have habout : (Op.exec (Run.run Op.exec (start documents) listedTwice) (.step 0 {})).work.about =
      [(0, 0), (0, 0)] := by decide
  refine ⟨fun h => ?_, by decide, by decide +kernel⟩
  generalize hs : Run.run Op.exec (start documents) listedTwice = s at hrun habout
  have hmem : (s, .step 0 {}) ∈ Run.trace Op.exec (start documents) os := by
    rw [Run.trace_append, hs]
    exact List.mem_append_right _ (List.mem_singleton.2 rfl)
  have hdistinct := (h _ hmem 0 {} _ rfl hrun).onePerDocument
  rw [habout] at hdistinct
  exact absurd hdistinct (by decide)

end LifeAI.Review
