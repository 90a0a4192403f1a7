import LifeAI.Messages.Job
import LifeAI.Messages.System

/-!
# A numbering job that is taken up again

* `Goes`        how a run goes on, one case for each way;
* `Resumes`     what a step of a run does to its job and to the messages;
* `Chats.Once`  each conversation is numbered once;
* `backfill_resumes` when a run starts, the progress of its job is at zero; otherwise the database
                refuses the initial progress, and the job fails.
-/

namespace LifeAI.Messages

variable {rows rows' : List Message} {c cand : ConversationId} {outcome : Outcome}

/-! ## one conversation -/

theorem mem_unnumbered_of_rank (hids : (rows.map (·.id)).Nodup) {m : Message} (hm : m ∈ rows)
    (h : rank (ordered rows c) m.id ≠ none) : m ∈ unnumbered rows c := by
  rw [rank_ne_none, ordered_fst] at h
  obtain ⟨n, hn, hid⟩ := List.mem_map.1 h
  have hnrows : n ∈ rows := (mem_inConversation.1 (mem_unnumbered.1 hn).1).1
  rwa [← List.inj_on_of_nodup_map hids hnrows hm hid]

/-- no row is left out -/
theorem rank_of_mem_unnumbered {m : Message} (h : m ∈ unnumbered rows c) :
    ∃ n, rank (ordered rows c) m.id = some n := by
  refine Option.ne_none_iff_exists'.1 (rank_ne_none.2 ?_)
  rw [ordered_fst]
  exact List.mem_map_of_mem h

theorem missing_eq_zero :
    (conversationState rows c).1 = 0 ↔ ∀ m ∈ rows, m.conversationId = c → m.sequenceNumber ≠ none := by
  rw [← unnumbered_length, List.length_eq_zero_iff, List.eq_nil_iff_forall_not_mem]
  constructor
  · intro h m hm hc hnone
    exact h m (mem_unnumbered.2 ⟨mem_inConversation.2 ⟨hm, hc⟩, hnone⟩)
  · intro h m hm
    obtain ⟨hin, hnone⟩ := mem_unnumbered.1 hm
    obtain ⟨hmem, hc⟩ := mem_inConversation.1 hin
    exact h m hmem hc hnone

/-- the rows that got an ordinal -/
def Outcome.assigned : Outcome → Nat
  | .numbered n => n
  | .conflict => 0

/-- what the transaction did: nothing, or all of the rows -/
theorem numberConversation_ok (h : numberConversation rows c = .ok (rows', outcome)) :
    rows' = rows ∧ outcome.assigned = 0 ∨
      rows' = rows.map (numberRow (ordered rows c)) ∧ (conversationState rows c).1 ≠ 0 ∧
        outcome = .numbered (conversationState rows c).1 := by
  unfold numberConversation at h
  dsimp only at h
  split at h
  · cases h
    exact .inl ⟨rfl, rfl⟩
  · next hne =>
    split at h
    · cases h
      exact .inl ⟨rfl, rfl⟩
    · rw [guard_eq_ok, guard_eq_ok] at h
      obtain ⟨-, -, h⟩ := h
      cases h
      refine .inr ⟨rfl, hne, ?_⟩
      unfold ordered
      rw [List.length_zipIdx, List.length_map, unnumbered_length]

/-- the trigger does not refuse the UPDATE -/
theorem numberConversation_error (hids : (rows.map (·.id)).Nodup) {e : Err}
    (h : numberConversation rows c = .error e) : e = .dataError := by
  have hkept : ¬ rows.any (denyRewrite (ordered rows c)) := by
    rw [List.any_eq_true]
    rintro ⟨m, hm, hdeny⟩
    unfold denyRewrite at hdeny
    rw [decide_eq_true_eq] at hdeny
    obtain ⟨hsome, hne⟩ := hdeny
    have hrank : rank (ordered rows c) m.id ≠ none := fun hnone => hne (by rw [numberRow_of_none hnone])
    have hnone := (mem_unnumbered.1 (mem_unnumbered_of_rank hids hm hrank)).2
    rw [hnone] at hsome
    cases hsome
  unfold numberConversation at h
  dsimp only at h
  rw [if_neg hkept] at h
  split at h
  · cases h
  · split at h
    · cases h
    · split at h
      · cases h
        rfl
      · cases h

/-- a session that is alone -/
def Sys.alone (rows : List Message) (x : Option Session) (returned : List (ConversationId × Outcome)) :
    Sys :=
  { messages := rows, sessions := [x], returned }

theorem Sys.alone_messages (rows : List Message) (x : Option Session)
    (returned : List (ConversationId × Outcome)) : (Sys.alone rows x returned).messages = rows := rfl

theorem Sys.alone_taken (rows : List Message) (x : Option Session)
    (returned : List (ConversationId × Outcome)) (p : Session → Bool) :
    (Sys.alone rows x returned).taken 0 p = false := by
  simp [Sys.alone, Sys.taken]

theorem Sys.alone_step (hashtext : ConversationId → Int) (rows : List Message)
    (c : ConversationId) (stage : Stage) (returned : List (ConversationId × Outcome)) :
    Op.exec hashtext (Sys.alone rows (some (.backfill c stage)) returned) (.step 0) =
      backfillStep hashtext (Sys.alone rows (some (.backfill c stage)) returned) 0 c stage := by
  rfl

/-- the commit of a backfill that is alone -/
theorem Sys.alone_commit (hashtext : ConversationId → Int) (rows : List Message)
    (c : ConversationId) (nums : List (MessageId × Nat)) (outcome : Outcome) :
    Op.exec hashtext (Sys.alone rows (some (.backfill c (.committing outcome nums))) []) (.step 0) =
      Sys.alone (rows.map (numberRow nums)) none [(c, outcome)] := rfl

theorem map_numberRow_nil (rows : List Message) : rows.map (numberRow []) = rows := by
  calc rows.map (numberRow []) = rows.map id :=
        List.map_congr_left fun m _ => numberRow_of_none rfl
    _ = rows := List.map_id rows

/-- The statements of a `backfill_conversation` that nothing comes between are
`numberConversation`. -/
theorem backfillStep_alone (hashtext : ConversationId → Int)
    (h : numberConversation rows c = .ok (rows', outcome)) :
    Run.run (Op.exec hashtext) (Sys.alone rows (some (.backfill c .locking)) [])
        (List.replicate 5 (.step 0)) =
      Sys.alone rows' none [(c, outcome)] := by
  have hlock : Op.exec hashtext (Sys.alone rows (some (.backfill c .locking)) []) (.step 0) =
      Sys.alone rows (some (.backfill c .reading)) [] := by
    rw [Sys.alone_step]
    unfold backfillStep
    rw [Sys.alone_taken]
    rfl
  have hend : ∀ rows returned, Op.exec hashtext (Sys.alone rows none returned) (.step 0) =
      Sys.alone rows none returned := fun _ _ => rfl
  have hread : ∀ stage, backfillStep hashtext (Sys.alone rows (some (.backfill c .reading)) []) 0 c
        .reading = Sys.alone rows (some (.backfill c stage)) [] →
      Op.exec hashtext (Sys.alone rows (some (.backfill c .reading)) []) (.step 0) =
        Sys.alone rows (some (.backfill c stage)) [] :=
    fun _ hstep => (Sys.alone_step ..).trans hstep
  unfold numberConversation at h
  dsimp only at h
  show Run.run (Op.exec hashtext) _ [.step 0, .step 0, .step 0, .step 0, .step 0] = _
  rw [Run.run_cons, hlock, Run.run_cons]
  -- the branches are those of `numberConversation`
  split at h
  · next hzero =>
    cases h
    rw [hread (.committing (.numbered 0) []) (if_pos hzero), Run.run_cons, Sys.alone_commit,
      map_numberRow_nil, Run.run_cons, hend, Run.run_cons, hend, Run.run_nil]
  · next hzero =>
    split at h
    · next hconflict =>
      cases h
      rw [hread (.committing .conflict []) ((if_neg hzero).trans (if_pos hconflict)), Run.run_cons,
        Sys.alone_commit, map_numberRow_nil, Run.run_cons, hend, Run.run_cons, hend, Run.run_nil]
    · next hconflict =>
      rw [guard_eq_ok, guard_eq_ok] at h
      obtain ⟨hdeny, hmax, h⟩ := h
      cases h
      have hleft : (ordered rows c).filter
          (fun x => x.1 ∈ (inConversation c rows).map (·.id)) = ordered rows c := by
        refine List.filter_eq_self.2 fun x hx => ?_
        have hid : x.1 ∈ (unnumbered rows c).map (·.id) := by
          rw [← ordered_fst]
          exact List.mem_map_of_mem hx
        obtain ⟨m, hm, hmid⟩ := List.mem_map.1 hid
        rw [decide_eq_true_eq, ← hmid]
        exact List.mem_map_of_mem (mem_unnumbered.1 hm).1
      have horder : Op.exec hashtext (Sys.alone rows (some (.backfill c .ordering)) []) (.step 0) =
          Sys.alone rows (some (.backfill c (.updating (ordered rows c)))) [] := rfl
      have hupdate : Op.exec hashtext
          (Sys.alone rows (some (.backfill c (.updating (ordered rows c)))) []) (.step 0) =
          Sys.alone rows (some (.backfill c (.committing (.numbered (ordered rows c).length)
            (ordered rows c)))) [] := by
        rw [Sys.alone_step]
        unfold backfillStep
        dsimp only
        rw [Sys.alone_messages, hleft, Sys.alone_taken, if_neg Bool.false_ne_true,
          if_neg (not_or.2 ⟨hdeny, hmax⟩)]
        rfl
      rw [hread .ordering ((if_neg hzero).trans (if_neg hconflict)), Run.run_cons, horder,
        Run.run_cons, hupdate, Run.run_cons, Sys.alone_commit, Run.run_nil]

theorem backfillStep_alone_two :
    Run.run (Op.exec fun _ => 0) (Sys.alone [⟨0, 0, 2, none, false⟩, ⟨1, 0, 1, none, false⟩]
        (some (.backfill 0 .locking)) []) (List.replicate 5 (.step 0)) =
      Sys.alone [⟨0, 0, 2, some 2, true⟩, ⟨1, 0, 1, some 1, true⟩] none [(0, .numbered 2)] :=
  backfillStep_alone _ rfl

namespace Backfill

variable {env : Env} {db : JobDb} {w w' : Chats} {c : Claim} {owner : OwnerId} {st st' : Stage}
  {jobs : List Job} {next : Option Stage} {n : Counts} {r r' : Job}

/-! ## one step of a run -/

def Stage.counts : Stage → Option Counts
  | .looping n | .renewing n | .choosing n | .numbering n _ | .ending n _ => some n
  | _ => none

/-- a bound on the steps to the end of the run -/
def Stage.left : Stage → Nat
  | .claiming => 4 * maxConversationsPerRun + 6
  | .counting => 4 * maxConversationsPerRun + 5
  | .starting _ => 4 * maxConversationsPerRun + 4
  | .looping n => 4 * (maxConversationsPerRun - n.processed) + 3
  | .renewing n => 4 * (maxConversationsPerRun - (n.processed + 1)) + 6
  | .choosing n => 4 * (maxConversationsPerRun - (n.processed + 1)) + 5
  | .numbering n _ => 4 * (maxConversationsPerRun - (n.processed + 1)) + 4
  | .ending _ _ => 2
  | .declining | .cancelling | .completing _ | .failing _ => 1

/-- the progress of the job is where the run stands -/
def InStep (_ : Chats) (_ : Claim) (pos : Pos) (r : Job) : Prop :=
  ∀ n ∈ pos.stage.counts, r.progressCurrent = n.processed

/-- what holds of a run, also of one that has lost its lease -/
structure Sane (w : Chats) (st : Stage) : Prop where
  conflicts : ∀ n ∈ st.counts, ∀ c ∈ n.conflicted, (c, .conflict) ∈ w.outcomes
  total : ∀ p ∈ st.progress, p.1 ≤ p.2
  failing : ∀ e, st = .failing e → e = .dataError

/-- the reads between two transactions -/
inductive Reads (w : Chats) (owner : OwnerId) : Stage → Stage → Prop
  | counting : Reads w owner .counting (.starting (w.countConversations owner))
  | capped (n : Counts) (h : maxConversationsPerRun ≤ n.processed) :
      Reads w owner (.looping n) (.ending n true)
  | cancel (n : Counts) : Reads w owner (.looping n) .cancelling
  | renew (n : Counts) (h : n.processed < maxConversationsPerRun) :
      Reads w owner (.looping n) (.renewing n)
  | none (n : Counts) (h : candidateConversationIds w owner 1 n.conflicted = []) :
      Reads w owner (.choosing n) (.ending n false)
  | candidate (n : Counts) (c : ConversationId) (total : Nat) (h : n.processed + 1 ≤ total) :
      Reads w owner (.choosing n) (.numbering { n with total } c)
  | done (n : Counts) (capped : Bool) (message : String) :
      Reads w owner (.ending n capped) (.completing message)

/-- the last write of a run -/
inductive Closes : Stage → JobStatus → Prop
  | declined : Closes .declining .failed
  | cancelled : Closes .cancelling .cancelled
  | completed (message : String) : Closes (.completing message) .completed
  | failed (e : Err) : Closes (.failing e) .failed

/-- what the trigger raises -/
abbrev refusal : Err := .integrityError "mainai_jobs_deny_progress_regression"

/-- the row after the progress of a run -/
def progressed (r : Job) (p : Nat × Nat) : Job :=
  { r with
    progressCurrent := p.1
    progressTotal := some p.2
    currentPhase := some "numbering" }

inductive Goes (db : JobDb) (w : Chats) (c : Claim) (owner : OwnerId) :
    Stage → List Job → Chats → Option Stage → Prop
  | lost (st : Stage) (h : ∀ r, ¬ c.Held db.jobs r) : Goes db w c owner st db.jobs w none
  | reads {st st' : Stage} (h : Reads w owner st st') : Goes db w c owner st db.jobs w (some st')
  | claims {r : Job} (st' : Stage) (held : c.Held db.jobs r) (hst : st' = .counting ∨ st' = .declining) :
      Goes db w c owner .claiming (db.jobs.set c.job r) w (some st')
  | renews {r r' : Job} (n : Counts) (held : c.Held db.jobs r) (hq : Quiet r r') :
      Goes db w c owner (.renewing n) (db.jobs.set c.job r') w (some (.choosing n))
  | starts {r : Job} (total : Nat) (held : c.Held db.jobs r) (h : r.progressCurrent = 0) :
      Goes db w c owner (.starting total) (db.jobs.set c.job (progressed r (0, total))) w
        (some (.looping { total }))
  | refused {r : Job} (total : Nat) (held : c.Held db.jobs r) (h : r.progressCurrent ≠ 0) :
      Goes db w c owner (.starting total) db.jobs w (some (.failing refusal))
  | numbers {r : Job} (n : Counts) (cand : ConversationId) (held : c.Held db.jobs r)
      {messages : List Message} {outcome : Outcome}
      (h : numberConversation w.messages cand = .ok (messages, outcome)) :
      Goes db w c owner (.numbering n cand)
        (db.jobs.set c.job (progressed r (n.processed + 1, n.total)))
        { w with messages, outcomes := w.outcomes ++ [(cand, outcome)] }
        (some (.looping (n.after cand outcome)))
  | tooLong (n : Counts) (cand : ConversationId) :
      Goes db w c owner (.numbering n cand) db.jobs w (some (.failing .dataError))
  | closes {r r' : Job} {st : Stage} (held : c.Held db.jobs r) (h : Closes st r'.status)
      (hq : Quiet r r') : Goes db w c owner st (db.jobs.set c.job r') w none

/-- the progress of the holder, as the database takes it -/
theorem writeProgress_eq (jobs : List Job) (c : Claim) (p : Nat × Nat) :
    writeProgress jobs c p = guardedJobWrite jobs c.job c.worker c.generation (progressed · p) :=
  rfl

theorem progressed_checks (h : r.checks) (p : Nat × Nat) (hp : p.1 ≤ p.2) :
    (progressed r p).checks := by
  simp only [Job.checks, decide_eq_true_eq] at h ⊢
  obtain ⟨hterm, hstart, -, hretry, hsup⟩ := h
  refine ⟨hterm, hstart, fun m hm => ?_, hretry, hsup⟩
  obtain rfl := Option.some.inj hm
  exact hp

/-- **How a run goes on.** -/
theorem goes (env : Env) (owner : OwnerId) (st : Stage) (hids : (w.messages.map (·.id)).Nodup) (hchecks : ∀ r ∈ db.jobs, r.checks)
    (hrow : ∀ r, c.Held db.jobs r → InStep w c ⟨owner, st⟩ r) (hsane : Sane w st) :
    ∃ jobs w' next, step env db w c ⟨owner, st⟩ = (jobs, w', next.map (Pos.mk owner)) ∧
      Goes db w c owner st jobs w' next := by
  have hheld : ∀ {r}, c.Held db.jobs r → r.checks := fun hr => hchecks _ (List.mem_of_getElem? hr.1)
  have write : ∀ {set : Job → Job} {w' : Chats} (next : Option Stage),
      (∀ r, c.Held db.jobs r → (set r).checks) →
      (∀ r, c.Held db.jobs r → r.progressCurrent ≤ (set r).progressCurrent) →
      (∀ r, c.Held db.jobs r → Goes db w c owner st (db.jobs.set c.job (set r)) w' next) →
      ∃ jobs w'' next', fenced db.jobs w (guardedJobWrite db.jobs c.job c.worker c.generation set) w'
          (next.map (Pos.mk owner)) (⟨owner, .failing ·⟩) = (jobs, w'', next'.map (Pos.mk owner)) ∧
        Goes db w c owner st jobs w'' next' := by
    intro set w' next hset hkept hgoes
    rcases fenced_cases w w' (next.map (Pos.mk owner)) (⟨owner, .failing ·⟩) hset
      (fun r hr => (progressKept_running hr.running).2 (hkept r hr)) with ⟨hlost, h⟩ | ⟨r, hr, h⟩
    · exact ⟨_, _, none, h, .lost st hlost⟩
    · exact ⟨_, _, next, h, hgoes r hr⟩
  have reads : ∀ {st'}, Reads w owner st st' → ∃ jobs w' next,
      (db.jobs, w, some (Pos.mk owner st')) = (jobs, w', Option.map (Pos.mk owner) next) ∧
        Goes db w c owner st jobs w' next := fun h => ⟨_, _, some _, rfl, .reads h⟩
  have noRow : db.jobs[c.job]? = none → ∃ jobs w' next,
      (db.jobs, w, none) = (jobs, w', Option.map (Pos.mk owner) next) ∧
        Goes db w c owner st jobs w' next := by
    intro hnone
    refine ⟨_, _, none, rfl, .lost st fun r hr => ?_⟩
    rw [hr.1] at hnone
    cases hnone
  have closes : ∀ {status} {x : List Job → JobId → String → Nat → Except Err (List Job)},
      EndsWith status x → Closes st status →
      ∃ jobs w' next, fenced db.jobs w (x db.jobs c.job c.worker c.generation) w none
          (⟨owner, .failing ·⟩) = (jobs, w', Option.map (Pos.mk owner) next) ∧
        Goes db w c owner st jobs w' next := by
    intro status x hx hcl
    rcases hx.fenced_cases hchecks w (fun e => Pos.mk owner (.failing e)) with ⟨hlost, h⟩ | ⟨r, r', hr, hq, hst, h⟩
    · exact ⟨_, _, none, h, .lost st hlost⟩
    · exact ⟨_, _, none, h, .closes hr (hst ▸ hcl) hq⟩
  cases st with
  | claiming =>
    show ∃ jobs w' next, fenced _ _ _ _ (if env.capability then _ else _) _ = _ ∧ _
    cases env.capability with
    | true =>
      exact write (some .counting) (fun r hr => hheld hr) (fun r _ => Nat.le_refl _)
        fun r hr => .claims _ hr (.inl rfl)
    | false =>
      exact write (some .declining) (fun r hr => hheld hr) (fun r _ => Nat.le_refl _)
        fun r hr => .claims _ hr (.inr rfl)
  | declining => exact closes (markFailed_ends db.now _) .declined
  | counting => exact reads .counting
  | starting total =>
    by_cases hrun : ∃ r, c.Held db.jobs r ∧ r.progressCurrent ≠ 0
    · obtain ⟨r, hr, hne⟩ := hrun
      have hrefused := hr.write_refused (progressed · (0, total))
        (progressed_checks (hheld hr) _ (Nat.zero_le total)) (fun hk =>
          hne (Nat.le_zero.1 ((progressKept_running hr.running).1 hk)))
      refine ⟨db.jobs, w, some (.failing refusal), ?_, .refused total hr hne⟩
      show fenced _ _ (writeProgress _ _ _) _ _ _ = _
      rw [writeProgress_eq, hrefused]
      rfl
    · have hzero : ∀ r, c.Held db.jobs r → r.progressCurrent = 0 := fun r hr =>
        by_contra fun hne => hrun ⟨r, hr, hne⟩
      exact write (some _) (fun r hr => progressed_checks (hheld hr) _ (Nat.zero_le total))
        (fun r hr => Nat.le_of_eq (hzero r hr)) fun r hr => .starts total hr (hzero r hr)
  | looping n =>
    unfold step
    dsimp only
    split
    · next h => exact reads (.capped n h)
    · next h =>
      split
      · next hnone => exact noRow hnone
      · next r hr =>
        split
        · exact reads (.cancel n)
        · exact reads (.renew n (Nat.lt_of_not_le h))
  | cancelling => exact closes (markCancelled_ends db.now) .cancelled
  | renewing n =>
    exact write (some _) (fun r hr => (hheld hr : r.checks)) (fun r _ => Nat.le_refl _)
      fun r hr => .renews n hr ⟨(hheld hr : r.checks), rfl, rfl, rfl⟩
  | choosing n =>
    unfold step
    dsimp only
    split
    · next hnone => exact reads (.none n hnone)
    · next cand _ _ =>
      refine reads (.candidate n cand _ ?_)
      split <;> omega
  | numbering n cand =>
    unfold step
    dsimp only
    split
    · next e he =>
      obtain rfl := numberConversation_error hids he
      exact ⟨_, _, some _, rfl, .tooLong n cand⟩
    · next messages outcome hok =>
      refine write (some _)
        (fun r hr => progressed_checks (hheld hr) _ (hsane.total _ rfl)) (fun r hr => ?_)
        fun r hr => .numbers n cand hr hok
      -- the row stands where the run stands
      have hr : r.progressCurrent = n.processed := hrow r hr n rfl
      show r.progressCurrent ≤ n.processed + 1
      omega
  | ending n capped =>
    unfold step
    dsimp only
    split
    · next hnone => exact noRow hnone
    · next r hr =>
      split
      · next hst =>
        refine ⟨_, _, none, rfl, .lost _ fun q hq => hst ?_⟩
        rw [← Option.some.inj (hq.1.symm.trans hr)]
        exact hq.running
      · exact reads (.done n capped _)
  | completing message => exact closes (markCompleted_ends db.now _) (.completed message)
  | failing e =>
    rcases (markFailed_ends db.now .unexpected).transact_cases hchecks with
      ⟨hlost, h⟩ | ⟨r, r', hr, hq, hst, h⟩
    · exact ⟨_, _, none, Prod.ext h rfl, .lost _ hlost⟩
    · exact ⟨_, _, none, Prod.ext h rfl, .closes hr (hst ▸ .failed e) hq⟩

end Backfill

/-! ## each conversation once -/

namespace Chats

/-- how often messages of the conversation were numbered -/
def numberings (w : Chats) (c : ConversationId) : Nat :=
  w.outcomes.countP fun o => o.1 = c ∧ o.2.assigned ≠ 0

/-- A conversation is numbered at most once, and then all of it; and where an ordinal is from a
backfill, it was. -/
structure Once (w : Chats) : Prop where
  once : ∀ c, w.numberings c ≤ 1
  all : ∀ c, w.numberings c ≠ 0 → ∀ m ∈ w.messages, m.conversationId = c → m.sequenceNumber ≠ none
  recorded : ∀ m ∈ w.messages, m.backfilled → w.numberings m.conversationId = 1

variable {w : Chats} {messages : List Message}

theorem numberings_append (o : ConversationId × Outcome) (c : ConversationId) :
    ({ w with messages, outcomes := w.outcomes ++ [o] } : Chats).numberings c =
      w.numberings c + if o.1 = c ∧ o.2.assigned ≠ 0 then 1 else 0 := by
  simp [numberings, List.countP_append, List.countP_singleton]

theorem Once.subset {w' : Chats} (h : w.Once) (hout : w'.outcomes = w.outcomes)
    (hmsgs : ∀ m ∈ w'.messages, m ∈ w.messages ∨ m.sequenceNumber ≠ none ∧ ¬ m.backfilled) :
    w'.Once := by
  have hnum : ∀ c, w'.numberings c = w.numberings c := fun c => by
    unfold numberings
    rw [hout]
  refine ⟨fun c => (hnum c).symm ▸ h.once c, fun c hc m hm hmc => ?_, fun m hm hback => ?_⟩
  · rw [hnum] at hc
    rcases hmsgs m hm with hm | ⟨hsome, -⟩
    · exact h.all c hc m hm hmc
    · exact hsome
  · rw [hnum]
    rcases hmsgs m hm with hm | ⟨-, hno⟩
    · exact h.recorded m hm hback
    · exact absurd hback hno

/-- a commit of `backfill_conversation` -/
theorem Once.number (h : w.Once) (hids : (w.messages.map (·.id)).Nodup)
    (hok : numberConversation w.messages cand = .ok (messages, outcome)) :
    ({ w with messages, outcomes := w.outcomes ++ [(cand, outcome)] } : Chats).Once := by
  rcases numberConversation_ok hok with ⟨rfl, hzero⟩ | ⟨rfl, hne, rfl⟩
  · have hnum : ∀ c, ({ w with messages := w.messages, outcomes := w.outcomes ++ [(cand, outcome)] } :
        Chats).numberings c = w.numberings c := fun c => by
      rw [numberings_append]
      simp [hzero]
    exact ⟨fun c => (hnum c).symm ▸ h.once c, fun c hc => h.all c (hnum c ▸ hc),
      fun m hm hback => (hnum _).trans (h.recorded m hm hback)⟩
  · -- it was not numbered before, since a message lacks its ordinal
    have hfirst : w.numberings cand = 0 := by
      by_contra hnum
      exact hne (missing_eq_zero.2 (h.all cand hnum))
    have hnum : ∀ c, ({ w with
          messages := w.messages.map (numberRow (ordered w.messages cand))
          outcomes := w.outcomes ++ [(cand, .numbered (conversationState w.messages cand).1)] } :
        Chats).numberings c = if cand = c then 1 else w.numberings c := fun c => by
      rw [numberings_append]
      by_cases hc : cand = c
      · subst hc
        simp [hfirst, Outcome.assigned, hne]
      · simp [hc]
    have hothers : ∀ m ∈ w.messages, m.conversationId ≠ cand →
        numberRow (ordered w.messages cand) m = m := by
      intro m hm hc
      refine numberRow_of_none ?_
      by_contra hrank
      exact hc (mem_inConversation.1 (mem_unnumbered.1 (mem_unnumbered_of_rank hids hm hrank)).1).2
    refine ⟨fun c => ?_, fun c hc m' hm' hmc => ?_, fun m' hm' hback => ?_⟩
    · rw [hnum]
      split
      · exact Nat.le_refl 1
      · exact h.once c
    · obtain ⟨m, hm, rfl⟩ := List.mem_map.1 hm'
      rw [numberRow_conversationId] at hmc
      rw [hnum] at hc
      by_cases hcand : cand = c
      · subst hcand
        by_cases hnone : m.sequenceNumber = none
        · obtain ⟨k, hk⟩ := rank_of_mem_unnumbered
            (mem_unnumbered.2 ⟨mem_inConversation.2 ⟨hm, hmc⟩, hnone⟩)
          rw [numberRow_of_some hk]
          simp
        · unfold numberRow
          split
          · simp
          · exact hnone
      · rw [if_neg hcand] at hc
        rw [hothers m hm fun h => hcand (h.symm.trans hmc)]
        exact h.all c hc m hm hmc
    · obtain ⟨m, hm, rfl⟩ := List.mem_map.1 hm'
      rw [hnum, numberRow_conversationId]
      split
      · rfl
      · next hc =>
        rw [hothers m hm fun h => hc h.symm] at hback
        exact h.recorded m hm hback

/-- what others do to the messages -/
theorem Once.outside (h : w.Once) (o : Backfill.Outside) : (Backfill.outside w o).Once := by
  cases o with
  | createConversation id userId createdAt =>
    unfold Backfill.outside
    dsimp only
    split
    · exact h
    · exact h.subset rfl fun m hm => .inl hm
  | insertMessage id c createdAt =>
    unfold Backfill.outside
    dsimp only
    split
    · exact h
    · split
      · exact h
      · next m hm =>
        refine h.subset rfl fun q hq => ?_
        rcases List.mem_append.1 hq with hq | hq
        · exact .inl hq
        · obtain rfl := List.mem_singleton.1 hq
          unfold assignSequenceNumber at hm
          dsimp only at hm
          split at hm
          · cases hm
            exact .inr ⟨nofun, Bool.false_ne_true⟩
          · cases hm
  | deleteMessage id | deleteConversation c =>
    exact h.subset rfl fun m hm => .inl (List.mem_of_mem_filter hm)

theorem outside_ids (h : (w.messages.map (·.id)).Nodup) (o : Backfill.Outside) :
    ((Backfill.outside w o).messages.map (·.id)).Nodup := by
  cases o with
  | createConversation id userId createdAt =>
    unfold Backfill.outside
    dsimp only
    split <;> exact h
  | insertMessage id c createdAt =>
    unfold Backfill.outside
    dsimp only
    split
    · exact h
    · next hid =>
      split
      · exact h
      · next m hm =>
        have hmid : m.id = id := by
          unfold assignSequenceNumber at hm
          dsimp only at hm
          split at hm
          · cases hm
            rfl
          · cases hm
        show ((w.messages ++ [m]).map (·.id)).Nodup
        rw [List.map_append, List.map_singleton, hmid]
        exact List.nodup_append.2 ⟨h, List.nodup_singleton id, fun a ha b hb hab =>
          hid (.inl (List.mem_singleton.1 hb ▸ hab ▸ ha))⟩
  | deleteMessage id | deleteConversation c => exact h.sublist (List.filter_sublist.map _)

theorem outside_outcomes (o : Backfill.Outside) : (Backfill.outside w o).outcomes = w.outcomes := by
  cases o with
  | insertMessage id c createdAt =>
    unfold Backfill.outside
    dsimp only
    split
    · rfl
    · split <;> rfl
  | createConversation id userId createdAt =>
    unfold Backfill.outside
    dsimp only
    split <;> rfl
  | _ => rfl

end Chats

namespace Backfill

variable {s t : HandlerSys Chats Pos} {i : Nat} {x : JobRun Pos}

/-! ## runs -/

/-- what a step of the run `x`, the `i`-th, does -/
structure Resumes (s t : HandlerSys Chats Pos) (i : Nat) (x : JobRun Pos) : Prop where
  /-- the database takes the progress, if it comes from the holder -/
  accepted : ∀ p ∈ x.pc.stage.progress, ∀ m,
    writeProgress s.db.jobs x.claim p ≠ .error (.integrityError m)
  /-- a conversation and the progress, or neither -/
  together :
    (t.work = s.work ∧ ∀ j : JobId,
      (t.db.jobs[j]?).map (·.progressCurrent) = (s.db.jobs[j]?).map (·.progressCurrent)) ∨
    (t.work.outcomes.length = s.work.outcomes.length + 1 ∧
      (t.db.jobs[x.claim.job]?).map (·.progressCurrent) =
        (s.db.jobs[x.claim.job]?).map (·.progressCurrent + 1))
  shorter : ∀ y, t.run i = some y → y.pc.stage.left < x.pc.stage.left
  /-- The lease was lost, or the job is completed, or it was cancelled, or its capability is gone, or
  a conversation has more messages than there are ordinals. -/
  ended : t.run i = none → (∀ r, ¬ x.claim.Held s.db.jobs r) ∨
    ∃ r, t.db.jobs[x.claim.job]? = some r ∧
      (r.status = .completed ∨ x.pc.stage = .cancelling ∧ r.status = .cancelled ∨
        (x.pc.stage = .declining ∨ x.pc.stage = .failing .dataError) ∧ r.status = .failed)
  /-- short of the cap, the loop ends when only conflicting conversations are left -/
  complete : ∀ y n, t.run i = some y → y.pc.stage = .ending n false →
    ∀ d ∈ s.work.unsequenced x.pc.owner, (d.id, .conflict) ∈ s.work.outcomes

/-- a step of a run resumes its job -/
def Op.Resumes (s : HandlerSys Chats Pos) (o : Op) : Prop :=
  ∀ i env x, o = .step i env → s.run i = some x → Backfill.Resumes s (o.exec s) i x

/-- a run that makes its initial progress write finds the progress of its job at zero -/
def Op.startsFresh (s : HandlerSys Chats Pos) : Op → Prop
  | .step i _ => ∀ x total, s.run i = some x → x.pc.stage = .starting total →
      ∀ r, x.claim.Held s.db.jobs r → r.progressCurrent = 0
  | _ => True

structure Inv (s : HandlerSys Chats Pos) : Prop where
  ok : s.Ok InStep
  ids : (s.work.messages.map (·.id)).Nodup
  once : s.work.Once
  sane : ∀ i x, s.run i = some x → Sane s.work x.pc.stage

theorem Sane.mono {w w' : Chats} {st : Stage} (h : Sane w st)
    (hout : ∀ o ∈ w.outcomes, o ∈ w'.outcomes) : Sane w' st :=
  ⟨fun n hn c hc => hout _ (h.conflicts n hn c hc), h.total, h.failing⟩

theorem Sane.claiming (w : Chats) : Sane w .claiming :=
  ⟨nofun, nofun, nofun⟩

@[simp] theorem Counts.after_processed (n : Counts) (c : ConversationId) (o : Outcome) :
    (n.after c o).processed = n.processed + 1 := by
  cases o <;> rfl

section
variable {db : JobDb} {w w' : Chats} {c : Claim} {owner : OwnerId} {st st' : Stage}
  {next : Option Stage} {jobs : List Job} {r r' : Job}

theorem Reads.sane (h : Reads w owner st st') (hsane : Sane w st) : Sane w st' := by
  cases h with
  | counting =>
    refine ⟨nofun, fun p hp => ?_, nofun⟩
    obtain rfl := Option.some.inj hp
    exact Nat.zero_le _
  | candidate n cand total ht =>
    refine ⟨fun m hm => ?_, fun p hp => ?_, nofun⟩
    · obtain rfl := Option.some.inj hm
      exact hsane.conflicts n rfl
    · obtain rfl := Option.some.inj hp
      exact ht
  | cancel n => exact ⟨nofun, nofun, nofun⟩
  | done n capped message => exact ⟨nofun, nofun, nofun⟩
  | capped n _ | renew n _ | none n _ => exact ⟨hsane.conflicts, nofun, nofun⟩

/-- where a run is after its step, if the database took its progress -/
theorem Goes.sane (h : Goes db w c owner st jobs w' (some st')) (hsane : Sane w st)
    (hfresh : ∀ total, st = .starting total → ∀ r, c.Held db.jobs r → r.progressCurrent = 0) :
    Sane w' st' := by
  cases h with
  | reads h => exact h.sane hsane
  | claims st' held hst => rcases hst with rfl | rfl <;> exact ⟨nofun, nofun, nofun⟩
  | renews n held hq => exact ⟨hsane.conflicts, nofun, nofun⟩
  | starts total held h =>
    refine ⟨fun n hn d hd => ?_, nofun, nofun⟩
    obtain rfl := Option.some.inj hn
    cases hd
  | refused total held h => exact absurd (hfresh total rfl _ held) h
  | @numbers _ n cand held messages outcome h =>
    refine ⟨fun m hm d hd => ?_, nofun, nofun⟩
    obtain rfl := Option.some.inj hm
    -- only a conflict adds to the set
    have hold : d ∈ n.conflicted → (d, Outcome.conflict) ∈ w.outcomes ++ [(cand, outcome)] := fun hd =>
      List.mem_append_left _ (hsane.conflicts n rfl d hd)
    cases outcome with
    | numbered k => exact hold hd
    | conflict =>
      rcases List.mem_cons.1 hd with rfl | hd
      · exact List.mem_append_right _ (List.mem_singleton.2 rfl)
      · exact hold hd
  | tooLong n cand =>
    refine ⟨nofun, nofun, fun e he => ?_⟩
    cases he
    rfl

theorem Goes.inStep (h : Goes db w c owner st jobs w' (some st'))
    (hrow : ∀ r, c.Held db.jobs r → InStep w c ⟨owner, st⟩ r) :
    ∀ r, c.Held jobs r → InStep w' c ⟨owner, st'⟩ r := by
  intro q hq n hn
  cases h with
  | reads h =>
    cases h with
    | counting | cancel n | done n capped message => cases hn
    | candidate m cand total ht =>
      obtain rfl := Option.some.inj hn
      exact hrow q hq m rfl
    | capped m _ | renew m _ | none m _ => exact hrow q hq n hn
  | claims st' held hst => rcases hst with rfl | rfl <;> cases hn
  | renews m held hquiet =>
    rw [held.set hq, hquiet.current]
    exact hrow _ held n hn
  | starts total held h =>
    obtain rfl := Option.some.inj hn
    rw [held.set hq]
    rfl
  | refused total held h => cases hn
  | numbers m cand held h =>
    obtain rfl := Option.some.inj hn
    rw [held.set hq, Counts.after_processed]
    rfl
  | tooLong m cand => cases hn

theorem Goes.ownWrite (h : Goes db w c owner st jobs w' next) (hchecks : ∀ r ∈ db.jobs, r.checks)
    (hsane : Sane w st) : HandlerSys.OwnWrite db.jobs c jobs := by
  have hheld : ∀ {r}, c.Held db.jobs r → r.checks := fun hr => hchecks _ (List.mem_of_getElem? hr.1)
  cases h with
  | lost st h | reads h | refused total held h | tooLong n cand => exact .inl rfl
  | claims st' held hst => exact .inr ⟨_, _, held, rfl, hheld held, rfl, rfl⟩
  | renews n held hq | closes held h hq =>
    exact .inr ⟨_, _, held, rfl, hq.checks, hq.generation, hq.refs⟩
  | starts total held h =>
    exact .inr ⟨_, _, held, rfl, progressed_checks (hheld held) _ (Nat.zero_le _), rfl, rfl⟩
  | numbers n cand held h =>
    exact .inr ⟨_, _, held, rfl, progressed_checks (hheld held) _ (hsane.total _ rfl), rfl, rfl⟩

theorem Goes.outcomes (h : Goes db w c owner st jobs w' next) : ∀ o ∈ w.outcomes, o ∈ w'.outcomes := by
  cases h with
  | numbers n cand held h => exact fun o ho => List.mem_append_left _ ho
  | _ => exact fun o ho => ho

theorem Goes.ids (h : Goes db w c owner st jobs w' next) (hids : (w.messages.map (·.id)).Nodup) :
    (w'.messages.map (·.id)).Nodup := by
  cases h with
  | numbers n cand held h =>
    rcases numberConversation_ok h with ⟨rfl, -⟩ | ⟨rfl, -⟩
    · exact hids
    · show ((w.messages.map _).map _).Nodup
      rw [List.map_map]
      have hid : (fun m : Message => m.id) ∘ numberRow (ordered w.messages cand) = (·.id) := by
        funext m
        exact numberRow_id m
      rw [hid]
      exact hids
  | _ => exact hids

theorem Goes.once (h : Goes db w c owner st jobs w' next) (hids : (w.messages.map (·.id)).Nodup)
    (honce : w.Once) : w'.Once := by
  cases h with
  | numbers n cand held h => exact honce.number hids h
  | _ => exact honce

theorem Goes.shorter (h : Goes db w c owner st jobs w' (some st')) : st'.left < st.left := by
  cases h with
  | reads h =>
    cases h with
    | renew n hn =>
      show 4 * _ + 6 < 4 * _ + 3
      omega
    | candidate n cand total ht => exact Nat.lt_succ_self _
    | _ => simp [Stage.left]
  | claims st' held hst => rcases hst with rfl | rfl <;> simp [Stage.left]
  | renews n held hq => exact Nat.lt_succ_self _
  | starts total held h => exact Nat.lt_succ_self _
  | refused total held h => simp [Stage.left]
  | numbers n cand held h =>
    simp only [Stage.left, Counts.after_processed]
    omega
  | tooLong n cand => simp [Stage.left]

theorem progress_set (hr : c.Held db.jobs r) (h : r'.progressCurrent = r.progressCurrent) (j : JobId) :
    ((db.jobs.set c.job r')[j]?).map (·.progressCurrent) = (db.jobs[j]?).map (·.progressCurrent) := by
  rw [getElem?_set_row hr.1]
  split
  · next hj => rw [← hj, hr.1, Option.map_some, Option.map_some, h]
  · rfl

theorem Goes.together (h : Goes db w c owner st jobs w' next)
    (hrow : ∀ r, c.Held db.jobs r → InStep w c ⟨owner, st⟩ r) :
    (w' = w ∧ ∀ j : JobId,
      (jobs[j]?).map (·.progressCurrent) = (db.jobs[j]?).map (·.progressCurrent)) ∨
    (w'.outcomes.length = w.outcomes.length + 1 ∧ (jobs[c.job]?).map (·.progressCurrent) =
      (db.jobs[c.job]?).map (·.progressCurrent + 1)) := by
  cases h with
  | lost st h | reads h | refused total held h | tooLong n cand => exact .inl ⟨rfl, fun _ => rfl⟩
  | claims st' held hst => exact .inl ⟨rfl, progress_set held rfl⟩
  | renews n held hq | closes held h hq => exact .inl ⟨rfl, progress_set held hq.current⟩
  | starts total held h => exact .inl ⟨rfl, progress_set held h.symm⟩
  | numbers n cand held h =>
    refine .inr ⟨List.length_append, ?_⟩
    rw [getElem?_set_row held.1, if_pos rfl, held.1, Option.map_some, Option.map_some,
      hrow _ held n rfl]
    rfl

theorem Goes.ended (h : Goes db w c owner st jobs w' none) (hsane : Sane w st) :
    (∀ r, ¬ c.Held db.jobs r) ∨ ∃ r, jobs[c.job]? = some r ∧
      (r.status = .completed ∨ st = .cancelling ∧ r.status = .cancelled ∨
        (st = .declining ∨ st = .failing .dataError) ∧ r.status = .failed) := by
  cases h with
  | lost st h => exact .inl h
  | @closes r r' st held h hq =>
    refine .inr ⟨r', by rw [getElem?_set_row held.1, if_pos rfl], ?_⟩
    generalize hst : r'.status = status at h
    cases h with
    | declined => exact .inr (.inr ⟨.inl rfl, rfl⟩)
    | cancelled => exact .inr (.inl ⟨rfl, rfl⟩)
    | completed message => exact .inl rfl
    | failed e =>
      obtain rfl := hsane.failing e rfl
      exact .inr (.inr ⟨.inr rfl, rfl⟩)

/-- the candidates are the conversations that are not in the set -/
theorem mem_of_no_candidate {exclude : List ConversationId}
    (h : candidateConversationIds w owner 1 exclude = []) :
    ∀ d ∈ w.unsequenced owner, d.id ∈ exclude := by
  intro d hd
  by_contra hno
  have hmem : d.id ∈ (((w.unsequenced owner).filter (·.id ∉ exclude)).insertionSort
      olderConversation).map (·.id) :=
    List.mem_map_of_mem ((List.mem_insertionSort _).2 (List.mem_filter.2 ⟨hd, by simpa using hno⟩))
  rcases List.take_eq_nil_iff.1 h with h | h
  · cases h
  · rw [h] at hmem
    cases hmem

theorem Goes.complete (h : Goes db w c owner st jobs w' (some (.ending n false))) (hsane : Sane w st) :
    ∀ d ∈ w.unsequenced owner, (d.id, .conflict) ∈ w.outcomes := by
  intro d hd
  cases h with
  | reads h =>
    cases h with
    | none n hnone => exact hsane.conflicts n rfl _ (mem_of_no_candidate hnone d hd)
  | claims st' held hst => rcases hst with h | h <;> cases h

end

/-- a step of a run, on the whole system -/
theorem exec_step {env : Env} {jobs : List Job} {w' : Chats} {next : Option Stage}
    (hi : s.run i = some x)
    (h : step env s.db s.work x.claim x.pc = (jobs, w', next.map (Pos.mk x.pc.owner))) :
    Op.exec s (.step i env) = ⟨{ s.db with jobs }, w',
      s.runs.set i (next.map fun st => ⟨x.claim, x.pc.owner, st⟩)⟩ := by
  refine (HandlerSys.exec_step (h := backfillJob) hi h).trans ?_
  rw [Option.map_map]
  rfl

namespace Inv

/-- **A step of a run** resumes the job exactly if the run starts on a job without progress. -/
theorem resumes_iff (hs : Inv s) (o : Op) : Op.Resumes s o ↔ Op.startsFresh s o := by
  cases o with
  | queue o | outside o | crash j => exact iff_of_true (fun _ _ _ h => nomatch h) trivial
  | step i env =>
    constructor
    · intro h x total hi hst r hr
      -- the trigger refuses a decrease
      by_contra hne
      refine (h i env x rfl hi).accepted (0, total) (by rw [hst]; rfl)
        "mainai_jobs_deny_progress_regression" ?_
      rw [writeProgress_eq]
      exact hr.write_refused _ (progressed_checks (hs.ok.checks r (List.mem_of_getElem? hr.1)) _
        (Nat.zero_le total)) fun hk => hne (Nat.le_zero.1 ((progressKept_running hr.running).1 hk))
    · intro hfresh j env' x ho hi
      cases ho
      obtain ⟨jobs, w', next, hstep, hgoes⟩ := goes env x.pc.owner x.pc.stage
        hs.ids hs.ok.checks (fun r hr => hs.ok.rel i x r hi hr) (hs.sane i x hi)
      have hrun := HandlerSys.run_set_self { s.db with jobs } w'
        (next.map fun st => ⟨x.claim, x.pc.owner, st⟩) hi
      rw [exec_step hi hstep]
      refine ⟨fun p hp m hw => ?_, hgoes.together fun r hr => hs.ok.rel i x r hi hr,
        fun y hy => ?_, fun hnone => ?_, fun y n hy hst => ?_⟩
      · rw [writeProgress_eq] at hw
        by_cases hheld : ∃ r, x.claim.Held s.db.jobs r
        · obtain ⟨r, hr⟩ := hheld
          have hle : r.progressCurrent ≤ p.1 := by
            cases hstage : x.pc.stage with
            | starting total =>
              rw [hfresh x total hi hstage r hr]
              exact Nat.zero_le _
            | numbering n cand =>
              have hrow : r.progressCurrent = n.processed :=
                hs.ok.rel i x r hi hr n (by rw [hstage]; rfl)
              rw [hstage] at hp
              obtain rfl := Option.some.inj hp
              show r.progressCurrent ≤ n.processed + 1
              omega
            | _ =>
              rw [hstage] at hp
              cases hp
          rw [hr.write (progressed_checks (hs.ok.checks r (List.mem_of_getElem? hr.1)) _
            ((hs.sane i x hi).total p hp)) ((progressKept_running hr.running).2 hle)] at hw
          cases hw
        · rw [Claim.write_lost (not_exists.1 hheld)] at hw
          cases hw
      · rw [hrun] at hy
        obtain ⟨st', hst', rfl⟩ := Option.map_eq_some_iff.1 hy
        subst hst'
        exact hgoes.shorter
      · rw [hrun, Option.map_eq_none_iff] at hnone
        subst hnone
        exact hgoes.ended (hs.sane i x hi)
      · rw [hrun] at hy
        obtain ⟨st', hst', rfl⟩ := Option.map_eq_some_iff.1 hy
        subst hst'
        obtain rfl : st' = .ending n false := hst
        exact hgoes.complete (hs.sane i x hi)

/-- the invariant along the runs that resume -/
theorem exec (hs : Inv s) (o : Op) (hfresh : Op.startsFresh s o) : Inv (o.exec s) := by
  cases o with
  | queue o =>
    have hok : (Op.exec s (.queue o)).Ok InStep :=
      hs.ok.queue o (fun w c pc r r' hsame h n hn => hsame.current.trans (h n hn))
        fun w c owner r n hn => nomatch hn
    have hwork : (Op.exec s (.queue o)).work = s.work := HandlerSys.exec_queue_work o
    refine ⟨hok, hwork ▸ hs.ids, hwork ▸ hs.once, fun k y hk => ?_⟩
    rw [hwork]
    rcases HandlerSys.run_queue hk with hk | ⟨owner, hpc⟩
    · exact hs.sane k y hk
    · rw [hpc]
      exact .claiming s.work
  | outside o =>
    exact ⟨hs.ok.outside o fun w c pc r h => h, Chats.outside_ids hs.ids o, hs.once.outside o,
      fun k y hk => (hs.sane k y hk).mono fun a ha =>
        (Chats.outside_outcomes (w := s.work) o).symm ▸ ha⟩
  | crash j =>
    refine ⟨hs.ok.crash j, hs.ids, hs.once, fun k y hk => ?_⟩
    rcases HandlerSys.run_set hk with ⟨-, hy⟩ | ⟨-, hk⟩
    · cases hy
    · exact hs.sane k y hk
  | step i env =>
    cases hi : s.run i with
    | none =>
      have hexec : Op.exec s (.step i env) = s := HandlerSys.exec_step_none hi
      exact hexec.symm ▸ hs
    | some x =>
      obtain ⟨jobs, w', next, hstep, hgoes⟩ := goes env x.pc.owner x.pc.stage
        hs.ids hs.ok.checks (fun r hr => hs.ok.rel i x r hi hr) (hs.sane i x hi)
      have hok : (Op.exec s (.step i env)).Ok InStep := by
        refine hs.ok.step hi hstep (hgoes.ownWrite hs.ok.checks (hs.sane i x hi))
          (fun y r _ _ h => h) fun pc r hpc hr => ?_
        obtain ⟨st', rfl, rfl⟩ := Option.map_eq_some_iff.1 hpc
        exact hgoes.inStep (fun r hr => hs.ok.rel i x r hi hr) r hr
      rw [exec_step hi hstep] at hok ⊢
      refine ⟨hok, hgoes.ids hs.ids, hgoes.once hs.ids hs.once, fun k y hk => ?_⟩
      rcases HandlerSys.run_set hk with ⟨-, hy⟩ | ⟨-, hk⟩
      · obtain ⟨st', hst', rfl⟩ := Option.map_eq_some_iff.1 hy
        subst hst'
        exact hgoes.sane (hs.sane i x hi) fun total hst r hr => hfresh x total hi hst r hr
      · exact (hs.sane k y hk).mono hgoes.outcomes

end Inv

/-- the conversations of any number of owners, their messages with and without ordinals -/
structure Archive where
  conversations : List Conversation
  messages : List Message
  ids : (messages.map (·.id)).Nodup
  before : ∀ m ∈ messages, ¬ m.backfilled

def Archive.start (a : Archive) : HandlerSys Chats Pos :=
  { work := { conversations := a.conversations, messages := a.messages } }

theorem Archive.inv (a : Archive) : Inv a.start := by
  have hrun : ∀ i, a.start.run i = none := fun _ => rfl
  refine ⟨⟨fun r hr => absurd hr List.not_mem_nil, fun i x hi => ?_, fun i k x y hi => ?_,
      fun i x r hi => ?_⟩, a.ids,
    ⟨fun c => Nat.zero_le 1, fun c hc => absurd rfl hc, fun m hm hback => absurd hback (a.before m hm)⟩,
    fun i x hi => ?_⟩ <;>
  · rw [hrun] at hi
    cases hi

/-- **The numbering job is resumable, if it starts over.**  Along every run of any number of workers,
with deaths, expired leases and retries: every step of a run of the job is accepted by the database,
brings the run nearer to its end, numbers a conversation together with the progress, and ends with
the job completed, cancelled or taken away, and no conversation is numbered twice, exactly if
every initial progress write finds the progress of the job at zero. -/
theorem backfill_resumes (a : Archive) (os : List Op) :
    ((∀ p ∈ Run.trace Op.exec a.start os, Op.Resumes p.1 p.2) ∧
      Run.Always Op.exec (fun t => t.work.Once) a.start os) ↔
    Run.Meets Op.exec Op.startsFresh a.start os := by
  have hsteps : (∀ p ∈ Run.trace Op.exec a.start os, Op.Resumes p.1 p.2) ↔
      Run.Meets Op.exec Op.startsFresh a.start os :=
    Run.trace_iff_meets (I := Inv) (D := Op.Resumes) (fun s o hs => hs.resumes_iff o)
      (fun s o hs hD => hs.exec o ((hs.resumes_iff o).1 hD)) a.inv os
  constructor
  · exact fun h => hsteps.1 h.1
  · intro h
    exact ⟨hsteps.2 h, Run.always (fun s hs => hs.once) (fun s o hs hC => hs.exec o hC) a.inv h⟩

/-- two conversations with a message each -/
def twoConversations : Archive where
  conversations := [⟨0, 0, 0⟩, ⟨1, 0, 0⟩]
  messages := [{ id := 0, conversationId := 0, createdAt := 0 },
    { id := 1, conversationId := 1, createdAt := 0 }]
  ids := by decide
  before := by decide

/-- a worker dies between the two, and another one claims the job when the lease has run out -/
def diesHalfway : List Op :=
  [.queue (.createJob 0 .messageSequenceBackfill []), .queue (.claimNext "worker-1" 60 [])] ++
    List.replicate 7 (.step 0 {}) ++
    [.crash 0, .queue (.tick 61), .queue (.claimNext "worker-2" 60 []), .step 1 {}, .step 1 {}]

/-- The database refuses the initial progress of the second run, and with the job failed, the second
conversation stays without ordinals. -/
theorem backfill_halfway :
    let os := diesHalfway ++ [.step 1 {}]
    let t := Run.run Op.exec twoConversations.start (os ++ [.step 1 {}])
    ¬ ((∀ p ∈ Run.trace Op.exec twoConversations.start os, Op.Resumes p.1 p.2) ∧
      Run.Always Op.exec (fun t => t.work.Once) twoConversations.start os) ∧
    t.db.jobs.map (·.status) = [.failed] ∧ t.work.messages.map (·.sequenceNumber) = [some 1, none] := by
  have hrun : (Run.run Op.exec twoConversations.start diesHalfway).run 1 =
      some ⟨⟨0, "worker-2", 2⟩, ⟨0, .starting 1⟩⟩ := by decide
  have hwrite : writeProgress (Run.run Op.exec twoConversations.start diesHalfway).db.jobs
      ⟨0, "worker-2", 2⟩ (0, 1) = .error refusal := by decide
  refine ⟨fun h => ?_, by decide, by decide +kernel⟩
  generalize hs : Run.run Op.exec twoConversations.start diesHalfway = s at hrun hwrite
  have hmem : (s, .step 1 {}) ∈ Run.trace Op.exec twoConversations.start
      (diesHalfway ++ [.step 1 {}]) := by
    rw [Run.trace_append, hs]
    exact List.mem_append_right _ (List.mem_singleton.2 rfl)
  exact (h.1 _ hmem 1 {} _ rfl hrun).accepted (0, 1) rfl _ hwrite

end Backfill

end LifeAI.Messages
