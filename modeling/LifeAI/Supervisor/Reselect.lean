import LifeAI.Supervisor.Selection

/-!
# Selecting a task again

The evidence of a selection is replayed only while the candidates are those of the first selection
of the task for its job.

* `SupervisorDb.onRecord`  the evidence that stands under the keys of a selection;
* `Records`                what holds of the rows in every run;
* `note_returns_iff`       when the records of a selection go through.
-/

namespace LifeAI

/-- the row that stands under the keys of the selection -/
def SupervisorDb.onRecord (db : SupervisorDb) (x : Selection) : Option SelectionEvidence :=
  (Keyed.find SelectionExecution.key db.executions x.execution).bind fun e =>
    (Keyed.find SelectionEvidence.key db.evidence (x.evidence e.1)).map Prod.snd

/-- the step does not fail on the record of an earlier selection -/
def SelectionStep.Unpoisoned (db : SupervisorDb) : SelectionStep → Prop
  | .op _ => True
  | .pass p => ∀ fields, (p.run (Tx.opened db)).1 ≠ .error (.idempotencyConflict fields)

/-- what is on record for the task and the job carries the same candidates and contribution -/
def SelectionStep.fits (db : SupervisorDb) : SelectionStep → Prop
  | .op _ => True
  | .pass p => ∀ x r, (p.prepare (Tx.opened db)).1 = .ok (some x) → db.onRecord x = some r →
      r.payload = x.payload ∧ r.sourceRef = x.goalId

/-! ## keys -/

theorem toList_repr (n : Nat) : (Nat.repr n).toList = Nat.toDigits 10 n := by
  simp [Nat.repr]

theorem colon_notMem_repr (n : Nat) : ':' ∉ (Nat.repr n).toList := by
  intro h
  rw [toList_repr] at h
  exact absurd (Nat.isDigit_of_mem_toDigits (by omega) (by omega) h) (by decide)

theorem repr_toList_inj {m n : Nat} (h : (Nat.repr m).toList = (Nat.repr n).toList) : m = n := by
  rw [toList_repr, toList_repr] at h
  rw [← Nat.ofDigitChars_toDigits (b := 10) (n := m) (by omega) (by omega), h,
    Nat.ofDigitChars_toDigits (by omega) (by omega)]

theorem executionKey_inj {i i' : TaskId} {j j' : JobId} (h : executionKey i j = executionKey i' j') :
    i = i' ∧ j = j' := by
  have hlist := congrArg String.toList ((String.append_right_inj _).1 h)
  simp only [String.toList_append] at hlist
  rw [show ":".toList = [':'] from rfl, List.append_assoc, List.append_assoc] at hlist
  obtain ⟨hi, hj⟩ := (Text.append_cons_inj (colon_notMem_repr i) (colon_notMem_repr i')).1 hlist
  exact ⟨repr_toList_inj hi, repr_toList_inj hj⟩

/-! ## the rows of every run -/

/-- the keys of executions name them, and the evidence is of executions that are there -/
structure Records (db : SupervisorDb) : Prop where
  named : ∀ y ∈ db.executions, y.idempotencyKey = executionKey y.taskId y.jobId
  known : ∀ r ∈ db.evidence, r.executionId < db.executions.length
  plain : ∀ r ∈ db.evidence, ∃ x : Selection, r = x.evidence r.executionId

variable {db w : SupervisorDb} {x : Selection}

theorem differing_nil {fields : List (String × Bool)} :
    differing fields = [] ↔ ∀ f ∈ fields, f.2 = true := by
  unfold differing
  rw [List.map_eq_nil_iff, List.filter_eq_nil_iff]
  refine forall₂_congr fun f _ => ?_
  simp

/-- the answer of `_same_or_conflict` -/
theorem differing_match {fields : List (String × Bool)} :
    (match differing fields with
      | [] => none
      | fs => some (PassErr.idempotencyConflict fs)) = none ↔ ∀ f ∈ fields, f.2 = true := by
  rw [← differing_nil]
  cases differing fields with
  | nil => exact iff_of_true rfl rfl
  | cons f fs => exact iff_of_false (by rintro ⟨⟩) (by rintro ⟨⟩)

theorem execution_conflict {y : SelectionExecution} :
    y.conflict x.execution = none ↔ y.taskId = x.taskId ∧ y.jobId = x.jobId := by
  refine differing_match.trans ?_
  simp only [Selection.execution, List.forall_mem_cons, List.not_mem_nil, false_imp_iff,
    implies_true, and_true]
  exact (and_congr decide_eq_true_iff decide_eq_true_iff).trans and_comm

theorem evidence_conflict {r : SelectionEvidence} {e : Nat} (hr : ∃ x' : Selection, r = x'.evidence e) :
    r.conflict (x.evidence e) = none ↔ r.payload = x.payload ∧ r.sourceRef = x.goalId := by
  obtain ⟨x', rfl⟩ := hr
  refine differing_match.trans ?_
  simp only [Selection.evidence, List.forall_mem_cons, List.not_mem_nil, false_imp_iff,
    implies_true, and_true, decide_true, true_and]
  exact and_congr decide_eq_true_iff decide_eq_true_iff

/-- `_same_or_conflict` raises nothing but an `IdempotencyConflict` -/
theorem conflict_raises {r v : SelectionEvidence} {e : PassErr} (h : r.conflict v = some e) :
    ∃ fields, e = .idempotencyConflict fields := by
  unfold SelectionEvidence.conflict at h
  split at h
  · cases h
  · cases h
    exact ⟨_, rfl⟩

/-- the execution record is always there afterwards -/
theorem recordExecution_ok (h : Records db) (x : Selection) :
    ∃ e w, recordSelectionExecution x db = .ok (e, w) ∧ Records w ∧ e < w.executions.length ∧
      db.onRecord x = (Keyed.find SelectionEvidence.key w.evidence (x.evidence e)).map Prod.snd := by
  unfold recordSelectionExecution SupervisorDb.onRecord
  cases hf : Keyed.find SelectionExecution.key db.executions x.execution with
  | some p =>
    obtain ⟨j, y⟩ := p
    obtain ⟨hy, hkey⟩ := Keyed.find_some hf
    have hname := h.named y (List.mem_of_getElem? hy)
    have hsame : executionKey y.taskId y.jobId = executionKey x.taskId x.jobId := by
      rw [← hname]
      exact congrArg Prod.snd hkey
    rw [Keyed.record_found hf, execution_conflict.2 (executionKey_inj hsame)]
    exact ⟨j, db, rfl, h, (List.getElem?_eq_some_iff.1 hy).1, rfl⟩
  | none =>
    rw [Keyed.record_new hf]
    refine ⟨db.executions.length, { db with executions := db.executions ++ [x.execution] }, rfl,
      ⟨?_, ?_, h.plain⟩, ?_, ?_⟩
    · intro y hy
      rcases List.mem_append.1 hy with hy | hy
      · exact h.named y hy
      · rw [List.mem_singleton.1 hy]
        rfl
    · intro r hr
      rw [List.length_append]
      exact Nat.lt_add_right _ (h.known r hr)
    · rw [List.length_append]
      exact Nat.lt_succ_self _
    · -- no evidence of an execution that was not there
      have hnone : Keyed.find SelectionEvidence.key db.evidence
          (x.evidence db.executions.length) = none := by
        refine Keyed.find_eq_none.2 fun r hr hk => ?_
        have hid : r.executionId = db.executions.length := congrArg (fun k => k.2.1) hk
        exact absurd (h.known r hr) (by omega)
      rw [Option.bind_none, hnone]
      rfl

/-- the evidence goes through exactly when what is on record agrees with it -/
theorem recordEvidence_cases (h : Records db) (x : Selection) {e : Nat} (he : e < db.executions.length) :
    (∃ k w, recordSelectionEvidence x e db = .ok (k, w) ∧ Records w ∧
      ∀ r, (Keyed.find SelectionEvidence.key db.evidence (x.evidence e)).map Prod.snd = some r →
        r.payload = x.payload ∧ r.sourceRef = x.goalId) ∨
    (∃ fields r, recordSelectionEvidence x e db = .error (.idempotencyConflict fields) ∧
      (Keyed.find SelectionEvidence.key db.evidence (x.evidence e)).map Prod.snd = some r ∧
        ¬ (r.payload = x.payload ∧ r.sourceRef = x.goalId)) := by
  unfold recordSelectionEvidence
  cases hf : Keyed.find SelectionEvidence.key db.evidence (x.evidence e) with
  | some p =>
    obtain ⟨j, r⟩ := p
    obtain ⟨hr, hkey⟩ := Keyed.find_some hf
    have hplain : ∃ x' : Selection, r = x'.evidence e := by
      obtain ⟨x', hx'⟩ := h.plain r (List.mem_of_getElem? hr)
      have hid : r.executionId = e := congrArg (fun k => k.2.1) hkey
      rw [hid] at hx'
      exact ⟨x', hx'⟩
    rw [Keyed.record_found hf]
    cases hc : r.conflict (x.evidence e) with
    | none =>
      refine .inl ⟨j, db, rfl, h, fun r' hr' => ?_⟩
      cases hr'
      exact (evidence_conflict hplain).1 hc
    | some err =>
      obtain ⟨fields, rfl⟩ := conflict_raises hc
      refine .inr ⟨fields, r, rfl, rfl, fun hagree => ?_⟩
      rw [(evidence_conflict hplain).2 hagree] at hc
      cases hc
  | none =>
    rw [Keyed.record_new hf]
    refine .inl ⟨_, { db with evidence := db.evidence ++ [x.evidence e] }, rfl, ⟨h.named, ?_, ?_⟩,
      fun r hr => by cases hr⟩
    · intro r hr
      rcases List.mem_append.1 hr with hr | hr
      · exact h.known r hr
      · rw [List.mem_singleton.1 hr]
        exact he
    · intro r hr
      rcases List.mem_append.1 hr with hr | hr
      · exact h.plain r hr
      · rw [List.mem_singleton.1 hr]
        exact ⟨x, rfl⟩

/-! ## a pass -/

/-- what is on record for a selection agrees with it -/
def SupervisorDb.Agrees (db : SupervisorDb) (x : Selection) : Prop :=
  ∀ r, db.onRecord x = some r → r.payload = x.payload ∧ r.sourceRef = x.goalId

theorem note_cases {s : Session SupervisorDb} (h : Records s.work) (x : Selection) :
    (∃ s', SelectionPass.note x s = (.ok (), s') ∧ s'.durable = s.durable ∧ Records s'.work ∧
      s.work.Agrees x) ∨
    (∃ fields s', SelectionPass.note x s = (.error (.idempotencyConflict fields), s') ∧
      s'.durable = s.durable ∧ ¬ s.work.Agrees x) := by
  obtain ⟨e, w, hw, hrec, he, hon⟩ := recordExecution_ok h x
  unfold SelectionPass.note SupervisorDb.Agrees
  rw [Tx.bind_ok (Tx.flush_ok hw), hon]
  rcases recordEvidence_cases hrec x he with ⟨k, w', hw', hrec', hagree⟩ | ⟨fields, r, hw', hr, hno⟩
  · left
    rw [Tx.bind_ok (Tx.flush_ok hw')]
    exact ⟨_, rfl, rfl, hrec', hagree⟩
  · right
    rw [Tx.bind_error (Tx.flush_error hw')]
    exact ⟨fields, _, rfl, rfl, fun hagree => hno (hagree r hr)⟩

/-- an exception that is not about evidence -/
def PassErr.other : PassErr → Prop
  | .idempotencyConflict _ => False
  | _ => True

theorem prepare_raises (p : SelectionPass) : Tx.Raises PassErr.other p.prepare := by
  have htables : ∀ {α : Type} (m : Tx Db Err α),
      Tx.Raises PassErr.other (SelectionPass.onTables m) := by
    intro α m
    exact .mapErr (fun _ => trivial) _
  refine .bind (.flush fun w e h => ?_) fun choice => ?_
  · split at h
    · cases h
      trivial
    · cases h
    · split at h
      · cases h
        trivial
      · cases h
  · split
    · exact .pure _
    · refine .bind (.bind (htables _) fun t => ?_) fun j => ?_
      · split
        · exact htables _
        · exact htables _
      · split
        · exact .raise trivial
        · refine .bind (.flush fun w e h => ?_) fun _ => .pure _
          unfold SelectionPass.claimJob at h
          split at h
          · cases h
            trivial
          · cases h
          · split at h
            · cases h
            · cases h
              trivial

/-- the rows of the evidence, as `prepare` leaves them -/
def SupervisorDb.SameRows (db w : SupervisorDb) : Prop :=
  w.executions = db.executions ∧ w.evidence = db.evidence

theorem prepare_keeps (p : SelectionPass) (db : SupervisorDb) : Tx.Keeps db.SameRows p.prepare := by
  have htables : ∀ {α : Type} (m : Tx Db Err α),
      Tx.Keeps db.SameRows (SelectionPass.onTables m) := by
    intro α m
    exact .mapErr (.zoom m fun _ _ h => h)
  refine .bind (.flush fun w a w' hw h => ?_) fun choice => ?_
  · split at h
    · cases h
    · cases h
      exact hw
    · split at h
      · cases h
      · cases h
        exact hw
  · split
    · exact .pure _
    · refine .bind (.bind (htables _) fun t => ?_) fun j => ?_
      · split
        · exact htables _
        · exact htables _
      · split
        · exact .raise _
        · refine .bind (.flush fun w a w' hw h => ?_) fun _ => .pure _
          unfold SelectionPass.claimJob at h
          split at h
          · cases h
          · cases h
            exact hw
          · split at h
            · cases h
              exact hw
            · cases h

theorem Records.congr (h : Records db) (hw : db.SameRows w) : Records w := by
  obtain ⟨hexec, hev⟩ := hw
  exact ⟨by rw [hexec]; exact h.named, by rw [hexec, hev]; exact h.known,
    by rw [hev]; exact h.plain⟩

theorem SupervisorDb.SameRows.agrees (hw : db.SameRows w) : w.Agrees x ↔ db.Agrees x := by
  unfold Agrees onRecord
  rw [hw.1, hw.2]

/-- the ways of a pass -/
theorem run_cases (h : Records db) (p : SelectionPass) :
    (∃ r s, p.run (Tx.opened db) = (r, s) ∧ Records s.durable ∧ (r.isOk → Records s.work) ∧
      (∀ e, r = .error e → e.other) ∧
      ∀ x, (p.prepare (Tx.opened db)).1 = .ok (some x) → db.Agrees x) ∨
    (∃ fields s x, p.run (Tx.opened db) = (.error (.idempotencyConflict fields), s) ∧
      Records s.durable ∧ (p.prepare (Tx.opened db)).1 = .ok (some x) ∧ ¬ db.Agrees x) := by
  have hkeeps := prepare_keeps p db (Tx.opened db) ⟨rfl, rfl⟩ ⟨rfl, rfl⟩
  have hraises := prepare_raises p (Tx.opened db)
  unfold SelectionPass.run
  rcases hprep : p.prepare (Tx.opened db) with ⟨r, s⟩
  rw [hprep] at hkeeps hraises
  obtain ⟨hdurable, hwork⟩ := hkeeps
  cases r with
  | error e =>
    rw [Tx.bind_error hprep]
    refine .inl ⟨_, s, rfl, h.congr hdurable, (by rintro ⟨⟩), fun e' he => ?_, by rintro x ⟨⟩⟩
    cases he
    exact hraises e rfl
  | ok choice =>
    rw [Tx.bind_ok hprep]
    cases choice with
    | none =>
      exact .inl ⟨_, s, rfl, h.congr hdurable, fun _ => h.congr hwork, (by rintro e ⟨⟩),
        by rintro x ⟨⟩⟩
    | some x =>
      dsimp only
      rcases note_cases (h.congr hwork) x with ⟨s', hs', hd, hrec, hagree⟩ |
        ⟨fields, s', hs', hd, hno⟩
      · rw [Tx.bind_ok hs']
        refine .inl ⟨_, s', rfl, ?_, fun _ => hrec, (by rintro e ⟨⟩), fun x' hx' => ?_⟩
        · rw [hd]
          exact h.congr hdurable
        · cases hx'
          exact hwork.agrees.1 hagree
      · rw [Tx.bind_error hs']
        refine .inr ⟨fields, s', x, rfl, ?_, rfl, fun hagree => hno (hwork.agrees.2 hagree)⟩
        rw [hd]
        exact h.congr hdurable

theorem unpoisoned_iff (h : Records db) (o : SelectionStep) : o.Unpoisoned db ↔ o.fits db := by
  cases o with
  | op o => exact Iff.rfl
  | pass p =>
    unfold SelectionStep.Unpoisoned SelectionStep.fits
    dsimp only
    rcases run_cases h p with ⟨r, s, hrun, -, -, hother, hagree⟩ |
      ⟨fields, s, x, hrun, -, hx, hno⟩
    · rw [hrun]
      refine iff_of_true (fun fields hr => hother _ hr) fun x r hx hr => hagree x hx r hr
    · rw [hrun]
      exact iff_of_false (fun hf => hf fields rfl) fun hf => hno fun r hr => hf x r hx hr

theorem Records.step (h : Records db) (o : SelectionStep) : Records (o.step db) := by
  cases o with
  | op o => exact ⟨h.named, h.known, h.plain⟩
  | pass p =>
    unfold SelectionStep.step
    dsimp only
    rcases run_cases h p with ⟨r, s, hrun, hdurable, hwork, -, -⟩ | ⟨fields, s, x, hrun, hdurable, -, -⟩
    · rw [hrun]
      split
      · cases r with
        | ok a => exact hwork rfl
        | error e => exact hdurable
      · exact hdurable
    · rw [hrun]
      split
      · exact hdurable
      · exact hdurable

/-- No selection fails on the record of an earlier one, in exactly those runs in which every selection
of a task for a job carries what is on record for them. -/
theorem selections_unpoisoned (os : List SelectionStep) :
    (∀ q ∈ Run.trace SelectionStep.step {} os, q.2.Unpoisoned q.1) ↔
      Run.Meets SelectionStep.step (fun db o => o.fits db) {} os := by
  have h0 : Records {} := by
    refine ⟨?_, ?_, ?_⟩
    · intro y hy
      cases hy
    · intro r hr
      cases hr
    · intro r hr
      cases hr
  exact Run.trace_iff_meets (I := Records) (fun _ o h => unpoisoned_iff h o)
    (fun _ o h _ => h.step o) h0 os

/-! ## a task is inserted between two ticks -/

def tickScope : SupervisorScope where
  ownerId := 0
  goalId := 0
  authorityKind := "founder_requirement"
  authorityRef := "req-1"
  authorizedInstruction := "build it"
  repositoryIdentity := "repo"
  allowedPaths := ["src"]
  allowedCapabilities := ["read_file"]

/-- a tick of the first worker, with a binding for the tasks that there are -/
def tick (now : Time) (tasks : List TaskId) : SelectionPass where
  env := { now }
  dispatch := { now }
  scope := tickScope
  bindings := tasks.map fun i =>
    { taskId := i, repositoryIdentity := "repo", allowedPaths := ["src"] }
  worker := "worker-1"
  leaseSeconds := 60

/-- one more task of the plan -/
def lateTask : PlanInsertion where
  goal := 0
  plan := 0
  authorityKind := "founder_decision"
  authorizedInstruction := "build it"
  idempotencyKey := "insertion-1"
  tasks := [{ description := "and this too", taskType := "repo_edit" }]
  sourceType := "founder"
  sourceRef := "note-1"
  reason := "a task was missed"

/-- the only task is selected and keeps running, another one is inserted -/
def lateTaskRun : List SelectionStep :=
  [.op (.createGoal 0 "build it" "standard_repo_work"), .op (.createPlan 1 0 [{ sampleSpec [] 3 with priority := 1 }]),
    .pass (tick 2 [0]), .op (.insertPlanTasks lateTask)]

set_option maxRecDepth 8000 in
/-- the next tick selects the running task again, and fails on its own record -/
theorem next_tick_poisoned :
    ¬ ∀ q ∈ Run.trace SelectionStep.step {} (lateTaskRun ++ [.pass (tick 3 [0, 1])]),
      q.2.Unpoisoned q.1 := by
  intro h
  rw [Run.trace_append] at h
  have hlast := h (_, _) (List.mem_append_right _ (.head _)) ["payload"]
  revert hlast
  decide

end LifeAI
