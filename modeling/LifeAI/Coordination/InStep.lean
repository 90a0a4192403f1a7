import LifeAI.Coordination.Tracking

/-!
# Tracking rows and their assignment

The setters of a tracking row are unguarded.  `TrackingStep.fits` says of a call, before it is made,
whether it leaves the row and the assignment in step.

* `CancelledInStep`  a cancelled row belongs to a cancelled assignment, or to one that was terminal
                   when the attempt was tracked;
* `InStep`           what a call has to do: an ended row stays as it ended, cancelled rows are in
                   step, and a result is reported as ingested only if it was;
* `Tame`, `RowEnds`     the two ways in which a call changes the states of the rows.
-/

namespace LifeAI

/-- the columns that the law is about -/
def AgentDispatchExecution.sig (x : AgentDispatchExecution) : ExecutionAdapterState × Bool :=
  (x.adapterState, x.trackedTerminal)

/-- a cancelled row belongs to a cancelled assignment, or to one that had ended before -/
def CancelledInStep (db : TrackingDb) : Prop :=
  ∀ x ∈ db.tracking, x.adapterState = .cancelled →
    db.assignment.status = .cancelled ∨ x.trackedTerminal = true

/-- what a call has to do -/
structure InStep (db : TrackingDb) (o : TrackingStep) : Prop where
  ended : ∀ (k : TrackingId) (x x' : AgentDispatchExecution), db.tracking[k]? = some x →
    (o.step db).tracking[k]? = some x' → x.adapterState.terminal →
      x'.adapterState = x.adapterState
  cancelled : CancelledInStep (o.step db)
  reported : ∀ now k observation x, o.op = .reconcile now k observation →
    db.tracking[k]? = some x →
      (reconcileExecutionState now k x observation (Tx.opened db)).1 = .ok .processExited →
        x.resultIngestionStatus = .ingested

/-! ## when a call fits -/

/-- the state that a row ends in when the answer is collected -/
def endedBy : Except AdapterErr AgentResult → ExecutionAdapterState
  | .error (.processLost _) => .lost
  | .error (.timeout _) => .timeout
  | _ => .exited

/-- the transition is allowed, and its detail can be stored -/
def AgentWorkAssignment.admits (a : AgentWorkAssignment) (target : WorkAssignmentStatus)
    (detail : TransitionDetail) : Bool :=
  target = a.status ∨ target ∈ a.status.allowedTransitions ∧ detail.storable

/-- the evidence of the result can be recorded -/
def CoordinationDb.recordable (db : CoordinationDb) (agent : CoordinationAgent)
    (r : DispatchResult) : Bool :=
  match ensureExecution agent db with
  | .ok (_, w) =>
    match recordAssignmentOutcome "dispatch_result" r.payload true w with
    | .ok _ => true
    | .error _ => false
  | .error _ => false

/-- the assignment takes the answer of the adapter -/
def CoordinationDb.takes (db : CoordinationDb) (agent : CoordinationAgent)
    (adapterKey : Option String) (attemptId : AttemptId) : Except AdapterErr AgentResult → Bool
  | .error (.processLost message) =>
    db.assignment.admits .blocked { reason := some "ADAPTER_PROCESS_LOST", detail := some message }
  | .error (.timeout message) =>
    db.assignment.admits .blocked { reason := some "ADAPTER_TIMEOUT", detail := some message }
  | .error _ => false
  | .ok x =>
    let r := x.dispatchResult adapterKey attemptId
    db.recordable agent r ∧ db.assignment.admits r.target r.detail

/-- a call that leaves the row and the assignment in step -/
def TrackingStep.fits (db : TrackingDb) (o : TrackingStep) : Prop :=
  match o.op with
  | .markRunning k processRef => ∀ x, db.tracking[k]? = some x →
    processRef.all (storable (some 256)) → ¬ x.adapterState.terminal
  | .collect _ k agent adapterKey answer => ∀ x, db.tracking[k]? = some x →
    db.takes agent adapterKey x.attemptId answer → x.adapterState.terminal →
      x.adapterState = endedBy answer
  | .cancel env k => ∀ x, db.tracking[k]? = some x → env.supported → env.raises = none →
    (x.adapterState.terminal → x.adapterState = .cancelled) ∧
      (db.assignment.status ∈ [.waitingAgent, .running, .cancelled] ∨ x.trackedTerminal = true)
  | .reconcile _ k _ => ∀ x, db.tracking[k]? = some x → x.adapterState = .exited →
    x.resultIngestionStatus ≠ .failed
  | _ => True

/-! ## two kinds of changes -/

/-- the rows stay as they are, and a cancelled assignment stays cancelled -/
structure Tame (db db' : TrackingDb) : Prop where
  rows : db'.tracking.map AgentDispatchExecution.sig = db.tracking.map AgentDispatchExecution.sig
  status : db.assignment.status = .cancelled → db'.assignment.status = .cancelled

/-- the row `k` is set to `st` -/
structure RowEnds (db db' : TrackingDb) (k : TrackingId) (x : AgentDispatchExecution)
    (st : ExecutionAdapterState) : Prop where
  row : db.tracking[k]? = some x
  rows : db'.tracking.map AgentDispatchExecution.sig =
    (db.tracking.map AgentDispatchExecution.sig).set k (st, x.trackedTerminal)
  status : db.assignment.status = .cancelled → db'.assignment.status = .cancelled

variable {db db' : TrackingDb} {k : TrackingId} {x : AgentDispatchExecution}
  {st : ExecutionAdapterState}

/-- the law about the states of the rows, for a change from `db` to `db'` -/
def EndedStay (db db' : TrackingDb) : Prop :=
  ∀ (k : TrackingId) (x x' : AgentDispatchExecution), db.tracking[k]? = some x →
    db'.tracking[k]? = some x' → x.adapterState.terminal → x'.adapterState = x.adapterState

theorem getElem?_sig {rows : List AgentDispatchExecution} (h : rows[k]? = some x) :
    (rows.map AgentDispatchExecution.sig)[k]? = some (x.adapterState, x.trackedTerminal) := by
  rw [List.getElem?_map, h]
  rfl

theorem Tame.refl (db : TrackingDb) : Tame db db := ⟨rfl, id⟩

theorem Tame.endedStay (h : Tame db db') : EndedStay db db' := by
  intro k x x' hx hx' _
  have hsig := getElem?_sig hx'
  rw [h.rows, getElem?_sig hx] at hsig
  exact (congrArg Prod.fst (Option.some.inj hsig)).symm

theorem Tame.cancelledInStep (h : Tame db db') (hc : CancelledInStep db) : CancelledInStep db' := by
  intro x' hx' hst
  obtain ⟨k, hk⟩ := List.getElem?_of_mem hx'
  have hsig := getElem?_sig hk
  rw [h.rows, List.getElem?_map, Option.map_eq_some_iff] at hsig
  obtain ⟨x, hx, heq⟩ := hsig
  obtain ⟨h1, h2⟩ := Prod.mk.inj heq
  rcases hc x (List.mem_of_getElem? hx) (h1.trans hst) with hcan | htt
  · exact .inl (h.status hcan)
  · exact .inr (h2.symm.trans htt)

theorem RowEnds.row_self (h : RowEnds db db' k x st) :
    ∃ x', db'.tracking[k]? = some x' ∧ x'.adapterState = st ∧
      x'.trackedTerminal = x.trackedTerminal := by
  have hlt : k < (db.tracking.map AgentDispatchExecution.sig).length := by
    rw [List.length_map]
    exact (List.getElem?_eq_some_iff.1 h.row).1
  have hsig : (db'.tracking.map AgentDispatchExecution.sig)[k]? = some (st, x.trackedTerminal) := by
    rw [h.rows, List.getElem?_set_self hlt]
  rw [List.getElem?_map, Option.map_eq_some_iff] at hsig
  obtain ⟨x', hx', heq⟩ := hsig
  obtain ⟨h1, h2⟩ := Prod.mk.inj heq
  exact ⟨x', hx', h1, h2⟩

theorem RowEnds.row_ne (h : RowEnds db db' k x st) {j : TrackingId} (hj : k ≠ j)
    {x' : AgentDispatchExecution} (hx' : db'.tracking[j]? = some x') :
    ∃ y, db.tracking[j]? = some y ∧ y.adapterState = x'.adapterState ∧
      y.trackedTerminal = x'.trackedTerminal := by
  have hsig := getElem?_sig hx'
  rw [h.rows, List.getElem?_set_ne hj, List.getElem?_map, Option.map_eq_some_iff] at hsig
  obtain ⟨y, hy, heq⟩ := hsig
  obtain ⟨h1, h2⟩ := Prod.mk.inj heq
  exact ⟨y, hy, h1, h2⟩

theorem RowEnds.endedStay_iff (h : RowEnds db db' k x st) :
    EndedStay db db' ↔ (x.adapterState.terminal → x.adapterState = st) := by
  obtain ⟨x', hx', hst, -⟩ := h.row_self
  constructor
  · intro hstay hterm
    rw [← hst, hstay k x x' h.row hx' hterm]
  · intro hfit j y y' hy hy' hterm
    by_cases hj : k = j
    · subst hj
      rw [h.row] at hy
      cases hy
      rw [hx'] at hy'
      cases hy'
      rw [hst, hfit hterm]
    · obtain ⟨z, hz, hzst, -⟩ := h.row_ne hj hy'
      rw [hy] at hz
      cases hz
      exact hzst.symm

theorem RowEnds.cancelledInStep_iff (h : RowEnds db db' k x st) (hc : CancelledInStep db) :
    CancelledInStep db' ↔
      (st = .cancelled → db'.assignment.status = .cancelled ∨ x.trackedTerminal = true) := by
  obtain ⟨x', hx', hst, htt⟩ := h.row_self
  constructor
  · intro hcan hst'
    rw [← htt]
    exact hcan x' (List.mem_of_getElem? hx') (hst.trans hst')
  · intro hfit y hy hyst
    obtain ⟨j, hj⟩ := List.getElem?_of_mem hy
    by_cases hkj : k = j
    · subst hkj
      rw [hx'] at hj
      cases hj
      rw [htt]
      exact hfit (hst.symm.trans hyst)
    · obtain ⟨z, hz, hzst, hztt⟩ := h.row_ne hkj hj
      rcases hc z (List.mem_of_getElem? hz) (hzst.trans hyst) with hcan | hztt'
      · exact .inl (h.status hcan)
      · exact .inr (hztt.symm.trans hztt')

/-! ## the functions of `dispatch.py` -/

/-- a cancelled assignment -/
def CoordinationDb.Cancelled (c : CoordinationDb) : Prop := c.assignment.status = .cancelled

variable {c : CoordinationDb} {now : Time} {agent : CoordinationAgent} {r : DispatchResult}

theorem transitionStatus_keeps (now : Time) (target : WorkAssignmentStatus)
    (detail : TransitionDetail) :
    Tx.Keeps CoordinationDb.Cancelled (Tx.flush (transitionStatus now target detail)) := by
  refine .flush fun w _ w' hw h => ?_
  rcases transitionStatus_ok.1 h with ⟨-, rfl⟩ | ⟨-, hmem, -, -⟩
  · exact hw
  · rw [show w.assignment.status = .cancelled from hw] at hmem
    exact absurd hmem List.not_mem_nil

theorem applyDispatchResult_keeps (now : Time) (agent : CoordinationAgent) (r : DispatchResult) :
    Tx.Keeps CoordinationDb.Cancelled (applyDispatchResult now agent r) := by
  refine .bind (.flush fun w _ w' hw h => ?_) fun _ => .bind (.flush fun w _ w' hw h => ?_) fun _ =>
    .bind (.flush fun w _ w' hw h => ?_) fun _ => transitionStatus_keeps _ _ _
  · obtain ⟨-, rfl⟩ := storePointers_ok.1 h
    exact hw
  · obtain ⟨e, he⟩ := ensureExecution_some h
    unfold CoordinationDb.Cancelled
    rw [he]
    exact hw
  · unfold CoordinationDb.Cancelled
    rw [recordAssignmentOutcome_assignment h]
    exact hw

theorem applyDispatchResult_silent (now : Time) (agent : CoordinationAgent) (r : DispatchResult) :
    Tx.Silent (applyDispatchResult now agent r) :=
  .bind (.flush _) fun _ => .bind (.flush _) fun _ => .bind (.flush _) fun _ => .flush _

theorem collectDispatchResult_keeps (now : Time) (agent : CoordinationAgent)
    (adapterKey : Option String) (attemptId : AttemptId) (answer : Except AdapterErr AgentResult) :
    Tx.Keeps CoordinationDb.Cancelled
      (collectDispatchResult now agent adapterKey attemptId answer) := by
  unfold collectDispatchResult
  split
  · exact .bind (transitionStatus_keeps _ _ _) fun _ => .pure _
  · exact .bind (transitionStatus_keeps _ _ _) fun _ => .pure _
  · exact .raise _
  · exact .bind (applyDispatchResult_keeps _ _ _) fun _ => .pure _

theorem collectDispatchResult_silent (now : Time) (agent : CoordinationAgent)
    (adapterKey : Option String) (attemptId : AttemptId) (answer : Except AdapterErr AgentResult) :
    Tx.Silent (collectDispatchResult now agent adapterKey attemptId answer) := by
  unfold collectDispatchResult
  split
  · exact .bind (.flush _) fun _ => .pure _
  · exact .bind (.flush _) fun _ => .pure _
  · exact .raise _
  · exact .bind (applyDispatchResult_silent _ _ _) fun _ => .pure _

theorem dispatchAssignment_keeps (env : DispatchEnv) :
    Tx.Keeps CoordinationDb.Cancelled (dispatchAssignment env) := by
  unfold dispatchAssignment
  split
  · exact .pure _
  · refine .bind (transitionStatus_keeps _ _ _) fun _ => ?_
    split
    · exact .bind (transitionStatus_keeps _ _ _) fun _ => .pure _
    · exact .bind (transitionStatus_keeps _ _ _) fun _ => .pure _
    · exact .bind (transitionStatus_keeps _ _ _) fun _ => .pure _
    · exact .bind (transitionStatus_keeps _ _ _) fun _ => .raise _
    · exact .bind (transitionStatus_keeps _ _ _) fun _ => .pure _

theorem dispatchAssignment_silent (env : DispatchEnv) : Tx.Silent (dispatchAssignment env) := by
  unfold dispatchAssignment
  split
  · exact .pure _
  · refine .bind (.flush _) fun _ => ?_
    split
    · exact .bind (.flush _) fun _ => .pure _
    · exact .bind (.flush _) fun _ => .pure _
    · exact .bind (.flush _) fun _ => .pure _
    · exact .bind (.flush _) fun _ => .raise _
    · exact .bind (.flush _) fun _ => .pure _

/-- a function of `dispatch.py` leaves the tracking rows alone -/
theorem tame_onCoordination {α : Type} {m : CoordTx α} (hk : Tx.Keeps CoordinationDb.Cancelled m)
    (db : TrackingDb) : Tame db (onCoordination m (Tx.opened db)).2.work :=
  ⟨rfl, fun h => (hk (Tx.opened db.toCoordinationDb) h h).2⟩

/-! ## an answer -/

theorem admits_iff {target : WorkAssignmentStatus} {detail : TransitionDetail} :
    (∃ w, transitionStatus now target detail c = .ok ((), w)) ↔
      c.assignment.admits target detail := by
  unfold AgentWorkAssignment.admits
  rw [decide_eq_true_eq]
  constructor
  · rintro ⟨w, hw⟩
    rcases transitionStatus_ok.1 hw with ⟨ht, -⟩ | ⟨-, hmem, hd, -⟩
    · exact .inl ht
    · exact .inr ⟨hmem, hd⟩
  · intro h
    by_cases ht : target = c.assignment.status
    · exact ⟨c, transitionStatus_ok.2 (.inl ⟨ht, rfl⟩)⟩
    · obtain ⟨hmem, hd⟩ := h.resolve_left ht
      exact ⟨_, transitionStatus_ok.2 (.inr ⟨ht, hmem, hd, rfl⟩)⟩

/-- the transition at the end of a program of one statement -/
theorem flush_admits {target : WorkAssignmentStatus} {detail : TransitionDetail}
    {d : DispatchDecision} :
    (∃ d' s', (do Tx.flush (transitionStatus now target detail); return d : CoordTx DispatchDecision)
      (Tx.opened c) = (.ok d', s')) ↔ c.assignment.admits target detail := by
  constructor
  · rintro ⟨d', s', h⟩
    obtain ⟨_, w, hw, -⟩ := Tx.flush_bind_ok.1 h
    exact admits_iff.1 ⟨w, hw⟩
  · intro h
    obtain ⟨w, hw⟩ : ∃ w, transitionStatus now target detail c = .ok ((), w) := admits_iff.2 h
    exact ⟨d, _, Tx.flush_bind_ok.2 ⟨(), w, hw, rfl⟩⟩

theorem recordable_iff : c.recordable agent r ↔ ∃ w₂ w₃, ensureExecution agent c = .ok ((), w₂) ∧
    recordAssignmentOutcome "dispatch_result" r.payload true w₂ = .ok ((), w₃) := by
  unfold CoordinationDb.recordable
  cases h₂ : ensureExecution agent c with
  | error e => simp
  | ok q =>
    obtain ⟨u, w₂⟩ := q
    cases h₃ : recordAssignmentOutcome "dispatch_result" r.payload true w₂ with
    | error e =>
      simp only [h₃, Bool.false_eq_true, Except.ok.injEq, Prod.mk.injEq, false_iff, true_and,
        not_exists, not_and]
      rintro w w₃ rfl hw₃
      rw [h₃] at hw₃
      cases hw₃
    | ok q₃ =>
      obtain ⟨u₃, w₃⟩ := q₃
      simp only [h₃, true_iff]
      exact ⟨w₂, w₃, rfl, h₃⟩

/-- a result that brings no pointers -/
theorem applyDispatchResult_takes (hptr : r.pointersStorable) (hsha : r.headSha = none)
    (hpr : r.prRef = none) (hrefs : r.outputRefs = []) :
    (∃ s', applyDispatchResult now agent r (Tx.opened c) = (.ok (), s')) ↔
      c.recordable agent r ∧ c.assignment.admits r.target r.detail := by
  have hstore : storePointers r c = .ok ((), c) := by
    refine storePointers_ok.2 ⟨hptr, ?_⟩
    rw [hsha, hpr, hrefs, List.append_nil]
    rfl
  -- the recordings leave the status alone
  have hstatus : ∀ {w₂ w₃}, ensureExecution agent c = .ok ((), w₂) →
      recordAssignmentOutcome "dispatch_result" r.payload true w₂ = .ok ((), w₃) →
        w₃.assignment.admits r.target r.detail = c.assignment.admits r.target r.detail := by
    intro w₂ w₃ h₂ h₃
    obtain ⟨e, he⟩ := ensureExecution_some h₂
    unfold AgentWorkAssignment.admits
    rw [recordAssignmentOutcome_assignment h₃, he]
  rw [recordable_iff]
  constructor
  · rintro ⟨s', h⟩
    obtain ⟨w₁, w₂, w₃, w₄, h₁, h₂, h₃, h₄, -⟩ := applyDispatchResult_ok.1 h
    rw [show (Tx.opened c).work = c from rfl, hstore] at h₁
    cases h₁
    exact ⟨⟨w₂, w₃, h₂, h₃⟩, hstatus h₂ h₃ ▸ admits_iff.1 ⟨w₄, h₄⟩⟩
  · rintro ⟨⟨w₂, w₃, h₂, h₃⟩, hadm⟩
    rw [← hstatus h₂ h₃] at hadm
    obtain ⟨w₄, h₄⟩ : ∃ w₄, transitionStatus now r.target r.detail w₃ = .ok ((), w₄) :=
      admits_iff.2 hadm
    exact ⟨_, applyDispatchResult_ok.2 ⟨c, w₂, w₃, w₄, hstore, h₂, h₃, h₄, rfl⟩⟩

theorem collectDispatchResult_ok {adapterKey : Option String} {attemptId : AttemptId}
    {answer : Except AdapterErr AgentResult} :
    (∃ d s', collectDispatchResult now agent adapterKey attemptId answer (Tx.opened c) =
      (.ok d, s')) ↔ c.takes agent adapterKey attemptId answer := by
  cases answer with
  | error e =>
    cases e with
    | processLost message => exact flush_admits
    | timeout message => exact flush_admits
    | providerNotConfigured message =>
      exact iff_of_false (by rintro ⟨d, s', h⟩; cases h) Bool.false_ne_true
    | other message => exact iff_of_false (by rintro ⟨d, s', h⟩; cases h) Bool.false_ne_true
  | ok x =>
    have happly : (∃ s', applyDispatchResult now agent (x.dispatchResult adapterKey attemptId)
        (Tx.opened c) = (.ok (), s')) ↔ _ := applyDispatchResult_takes rfl rfl rfl rfl
    unfold CoordinationDb.takes
    dsimp only
    rw [decide_eq_true_eq, ← happly]
    refine Tx.bind_pure_ok.trans ?_
    exact ⟨fun ⟨_, s', h⟩ => ⟨s', h⟩, fun ⟨s', h⟩ => ⟨(), s', h⟩⟩

theorem collectDispatchResult_outcome {adapterKey : Option String} {attemptId : AttemptId}
    {answer : Except AdapterErr AgentResult} {s s' : Session CoordinationDb} {d : DispatchDecision}
    (h : collectDispatchResult now agent adapterKey attemptId answer s = (.ok d, s')) :
    d.outcome = match answer with
      | .error (.processLost _) => .adapterProcessLost
      | .error (.timeout _) => .adapterTimeout
      | _ => .assignable := by
  cases answer with
  | error e =>
    cases e with
    | processLost message | timeout message =>
      obtain ⟨_, w, -, hd⟩ := Tx.flush_bind_ok.1 h
      cases hd
      rfl
    | providerNotConfigured message => cases h
    | other message => cases h
  | ok x =>
    unfold collectDispatchResult at h
    dsimp only at h
    rw [Tx.bind_apply] at h
    rcases hr : applyDispatchResult now agent (x.dispatchResult adapterKey attemptId) s with
      ⟨_ | u, s₁⟩
    · rw [hr] at h
      cases h
    · rw [hr] at h
      cases h
      rfl

/-! ## the calls -/

/-- what becomes of a program that commits nothing -/
theorem finish_eq {α : Type} {m : TrackingTx α} (hm : Tx.Silent m) (commits : Bool)
    (db : TrackingDb) :
    TrackingTx.finish commits (m (Tx.opened db)) = (m (Tx.opened db)).2.work ∨
      TrackingTx.finish commits (m (Tx.opened db)) = db := by
  unfold TrackingTx.finish
  split
  · exact .inl rfl
  · split
    · exact .inl rfl
    · exact .inr (hm _)

theorem sig_modify {rows : List AgentDispatchExecution} {k : TrackingId}
    {f : AgentDispatchExecution → AgentDispatchExecution} (hf : ∀ x, (f x).sig = x.sig) :
    (rows.modify k f).map AgentDispatchExecution.sig = rows.map AgentDispatchExecution.sig := by
  refine List.ext_getElem? fun j => ?_
  rw [List.getElem?_map, List.getElem?_map, List.getElem?_modify]
  cases rows[j]? with
  | none => rfl
  | some x => by_cases hkj : k = j <;> simp [hkj, hf]

theorem sig_modify_set {rows : List AgentDispatchExecution} {k : TrackingId}
    {f : AgentDispatchExecution → AgentDispatchExecution} (hx : rows[k]? = some x)
    (hf : (f x).sig = (st, x.trackedTerminal)) :
    (rows.modify k f).map AgentDispatchExecution.sig =
      (rows.map AgentDispatchExecution.sig).set k (st, x.trackedTerminal) := by
  refine List.ext_getElem? fun j => ?_
  have hlt := (List.getElem?_eq_some_iff.1 hx).1
  rw [List.getElem?_map, List.getElem?_modify, List.getElem?_set]
  by_cases hkj : k = j
  · subst hkj
    rw [hx, List.length_map]
    simp [hf, hlt]
  · simp [hkj]

variable {o : TrackingStep}

/-- a call that only changes the assignment -/
theorem tame_step_onCoordination {α : Type} {m : CoordTx α}
    (hk : Tx.Keeps CoordinationDb.Cancelled m) (hs : Tx.Silent m) (commits : Bool)
    (db : TrackingDb) :
    Tame db (TrackingTx.finish commits
      ((do let _ ← onCoordination m : TrackingTx Unit) (Tx.opened db))) := by
  have hsilent : Tx.Silent (do let _ ← onCoordination m : TrackingTx Unit) :=
    .bind (.zoom hs fun _ => rfl) fun _ => .pure _
  have hwork : ((do let _ ← onCoordination m : TrackingTx Unit) (Tx.opened db)).2.work =
      (onCoordination m (Tx.opened db)).2.work := by
    rw [Tx.bind_apply]
    rcases onCoordination m (Tx.opened db) with ⟨_ | a, s'⟩
    · rfl
    · rfl
  rcases finish_eq hsilent commits db with h | h
  · rw [h, hwork]
    exact tame_onCoordination hk db
  · rw [h]
    exact .refl db

/-- on a row that is not there a call does nothing -/
theorem step_onRow {α : Type} {f : AgentDispatchExecution → TrackingTx α}
    (hp : o.op.program db = db.onRow k f) :
    o.step db = match db.tracking[k]? with
      | some x => TrackingTx.finish o.commits (f x (Tx.opened db))
      | none => db := by
  unfold TrackingStep.step
  rw [hp]
  unfold TrackingDb.onRow
  cases db.tracking[k]? with
  | none => rfl
  | some x =>
    dsimp only
    rw [Tx.bind_apply]
    rcases f x (Tx.opened db) with ⟨e | a, s'⟩
    · rfl
    · rfl

theorem onCoordination_flush {α : Type} {f : CoordinationDb → Except CoordinationErr (α × CoordinationDb)}
    {s : Session TrackingDb} {a : α} {w : CoordinationDb}
    (h : f s.work.toCoordinationDb = .ok (a, w)) :
    onCoordination (Tx.flush f) s = (.ok a, { s with work := { s.work with toCoordinationDb := w } }) := by
  unfold onCoordination Tx.zoom
  rw [Tx.flush_ok (s := ⟨s.durable.toCoordinationDb, s.work.toCoordinationDb⟩) h]

/-- `cancel_execution` of a supporting adapter -/
theorem cancel_ends (env : ControlEnv) (commits : Bool) (hx : db.tracking[k]? = some x)
    (hsup : env.supported = true) (hraise : env.raises = none) :
    ∃ db', TrackingTx.finish commits (cancelExecution env k x (Tx.opened db)) = db' ∧
      RowEnds db db' k x .cancelled ∧
      db'.assignment.status = if db.assignment.status = .waitingAgent ∨
        db.assignment.status = .running then .cancelled else db.assignment.status := by
  -- the transition of the assignment goes through
  obtain ⟨w, hw, hst⟩ : ∃ w, (if db.assignment.status = .waitingAgent ∨
      db.assignment.status = .running then transitionStatus env.now .cancelled
        { reason := some "execution_cancelled", attemptId := some x.attemptId }
        db.toCoordinationDb else .ok ((), db.toCoordinationDb)) = .ok ((), w) ∧
      w.assignment.status = if db.assignment.status = .waitingAgent ∨
        db.assignment.status = .running then .cancelled else db.assignment.status := by
    by_cases h : db.assignment.status = .waitingAgent ∨ db.assignment.status = .running
    · rw [if_pos h, if_pos h]
      obtain ⟨w, hw⟩ : ∃ w, transitionStatus env.now .cancelled
          { reason := some "execution_cancelled", attemptId := some x.attemptId }
          db.toCoordinationDb = .ok ((), w) := by
        refine ⟨_, transitionStatus_ok.2 (.inr ⟨?_, ?_, rfl, rfl⟩)⟩
        · rcases h with h | h
          · rw [h]; decide
          · rw [h]; decide
        · rcases h with h | h
          · rw [h]; decide
          · rw [h]; decide
      exact ⟨w, hw, transitionStatus_status hw⟩
    · rw [if_neg h, if_neg h]
      exact ⟨_, rfl, rfl⟩
  refine ⟨{ db with
    tracking := db.tracking.modify k fun x =>
      { x with adapterState := .cancelled, endedAt := some env.now }
    toCoordinationDb := w }, ?_, ⟨hx, sig_modify_set hx rfl, fun h => ?_⟩, hst⟩
  · unfold cancelExecution
    rw [hsup, hraise, if_neg (by simp)]
    dsimp only
    rw [markExecutionCancelled, markExecutionEnded, setExecution, Tx.bind_ok (Tx.flush_ok rfl),
      Tx.bind_ok (onCoordination_flush hw)]
    rfl
  · rw [show ({ db with tracking := _, toCoordinationDb := w } : TrackingDb).assignment.status = w.assignment.status from rfl, hst, h]
    rfl

/-- `collect_and_ingest_execution_result`: an answer that the assignment takes ends the row -/
theorem collect_ends (now : Time) (agent : CoordinationAgent) (adapterKey : Option String)
    (answer : Except AdapterErr AgentResult) (commits : Bool) (hx : db.tracking[k]? = some x)
    (htakes : db.takes agent adapterKey x.attemptId answer) :
    RowEnds db (TrackingTx.finish commits
      (collectAndIngestExecutionResult now k x agent adapterKey answer (Tx.opened db))) k x
      (endedBy answer) := by
  obtain ⟨d, s₁, h⟩ := collectDispatchResult_ok.2 htakes
  have hd := collectDispatchResult_outcome h
  have hkeeps := collectDispatchResult_keeps now agent adapterKey x.attemptId answer
    (Tx.opened db.toCoordinationDb)
  have hzoom : onCoordination (collectDispatchResult now agent adapterKey x.attemptId answer)
      (Tx.opened db) = (.ok d, ⟨{ db with toCoordinationDb := s₁.durable },
        { db with toCoordinationDb := s₁.work }⟩) := by
    unfold onCoordination Tx.zoom
    rw [show (⟨(Tx.opened db).durable.toCoordinationDb, (Tx.opened db).work.toCoordinationDb⟩ :
      Session CoordinationDb) = Tx.opened db.toCoordinationDb from rfl, h]
    rfl
  rw [h] at hkeeps
  have hrow : ∀ st ing, RowEnds db { db with
      toCoordinationDb := s₁.work
      tracking := (db.tracking.modify k fun x =>
        { x with adapterState := st, endedAt := some now }).modify k fun x =>
          { x with resultIngestionStatus := ing } } k x st := by
    intro st ing
    have hset := sig_modify_set (f := fun x => { x with adapterState := st, endedAt := some now })
      hx rfl
    exact ⟨hx, Eq.trans (sig_modify fun _ => rfl) hset, fun hcan => (hkeeps hcan hcan).2⟩
  unfold collectAndIngestExecutionResult
  rw [Tx.bind_ok (Tx.handle_ok hzoom), hd]
  cases answer with
  | error e =>
    cases e with
    | processLost message => exact hrow .lost .failed
    | timeout message => exact hrow .timeout .failed
    | providerNotConfigured message => exact absurd htakes Bool.false_ne_true
    | other message => exact absurd htakes Bool.false_ne_true
  | ok y => exact hrow .exited .ingested

/-- an answer that the assignment does not take leaves the states of the rows alone -/
theorem collect_tame (now : Time) (agent : CoordinationAgent) (adapterKey : Option String)
    (answer : Except AdapterErr AgentResult) (commits : Bool)
    (htakes : ¬ db.takes agent adapterKey x.attemptId answer) :
    Tame db (TrackingTx.finish commits
      (collectAndIngestExecutionResult now k x agent adapterKey answer (Tx.opened db))) := by
  have hkeeps := collectDispatchResult_keeps now agent adapterKey x.attemptId answer
    (Tx.opened db.toCoordinationDb)
  have hsilent := collectDispatchResult_silent now agent adapterKey x.attemptId answer
    (Tx.opened db.toCoordinationDb)
  rcases h : collectDispatchResult now agent adapterKey x.attemptId answer
    (Tx.opened db.toCoordinationDb) with ⟨e | d, s₁⟩
  · rw [h] at hkeeps hsilent
    have hzoom : onCoordination (collectDispatchResult now agent adapterKey x.attemptId answer)
        (Tx.opened db) = (.error e, ⟨{ db with toCoordinationDb := s₁.durable },
          { db with toCoordinationDb := s₁.work }⟩) := by
      unfold onCoordination Tx.zoom
      rw [show (⟨(Tx.opened db).durable.toCoordinationDb, (Tx.opened db).work.toCoordinationDb⟩ :
        Session CoordinationDb) = Tx.opened db.toCoordinationDb from rfl, h]
      rfl
    have hdurable : ({ db with toCoordinationDb := s₁.durable } : TrackingDb) = db := by
      rw [show s₁.durable = db.toCoordinationDb from hsilent]
    unfold collectAndIngestExecutionResult
    by_cases he : e = .dataError
    · have hraise : Tx.handle (onCoordination
          (collectDispatchResult now agent adapterKey x.attemptId answer))
          (fun e => if e = .dataError then Tx.raise e
            else do markResultIngestionFailed k; Tx.raise e) (Tx.opened db) =
          (.error e, ⟨db, { db with toCoordinationDb := s₁.work }⟩) := by
        rw [Tx.handle_error hzoom, if_pos he, hdurable]
        rfl
      rw [Tx.bind_error hraise]
      unfold TrackingTx.finish
      dsimp only
      rw [if_neg (fun h => h.2 he)]
      exact .refl db
    · have hraise : Tx.handle (onCoordination
          (collectDispatchResult now agent adapterKey x.attemptId answer))
          (fun e => if e = .dataError then Tx.raise e
            else do markResultIngestionFailed k; Tx.raise e) (Tx.opened db) =
          (.error e, ⟨db, { db with
            toCoordinationDb := s₁.work
            tracking := db.tracking.modify k fun x => { x with resultIngestionStatus := .failed } }⟩) := by
        rw [Tx.handle_error hzoom, if_neg he, hdurable]
        rfl
      rw [Tx.bind_error hraise]
      unfold TrackingTx.finish
      dsimp only
      split
      · exact ⟨sig_modify fun _ => rfl, fun hcan => (hkeeps hcan hcan).2⟩
      · exact .refl db
  · exact absurd (collectDispatchResult_ok.1 ⟨d, s₁, h⟩) htakes

/-- a program that raises or returns without a change -/
theorem tame_finish {α : Type} {r : Except CoordinationErr α} (commits : Bool) (db : TrackingDb) :
    Tame db (TrackingTx.finish commits (r, Tx.opened db)) := by
  have hdb : TrackingTx.finish commits (r, Tx.opened db) = db := by
    unfold TrackingTx.finish
    split
    · rfl
    · split <;> rfl
  rw [hdb]
  exact .refl db

/-- `record_execution_event` does not touch the state of a row -/
theorem recordExecutionEvent_tame (now : Time) (x : AgentDispatchExecution)
    (kind summary : String) {db' : TrackingDb}
    (h : (recordExecutionEvent now k x kind summary (Tx.opened db)).2.work = db') :
    Tame db db' := by
  subst h
  exact ⟨sig_modify fun _ => rfl, id⟩

/-- `mark_execution_*` -/
theorem setExecution_ends {f : AgentDispatchExecution → AgentDispatchExecution}
    (hx : db.tracking[k]? = some x) (hf : (f x).sig = (st, x.trackedTerminal)) :
    RowEnds db { db with tracking := db.tracking.modify k f } k x st :=
  ⟨hx, sig_modify_set hx hf, id⟩

/-- `mark_execution_running` -/
theorem markRunning_ends (processRef : Option String) (commits : Bool)
    (hx : db.tracking[k]? = some x) (hs : processRef.all (storable (some 256))) :
    RowEnds db (TrackingTx.finish commits (markExecutionRunning k processRef (Tx.opened db))) k x
      .running := by
  unfold markExecutionRunning
  rw [if_pos hs]
  exact setExecution_ends hx rfl

/-- `resume_execution` -/
theorem resume_tame (env : ControlEnv) (commits : Bool) :
    Tame db (TrackingTx.finish commits (resumeExecution env k x (Tx.opened db))) := by
  unfold resumeExecution
  by_cases hsup : env.supported = true
  · rw [if_neg (by simp [hsup])]
    cases env.raises with
    | some e => exact tame_finish commits db
    | none => exact recordExecutionEvent_tame env.now x "status" "resumed" rfl
  · rw [if_pos hsup]
    exact tame_finish commits db

/-- `reconcile_execution_state` changes the state only of a row that has not ended -/
theorem reconcile_tame_or_ends (now : Time) (observation : Except AdapterErr String)
    (commits : Bool) (hx : db.tracking[k]? = some x) :
    Tame db (TrackingTx.finish commits
      (reconcileExecutionState now k x observation (Tx.opened db))) ∨
    ∃ st, RowEnds db (TrackingTx.finish commits
      (reconcileExecutionState now k x observation (Tx.opened db))) k x st ∧
      x.adapterState.terminal = false ∧ st ≠ .cancelled := by
  unfold reconcileExecutionState
  split
  · split <;> exact .inl (tame_finish commits db)
  rename_i hexited
  split
  · exact .inl (tame_finish commits db)
  rename_i hended
  have hlive : x.adapterState.terminal = false := by
    cases h : x.adapterState with
    | starting => rfl
    | running => rfl
    | exited => exact absurd h hexited
    | lost => exact absurd (.inl h) hended
    | timeout => exact absurd (.inr (.inl h)) hended
    | cancelled => exact absurd (.inr (.inr h)) hended
  split
  · exact .inl (tame_finish commits db)
  · exact .inr ⟨.lost, setExecution_ends hx rfl, hlive, by decide⟩
  · exact .inl (tame_finish commits db)
  · split
    · exact .inl (recordExecutionEvent_tame now x "heartbeat" "reconciled: still running" rfl)
    · split
      · exact .inr ⟨.exited, setExecution_ends hx rfl, hlive, by decide⟩
      · exact .inl (tame_finish commits db)

/-- what `reconcile_execution_state` takes for ingested -/
theorem reconcile_processExited_iff (now : Time) (observation : Except AdapterErr String)
    (s : Session TrackingDb) :
    (reconcileExecutionState now k x observation s).1 = .ok .processExited ↔
      x.adapterState = .exited ∧ x.resultIngestionStatus ≠ .pending := by
  unfold reconcileExecutionState
  split
  · rename_i hexited
    split
    · rename_i hpending
      exact iff_of_false (by rintro ⟨⟩) fun h => h.2 hpending
    · rename_i hpending
      exact iff_of_true rfl ⟨hexited, hpending⟩
  · rename_i hexited
    refine iff_of_false ?_ fun h => hexited h.1
    split
    · rintro ⟨⟩
    · split
      · rintro ⟨⟩
      · rintro ⟨⟩
      · rintro ⟨⟩
      · split
        · rintro ⟨⟩
        · split <;> rintro ⟨⟩

/-- `start_execution_tracking` leaves the rows that are there alone -/
theorem startTracking_rows (adapterKey : String) (attemptId : AttemptId) (commits : Bool)
    (db : TrackingDb) :
    TrackingTx.finish commits (startExecutionTracking adapterKey attemptId (Tx.opened db)) = db ∨
    TrackingTx.finish commits (startExecutionTracking adapterKey attemptId (Tx.opened db)) =
      { db with tracking := db.tracking ++
        [{ attemptId, adapterKey, trackedTerminal := db.assignment.status.terminal }] } := by
  by_cases h : ¬ storable (some 64) adapterKey ∨ db.tracking.any (·.attemptId = attemptId)
  · have hflush : startExecutionTracking adapterKey attemptId (Tx.opened db) =
        (.error .dataError, Tx.opened db) := Tx.flush_error (if_pos h)
    left
    rw [hflush]
    unfold TrackingTx.finish
    simp [Tx.opened]
  · have hflush : startExecutionTracking adapterKey attemptId (Tx.opened db) =
        (.ok db.tracking.length, { Tx.opened db with work := { db with tracking := db.tracking ++
          [{ attemptId, adapterKey, trackedTerminal := db.assignment.status.terminal }] } }) :=
      Tx.flush_ok (if_neg h)
    right
    rw [hflush]
    rfl

/-! ## one call, and a run -/

theorem inStep_of_tame (ht : Tame db (o.step db)) (hc : CancelledInStep db)
    (hr : ∀ now k observation, o.op ≠ .reconcile now k observation) : InStep db o :=
  ⟨ht.endedStay, ht.cancelledInStep hc, fun now k observation _ h => absurd h (hr now k observation)⟩

theorem inStep_iff_of_rowEnds (h : RowEnds db (o.step db) k x st) (hc : CancelledInStep db)
    (hr : ∀ now k observation, o.op ≠ .reconcile now k observation) :
    InStep db o ↔ (x.adapterState.terminal → x.adapterState = st) ∧
      (st = .cancelled → (o.step db).assignment.status = .cancelled ∨ x.trackedTerminal = true) := by
  rw [← h.endedStay_iff, ← h.cancelledInStep_iff hc]
  constructor
  · intro hin
    exact ⟨hin.ended, hin.cancelled⟩
  · rintro ⟨hended, hcancelled⟩
    exact ⟨hended, hcancelled, fun now k observation _ h => absurd h (hr now k observation)⟩

/-- a new row leaves the others alone -/
theorem startTracking_inStep (adapterKey : String) (attemptId : AttemptId) (commits : Bool)
    (hc : CancelledInStep db) : InStep db ⟨.startTracking adapterKey attemptId, commits⟩ := by
  have hstep : (⟨.startTracking adapterKey attemptId, commits⟩ : TrackingStep).step db =
      TrackingTx.finish commits (startExecutionTracking adapterKey attemptId (Tx.opened db)) := by
    unfold TrackingStep.step TrackingOp.program
    dsimp only
    rw [Tx.bind_apply]
    rcases startExecutionTracking adapterKey attemptId (Tx.opened db) with ⟨_ | _, s'⟩ <;> rfl
  rcases startTracking_rows adapterKey attemptId commits db with h | h
  · exact inStep_of_tame (by rw [hstep, h]; exact .refl db) hc (by rintro _ _ _ ⟨⟩)
  · rw [h] at hstep
    refine ⟨?_, ?_, by rintro _ _ _ _ ⟨⟩⟩
    · intro k x x' hx hx' _
      have hlt := (List.getElem?_eq_some_iff.1 hx).1
      rw [hstep, List.getElem?_append_left hlt, hx] at hx'
      rw [Option.some.inj hx']
    · intro x hx hst
      rw [hstep] at hx ⊢
      rcases List.mem_append.1 hx with hx | hx
      · exact hc x hx hst
      · rw [List.mem_singleton.1 hx] at hst
        cases hst

/-- a call on a row, which may not be there -/
theorem inStep_iff_onRow {α : Type} {f : AgentDispatchExecution → TrackingTx α}
    (hp : o.op.program db = db.onRow k f) (hc : CancelledInStep db)
    (hr : ∀ now j observation, o.op = .reconcile now j observation → j = k)
    (hnone : db.tracking[k]? = none → o.fits db)
    (hsome : ∀ x, db.tracking[k]? = some x →
      o.step db = TrackingTx.finish o.commits (f x (Tx.opened db)) → (InStep db o ↔ o.fits db)) :
    InStep db o ↔ o.fits db := by
  have hstep := step_onRow hp
  cases hx : db.tracking[k]? with
  | none =>
    rw [hx] at hstep
    have ht : Tame db (o.step db) := by
      rw [hstep]
      exact .refl db
    refine iff_of_true ⟨ht.endedStay, ht.cancelledInStep hc, fun now j observation y ho hy => ?_⟩
      (hnone hx)
    rw [hr now j observation ho, hx] at hy
    cases hy
  | some x =>
    rw [hx] at hstep
    exact hsome x hx hstep

/-- what is asked of the row `k` is asked of `x` -/
theorem forall_row_iff {P : AgentDispatchExecution → Prop} (hx : db.tracking[k]? = some x) :
    (∀ y, db.tracking[k]? = some y → P y) ↔ P x := by
  constructor
  · intro h
    exact h x hx
  · intro h y hy
    rw [hx] at hy
    cases hy
    exact h

theorem markRunning_inStep_iff (processRef : Option String) (commits : Bool)
    (hc : CancelledInStep db) : InStep db ⟨.markRunning k processRef, commits⟩ ↔
      (⟨.markRunning k processRef, commits⟩ : TrackingStep).fits db := by
  refine inStep_iff_onRow rfl hc (by rintro _ _ _ ⟨⟩) (fun hx y hy => ?_) fun x hx hstep => ?_
  · rw [hx] at hy
    cases hy
  have hfits : (⟨.markRunning k processRef, commits⟩ : TrackingStep).fits db ↔
      (processRef.all (storable (some 256)) → ¬ x.adapterState.terminal) := forall_row_iff hx
  rw [hfits]
  by_cases hs : processRef.all (storable (some 256)) = true
  · have hends := markRunning_ends processRef commits hx hs
    rw [← hstep] at hends
    rw [inStep_iff_of_rowEnds hends hc (by rintro _ _ _ ⟨⟩)]
    constructor
    · rintro ⟨h, -⟩ _ hterm
      rw [h hterm] at hterm
      cases hterm
    · intro h
      exact ⟨fun hterm => absurd hterm (h hs), fun hst => by cases hst⟩
  · refine iff_of_true (inStep_of_tame ?_ hc (by rintro _ _ _ ⟨⟩)) fun h => absurd h hs
    rw [hstep, markExecutionRunning, if_neg hs]
    exact tame_finish commits db

theorem collect_inStep_iff (now : Time) (agent : CoordinationAgent) (adapterKey : Option String)
    (answer : Except AdapterErr AgentResult) (commits : Bool) (hc : CancelledInStep db) :
    InStep db ⟨.collect now k agent adapterKey answer, commits⟩ ↔
      (⟨.collect now k agent adapterKey answer, commits⟩ : TrackingStep).fits db := by
  refine inStep_iff_onRow rfl hc (by rintro _ _ _ ⟨⟩) (fun hx y hy => ?_) fun x hx hstep => ?_
  · rw [hx] at hy
    cases hy
  have hfits : (⟨.collect now k agent adapterKey answer, commits⟩ : TrackingStep).fits db ↔
      (db.takes agent adapterKey x.attemptId answer → x.adapterState.terminal →
        x.adapterState = endedBy answer) := forall_row_iff hx
  rw [hfits]
  by_cases htakes : db.takes agent adapterKey x.attemptId answer = true
  · have hends := collect_ends now agent adapterKey answer commits hx htakes
    rw [← hstep] at hends
    have hne : endedBy answer ≠ .cancelled := by
      unfold endedBy
      split
      · intro h; cases h
      · intro h; cases h
      · intro h; cases h
    rw [inStep_iff_of_rowEnds hends hc (by rintro _ _ _ ⟨⟩)]
    constructor
    · rintro ⟨h, -⟩ _
      exact h
    · intro h
      exact ⟨h htakes, fun hst => absurd hst hne⟩
  · refine iff_of_true (inStep_of_tame ?_ hc (by rintro _ _ _ ⟨⟩)) fun h => absurd h htakes
    rw [hstep]
    exact collect_tame now agent adapterKey answer commits htakes

theorem cancel_inStep_iff (env : ControlEnv) (commits : Bool) (hc : CancelledInStep db) :
    InStep db ⟨.cancel env k, commits⟩ ↔
      (⟨.cancel env k, commits⟩ : TrackingStep).fits db := by
  refine inStep_iff_onRow rfl hc (by rintro _ _ _ ⟨⟩) (fun hx y hy => ?_) fun x hx hstep => ?_
  · rw [hx] at hy
    cases hy
  have hfits : (⟨.cancel env k, commits⟩ : TrackingStep).fits db ↔
      (env.supported → env.raises = none →
        (x.adapterState.terminal → x.adapterState = .cancelled) ∧
        (db.assignment.status ∈ [.waitingAgent, .running, .cancelled] ∨
          x.trackedTerminal = true)) := forall_row_iff hx
  rw [hfits]
  by_cases hsup : env.supported = true
  · cases hraise : env.raises with
    | some e =>
      refine iff_of_true (inStep_of_tame ?_ hc (by rintro _ _ _ ⟨⟩)) fun _ h => by cases h
      rw [hstep, cancelExecution, if_neg (not_not.2 hsup), hraise]
      exact tame_finish commits db
    | none =>
      obtain ⟨db', hdb', hends, hstatus⟩ := cancel_ends env commits hx hsup hraise
      rw [← hstep] at hdb'
      subst hdb'
      rw [inStep_iff_of_rowEnds hends hc (by rintro _ _ _ ⟨⟩), hstatus]
      -- the assignment is cancelled afterwards exactly when its status is one of three
      have hcan : (if db.assignment.status = .waitingAgent ∨ db.assignment.status = .running
          then WorkAssignmentStatus.cancelled else db.assignment.status) = .cancelled ↔
          db.assignment.status ∈ [.waitingAgent, .running, .cancelled] := by
        cases db.assignment.status <;> decide
      rw [hcan]
      constructor
      · rintro ⟨hended, hcancelled⟩ _ _
        exact ⟨hended, hcancelled rfl⟩
      · intro h
        obtain ⟨hended, hcancelled⟩ := h hsup rfl
        exact ⟨hended, fun _ => hcancelled⟩
  · refine iff_of_true (inStep_of_tame ?_ hc (by rintro _ _ _ ⟨⟩)) fun h => absurd h hsup
    rw [hstep, cancelExecution, if_pos hsup]
    exact tame_finish commits db

theorem reconcile_inStep_iff (now : Time) (observation : Except AdapterErr String) (commits : Bool)
    (hc : CancelledInStep db) : InStep db ⟨.reconcile now k observation, commits⟩ ↔
      (⟨.reconcile now k observation, commits⟩ : TrackingStep).fits db := by
  refine inStep_iff_onRow rfl hc (by rintro _ _ _ ⟨⟩; rfl) (fun hx y hy => ?_) fun x hx hstep => ?_
  · rw [hx] at hy
    cases hy
  have hfits : (⟨.reconcile now k observation, commits⟩ : TrackingStep).fits db ↔
      (x.adapterState = .exited → x.resultIngestionStatus ≠ .failed) := forall_row_iff hx
  -- the states of the rows change as they may
  have hstates : EndedStay db ((⟨.reconcile now k observation, commits⟩ : TrackingStep).step db) ∧
      CancelledInStep ((⟨.reconcile now k observation, commits⟩ : TrackingStep).step db) := by
    rw [hstep]
    rcases reconcile_tame_or_ends now observation commits hx with ht | ⟨st, hends, hlive, hst⟩
    · exact ⟨ht.endedStay, ht.cancelledInStep hc⟩
    · refine ⟨hends.endedStay_iff.2 fun hterm => ?_, (hends.cancelledInStep_iff hc).2 (absurd · hst)⟩
      rw [hlive] at hterm
      cases hterm
  rw [hfits]
  constructor
  · intro hin hexited hfailed
    have hreport := hin.reported now k observation x rfl hx
      ((reconcile_processExited_iff now observation _).2 ⟨hexited, by rw [hfailed]; rintro ⟨⟩⟩)
    rw [hfailed] at hreport
    cases hreport
  · intro h
    refine ⟨hstates.1, hstates.2, fun now' j observation' y ho hy hreport => ?_⟩
    cases ho
    rw [hx] at hy
    cases hy
    obtain ⟨hexited, hpending⟩ := (reconcile_processExited_iff now observation _).1 hreport
    cases hing : x.resultIngestionStatus with
    | pending => exact absurd hing hpending
    | ingested => rfl
    | failed => exact absurd hing (h hexited)

/-- one call leaves row and assignment in step exactly when it fits -/
theorem inStep_iff (hc : CancelledInStep db) (o : TrackingStep) : InStep db o ↔ o.fits db := by
  obtain ⟨op, commits⟩ := o
  cases op with
  | dispatch env =>
    refine iff_of_true (inStep_of_tame ?_ hc (by rintro _ _ _ ⟨⟩)) trivial
    exact tame_step_onCoordination (dispatchAssignment_keeps env) (dispatchAssignment_silent env)
      commits db
  | transition now target detail =>
    refine iff_of_true (inStep_of_tame ?_ hc (by rintro _ _ _ ⟨⟩)) trivial
    exact tame_step_onCoordination (transitionStatus_keeps now target detail) (.flush _) commits db
  | startTracking adapterKey attemptId =>
    exact iff_of_true (startTracking_inStep adapterKey attemptId commits hc) trivial
  | markRunning k processRef => exact markRunning_inStep_iff processRef commits hc
  | collect now k agent adapterKey answer =>
    exact collect_inStep_iff now agent adapterKey answer commits hc
  | cancel env k => exact cancel_inStep_iff env commits hc
  | reconcile now k observation => exact reconcile_inStep_iff now observation commits hc
  | resume env k =>
    refine inStep_iff_onRow rfl hc (by rintro _ _ _ ⟨⟩) (fun _ => trivial) fun x hx hstep => ?_
    refine iff_of_true (inStep_of_tame ?_ hc (by rintro _ _ _ ⟨⟩)) trivial
    rw [hstep]
    exact resume_tame env commits

/-- Row and assignment stay in step exactly in the runs whose calls all fit. -/
theorem tracking_in_step (start : CoordinationDb) (os : List TrackingStep) :
    (∀ p ∈ Run.trace TrackingStep.step ⟨start, []⟩ os, InStep p.1 p.2) ↔
      Run.Meets TrackingStep.step (fun db o => o.fits db) ⟨start, []⟩ os := by
  have h0 : CancelledInStep ⟨start, []⟩ := by
    intro x hx
    cases hx
  exact Run.trace_iff_meets (I := CancelledInStep) (D := InStep) (fun db o hc => inStep_iff hc o)
    (fun db o _ hin => hin.cancelled) h0 os

/-! ## two runs out of step -/

def trackedAgent : CoordinationAgent where
  agentKey := "codex"

/-- a ready assignment of a task -/
def trackedAssignment : CoordinationDb where
  assignment := {
    id := 1
    ownerId := 0
    taskId := some 0
    role := .builder
    status := .ready }

/-- the attempt 7 is dispatched and tracked -/
def dispatchedRun : List TrackingStep :=
  [⟨.dispatch { now := 1, attemptId := 7 }, false⟩, ⟨.startTracking "codex" 7, false⟩]

/-- its result is collected, and then it is cancelled -/
def lateCancel : List TrackingStep := dispatchedRun ++
  [⟨.collect 2 0 trackedAgent (some "codex") (.ok { succeeded := true, summary := "done" }), false⟩,
    ⟨.cancel { now := 3 } 0, false⟩]

/-- its process exits, its result cannot be read, and it is reconciled once more -/
def failedIngestion : List TrackingStep := dispatchedRun ++
  [⟨.reconcile 2 0 (.ok "exited"), false⟩,
    ⟨.collect 3 0 trackedAgent (some "codex") (.error (.other "unreadable")), true⟩,
    ⟨.reconcile 4 0 (.ok "exited"), false⟩]

/-- a cancel replaces `exited` under a completed assignment; a failed ingestion is reported as
ingested -/
theorem tracking_drifts :
    ¬ (∀ p ∈ Run.trace TrackingStep.step ⟨trackedAssignment, []⟩ lateCancel, InStep p.1 p.2) ∧
      ¬ (∀ p ∈ Run.trace TrackingStep.step ⟨trackedAssignment, []⟩ failedIngestion,
        InStep p.1 p.2) := by
  constructor
  · intro h
    have hlast := h (Run.run TrackingStep.step ⟨trackedAssignment, []⟩ (lateCancel.take 3),
      ⟨.cancel { now := 3 } 0, false⟩) (.tail _ (.tail _ (.tail _ (.head _))))
    have hrow := hlast.cancelled _ (List.mem_of_getElem? (i := 0) rfl) (by decide)
    revert hrow
    decide
  · intro h
    have hlast := h (Run.run TrackingStep.step ⟨trackedAssignment, []⟩ (failedIngestion.take 4),
      ⟨.reconcile 4 0 (.ok "exited"), false⟩)
      (.tail _ (.tail _ (.tail _ (.tail _ (.head _)))))
    have hing := hlast.reported 4 0 (.ok "exited") _ rfl rfl (by rfl)
    revert hing
    decide

end LifeAI
