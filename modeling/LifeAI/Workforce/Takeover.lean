import LifeAI.Lib.History
import LifeAI.Workforce.Verified
import Mathlib.Data.List.Dedup

/-!
# Takeover by another agent

* `Narrower`        the authority of a successor, against the failed assignment and the agent;
* `TakeoverLaw`     one takeover: nothing where it raises, no more authority where it returns;
* `ChainLaw`        the assignments of a request: one is live, one is ever completed;
* `orderly`         a takeover of its own request, once, with a verifier; no late `VERIFIED`;
* `takeover_chain`  every orderly run.
-/

namespace LifeAI.Workforce

/-! ## the laws -/

/-- `minted` has no authority that the failed assignment `row` and the profile `alt` do not have -/
structure Narrower (row : WorkforceAssignment) (alt : AgentProfile) (minted : WorkforceAssignment) :
    Prop where
  tools : ∀ tool ∈ minted.allowedToolClasses,
    tool ∈ row.allowedToolClasses ∧ tool ∈ alt.allowedToolClasses
  readPaths : ∀ path ∈ minted.allowedReadPaths, path ∈ row.allowedReadPaths
  projects : ∀ project ∈ minted.allowedProjectIds, project ∈ row.allowedProjectIds
  spend : minted.spendCeilingUsd = row.spendCeilingUsd
  noWrites : minted.allowedWritePaths = []
  noNetwork : minted.allowedNetworkDestinations = []
  noEffects : minted.allowExecutionEffects = false
  independent : minted.verifierProfileId ≠ some minted.profileId

/-- a takeover -/
structure TakeoverLaw (s : Tables) (op : Op) : Prop where
  atomic : ∀ ownerId t e, op.call = .takeover ownerId t → (op.exec s).1 = .error e → step s op = s
  narrower : ∀ ownerId t n, op.call = .takeover ownerId t → (op.exec s).1 = .ok (some n) →
    ∃ row alt minted, s.assignments[t.failed]? = some row ∧ s.profiles[t.alternate]? = some alt ∧
      (step s op).assignments[n]? = some minted ∧ minted.takeoverOfAssignmentId = some t.failed ∧
      Narrower row alt minted

/-- another assignment has taken over -/
def Tables.hasSuccessor (s : Tables) (a : AssignmentId) : Bool :=
  s.assignments.any (·.takeoverOfAssignmentId = some a)

/-- the assignments of a request, with those that were ever completed -/
structure ChainLaw (p : Tables × List AssignmentId) : Prop where
  oneLive : ∀ (now : Time) (i j : AssignmentId) (ri rj : WorkforceAssignment),
    p.1.assignments[i]? = some ri → p.1.assignments[j]? = some rj →
    ri.delegationRequestId = rj.delegationRequestId → ri.live now = true → rj.live now = true → i = j
  oneCompleted : ∀ (i j : AssignmentId) (ri rj : WorkforceAssignment),
    p.1.assignments[i]? = some ri → p.1.assignments[j]? = some rj →
    ri.delegationRequestId = rj.delegationRequestId → i ∈ p.2 → j ∈ p.2 → i = j
  /-- a completed assignment is among those that were ever completed -/
  completed : ∀ (i : AssignmentId) (ri : WorkforceAssignment), p.1.assignments[i]? = some ri →
    ri.status = .completed → i ∈ p.2
  /-- an assignment that was taken over is not live, and was never completed -/
  superseded : ∀ (i : AssignmentId) (ri : WorkforceAssignment), p.1.assignments[i]? = some ri →
    p.1.hasSuccessor i = true → (∀ now, ri.live now = false) ∧ ri.status ≠ .completed ∧
      ri.verificationStatus ≠ .verified ∧ i ∉ p.2

/-- the assignment that the call completes -/
def Op.completes (s : Tables) (op : Op) : Option AssignmentId := (op.verifies s).map Prod.fst

/-- a run that keeps which assignments were completed -/
def completing : Tables × List AssignmentId → Op → Tables × List AssignmentId :=
  History.recorded step Op.completes

/-- the checks that a takeover makes before it writes -/
def TakeoverArgs.passes (t : TakeoverArgs) (s : Tables) (ownerId : OwnerId)
    (row : WorkforceAssignment) : Bool :=
  row.externalEffectState.blocks = false ∧ (s.selectableAgent ownerId t.alternate).isOk ∧
    t.alternate ≠ row.profileId

/-- A takeover that comes to write is one of an assignment for its own request, which was never
completed or taken over, and has a verifier other than the new agent where one is needed; an
assignment that was taken over is not decided `VERIFIED`. -/
def orderly (p : Tables × List AssignmentId) (op : Op) : Bool :=
  match op.call with
  | .takeover ownerId t =>
    match p.1.assignments[t.failed]?, p.1.requests[t.request]? with
    | some row, some req =>
      if t.passes p.1 ownerId row then
        t.request = row.delegationRequestId ∧ t.verifier req row ≠ some t.alternate ∧
          (req.verificationRequirement = "independent_verifier" → t.verifier req row ≠ none) ∧
          t.failed ∉ p.2 ∧ ¬ p.1.hasSuccessor t.failed
      else true
    | _, _ => true
  | _ => (op.completes p.1).all fun a => ¬ p.1.hasSuccessor a

variable {now : Time} {s s' : Tables} {op : Op} {ownerId : OwnerId} {a i j n : AssignmentId}
  {row row' : WorkforceAssignment} {done : List AssignmentId} {answer : Except Err (Option AssignmentId)}

theorem hasSuccessor_iff : s.hasSuccessor a = true ↔
    ∃ (j : AssignmentId) (row : WorkforceAssignment),
      s.assignments[j]? = some row ∧ row.takeoverOfAssignmentId = some a := by
  unfold Tables.hasSuccessor
  rw [List.any_eq_true]
  constructor
  · intro h
    obtain ⟨row, hrow, htake⟩ := h
    obtain ⟨j, hj⟩ := List.getElem?_of_mem hrow
    exact ⟨j, row, hj, of_decide_eq_true htake⟩
  · intro h
    obtain ⟨j, row, hrow, htake⟩ := h
    exact ⟨row, List.mem_of_getElem? hrow, decide_eq_true htake⟩

/-! ## what a call leaves of a row -/

theorem decide_frame (decision : VerificationStatus) :
    (row.decide now decision).delegationRequestId = row.delegationRequestId ∧
    (row.decide now decision).takeoverOfAssignmentId = row.takeoverOfAssignmentId ∧
    (row.decide now decision).revokedAt = row.revokedAt := by
  cases decision <;> exact ⟨rfl, rfl, rfl⟩

theorem applied_frame (decision : VerificationStatus) :
    (row.applied now decision).delegationRequestId = row.delegationRequestId ∧
    (row.applied now decision).takeoverOfAssignmentId = row.takeoverOfAssignmentId ∧
    (row.applied now decision).revokedAt = row.revokedAt := by
  unfold WorkforceAssignment.applied
  split
  · exact decide_frame decision
  · exact decide_frame decision

/-- the columns that tie an assignment to its request and its predecessor stay; a revocation stays -/
structure SameTies (row row' : WorkforceAssignment) : Prop where
  request : row'.delegationRequestId = row.delegationRequestId
  takeover : row'.takeoverOfAssignmentId = row.takeoverOfAssignmentId
  revoked : row.revokedAt ≠ none → row'.revokedAt ≠ none

theorem RowChange.sameTies {returns : Bool} (h : RowChange op a row returns row') :
    SameTies row row' := by
  cases h with
  | ingested ownerId payload hcall hlive => exact ⟨rfl, rfl, id⟩
  | marked ownerId status verifier decision hcall hstatus hverifier =>
    obtain ⟨h1, h2, h3⟩ := @decide_frame op.now row decision
    exact ⟨h1, h2, fun h => by rw [h3]; exact h⟩
  | applied ownerId status risk e reason decision hcall hstatus hevidence =>
    obtain ⟨h1, h2, h3⟩ := @applied_frame op.now row decision
    exact ⟨h1, h2, fun h => by rw [h3]; exact h⟩
  | cancelled ownerId reason hcall => exact ⟨rfl, rfl, fun _ h => nomatch h⟩
  | _ => exact ⟨rfl, rfl, id⟩

theorem SameTies.refl (row : WorkforceAssignment) : SameTies row row := ⟨rfl, rfl, id⟩

theorem supersede_sameTies (row : WorkforceAssignment) (successor : Option AssignmentId) :
    SameTies row { row.supersede now with supersedesAssignmentId := successor } :=
  ⟨rfl, rfl, fun _ h => nomatch h⟩

theorem RowChange.not_takeover {returns : Bool} (h : RowChange op a row returns row')
    (ownerId : OwnerId) (t : TakeoverArgs) : op.call ≠ .takeover ownerId t := by
  intro htakeover
  cases h with
  | ingested | marked | applied | cancelled | noted | failed | retried | miscounted | restarted =>
    have hcall := ‹op.call = _›
    rw [htakeover] at hcall
    exact nomatch hcall

theorem live_of_revoked (h : row.revokedAt ≠ none) : row.live now = false := by
  unfold WorkforceAssignment.live WorkforceAssignment.lapses
  rw [if_pos h]
  simp

theorem decide_completed {decision : VerificationStatus} (h : decision ≠ .verified)
    (hc : (row.decide now decision).status = .completed) : row.status = .completed := by
  cases decision with
  | unverified => exact hc
  | checked => exact hc
  | verified => exact absurd rfl h
  | rejected => exact nomatch hc
  | superseded => exact nomatch hc

/-- only a decision `VERIFIED` completes an assignment -/
theorem RowChange.completed (h : RowChange op a row (op.exec s).1.isOk row')
    (hc : row'.status = .completed) : row.status = .completed ∨ op.completes s = some a := by
  by_cases hverifies : op.completes s = some a
  · exact .inr hverifies
  have hnot : ∀ d : Decision, op.call.decision s = some d → d.assignment = a →
      (op.exec s).1.isOk = true → d.status ≠ "VERIFIED" := by
    intro d hd hassign hok hstatus
    apply hverifies
    unfold Op.completes
    rw [verifies_iff hd hok hstatus, Option.map_some, hassign]
  generalize hans : (op.exec s).1.isOk = returns at h
  cases h with
  | ingested ownerId payload hcall hlive => exact nomatch hc
  | marked ownerId status verifier decision hcall hstatus hverifier =>
    have hd : ∃ risk e, op.call.decision s = some ⟨ownerId, a, status, risk, e⟩ := by
      rw [hcall]
      exact ⟨_, _, rfl⟩
    obtain ⟨risk, e, hd⟩ := hd
    have hne : decision ≠ .verified := by
      rintro rfl
      exact hnot _ hd rfl hans (verificationStatus?_verified.1 hstatus)
    exact .inl (decide_completed hne hc)
  | applied ownerId status risk e reason decision hcall hstatus hevidence =>
    have hd : op.call.decision s = some ⟨ownerId, a, status, risk, e⟩ := by
      rw [hcall]
      rfl
    have hne : decision ≠ .verified := by
      rintro rfl
      exact hnot _ hd rfl hans (verificationStatus?_verified.1 hstatus)
    unfold WorkforceAssignment.applied at hc
    split at hc
    · exact nomatch hc
    · exact .inl (decide_completed hne hc)
  | cancelled ownerId reason hcall => exact nomatch hc
  | noted ownerId c effect hcall heffect => exact .inl hc
  | failed ownerId failureClass text partialResult refs effect hcall heffect => exact nomatch hc
  | retried ownerId hcall hsafe hlive => exact nomatch hc
  | miscounted ownerId hcall hlive => exact nomatch hc
  | restarted ownerId restartKind hcall => exact .inl hc

/-- only a decision `VERIFIED` completes an assignment -/
theorem completed_after (hafter : (step s op).assignments[a]? = some row')
    (hc : row'.status = .completed) : op.completes s = some a ∨
      ∃ row, s.assignments[a]? = some row ∧ row.status = .completed := by
  have hrows := (exec_goes s op).rows hafter
  cases hrows with
  | kept row hrow => exact .inr ⟨_, hrow, hc⟩
  | changed row _ hrow hchange => exact (hchange.completed hc).symm.imp id fun h => ⟨row, hrow, h⟩
  | _ => exact nomatch hc

/-! ## the chains -/

/-- the rows of `s`, each with its ties -/
structure SameRows (s : Tables) (rows : List WorkforceAssignment) : Prop where
  length : rows.length = s.assignments.length
  back : ∀ (i : AssignmentId) (row' : WorkforceAssignment), rows[i]? = some row' →
    ∃ row, s.assignments[i]? = some row ∧ SameTies row row'

theorem SameRows.refl (s : Tables) : SameRows s s.assignments :=
  ⟨rfl, fun _ row' h => ⟨row', h, .refl row'⟩⟩

theorem SameRows.set (hrow : s.assignments[a]? = some row) (h : SameTies row row') :
    SameRows s (s.assignments.set a row') := by
  refine ⟨List.length_set, fun i x hx => ?_⟩
  rcases getElem?_set_some hx with hx | ⟨rfl, rfl⟩
  · exact ⟨x, hx, .refl x⟩
  · exact ⟨row, hrow, h⟩

/-- no row disappears -/
theorem SameRows.forth {rows : List WorkforceAssignment} (h : SameRows s rows)
    (hrow : s.assignments[i]? = some row) : ∃ row', rows[i]? = some row' ∧ SameTies row row' := by
  have hlt : i < rows.length := by
    rw [h.length]
    exact (List.getElem?_eq_some_iff.1 hrow).1
  obtain ⟨row0, hrow0, hties⟩ := h.back i _ (List.getElem?_eq_getElem hlt)
  obtain rfl := Option.some.inj (hrow.symm.trans hrow0)
  exact ⟨_, List.getElem?_eq_getElem hlt, hties⟩

/-- the assignments of a request are one chain, whose last one alone may not be revoked -/
structure Tied (s : Tables) : Prop where
  unique : ∀ (i j : AssignmentId) (ri rj : WorkforceAssignment), s.assignments[i]? = some ri →
    s.assignments[j]? = some rj → ri.delegationRequestId = rj.delegationRequestId →
    ¬ s.hasSuccessor i = true → ¬ s.hasSuccessor j = true → i = j
  revoked : ∀ (i : AssignmentId) (ri : WorkforceAssignment), s.assignments[i]? = some ri →
    s.hasSuccessor i = true → ri.revokedAt ≠ none
  /-- an open request has no assignment yet -/
  opened : ∀ (r : RequestId) (req : DelegationRequest), s.requests[r]? = some req →
    req.status = .opened → ∀ (i : AssignmentId) (ri : WorkforceAssignment),
      s.assignments[i]? = some ri → ri.delegationRequestId ≠ r
  bounded : ∀ (i : AssignmentId) (ri : WorkforceAssignment), s.assignments[i]? = some ri →
    ri.delegationRequestId < s.requests.length
  linked : ∀ (i k : AssignmentId) (ri : WorkforceAssignment), s.assignments[i]? = some ri →
    ri.takeoverOfAssignmentId = some k → k < s.assignments.length

/-- the assignments that were completed are among those of the chains, and were not taken over -/
structure Chained (p : Tables × List AssignmentId) : Prop where
  tied : Tied p.1
  completed : ∀ (i : AssignmentId) (ri : WorkforceAssignment), p.1.assignments[i]? = some ri →
    ri.status = .completed → i ∈ p.2
  superseded : ∀ (i : AssignmentId) (ri : WorkforceAssignment), p.1.assignments[i]? = some ri →
    p.1.hasSuccessor i = true →
      ri.status ≠ .completed ∧ ri.verificationStatus ≠ .verified ∧ i ∉ p.2

theorem SameRows.hasSuccessor_iff (h : SameRows s s'.assignments) :
    s'.hasSuccessor a = true ↔ s.hasSuccessor a = true := by
  rw [Workforce.hasSuccessor_iff, Workforce.hasSuccessor_iff]
  constructor
  · intro hsucc
    obtain ⟨j, row', hrow', htake⟩ := hsucc
    obtain ⟨row, hrow, hties⟩ := h.back j row' hrow'
    exact ⟨j, row, hrow, hties.takeover.symm.trans htake⟩
  · intro hsucc
    obtain ⟨j, row, hrow, htake⟩ := hsucc
    obtain ⟨row', hrow', hties⟩ := h.forth hrow
    exact ⟨j, row', hrow', hties.takeover.trans htake⟩

/-- a call that mints nothing keeps the chains -/
theorem Tied.kept (h : Tied s) (hrows : SameRows s s'.assignments)
    (hrequests : ∃ added, s'.requests = s.requests ++ added) : Tied s' := by
  obtain ⟨added, hrequests⟩ := hrequests
  refine ⟨fun i j ri rj hi hj hsame hfi hfj => ?_, fun i ri hi hsucc => ?_,
    fun r req hreq hopen i ri hi => ?_, fun i ri hi => ?_, fun i k ri hi htake => ?_⟩
  · obtain ⟨si, hsi, hti⟩ := hrows.back i ri hi
    obtain ⟨sj, hsj, htj⟩ := hrows.back j rj hj
    rw [hrows.hasSuccessor_iff] at hfi hfj
    rw [hti.request, htj.request] at hsame
    exact h.unique i j si sj hsi hsj hsame hfi hfj
  · obtain ⟨si, hsi, hti⟩ := hrows.back i ri hi
    exact hti.revoked (h.revoked i si hsi (hrows.hasSuccessor_iff.1 hsucc))
  · obtain ⟨si, hsi, hti⟩ := hrows.back i ri hi
    have hlt := h.bounded i si hsi
    rw [hti.request]
    intro heq
    rw [hrequests, List.getElem?_append_left (heq ▸ hlt)] at hreq
    exact h.opened r req hreq hopen i si hsi heq
  · obtain ⟨si, hsi, hti⟩ := hrows.back i ri hi
    rw [hti.request, hrequests, List.length_append]
    exact (h.bounded i si hsi).trans_le (Nat.le_add_right _ _)
  · obtain ⟨si, hsi, hti⟩ := hrows.back i ri hi
    rw [hrows.length]
    exact h.linked i k si hsi (hti.takeover.symm.trans htake)

theorem hasSuccessor_minted {rows : List WorkforceAssignment} {new : WorkforceAssignment}
    (hrows : SameRows s rows) (hafter : s'.assignments = rows ++ [new]) :
    s'.hasSuccessor a = true ↔ s.hasSuccessor a = true ∨ new.takeoverOfAssignmentId = some a := by
  let before : Tables := { s with assignments := rows }
  have hold : before.hasSuccessor a = true ↔ s.hasSuccessor a = true :=
    SameRows.hasSuccessor_iff hrows
  rw [← hold]
  show (s'.assignments.any _) = true ↔ (rows.any _) = true ∨ _
  rw [hafter, List.any_append, Bool.or_eq_true, List.any_cons, List.any_nil, Bool.or_false,
    decide_eq_true_iff]

/-- a call that mints an assignment for `r` keeps the chains: it takes over from the last assignment
of `r`, or there is none -/
theorem Tied.minted {rows : List WorkforceAssignment} {new : WorkforceAssignment} {r : RequestId}
    {req req' : DelegationRequest} (h : Tied s) (hrows : SameRows s rows)
    (hafter : s'.assignments = rows ++ [new]) (hreq : s.requests[r]? = some req)
    (hrequests : s'.requests = s.requests.set r req') (hassigned : req'.status = .assigned)
    (hnew : new.delegationRequestId = r)
    (hlast : ∀ (i : AssignmentId) (ri : WorkforceAssignment), s.assignments[i]? = some ri →
      ri.delegationRequestId = r → ¬ s.hasSuccessor i = true → new.takeoverOfAssignmentId = some i)
    (hfrom : ∀ k, new.takeoverOfAssignmentId = some k →
      ∃ (row : WorkforceAssignment), rows[k]? = some row ∧ row.revokedAt ≠ none) : Tied s' := by
  have hsucc : ∀ k : AssignmentId, s'.hasSuccessor k = true ↔
      s.hasSuccessor k = true ∨ new.takeoverOfAssignmentId = some k :=
    fun k => hasSuccessor_minted hrows hafter
  have hrlt : r < s.requests.length := (List.getElem?_eq_some_iff.1 hreq).1
  have hsplit : ∀ (i : AssignmentId) (ri : WorkforceAssignment), s'.assignments[i]? = some ri →
      (∃ si, s.assignments[i]? = some si ∧ rows[i]? = some ri ∧ SameTies si ri) ∨
        (i = s.assignments.length ∧ ri = new) := by
    intro i ri hi
    rw [hafter] at hi
    rcases getElem?_append_singleton_some hi with hi | ⟨hlen, heq⟩
    · obtain ⟨si, hsi, hti⟩ := hrows.back i ri hi
      exact .inl ⟨si, hsi, hi, hti⟩
    · exact .inr ⟨hlen.trans hrows.length, heq⟩
  -- an assignment of `r` that nobody took over has the new one as its successor
  have hcovered : ∀ (i : AssignmentId) (ri si : WorkforceAssignment), s.assignments[i]? = some si →
      SameTies si ri → ri.delegationRequestId = new.delegationRequestId →
      ¬ s'.hasSuccessor i = true → False := by
    intro i ri si hsi hti hsame hfree
    rw [hsucc] at hfree
    push Not at hfree
    exact hfree.2 (hlast i si hsi (hti.request.symm.trans (hsame.trans hnew)) hfree.1)
  refine ⟨fun i j ri rj hi hj hsame hfi hfj => ?_, fun i ri hi hfi => ?_,
    fun q qreq hqreq hopen i ri hi => ?_, fun i ri hi => ?_, fun i k ri hi htake => ?_⟩
  · rcases hsplit i ri hi with ⟨si, hsi, -, hti⟩ | ⟨rfl, rfl⟩
    · rcases hsplit j rj hj with ⟨sj, hsj, -, htj⟩ | ⟨rfl, rfl⟩
      · rw [hsucc, not_or] at hfi hfj
        rw [hti.request, htj.request] at hsame
        exact h.unique i j si sj hsi hsj hsame hfi.1 hfj.1
      · exact (hcovered i ri si hsi hti hsame hfi).elim
    · rcases hsplit j rj hj with ⟨sj, hsj, -, htj⟩ | ⟨rfl, rfl⟩
      · exact (hcovered j rj sj hsj htj hsame.symm hfj).elim
      · rfl
  · rcases hsplit i ri hi with ⟨si, hsi, hri, hti⟩ | ⟨rfl, rfl⟩
    · rcases (hsucc i).1 hfi with hfi | hfi
      · exact hti.revoked (h.revoked i si hsi hfi)
      · obtain ⟨row, hrow, hrevoked⟩ := hfrom i hfi
        obtain rfl := Option.some.inj (hri.symm.trans hrow)
        exact hrevoked
    · -- nobody took over from an assignment that was not there
      rcases (hsucc _).1 hfi with hfi | hfi
      · obtain ⟨j, rj, hj, htake⟩ := Workforce.hasSuccessor_iff.1 hfi
        exact absurd (h.linked j _ rj hj htake) (lt_irrefl _)
      · obtain ⟨row, hrow, -⟩ := hfrom _ hfi
        have hlt := (List.getElem?_eq_some_iff.1 hrow).1
        rw [hrows.length] at hlt
        exact absurd hlt (lt_irrefl _)
  · rw [hrequests] at hqreq
    have hold : s.requests[q]? = some qreq ∧ q ≠ r := by
      rcases getElem?_set_some hqreq with hold | ⟨rfl, rfl⟩
      · refine ⟨hold, fun heq => ?_⟩
        subst heq
        rw [List.getElem?_set_self hrlt] at hqreq
        rw [← Option.some.inj hqreq, hassigned] at hopen
        exact nomatch hopen
      · rw [hassigned] at hopen
        exact nomatch hopen
    rcases hsplit i ri hi with ⟨si, hsi, -, hti⟩ | ⟨rfl, rfl⟩
    · rw [hti.request]
      exact h.opened q qreq hold.1 hopen i si hsi
    · rw [hnew]
      exact hold.2.symm
  · rw [hrequests, List.length_set]
    rcases hsplit i ri hi with ⟨si, hsi, -, hti⟩ | ⟨rfl, rfl⟩
    · rw [hti.request]
      exact h.bounded i si hsi
    · rw [hnew]
      exact hrlt
  · have hlen : s'.assignments.length = s.assignments.length + 1 := by
      rw [hafter, List.length_append, hrows.length]
      rfl
    rw [hlen]
    rcases hsplit i ri hi with ⟨si, hsi, -, hti⟩ | ⟨rfl, rfl⟩
    · exact (h.linked i k si hsi (hti.takeover.symm.trans htake)).trans (Nat.lt_succ_self _)
    · obtain ⟨row, hrow, -⟩ := hfrom k htake
      have hlt := (List.getElem?_eq_some_iff.1 hrow).1
      rw [hrows.length] at hlt
      exact hlt.trans (Nat.lt_succ_self _)

/-! ## a step -/

variable {p : Tables × List AssignmentId} {t : TakeoverArgs} {req : DelegationRequest} {alt : AgentProfile}

/-- what `orderly` asks of a takeover that comes to write -/
theorem orderly_takeover (h : orderly p op = true) (hcall : op.call = .takeover ownerId t)
    (hrow : p.1.assignments[t.failed]? = some row) (hreq : p.1.requests[t.request]? = some req)
    (hsafe : row.externalEffectState.blocks = false)
    (halt : p.1.selectableAgent ownerId t.alternate = .ok alt) (hother : t.alternate ≠ row.profileId) :
    t.request = row.delegationRequestId ∧ t.verifier req row ≠ some t.alternate ∧
      (req.verificationRequirement = "independent_verifier" → t.verifier req row ≠ none) ∧
      t.failed ∉ p.2 ∧ ¬ p.1.hasSuccessor t.failed = true := by
  have hpasses : t.passes p.1 ownerId row = true := by
    unfold TakeoverArgs.passes
    rw [halt]
    exact decide_eq_true ⟨hsafe, rfl, hother⟩
  unfold orderly at h
  rw [hcall] at h
  dsimp only at h
  rw [hrow, hreq] at h
  dsimp only at h
  rw [if_pos hpasses] at h
  exact of_decide_eq_true h

theorem completes_takeover (hcall : op.call = .takeover ownerId t) : op.completes s = none := by
  unfold Op.completes Op.verifies
  rw [hcall]
  rfl

/-- an orderly call does not complete an assignment that was taken over -/
theorem orderly_completes (h : orderly p op = true) (hc : op.completes p.1 = some a) :
    ¬ p.1.hasSuccessor a = true := by
  unfold orderly at h
  generalize hcall : op.call = call at h
  cases call with
  | takeover ownerId t =>
    rw [completes_takeover hcall] at hc
    exact nomatch hc
  | registry | submit | resolve | ingest | markVerification | applyDecision | cancel | checkpoint
  | failure | retry | restart =>
    dsimp only at h
    rw [hc] at h
    exact of_decide_eq_true h

/-- An orderly call keeps the chains; the assignment that it takes over from, if any, was not taken
over before and is left as superseded. -/
theorem tied_step (h : Tied p.1) (hc : orderly p op = true) : Tied (step p.1 op) ∧
    ∀ i : AssignmentId, (step p.1 op).hasSuccessor i = true → p.1.hasSuccessor i = true ∨
      (i ∉ p.2 ∧ op.completes p.1 = none ∧
        ∀ ri : WorkforceAssignment, (step p.1 op).assignments[i]? = some ri →
          ri.status = .superseded ∧ ri.verificationStatus = .superseded) := by
  have hkeeps : ∀ s' : Tables, SameRows p.1 s'.assignments →
      (∃ added, s'.requests = p.1.requests ++ added) → Tied s' ∧
      ∀ i : AssignmentId, s'.hasSuccessor i = true → p.1.hasSuccessor i = true ∨
        (i ∉ p.2 ∧ op.completes p.1 = none ∧
          ∀ ri : WorkforceAssignment, s'.assignments[i]? = some ri →
            ri.status = .superseded ∧ ri.verificationStatus = .superseded) :=
    fun s' hrows hrequests =>
      ⟨h.kept hrows hrequests, fun i hi => .inl (hrows.hasSuccessor_iff.1 hi)⟩
  have hgoes := exec_goes p.1 op
  unfold step
  generalize (op.exec p.1).1 = answer at hgoes
  generalize (op.exec p.1).2 = s' at hgoes
  cases hgoes with
  | refused e => exact hkeeps _ (.refl _) ⟨[], (List.append_nil _).symm⟩
  | aside _ hcall hrows hrequests =>
    refine hkeeps _ ?_ hrequests
    rw [hrows]
    exact .refl _
  | changed _ _ b row0 row1 hb hchange hrows hrequests =>
    refine hkeeps _ ?_ ⟨[], hrequests.trans (List.append_nil _).symm⟩
    rw [hrows]
    exact .set hb hchange.sameTies
  | resolved ownerId request q req profileId profile _ hcall hreq hopen hrequests hrows =>
    constructor
    · refine h.minted (.refl _) hrows hreq hrequests rfl rfl (fun i ri hi hsame => ?_)
        fun k hk => nomatch hk
      exact absurd hsame (h.opened request req hreq hopen i ri hi)
    · intro i hi
      rcases (hasSuccessor_minted (.refl _) hrows).1 hi with hi | hi
      · exact .inl hi
      · exact nomatch hi
  | stranded ownerId t row req alt hcall hrow hreq hsafe halt hother hverifier =>
    obtain ⟨-, hverifier', hneeded, -⟩ := orderly_takeover hc hcall hrow hreq hsafe halt hother
    rcases hverifier with ⟨hindependent, hnone | halternate⟩
    · exact absurd hnone (hneeded hindependent)
    · exact absurd halternate hverifier'
  | takenOver ownerId t row req alt hcall hrow hreq hsafe halt hother hverifier =>
    obtain ⟨hown, -, -, hnever, hfirst⟩ := orderly_takeover hc hcall hrow hreq hsafe halt hother
    have hrows : SameRows p.1 (p.1.assignments.set t.failed
        { row.supersede op.now with supersedesAssignmentId := none }) :=
      .set hrow (supersede_sameTies row none)
    have hself : (p.1.assignments.set t.failed
        { row.supersede op.now with supersedesAssignmentId := none })[t.failed]? =
        some { row.supersede op.now with supersedesAssignmentId := none } :=
      List.getElem?_set_self (List.getElem?_eq_some_iff.1 hrow).1
    constructor
    · refine h.minted hrows rfl hreq rfl rfl rfl (fun i ri hi hsame hfree => ?_) fun k hk => ?_
      · -- the last assignment of the request is the one that failed
        have heq : t.failed = i := h.unique t.failed i row ri hrow hi
          (hown.symm.trans hsame.symm) hfirst hfree
        exact congrArg some heq
      · obtain rfl := Option.some.inj hk
        exact ⟨_, hself, fun hrevoked => nomatch hrevoked⟩
    · intro i hi
      rcases (hasSuccessor_minted hrows rfl).1 hi with hi | hi
      · exact .inl hi
      · obtain rfl := Option.some.inj hi
        refine .inr ⟨hnever, completes_takeover hcall, fun ri hri => ?_⟩
        have hlt := (List.getElem?_eq_some_iff.1 hself).1
        have hri' := (List.getElem?_append_left hlt).symm.trans hri
        obtain rfl := Option.some.inj (hself.symm.trans hri')
        exact ⟨rfl, rfl⟩

theorem Chained.step (h : Chained p) (hc : orderly p op = true) : Chained (completing p op) := by
  obtain ⟨htied, hsucc⟩ := tied_step h.tied hc
  refine ⟨htied, fun i ri hi hcompleted => ?_, fun i ri hi hi' => ?_⟩
  · rcases completed_after hi hcompleted with hnow | ⟨row, hrow, hbefore⟩
    · exact List.mem_append_right _ (Option.mem_toList.2 hnow)
    · exact List.mem_append_left _ (h.completed i row hrow hbefore)
  · rcases hsucc i hi' with hold | ⟨hnever, hnone, hleft⟩
    · have hother : op.completes p.1 ≠ some i := fun hnow => orderly_completes hc hnow hold
      refine ⟨fun hcompleted => ?_, fun hverified => ?_, fun hmem => ?_⟩
      · rcases completed_after hi hcompleted with hnow | ⟨row, hrow, hbefore⟩
        · exact hother hnow
        · exact (h.superseded i row hrow hold).1 hbefore
      · rcases verified_after hi hverified with ⟨e, hnow⟩ | ⟨row, hrow, hbefore⟩
        · refine hother ?_
          unfold Op.completes
          rw [hnow, Option.map_some]
        · exact (h.superseded i row hrow hold).2.1 hbefore
      · obtain ⟨j, rj, hj, htake⟩ := hasSuccessor_iff.1 hold
        have hlt := h.tied.linked j i rj hj htake
        rcases List.mem_append.1 hmem with hmem | hmem
        · exact (h.superseded i _ (List.getElem?_eq_getElem hlt) hold).2.2 hmem
        · exact hother (Option.mem_toList.1 hmem)
    · obtain ⟨hstatus, hverification⟩ := hleft ri hi
      rw [hstatus, hverification]
      refine ⟨nofun, nofun, fun hmem => ?_⟩
      rcases List.mem_append.1 hmem with hmem | hmem
      · exact hnever hmem
      · rw [hnone] at hmem
        exact absurd hmem List.not_mem_nil

/-- a chain has one live assignment at most, and one that was ever completed -/
theorem Chained.law (h : Chained p) : ChainLaw p where
  oneLive := by
    intro now i j ri rj hi hj hsame hlivei hlivej
    have hfree : ∀ (k : AssignmentId) (rk : WorkforceAssignment), p.1.assignments[k]? = some rk →
        rk.live now = true → ¬ p.1.hasSuccessor k = true := by
      intro k rk hk hlive hsucc
      rw [live_of_revoked (h.tied.revoked k rk hk hsucc)] at hlive
      exact nomatch hlive
    exact h.tied.unique i j ri rj hi hj hsame (hfree i ri hi hlivei) (hfree j rj hj hlivej)
  oneCompleted := by
    intro i j ri rj hi hj hsame hdonei hdonej
    have hfree : ∀ (k : AssignmentId) (rk : WorkforceAssignment), p.1.assignments[k]? = some rk →
        k ∈ p.2 → ¬ p.1.hasSuccessor k = true :=
      fun k rk hk hdone hsucc => (h.superseded k rk hk hsucc).2.2 hdone
    exact h.tied.unique i j ri rj hi hj hsame (hfree i ri hi hdonei) (hfree j rj hj hdonej)
  completed := h.completed
  superseded := fun i ri hi hsucc =>
    ⟨fun _ => live_of_revoked (h.tied.revoked i ri hi hsucc), h.superseded i ri hi hsucc⟩

/-! ## one takeover -/

theorem selectableAgent_ok (h : s.selectableAgent ownerId n = .ok alt) : s.profiles[n]? = some alt := by
  unfold Tables.selectableAgent Tables.getWorkforceAgent at h
  cases hrow : s.profiles[n]? with
  | none =>
    rw [hrow] at h
    exact nomatch h
  | some profile =>
    rw [hrow] at h
    dsimp only at h
    by_cases howner : profile.ownerId ≠ ownerId
    · rw [if_pos howner] at h
      exact nomatch h
    · rw [if_neg howner] at h
      dsimp only at h
      cases hselect : profile.assertSelectable with
      | error e =>
        rw [hselect] at h
        exact nomatch h
      | ok u =>
        rw [hselect] at h
        exact congrArg some (Except.ok.inj h)

theorem mem_commonTools {prior tools : List String} {tool : String} :
    tool ∈ commonTools prior tools ↔ tool ∈ prior ∧ tool ∈ tools := by
  unfold commonTools
  rw [List.mem_mergeSort, List.mem_dedup, List.mem_filter, decide_eq_true_iff]

/-- what the successor may do -/
theorem narrower_assignment {package : ℕ} {preserved : Payload}
    (hverifier : t.verifier req row ≠ some t.alternate) :
    Narrower row alt (t.assignment now ownerId req row alt package preserved) where
  tools := fun _ htool => mem_commonTools.1 htool
  readPaths := fun _ => id
  projects := fun _ => id
  spend := rfl
  noWrites := rfl
  noNetwork := rfl
  noEffects := rfl
  independent := hverifier

theorem takeoverLaw_of_orderly (hc : orderly p op = true) : TakeoverLaw p.1 op := by
  have hgoes := exec_goes p.1 op
  refine ⟨fun ownerId t e hcall herror => ?_, fun ownerId t n hcall hok => ?_⟩
  · unfold step
    rw [herror] at hgoes
    generalize (op.exec p.1).2 = s' at hgoes
    cases hgoes with
    | refused e => rfl
    | changed _ _ b row0 row1 hb hchange hrows hrequests =>
      exact absurd hcall (hchange.not_takeover ownerId t)
    | stranded ownerId t row req alt hcall hrow hreq hsafe halt hother hverifier =>
      obtain ⟨-, hverifier', hneeded, -⟩ := orderly_takeover hc hcall hrow hreq hsafe halt hother
      rcases hverifier with ⟨hindependent, hnone | halternate⟩
      · exact absurd hnone (hneeded hindependent)
      · exact absurd halternate hverifier'
  · unfold step
    generalize hans : (op.exec p.1).1 = answer at hgoes hok
    generalize (op.exec p.1).2 = s' at hgoes
    cases hgoes with
    | refused e => exact nomatch hok
    | aside _ hother hrows hrequests => exact nomatch hok
    | changed _ _ b row0 row1 hb hchange hrows hrequests =>
      exact absurd hcall (hchange.not_takeover ownerId t)
    | resolved ownerId request q req profileId profile _ hother hreq hopen hrequests hrows =>
      rw [hcall] at hother
      exact nomatch hother
    | stranded ownerId t row req alt hother hrow hreq hsafe halt hdiffer hverifier => exact nomatch hok
    | takenOver ownerId' t' row req alt hcall' hrow hreq hsafe halt hother hverifier =>
      rw [hcall] at hcall'
      obtain ⟨rfl, rfl⟩ := Call.takeover.inj hcall'
      obtain rfl := Option.some.inj (Except.ok.inj hok)
      obtain ⟨-, hverifier', -⟩ := orderly_takeover hc hcall hrow hreq hsafe halt hother
      have hminted : (p.1.takenOver op.now ownerId t row req alt).assignments[p.1.assignments.length]? =
          some (t.assignment op.now ownerId req row alt p.1.packages.length
            ((p.1.latestCheckpoint t.failed).elim row.resultPayload (·.partialResult))) := by
        show (List.set _ _ _ ++ [_])[_]? = _
        rw [List.getElem?_append_right (List.length_set).le, List.length_set, Nat.sub_self]
        rfl
      exact ⟨row, alt, _, hrow, selectableAgent_ok halt, hminted, rfl, narrower_assignment hverifier'⟩

/-- **In every orderly run, a takeover that raises leaves everything as it was, one that returns
narrows the authority, and a request has at most one live assignment and at most one that was ever
completed.** -/
theorem takeover_chain (s : Tables) (hs : s.assignments = []) (ops : List Op)
    (h : Run.Meets completing (fun p op => orderly p op = true) (s, []) ops) :
    ∀ p ∈ Run.trace completing (s, []) ops, TakeoverLaw p.1.1 p.2 ∧ ChainLaw (completing p.1 p.2) := by
  have hnone : ∀ (i : AssignmentId) (ri : WorkforceAssignment), ¬ s.assignments[i]? = some ri := by
    intro i ri hi
    rw [hs] at hi
    exact nomatch hi
  have hstart : Chained (s, []) := by
    refine ⟨⟨?_, ?_, ?_, ?_, ?_⟩, ?_, ?_⟩
    · exact fun i j ri rj hi => absurd hi (hnone i ri)
    · exact fun i ri hi => absurd hi (hnone i ri)
    · exact fun r req hreq hopen i ri hi => absurd hi (hnone i ri)
    · exact fun i ri hi => absurd hi (hnone i ri)
    · exact fun i k ri hi => absurd hi (hnone i ri)
    · exact fun i ri hi => absurd hi (hnone i ri)
    · exact fun i ri hi => absurd hi (hnone i ri)
  have hstep : ∀ (p : Tables × List AssignmentId) (op : Op), Chained p → orderly p op = true →
      (TakeoverLaw p.1 op ∧ ChainLaw (completing p op)) ∧ Chained (completing p op) :=
    fun p op hp hc => ⟨⟨takeoverLaw_of_orderly hc, (hp.step hc).law⟩, hp.step hc⟩
  exact Run.trace_all_of_meets (I := Chained) hstep hstart h

/-! ## the second builder takes over -/

/-- the second builder takes over, with this verifier -/
def reassigned (verifier : ProfileId) : Op :=
  ⟨3, .takeover 1 { failed := 0, request := 0, alternate := 2, verifierProfileId := some verifier }⟩

def timedOutTeam : Tables × List AssignmentId :=
  Run.run completing (team, []) [delegated, timedOut "none_proven"]

theorem takeover_chain_reassigned : TakeoverLaw timedOutTeam.1 (reassigned 1) ∧
    ChainLaw (completing timedOutTeam (reassigned 1)) := by
  have hmem : (timedOutTeam, reassigned 1) ∈
      Run.trace completing (team, []) ([delegated, timedOut "none_proven"] ++ [reassigned 1]) := by
    rw [Run.trace_append]
    exact List.mem_append_right _ List.mem_cons_self
  exact takeover_chain team rfl _ (by decide) _ hmem

/-- Where the verifier is the new agent itself, the takeover raises when the failed assignment is
superseded and its request is open again. -/
theorem self_verified_takeover_stranded :
    ¬ ∀ (s : Tables), s.assignments = [] → ∀ ops : List Op, ∀ p ∈ Run.trace completing (s, []) ops,
      TakeoverLaw p.1.1 p.2 ∧ ChainLaw (completing p.1 p.2) := by
  intro h
  have hmem : (timedOutTeam, reassigned 2) ∈
      Run.trace completing (team, []) ([delegated, timedOut "none_proven"] ++ [reassigned 2]) := by
    rw [Run.trace_append]
    exact List.mem_append_right _ List.mem_cons_self
  have hatomic := (h team rfl _ _ hmem).1.atomic 1 _
    (.failureTakeover "independent verifier required and must differ from builder") rfl
    (by decide)
  have hstatus := congrArg (fun s : Tables => s.assignments.map (·.status)) hatomic
  exact absurd hstatus (by decide)

end LifeAI.Workforce
