import LifeAI.Workforce.Model

/-!
# What a call of the workforce does

* `RowChange`  how a call changes the row of an assignment;
* `Goes`       the answer of a call and the tables that it leaves behind;
* `exec_goes`  every call goes in one of these ways;
* `RowAfter`, `Goes.rows`  where a row comes from.
-/

namespace LifeAI.Workforce

variable {now : Time} {s s' : Tables} {op : Op} {ownerId : OwnerId} {a i : AssignmentId}
  {row row' : WorkforceAssignment} {answer : Except Err (Option AssignmentId)}

/-- the row with the columns that a checkpoint writes -/
def WorkforceAssignment.noted (row : WorkforceAssignment) (effect : EffectState)
    (failureClass : Option String) : WorkforceAssignment :=
  { row with externalEffectState := effect, failureClass }

/-- the row of a retry, before its checkpoint -/
def WorkforceAssignment.retried (row : WorkforceAssignment) : WorkforceAssignment :=
  { row with retryCount := row.retryCount + 1, status := .assigned }

/-- the row after an ingestion -/
def WorkforceAssignment.ingested (row : WorkforceAssignment) (payload : Payload) :
    WorkforceAssignment :=
  let r := scrubFields payload
  { row with
    resultPayload := [("data", .obj r.1), ("stripped_authority_keys", .arr (r.2.map .str))]
    verificationStatus := .unverified
    status := .awaitingVerification }

/-- the row after a decision of the pipeline -/
def WorkforceAssignment.applied (row : WorkforceAssignment) (now : Time)
    (decision : VerificationStatus) : WorkforceAssignment :=
  if decision = .checked then { row.decide now decision with status := .awaitingVerification }
  else row.decide now decision

/-- how a call changes the row of the assignment `a`; the flag says whether it returns -/
inductive RowChange (op : Op) (a : AssignmentId) (row : WorkforceAssignment) :
    Bool → WorkforceAssignment → Prop
  | ingested (ownerId : OwnerId) (payload : Payload) (hcall : op.call = .ingest ownerId a payload)
      (hlive : row.live op.now = true) : RowChange op a row true (row.ingested payload)
  | marked (ownerId : OwnerId) (status : String) (verifier : ProfileId) (decision : VerificationStatus)
      (hcall : op.call = .markVerification ownerId a status verifier)
      (hstatus : verificationStatus? status = some decision)
      (hverifier : decision = .verified → row.refusesVerifier verifier
        "verifier_profile_id does not match assignment requirement" = none) :
      RowChange op a row true (row.decide op.now decision)
  | applied (ownerId : OwnerId) (status risk : String) (e : Evidence) (reason : String)
      (decision : VerificationStatus)
      (hcall : op.call = .applyDecision ownerId a status risk e reason)
      (hstatus : verificationStatus? status = some decision)
      (hevidence : decision = .verified → row.refusesEvidence (policyForRisk risk) e = none) :
      RowChange op a row true (row.applied op.now decision)
  | cancelled (ownerId : OwnerId) (reason : String) (hcall : op.call = .cancel ownerId a reason) :
      RowChange op a row true (row.revoke op.now reason)
  | noted (ownerId : OwnerId) (c : CheckpointArgs) (effect : EffectState)
      (hcall : op.call = .checkpoint ownerId a c)
      (heffect : effectState? (c.externalEffectState.getD "none_known") = some effect) :
      RowChange op a row true (row.noted effect (c.failureClass <|> row.failureClass))
  | failed (ownerId : OwnerId) (failureClass externalEffectState : String) (partialResult : Payload)
      (evidenceRefs : List Json) (effect : EffectState)
      (hcall : op.call =
        .failure ownerId a failureClass externalEffectState partialResult evidenceRefs)
      (heffect : effectState? externalEffectState = some effect) :
      RowChange op a row true (({ row with status := .failed }).noted effect (some failureClass))
  | retried (ownerId : OwnerId) (hcall : op.call = .retry ownerId a)
      (hsafe : row.externalEffectState.blocks = false) (hlive : row.live op.now = true) :
      RowChange op a row true (row.retried.noted .noneProven row.failureClass)
  | miscounted (ownerId : OwnerId) (hcall : op.call = .retry ownerId a)
      (hlive : row.live op.now = true) : RowChange op a row false row.retried
  | restarted (ownerId : OwnerId) (restartKind : String)
      (hcall : op.call = .restart ownerId a restartKind) :
      RowChange op a row true (row.noted row.externalEffectState (some restartKind))

/-- the answer of a call, and the tables that it leaves behind -/
inductive Goes (s : Tables) (op : Op) : Except Err (Option AssignmentId) → Tables → Prop
  | refused (e : Err) : Goes s op (.error e) s
  | aside (s' : Tables)
      (hcall : (∃ profiles, op.call = .registry profiles) ∨ ∃ request, op.call = .submit request)
      (hrows : s'.assignments = s.assignments)
      (hrequests : ∃ added, s'.requests = s.requests ++ added) : Goes s op (.ok none) s'
  | changed (answer : Except Err (Option AssignmentId)) (s' : Tables) (a : AssignmentId)
      (row row' : WorkforceAssignment) (hrow : s.assignments[a]? = some row)
      (hchange : RowChange op a row answer.isOk row')
      (hrows : s'.assignments = s.assignments.set a row') (hrequests : s'.requests = s.requests) :
      Goes s op answer s'
  | resolved (ownerId : OwnerId) (request : RequestId) (q : Resolution) (req : DelegationRequest)
      (profileId : ProfileId) (profile : AgentProfile) (s' : Tables)
      (hcall : op.call = .resolve ownerId request q) (hreq : s.requests[request]? = some req)
      (hopen : req.status = .opened)
      (hrequests : s'.requests =
        s.requests.set request { req with status := .assigned, resolvedAt := some op.now })
      (hrows : s'.assignments = s.assignments ++
        [q.assignment op.now ownerId request req profileId profile s.packages.length]) :
      Goes s op (.ok (some s.assignments.length)) s'
  | stranded (ownerId : OwnerId) (t : TakeoverArgs) (row : WorkforceAssignment)
      (req : DelegationRequest) (alt : AgentProfile) (hcall : op.call = .takeover ownerId t)
      (hrow : s.assignments[t.failed]? = some row) (hreq : s.requests[t.request]? = some req)
      (hsafe : row.externalEffectState.blocks = false)
      (halt : s.selectableAgent ownerId t.alternate = .ok alt) (hother : t.alternate ≠ row.profileId)
      (hverifier : req.verificationRequirement = "independent_verifier" ∧
        (t.verifier req row = none ∨ t.verifier req row = some t.alternate)) :
      Goes s op
        (.error (.failureTakeover "independent verifier required and must differ from builder"))
        (s.superseding op.now ownerId t row req alt)
  | takenOver (ownerId : OwnerId) (t : TakeoverArgs) (row : WorkforceAssignment)
      (req : DelegationRequest) (alt : AgentProfile) (hcall : op.call = .takeover ownerId t)
      (hrow : s.assignments[t.failed]? = some row) (hreq : s.requests[t.request]? = some req)
      (hsafe : row.externalEffectState.blocks = false)
      (halt : s.selectableAgent ownerId t.alternate = .ok alt) (hother : t.alternate ≠ row.profileId)
      (hverifier : ¬ (req.verificationRequirement = "independent_verifier" ∧
        (t.verifier req row = none ∨ t.verifier req row = some t.alternate))) :
      Goes s op (.ok (some s.assignments.length)) (s.takenOver op.now ownerId t row req alt)

/-! ## the calls one by one -/

theorem checkCheckpoint_ok {c : CheckpointArgs} {effect : EffectState}
    (h : checkCheckpoint ownerId row c = .ok effect) :
    effectState? (c.externalEffectState.getD "none_known") = some effect := by
  unfold checkCheckpoint at h
  dsimp only at h
  rw [guard_eq_ok, guard_eq_ok] at h
  obtain ⟨-, -, h⟩ := h
  cases heffect : effectState? (c.externalEffectState.getD "none_known") with
  | none =>
    rw [heffect] at h
    exact nomatch h
  | some e =>
    rw [heffect] at h
    exact congrArg some (Except.ok.inj h)

theorem canSafelyRetry_ok (h : row.canSafelyRetry = .ok ()) : row.externalEffectState.blocks = false := by
  unfold WorkforceAssignment.canSafelyRetry at h
  rw [guard_eq_ok] at h
  exact Bool.eq_false_iff.2 h.1

theorem effectState?_name (e : EffectState) : effectState? e.name = some e := by
  cases e <;> rfl

theorem goes_resolve (request : RequestId) (q : Resolution) :
    Goes s ⟨now, .resolve ownerId request q⟩ ((resolveDelegation now s ownerId request q).1.map some)
      (resolveDelegation now s ownerId request q).2 := by
  unfold resolveDelegation
  cases hreq : s.requests[request]? with
  | none => exact .refused _
  | some req =>
    dsimp only
    by_cases howner : req.ownerId ≠ ownerId
    · rw [if_pos howner]
      exact .refused _
    rw [if_neg howner]
    by_cases hopen : req.status ≠ .opened
    · rw [if_pos hopen]
      exact .refused _
    rw [if_neg hopen]
    cases hbest : q.best with
    | error e => exact .refused _
    | ok profileId =>
      dsimp only
      cases hselect : s.selectableAgent ownerId profileId with
      | error e => exact .refused _
      | ok profile =>
        dsimp only
        cases checkVerifier s ownerId req.verificationRequirement profileId q.verifierProfileId with
        | error e => exact .refused _
        | ok u =>
          exact .resolved ownerId request q req profileId profile _ rfl hreq (not_not.1 hopen) rfl rfl

theorem goes_ingest (payload : Payload) :
    Goes s ⟨now, .ingest ownerId a payload⟩
      ((ingestUntrustedResult now s ownerId a payload).1.map fun _ => none)
      (ingestUntrustedResult now s ownerId a payload).2 := by
  unfold ingestUntrustedResult
  cases hrow : s.assignments[a]? with
  | none => exact .refused _
  | some row =>
    dsimp only
    by_cases howner : row.ownerId ≠ ownerId
    · rw [if_pos howner]
      exact .refused _
    rw [if_neg howner]
    by_cases hlive : ¬ row.live now = true
    · rw [if_pos hlive]
      exact .refused _
    rw [if_neg hlive]
    exact .changed _ _ a row _ hrow (.ingested ownerId payload rfl (not_not.1 hlive)) rfl rfl

theorem goes_mark (status : String) (verifier : ProfileId) :
    Goes s ⟨now, .markVerification ownerId a status verifier⟩
      ((markVerification now s ownerId a status verifier).1.map fun _ => none)
      (markVerification now s ownerId a status verifier).2 := by
  unfold markVerification
  cases hrow : s.assignments[a]? with
  | none => exact .refused _
  | some row =>
    dsimp only
    cases hstatus : verificationStatus? status with
    | none => exact .refused _
    | some decision =>
      dsimp only
      by_cases howner : row.ownerId ≠ ownerId
      · rw [if_pos howner]
        exact .refused _
      rw [if_neg howner]
      generalize hrefusal : (if decision = .verified then row.refusesVerifier verifier
        "verifier_profile_id does not match assignment requirement" else none) = refusal
      cases refusal with
      | some e => exact .refused _
      | none =>
        have hverifier : decision = .verified → row.refusesVerifier verifier
            "verifier_profile_id does not match assignment requirement" = none := by
          intro hd
          rwa [if_pos hd] at hrefusal
        exact .changed _ _ a row _ hrow
          (.marked ownerId status verifier decision rfl hstatus hverifier) rfl rfl

theorem goes_apply (decision risk : String) (e : Evidence) (reason : String) :
    Goes s ⟨now, .applyDecision ownerId a decision risk e reason⟩
      ((applyVerificationDecision now s ownerId a decision risk e reason).1.map fun _ => none)
      (applyVerificationDecision now s ownerId a decision risk e reason).2 := by
  unfold applyVerificationDecision
  cases hrow : s.assignments[a]? with
  | none => exact .refused _
  | some row =>
    dsimp only
    by_cases howner : row.ownerId ≠ ownerId
    · rw [if_pos howner]
      exact .refused _
    rw [if_neg howner]
    cases hstatus : verificationStatus? decision with
    | none => exact .refused _
    | some status =>
      dsimp only
      generalize hrefusal : (if status = .verified then row.refusesEvidence (policyForRisk risk) e
        else none) = refusal
      cases refusal with
      | some x => exact .refused _
      | none =>
        have hevidence : status = .verified → row.refusesEvidence (policyForRisk risk) e = none := by
          intro hd
          rwa [if_pos hd] at hrefusal
        exact .changed _ _ a row _ hrow
          (.applied ownerId decision risk e reason status rfl hstatus hevidence) rfl rfl

theorem goes_cancel (reason : String) :
    Goes s ⟨now, .cancel ownerId a reason⟩
      ((cancelAssignment now s ownerId a reason).1.map fun _ => none)
      (cancelAssignment now s ownerId a reason).2 := by
  unfold cancelAssignment
  cases hrow : s.assignments[a]? with
  | none => exact .refused _
  | some row =>
    dsimp only
    by_cases howner : row.ownerId ≠ ownerId
    · rw [if_pos howner]
      exact .refused _
    rw [if_neg howner]
    exact .changed _ _ a row _ hrow (.cancelled ownerId reason rfl) rfl rfl

/-- a checkpoint that some call records -/
theorem goes_recordCheckpoint {call : Call} {c : CheckpointArgs}
    (hchange : ∀ row effect, s.assignments[a]? = some row →
      effectState? (c.externalEffectState.getD "none_known") = some effect →
      RowChange ⟨now, call⟩ a row true (row.noted effect (c.failureClass <|> row.failureClass))) :
    Goes s ⟨now, call⟩ ((recordCheckpoint s ownerId a c).1.map fun _ => none)
      (recordCheckpoint s ownerId a c).2 := by
  unfold recordCheckpoint
  cases hrow : s.assignments[a]? with
  | none => exact .refused _
  | some row =>
    dsimp only
    cases hcheck : checkCheckpoint ownerId row c with
    | error e => exact .refused _
    | ok effect =>
      dsimp only
      by_cases hkind : c.checkpointKind ∉ checkpointKinds
      · rw [if_pos hkind]
        exact .refused _
      rw [if_neg hkind]
      exact .changed _ _ a row _ hrow (hchange row effect hrow (checkCheckpoint_ok hcheck)) rfl rfl

theorem goes_failure (failureClass externalEffectState : String) (partialResult : Payload)
    (evidenceRefs : List Json) :
    Goes s ⟨now, .failure ownerId a failureClass externalEffectState partialResult evidenceRefs⟩
      ((markFailure s ownerId a failureClass externalEffectState partialResult evidenceRefs).1.map
        fun _ => none)
      (markFailure s ownerId a failureClass externalEffectState partialResult evidenceRefs).2 := by
  unfold markFailure
  cases hrow : s.assignments[a]? with
  | none => exact .refused _
  | some row =>
    dsimp only
    cases hcheck : checkCheckpoint ownerId row
      { checkpointKind := kindForFailure failureClass, partialResult, evidenceRefs,
        externalEffectState := some externalEffectState, failureClass := some failureClass,
        recoverable := externalEffectState ∈ ["none_known", "none_proven"] } with
    | error e => exact .refused _
    | ok effect =>
      exact .changed _ _ a row _ hrow (.failed ownerId failureClass externalEffectState partialResult
        evidenceRefs effect rfl (checkCheckpoint_ok hcheck)) rfl rfl

theorem goes_retry :
    Goes s ⟨now, .retry ownerId a⟩ ((safeRetrySameAgent now s ownerId a).1.map fun _ => none)
      (safeRetrySameAgent now s ownerId a).2 := by
  unfold safeRetrySameAgent
  cases hrow : s.assignments[a]? with
  | none => exact .refused _
  | some row =>
    dsimp only
    cases hsafe : row.canSafelyRetry with
    | error e => exact .refused _
    | ok u =>
      dsimp only
      by_cases hlive : ¬ row.live now = true
      · rw [if_pos hlive]
        exact .refused _
      rw [if_neg hlive]
      cases hcheck : checkCheckpoint ownerId
        { row with retryCount := row.retryCount + 1, status := .assigned }
        { checkpointKind := "resume"
          partialResult := (s.latestCheckpoint a).elim [] (·.partialResult)
          externalEffectState := some "none_proven" } with
      | error e =>
        exact .changed _ _ a row _ hrow (.miscounted ownerId rfl (not_not.1 hlive)) rfl rfl
      | ok effect =>
        have heffect : some EffectState.noneProven = some effect := checkCheckpoint_ok hcheck
        obtain rfl := Option.some.inj heffect
        exact .changed _ _ a row _ hrow
          (.retried ownerId rfl (canSafelyRetry_ok hsafe) (not_not.1 hlive)) rfl rfl

theorem goes_restart (restartKind : String) :
    Goes s ⟨now, .restart ownerId a restartKind⟩
      ((resumeAfterRestart s ownerId a restartKind).1.map fun _ => none)
      (resumeAfterRestart s ownerId a restartKind).2 := by
  unfold resumeAfterRestart
  by_cases hkind : restartKind ∉ ["mainai_restart", "worker_restart"]
  · rw [if_pos hkind]
    exact .refused _
  rw [if_neg hkind]
  cases hrow : s.assignments[a]? with
  | none => exact .refused _
  | some row =>
    refine goes_recordCheckpoint fun row0 effect hrow0 heffect => ?_
    obtain rfl := Option.some.inj (hrow.symm.trans hrow0)
    have hsame : some row.externalEffectState = some effect := by
      rw [← effectState?_name]
      exact heffect
    obtain rfl := Option.some.inj hsame
    exact .restarted ownerId restartKind rfl

theorem goes_takeover (t : TakeoverArgs) :
    Goes s ⟨now, .takeover ownerId t⟩ ((alternateAgentTakeover now s ownerId t).1.map some)
      (alternateAgentTakeover now s ownerId t).2 := by
  unfold alternateAgentTakeover
  cases hrow : s.assignments[t.failed]? with
  | none => exact .refused _
  | some row =>
    cases hreq : s.requests[t.request]? with
    | none => exact .refused _
    | some req =>
      dsimp only
      cases hsafe : row.canSafelyRetry with
      | error e => exact .refused _
      | ok u =>
        dsimp only
        cases halt : s.selectableAgent ownerId t.alternate with
        | error e => exact .refused _
        | ok alt =>
          dsimp only
          by_cases hother : t.alternate = row.profileId
          · rw [if_pos hother]
            exact .refused _
          rw [if_neg hother]
          by_cases hverifier : req.verificationRequirement = "independent_verifier" ∧
            (t.verifier req row = none ∨ t.verifier req row = some t.alternate)
          · rw [if_pos hverifier]
            exact .stranded ownerId t row req alt rfl hrow hreq (canSafelyRetry_ok hsafe) halt hother
              hverifier
          rw [if_neg hverifier]
          by_cases howner : req.ownerId ≠ ownerId
          · rw [if_pos howner]
            exact .refused _
          rw [if_neg howner]
          exact .takenOver ownerId t row req alt rfl hrow hreq (canSafelyRetry_ok hsafe) halt hother
            hverifier

/-- every call goes in one of the ways -/
theorem exec_goes (s : Tables) (op : Op) : Goes s op (op.exec s).1 (op.exec s).2 := by
  obtain ⟨now, call⟩ := op
  cases call with
  | registry profiles => exact .aside _ (.inl ⟨profiles, rfl⟩) rfl ⟨[], (List.append_nil _).symm⟩
  | submit request => exact .aside _ (.inr ⟨request, rfl⟩) rfl ⟨_, rfl⟩
  | resolve ownerId request q => exact goes_resolve request q
  | ingest ownerId a payload => exact goes_ingest payload
  | markVerification ownerId a status verifier => exact goes_mark status verifier
  | applyDecision ownerId a decision risk e reason => exact goes_apply decision risk e reason
  | cancel ownerId a reason => exact goes_cancel reason
  | checkpoint ownerId a c =>
    exact goes_recordCheckpoint fun row effect _ heffect => .noted ownerId c effect rfl heffect
  | failure ownerId a failureClass effect partialResult refs =>
    exact goes_failure failureClass effect partialResult refs
  | retry ownerId a => exact goes_retry
  | takeover ownerId t => exact goes_takeover t
  | restart ownerId a restartKind => exact goes_restart restartKind

/-! ## where a row comes from -/

/-- the row of the assignment `i` after a call; the flag says whether it returns -/
inductive RowAfter (s : Tables) (op : Op) (returns : Bool) (i : AssignmentId) :
    WorkforceAssignment → Prop
  | kept (row : WorkforceAssignment) (hrow : s.assignments[i]? = some row) : RowAfter s op returns i row
  | changed (row row' : WorkforceAssignment) (hrow : s.assignments[i]? = some row)
      (hchange : RowChange op i row returns row') : RowAfter s op returns i row'
  | superseded (ownerId : OwnerId) (t : TakeoverArgs) (row : WorkforceAssignment)
      (successor : Option AssignmentId) (hcall : op.call = .takeover ownerId t) (hfailed : t.failed = i)
      (hrow : s.assignments[i]? = some row) :
      RowAfter s op returns i { row.supersede op.now with supersedesAssignmentId := successor }
  | resolved (ownerId : OwnerId) (request : RequestId) (q : Resolution) (req : DelegationRequest)
      (profileId : ProfileId) (profile : AgentProfile) (hcall : op.call = .resolve ownerId request q)
      (hnew : i = s.assignments.length) :
      RowAfter s op returns i (q.assignment op.now ownerId request req profileId profile s.packages.length)
  | minted (ownerId : OwnerId) (t : TakeoverArgs) (req : DelegationRequest)
      (row : WorkforceAssignment) (alt : AgentProfile) (preserved : Payload)
      (hcall : op.call = .takeover ownerId t) (hnew : i = s.assignments.length) :
      RowAfter s op returns i (t.assignment op.now ownerId req row alt s.packages.length preserved)

/-- the entries of a list with one of them replaced -/
theorem getElem?_set_some {α : Type*} {rows : List α} {a i : ℕ} {x y : α}
    (h : (rows.set a x)[i]? = some y) : rows[i]? = some y ∨ (i = a ∧ y = x) := by
  rcases eq_or_ne a i with rfl | hne
  · obtain ⟨hlt, hget⟩ := List.getElem?_eq_some_iff.1 h
    rw [List.getElem_set_self] at hget
    exact .inr ⟨rfl, hget.symm⟩
  · rw [List.getElem?_set_ne hne] at h
    exact .inl h

/-- the entries of a list with one more at its end -/
theorem getElem?_append_singleton_some {α : Type*} {rows : List α} {i : ℕ} {x y : α}
    (h : (rows ++ [x])[i]? = some y) : rows[i]? = some y ∨ (i = rows.length ∧ y = x) := by
  rcases Nat.lt_or_ge i rows.length with hlt | hge
  · rw [List.getElem?_append_left hlt] at h
    exact .inl h
  · rw [List.getElem?_append_right hge, List.getElem?_singleton] at h
    split at h
    · next hzero => exact .inr ⟨by omega, (Option.some.inj h).symm⟩
    · exact nomatch h

theorem Goes.rows (h : Goes s op answer s') (hi : s'.assignments[i]? = some row') :
    RowAfter s op answer.isOk i row' := by
  cases h with
  | refused e => exact .kept row' hi
  | aside _ hcall hrows hrequests =>
    rw [hrows] at hi
    exact .kept row' hi
  | changed _ _ a row0 row1 hrow hchange hrows hrequests =>
    rw [hrows] at hi
    rcases getElem?_set_some hi with hi | ⟨rfl, rfl⟩
    · exact .kept row' hi
    · exact .changed row0 row' hrow hchange
  | resolved ownerId request q req profileId profile _ hcall hreq hopen hrequests hrows =>
    rw [hrows] at hi
    rcases getElem?_append_singleton_some hi with hi | ⟨rfl, rfl⟩
    · exact .kept row' hi
    · exact .resolved ownerId request q req profileId profile hcall rfl
  | stranded ownerId t row0 req alt hcall hrow hreq hsafe halt hother hverifier =>
    rcases getElem?_set_some hi with hi | ⟨rfl, rfl⟩
    · exact .kept row' hi
    · exact .superseded ownerId t row0 _ hcall rfl hrow
  | takenOver ownerId t row0 req alt hcall hrow hreq hsafe halt hother hverifier =>
    rcases getElem?_append_singleton_some hi with hi | ⟨hnew, rfl⟩
    · rcases getElem?_set_some hi with hi | ⟨rfl, rfl⟩
      · exact .kept row' hi
      · exact .superseded ownerId t row0 none hcall rfl hrow
    · rw [List.length_set] at hnew
      exact .minted ownerId t req row0 alt _ hcall hnew

/-- no call takes an assignment away -/
theorem Goes.row_some (h : Goes s op answer s') (hi : s.assignments[i]? = some row) :
    ∃ row', s'.assignments[i]? = some row' := by
  have hlt : i < s.assignments.length := (List.getElem?_eq_some_iff.1 hi).1
  have hlen : s.assignments.length ≤ s'.assignments.length := by
    cases h with
    | refused e => exact le_rfl
    | aside _ hcall hrows hrequests => rw [hrows]
    | changed _ _ a row0 row1 hrow hchange hrows hrequests => rw [hrows, List.length_set]
    | resolved ownerId request q req profileId profile _ hcall hreq hopen hrequests hrows =>
      rw [hrows, List.length_append]
      omega
    | stranded ownerId t row0 req alt hcall hrow hreq hsafe halt hother hverifier =>
      exact (List.length_set).ge
    | takenOver ownerId t row0 req alt hcall hrow hreq hsafe halt hother hverifier =>
      show s.assignments.length ≤ (List.set _ _ _ ++ _).length
      rw [List.length_append, List.length_set]
      omega
  exact ⟨_, List.getElem?_eq_getElem (hlt.trans_le hlen)⟩

/-! ## a team -/

/-- a builder, a verifier and a second builder, and a request for them -/
def team : Tables where
  profiles := [
    { ownerId := 1, agentKey := "builder", status := .active, allowedToolClasses := ["read_excerpt"] },
    { ownerId := 1, agentKey := "verifier", status := .active },
    { ownerId := 1, agentKey := "second-builder", status := .active,
      allowedToolClasses := ["read_excerpt", "shell"] }]
  requests := [{ ownerId := 1, requiredCapability := "low_risk_classification" }]

/-- the builder is selected, the verifier designated -/
def delegated : Op := ⟨0, .resolve 1 0 { best := .ok 0, verifierProfileId := some 1 }⟩

/-- an ordinary checkpoint, which states no effect -/
def progressed : Op := ⟨2, .checkpoint 1 0 { checkpointKind := "progress" }⟩

def timedOut (externalEffectState : String) : Op :=
  ⟨1, .failure 1 0 "provider_timeout" externalEffectState [] []⟩

end LifeAI.Workforce
