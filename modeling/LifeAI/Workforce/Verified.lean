import LifeAI.Workforce.Steps

/-!
# Independent verification

* `Evidence.supplies`    what `policy_for_risk` asks for, beyond the first verifier;
* `Decision`             a decision of one of the two functions;
* `ProperlyVerified`     an assignment that may become `VERIFIED`;
* `GateHolds`, `covers`  the duty of a call, and when it is done;
* `verification_gate`    every run.
-/

namespace LifeAI.Workforce

/-! ## the gate -/

def given (ref : Option String) : Bool := ¬ ref.all (· = "")

/-- what a policy asks for, beyond the first verifier -/
def Evidence.supplies (e : Evidence) (policy : VerificationPolicy) (row : WorkforceAssignment) : Bool :=
  e.secondVerifierProfileId ≠ some row.profileId ∧
  (policy.requireTwoAgentAgreement → e.secondVerifierProfileId ≠ none ∧
    e.secondVerifierProfileId ≠ e.verifierProfileId ∧ e.agreement = some true) ∧
  (policy.requireTestEvidence → given e.testEvidenceRef) ∧
  (policy.requireDeterministicValidator → given e.deterministicValidator) ∧
  (policy.requireFounderApproval → given e.founderApprovalRef)

/-- the verifier is not the builder, and the designated one where one is designated -/
def WorkforceAssignment.accepts (row : WorkforceAssignment) (verifier : ProfileId) : Bool :=
  verifier ≠ row.profileId ∧ (row.verifierProfileId = none ∨ row.verifierProfileId = some verifier)

/-- a result has been ingested -/
def WorkforceAssignment.hasResult (row : WorkforceAssignment) : Bool :=
  (row.resultPayload.lookup "data").isSome

/-- the row of the assignment and the request that it is for -/
def Tables.assignmentRequest (s : Tables) (a : AssignmentId) :
    Option (WorkforceAssignment × DelegationRequest) :=
  s.assignments[a]?.bind fun row => s.requests[row.delegationRequestId]?.map fun req => (row, req)

/-- a decision of one of the two functions -/
structure Decision where
  ownerId : OwnerId
  assignment : AssignmentId
  status : String
  risk : String
  evidence : Evidence

/-- `mark_verification` brings nothing but a verifier; it stands beside the policy of the request -/
def Call.decision (s : Tables) : Call → Option Decision
  | .markVerification ownerId a status verifier =>
    let risk := (s.assignmentRequest a).elim "low" (·.2.risk.name)
    some ⟨ownerId, a, status, risk, { verifierProfileId := some verifier }⟩
  | .applyDecision ownerId a decision risk e _ => some ⟨ownerId, a, decision, risk, e⟩
  | _ => none

/-- the assignment that the call marks as `VERIFIED`, and what came with it -/
def Op.verifies (s : Tables) (op : Op) : Option (AssignmentId × Evidence) :=
  (op.call.decision s).bind fun d =>
    if d.status = "VERIFIED" ∧ (op.exec s).1.isOk then some (d.assignment, d.evidence) else none

/-- the assignment is live, has a result, and an independent verifier and all that the policy of its
request asks for -/
structure ProperlyVerified (s : Tables) (now : Time) (row : WorkforceAssignment)
    (req : DelegationRequest) (e : Evidence) : Prop where
  hasResult : row.hasResult = true
  live : row.live now = true
  verifier : ∃ v, e.verifierProfileId = some v ∧ row.accepts v = true
  supplied : e.supplies (policyForRisk req.risk.name) row = true

/-- An assignment is `VERIFIED` because it was and this call does not decide on it, or because this
call finds it in order; and the other function answers the same. -/
structure GateHolds (s : Tables) (op : Op) : Prop where
  verified : ∀ a row', (step s op).assignments[a]? = some row' → row'.verificationStatus = .verified →
    (∃ row, s.assignments[a]? = some row ∧ row.verificationStatus = .verified ∧
      ∀ e, op.verifies s ≠ some (a, e)) ∨
    ∃ e row req, op.verifies s = some (a, e) ∧ s.assignmentRequest a = some (row, req) ∧
      ProperlyVerified s op.now row req e
  same : ∀ d v, op.call.decision s = some d → d.evidence.verifierProfileId = some v →
    (markVerification op.now s d.ownerId d.assignment d.status v).1.isOk =
    (applyVerificationDecision op.now s d.ownerId d.assignment d.status d.risk d.evidence "").1.isOk

/-- a decision `VERIFIED` by an acceptable verifier: the assignment is live and has a result, and
what the policy of its request asks for, and that of the risk that is named, comes with it -/
def covers (s : Tables) (op : Op) : Bool :=
  match op.call.decision s with
  | none => true
  | some d =>
    match s.assignments[d.assignment]? with
    | none => true
    | some row =>
      if d.status = "VERIFIED" ∧ row.ownerId = d.ownerId ∧ d.evidence.verifierProfileId.any row.accepts then
        (s.assignmentRequest d.assignment).any fun p =>
          row.hasResult ∧ row.live op.now ∧ d.evidence.supplies (policyForRisk d.risk) row ∧
            d.evidence.supplies (policyForRisk p.2.risk.name) row
      else true

variable {now : Time} {s : Tables} {op : Op} {ownerId : OwnerId} {a : AssignmentId}
  {row row' : WorkforceAssignment} {e : Evidence} {verifier : ProfileId} {status risk : String}

/-! ## when the functions accept -/

theorem refusesVerifier_eq_none_iff {m : String} :
    row.refusesVerifier verifier m = none ↔ row.accepts verifier = true := by
  unfold WorkforceAssignment.refusesVerifier WorkforceAssignment.accepts
  rw [decide_eq_true_iff]
  by_cases hbuilder : verifier = row.profileId
  · simp [hbuilder]
  · rw [if_neg hbuilder]
    by_cases hother : row.verifierProfileId ≠ none ∧ row.verifierProfileId ≠ some verifier
    · rw [if_pos hother]
      simp [hbuilder, hother]
    · rw [if_neg hother]
      have hfits : row.verifierProfileId = none ∨ row.verifierProfileId = some verifier := by
        by_contra hno
        push Not at hno
        exact hother hno
      exact iff_of_true rfl ⟨hbuilder, hfits⟩

theorem missingEvidence_eq_none_iff {required : Bool} {ref : Option String} {what : String} :
    missingEvidence required ref what = none ↔ (required = true → given ref = true) := by
  unfold missingEvidence given
  cases required with
  | false => simp
  | true =>
    cases ref with
    | none => simp
    | some text => by_cases htext : text = "" <;> simp [htext]

theorem refusesAgreement_eq_none_iff : row.refusesAgreement e = none ↔
    e.secondVerifierProfileId ≠ none ∧ e.secondVerifierProfileId ≠ some row.profileId ∧
      e.secondVerifierProfileId ≠ e.verifierProfileId ∧ e.agreement = some true := by
  unfold WorkforceAssignment.refusesAgreement
  cases e.secondVerifierProfileId with
  | none => simp
  | some second =>
    dsimp only
    by_cases hsame : second = row.profileId ∨ some second = e.verifierProfileId
    · rw [if_pos hsame]
      refine iff_of_false (by simp) fun h => ?_
      rcases hsame with hsame | hsame
      · exact h.2.1 (congrArg some hsame)
      · exact h.2.2.1 hsame
    · rw [if_neg hsame]
      push Not at hsame
      by_cases hagree : e.agreement = some true
      · simp [hagree, hsame]
      · simp [hagree]

/-- the policies of `policy_for_risk` all ask for an independent verifier -/
theorem policyForRisk_independent (risk : String) :
    (policyForRisk risk).requireIndependentVerifier = true := by
  unfold policyForRisk
  split
  · rfl
  · split
    · rfl
    · rfl

theorem orElse_eq_none_iff {α : Type*} {x y : Option α} : (x <|> y) = none ↔ x = none ∧ y = none := by
  cases x with
  | none => simp
  | some v => simp

theorem accepts_ne (h : row.accepts verifier = true) : verifier ≠ row.profileId :=
  (of_decide_eq_true h).1

/-- the pipeline accepts a `VERIFIED` -/
theorem refusesEvidence_eq_none_iff :
    row.refusesEvidence (policyForRisk risk) e = none ↔
      (∃ v, e.verifierProfileId = some v ∧ row.accepts v = true) ∧
        e.supplies (policyForRisk risk) row = true := by
  have hverifier : row.refusesIndependence e = none ↔
      ∃ v, e.verifierProfileId = some v ∧ row.accepts v = true := by
    unfold WorkforceAssignment.refusesIndependence
    cases e.verifierProfileId with
    | none => simp
    | some v => simp [refusesVerifier_eq_none_iff]
  have hagreement : (if (policyForRisk risk).requireTwoAgentAgreement then row.refusesAgreement e
      else none) = none ↔ ((policyForRisk risk).requireTwoAgentAgreement = true →
        row.refusesAgreement e = none) := by
    split
    · next h => simp [h]
    · next h => simp [h]
  have hcollusion : (if e.verifierProfileId = some row.profileId ∨
        e.secondVerifierProfileId = some row.profileId then
      some (Err.verification "BUILDER_CANNOT_SELF_VERIFY") else none) = none ↔
      e.verifierProfileId ≠ some row.profileId ∧ e.secondVerifierProfileId ≠ some row.profileId := by
    rw [ite_eq_right_iff, ← not_or]
    simp
  unfold WorkforceAssignment.refusesEvidence Evidence.supplies
  rw [decide_eq_true_iff, policyForRisk_independent, if_pos rfl, orElse_eq_none_iff, orElse_eq_none_iff, orElse_eq_none_iff,
    orElse_eq_none_iff, orElse_eq_none_iff, hverifier, hagreement, hcollusion,
    refusesAgreement_eq_none_iff, missingEvidence_eq_none_iff, missingEvidence_eq_none_iff,
    missingEvidence_eq_none_iff]
  constructor
  · rintro ⟨hv, htwo, htest, hvalidator, hfounder, -, hsecond⟩
    exact ⟨hv, hsecond, fun h => ⟨(htwo h).1, (htwo h).2.2⟩, htest, hvalidator, hfounder⟩
  · rintro ⟨⟨v, hv, haccepts⟩, hsecond, htwo, htest, hvalidator, hfounder⟩
    refine ⟨⟨v, hv, haccepts⟩, fun h => ⟨(htwo h).1, hsecond, (htwo h).2⟩, htest, hvalidator, hfounder,
      fun hself => ?_, hsecond⟩
    rw [hv] at hself
    exact accepts_ne haccepts (Option.some.inj hself)

theorem verificationStatus?_verified {text : String} :
    verificationStatus? text = some .verified ↔ text = "VERIFIED" := by
  constructor
  · intro h
    have hname := List.find?_some h
    exact (of_decide_eq_true hname).symm
  · rintro rfl
    rfl

theorem markVerification_isOk_iff :
    (markVerification now s ownerId a status verifier).1.isOk = true ↔
      ∃ row decision, s.assignments[a]? = some row ∧ verificationStatus? status = some decision ∧
        row.ownerId = ownerId ∧ (status = "VERIFIED" → row.accepts verifier = true) := by
  unfold markVerification
  cases hrow : s.assignments[a]? with
  | none => exact ⟨fun h => (nomatch h), fun ⟨_, _, h, _⟩ => (nomatch h)⟩
  | some row =>
    dsimp only
    cases hstatus : verificationStatus? status with
    | none => exact ⟨fun h => (nomatch h), fun ⟨_, _, _, h, _⟩ => (nomatch h)⟩
    | some decision =>
      have hverified : decision = .verified ↔ status = "VERIFIED" := by
        rw [← verificationStatus?_verified, hstatus, Option.some.injEq]
      simp only [Option.some.injEq, exists_and_left, exists_eq_left']
      by_cases howner : row.ownerId ≠ ownerId
      · rw [if_pos howner]
        exact iff_of_false (fun h => (nomatch h)) fun h => howner h.1
      rw [if_neg howner, ← hverified]
      by_cases hd : decision = .verified
      · rw [if_pos hd, ← refusesVerifier_eq_none_iff
          (m := "verifier_profile_id does not match assignment requirement")]
        cases row.refusesVerifier verifier
          "verifier_profile_id does not match assignment requirement" with
        | none => exact iff_of_true rfl ⟨not_not.1 howner, fun _ => rfl⟩
        | some x => exact iff_of_false (fun h => (nomatch h)) fun h => (nomatch h.2 hd)
      · rw [if_neg hd]
        exact iff_of_true rfl ⟨not_not.1 howner, fun h => absurd h hd⟩

theorem applyVerificationDecision_isOk_iff {reason : String} :
    (applyVerificationDecision now s ownerId a status risk e reason).1.isOk = true ↔
      ∃ row decision, s.assignments[a]? = some row ∧ verificationStatus? status = some decision ∧
        row.ownerId = ownerId ∧ (status = "VERIFIED" →
          (∃ v, e.verifierProfileId = some v ∧ row.accepts v = true) ∧
            e.supplies (policyForRisk risk) row = true) := by
  unfold applyVerificationDecision
  cases hrow : s.assignments[a]? with
  | none => exact ⟨fun h => (nomatch h), fun ⟨_, _, h, _⟩ => (nomatch h)⟩
  | some row =>
    dsimp only
    by_cases howner : row.ownerId ≠ ownerId
    · rw [if_pos howner]
      refine iff_of_false (fun h => (nomatch h)) fun ⟨row', _, hrow', _, hsame, _⟩ => ?_
      obtain rfl := Option.some.inj hrow'
      exact howner hsame
    rw [if_neg howner]
    cases hstatus : verificationStatus? status with
    | none => exact ⟨fun h => (nomatch h), fun ⟨_, _, _, h, _⟩ => (nomatch h)⟩
    | some decision =>
      have hverified : decision = .verified ↔ status = "VERIFIED" := by
        rw [← verificationStatus?_verified, hstatus, Option.some.injEq]
      simp only [Option.some.injEq, exists_and_left, exists_eq_left']
      rw [← hverified, ← refusesEvidence_eq_none_iff]
      by_cases hd : decision = .verified
      · rw [if_pos hd]
        cases row.refusesEvidence (policyForRisk risk) e with
        | none => exact iff_of_true rfl ⟨not_not.1 howner, fun _ => rfl⟩
        | some x => exact iff_of_false (fun h => (nomatch h)) fun h => (nomatch h.2 hd)
      · rw [if_neg hd]
        exact iff_of_true rfl ⟨not_not.1 howner, fun h => absurd h hd⟩

/-! ## a call -/

theorem isOk_map {α β : Type} (r : Except Err α) (f : α → β) : (r.map f).isOk = r.isOk := by
  cases r <;> rfl

/-- both functions look at the owner and, for a `VERIFIED`, at the verifier -/
theorem row_of_decision {d : Decision} (hd : op.call.decision s = some d)
    (hok : (op.exec s).1.isOk = true) (hstatus : d.status = "VERIFIED") :
    ∃ row v, s.assignments[d.assignment]? = some row ∧ row.ownerId = d.ownerId ∧
      d.evidence.verifierProfileId = some v ∧ row.accepts v = true := by
  obtain ⟨now, call⟩ := op
  cases call with
  | markVerification ownerId a status verifier =>
    obtain rfl := Option.some.inj hd
    have hmark : (markVerification now s ownerId a status verifier).1.isOk = true := by
      rw [← isOk_map _ fun _ => (none : Option AssignmentId)]
      exact hok
    obtain ⟨row, decision, hrow, -, howner, haccepts⟩ := markVerification_isOk_iff.1 hmark
    exact ⟨row, verifier, hrow, howner, rfl, haccepts hstatus⟩
  | applyDecision ownerId a decision risk e reason =>
    obtain rfl := Option.some.inj hd
    have happly : (applyVerificationDecision now s ownerId a decision risk e reason).1.isOk = true := by
      rw [← isOk_map _ fun _ => (none : Option AssignmentId)]
      exact hok
    obtain ⟨row, _, hrow, -, howner, hevidence⟩ := applyVerificationDecision_isOk_iff.1 happly
    obtain ⟨⟨v, hv, haccepts⟩, -⟩ := hevidence hstatus
    exact ⟨row, v, hrow, howner, hv, haccepts⟩
  | _ => exact nomatch hd

/-- a `VERIFIED` with an acceptable verifier, which the pipeline accepts, is accepted -/
theorem exec_decision {d : Decision} {v : ProfileId} (hd : op.call.decision s = some d)
    (hstatus : d.status = "VERIFIED") (hrow : s.assignments[d.assignment]? = some row)
    (howner : row.ownerId = d.ownerId) (hv : d.evidence.verifierProfileId = some v)
    (haccepts : row.accepts v = true) (hsupplies : d.evidence.supplies (policyForRisk d.risk) row = true) :
    (op.exec s).1.isOk = true := by
  have hverified : verificationStatus? d.status = some .verified :=
    verificationStatus?_verified.2 hstatus
  obtain ⟨now, call⟩ := op
  cases call with
  | markVerification ownerId a status verifier =>
    obtain rfl := Option.some.inj hd
    obtain rfl := Option.some.inj hv
    have hmark : (markVerification now s ownerId a status verifier).1.isOk = true :=
      markVerification_isOk_iff.2 ⟨row, .verified, hrow, hverified, howner, fun _ => haccepts⟩
    rw [← isOk_map _ fun _ => (none : Option AssignmentId)] at hmark
    exact hmark
  | applyDecision ownerId a decision risk e reason =>
    obtain rfl := Option.some.inj hd
    have happly : (applyVerificationDecision now s ownerId a decision risk e reason).1.isOk = true :=
      applyVerificationDecision_isOk_iff.2
        ⟨row, .verified, hrow, hverified, howner, fun _ => ⟨⟨v, hv, haccepts⟩, hsupplies⟩⟩
    rw [← isOk_map _ fun _ => (none : Option AssignmentId)] at happly
    exact happly
  | _ => exact nomatch hd

theorem decide_verificationStatus (decision : VerificationStatus) :
    (row.decide now decision).verificationStatus = decision := by
  cases decision <;> rfl

theorem applied_verificationStatus (decision : VerificationStatus) :
    (row.applied now decision).verificationStatus = decision := by
  unfold WorkforceAssignment.applied
  split
  · exact decide_verificationStatus decision
  · exact decide_verificationStatus decision

theorem verifies_iff {d : Decision} (hd : op.call.decision s = some d)
    (hok : (op.exec s).1.isOk = true) (hstatus : d.status = "VERIFIED") :
    op.verifies s = some (d.assignment, d.evidence) := by
  unfold Op.verifies
  rw [hd, Option.bind_some, if_pos ⟨hstatus, hok⟩]

theorem of_verifies {p : AssignmentId × Evidence} (h : op.verifies s = some p) :
    ∃ d, op.call.decision s = some d ∧ d.status = "VERIFIED" ∧ (op.exec s).1.isOk = true ∧
      p = (d.assignment, d.evidence) := by
  unfold Op.verifies at h
  obtain ⟨d, hd, hsome⟩ := Option.bind_eq_some_iff.1 h
  split at hsome
  · next hcond => exact ⟨d, hd, hcond.1, hcond.2, (Option.some.inj hsome).symm⟩
  · exact nomatch hsome

/-- only these two functions mark an assignment as `VERIFIED` -/
theorem verified_after (hafter : (step s op).assignments[a]? = some row')
    (hverified : row'.verificationStatus = .verified) :
    (∃ e, op.verifies s = some (a, e)) ∨
    ∃ row, s.assignments[a]? = some row ∧ row.verificationStatus = .verified := by
  have hrows := (exec_goes s op).rows hafter
  cases hrows with
  | kept row hrow => exact .inr ⟨_, hrow, hverified⟩
  | changed row _ hrow hchange =>
    generalize hok : (op.exec s).1.isOk = returns at hchange
    cases hchange with
    | ingested ownerId payload hcall hlive => exact nomatch hverified
    | marked ownerId status verifier decision hcall hstatus hverifier =>
      rw [decide_verificationStatus] at hverified
      subst hverified
      have hd : ∃ risk e, op.call.decision s = some ⟨ownerId, a, status, risk, e⟩ := by
        rw [hcall]
        exact ⟨_, _, rfl⟩
      obtain ⟨risk, e, hd⟩ := hd
      exact .inl ⟨e, verifies_iff hd hok (verificationStatus?_verified.1 hstatus)⟩
    | applied ownerId status risk e reason decision hcall hstatus hevidence =>
      rw [applied_verificationStatus] at hverified
      subst hverified
      have hd : op.call.decision s = some ⟨ownerId, a, status, risk, e⟩ := by
        rw [hcall]
        rfl
      exact .inl ⟨e, verifies_iff hd hok (verificationStatus?_verified.1 hstatus)⟩
    | cancelled ownerId reason hcall => exact .inr ⟨row, hrow, hverified⟩
    | noted ownerId c effect hcall heffect => exact .inr ⟨row, hrow, hverified⟩
    | failed ownerId failureClass effectState partialResult refs effect hcall heffect =>
      exact .inr ⟨row, hrow, hverified⟩
    | _ => exact .inr ⟨row, hrow, hverified⟩
  | _ => exact nomatch hverified

/-- such a call leaves the assignment `VERIFIED` -/
theorem verifies_after {e : Evidence} (h : op.verifies s = some (a, e)) :
    ∃ row', (step s op).assignments[a]? = some row' ∧ row'.verificationStatus = .verified := by
  obtain ⟨d, hd, hstatus, hok, heq⟩ := of_verifies h
  obtain ⟨rfl, -⟩ := Prod.mk.inj heq
  have hverified : verificationStatus? d.status = some .verified :=
    verificationStatus?_verified.2 hstatus
  have hgoes := exec_goes s op
  unfold step
  generalize (op.exec s).1 = answer at hgoes hok
  generalize (op.exec s).2 = s' at hgoes
  cases hgoes with
  | refused e => exact nomatch hok
  | aside _ hcall hrows hrequests =>
    rcases hcall with ⟨profiles, hcall⟩ | ⟨request, hcall⟩
    · rw [hcall] at hd
      exact nomatch hd
    · rw [hcall] at hd
      exact nomatch hd
  | changed _ _ b row0 row1 hb hchange hrows hrequests =>
    rw [hok] at hchange
    have hself : s'.assignments[b]? = some row1 := by
      rw [hrows, List.getElem?_set_self (List.getElem?_eq_some_iff.1 hb).1]
    cases hchange with
    | marked ownerId status verifier decision hcall hst hverifier =>
      rw [hcall] at hd
      obtain rfl := Option.some.inj hd
      obtain rfl := Option.some.inj (hst.symm.trans hverified)
      exact ⟨_, hself, decide_verificationStatus _⟩
    | applied ownerId status risk e reason decision hcall hst hevidence =>
      rw [hcall] at hd
      obtain rfl := Option.some.inj hd
      obtain rfl := Option.some.inj (hst.symm.trans hverified)
      exact ⟨_, hself, applied_verificationStatus _⟩
    | ingested ownerId payload hcall hlive => rw [hcall] at hd; exact nomatch hd
    | cancelled ownerId reason hcall => rw [hcall] at hd; exact nomatch hd
    | noted ownerId c effect hcall heffect => rw [hcall] at hd; exact nomatch hd
    | failed ownerId failureClass text partialResult refs effect hcall heffect =>
      rw [hcall] at hd; exact nomatch hd
    | retried ownerId hcall hsafe hlive => rw [hcall] at hd; exact nomatch hd
    | restarted ownerId restartKind hcall => rw [hcall] at hd; exact nomatch hd
  | resolved ownerId request q req profileId profile _ hcall hreq hopen hrequests hrows =>
    rw [hcall] at hd
    exact nomatch hd
  | stranded ownerId t row0 req alt hcall hrow hreq hsafe halt hother hverifier => exact nomatch hok
  | takenOver ownerId t row0 req alt hcall hrow hreq hsafe halt hother hverifier =>
    rw [hcall] at hd
    exact nomatch hd

/-- what `covers` asks of a `VERIFIED` by an acceptable verifier -/
theorem covers_iff {d : Decision} {v : ProfileId} (hd : op.call.decision s = some d)
    (hstatus : d.status = "VERIFIED") (hrow : s.assignments[d.assignment]? = some row)
    (howner : row.ownerId = d.ownerId) (hv : d.evidence.verifierProfileId = some v)
    (haccepts : row.accepts v = true) : covers s op = true ↔
      ∃ req, s.assignmentRequest d.assignment = some (row, req) ∧ row.hasResult = true ∧
        row.live op.now = true ∧ d.evidence.supplies (policyForRisk d.risk) row = true ∧
        d.evidence.supplies (policyForRisk req.risk.name) row = true := by
  have hany : d.evidence.verifierProfileId.any row.accepts = true := by
    rw [hv, Option.any_some, haccepts]
  unfold covers
  rw [hd]
  dsimp only
  rw [hrow]
  dsimp only
  rw [if_pos ⟨hstatus, howner, hany⟩]
  unfold Tables.assignmentRequest
  rw [hrow, Option.bind_some]
  cases s.requests[row.delegationRequestId]? with
  | none => simp
  | some req => simp

/-- a call that `covers` does not look at -/
theorem covers_of_not {d : Decision} (hd : op.call.decision s = some d)
    (h : ∀ row v, d.status = "VERIFIED" → s.assignments[d.assignment]? = some row →
      row.ownerId = d.ownerId → d.evidence.verifierProfileId = some v → row.accepts v = false) :
    covers s op = true := by
  unfold covers
  rw [hd]
  dsimp only
  cases hrow : s.assignments[d.assignment]? with
  | none => rfl
  | some row =>
    dsimp only
    rw [if_neg]
    rintro ⟨hstatus, howner, hany⟩
    obtain ⟨v, hv, haccepts⟩ := (Option.any_eq_true _ _).1 hany
    rw [h row v hstatus hrow howner hv] at haccepts
    exact nomatch haccepts

theorem gateHolds_iff (s : Tables) (op : Op) : GateHolds s op ↔ covers s op = true := by
  constructor
  · intro h
    cases hd : op.call.decision s with
    | none =>
      unfold covers
      rw [hd]
    | some d =>
      by_cases hcase : ∃ row v, d.status = "VERIFIED" ∧ s.assignments[d.assignment]? = some row ∧
        row.ownerId = d.ownerId ∧ d.evidence.verifierProfileId = some v ∧ row.accepts v = true
      · obtain ⟨row, v, hstatus, hrow, howner, hv, haccepts⟩ := hcase
        have hverified : verificationStatus? d.status = some .verified :=
          verificationStatus?_verified.2 hstatus
        -- `mark_verification` accepts, and so does the pipeline
        have hmark : (markVerification op.now s d.ownerId d.assignment d.status v).1.isOk = true :=
          markVerification_isOk_iff.2 ⟨row, .verified, hrow, hverified, howner, fun _ => haccepts⟩
        rw [h.same d v hd hv] at hmark
        obtain ⟨row0, _, hrow0, -, -, hevidence⟩ := applyVerificationDecision_isOk_iff.1 hmark
        obtain rfl := Option.some.inj (hrow0.symm.trans hrow)
        have hsupplies := (hevidence hstatus).2
        have hok := exec_decision hd hstatus hrow howner hv haccepts hsupplies
        have hverifies := verifies_iff hd hok hstatus
        obtain ⟨row', hrow', hrow'v⟩ := verifies_after hverifies
        rcases h.verified _ row' hrow' hrow'v with ⟨_, -, -, hnot⟩ | ⟨e, row1, req, he, hreq, hproper⟩
        · exact absurd hverifies (hnot _)
        · rw [hverifies] at he
          obtain ⟨-, rfl⟩ := Prod.mk.inj (Option.some.inj he)
          have hsame : row1 = row0 := by
            unfold Tables.assignmentRequest at hreq
            rw [hrow, Option.bind_some] at hreq
            obtain ⟨req', -, heq⟩ := Option.map_eq_some_iff.1 hreq
            exact (Prod.mk.inj heq).1.symm
          subst hsame
          exact (covers_iff hd hstatus hrow howner hv haccepts).2
            ⟨req, hreq, hproper.hasResult, hproper.live, hsupplies, hproper.supplied⟩
      · push Not at hcase
        exact covers_of_not hd fun row v h1 h2 h3 h4 => by simpa using hcase row v h1 h2 h3 h4
  · intro h
    constructor
    · intro a row' hrow' hrow'v
      by_cases hcase : ∃ e, op.verifies s = some (a, e)
      · obtain ⟨e, he⟩ := hcase
        obtain ⟨d, hd, hstatus, hok, heq⟩ := of_verifies he
        obtain ⟨rfl, rfl⟩ := Prod.mk.inj heq
        obtain ⟨row, v, hrow, howner, hv, haccepts⟩ := row_of_decision hd hok hstatus
        obtain ⟨req, hreq, hresult, hlive, -, hsupplied⟩ :=
          (covers_iff hd hstatus hrow howner hv haccepts).1 h
        exact .inr ⟨_, row, req, he, hreq, hresult, hlive, ⟨v, hv, haccepts⟩, hsupplied⟩
      · rcases verified_after hrow' hrow'v with hverifies | ⟨row, hrow, hrowv⟩
        · exact absurd hverifies hcase
        · exact .inl ⟨row, hrow, hrowv, fun e he => hcase ⟨e, he⟩⟩
    · intro d v hd hv
      rw [Bool.eq_iff_iff, markVerification_isOk_iff, applyVerificationDecision_isOk_iff]
      constructor
      · rintro ⟨row, decision, hrow, hdecision, howner, haccepts⟩
        refine ⟨row, decision, hrow, hdecision, howner, fun hstatus => ⟨⟨v, hv, haccepts hstatus⟩, ?_⟩⟩
        obtain ⟨_, -, -, -, hsupplied, -⟩ :=
          (covers_iff hd hstatus hrow howner hv (haccepts hstatus)).1 h
        exact hsupplied
      · rintro ⟨row, decision, hrow, hdecision, howner, hevidence⟩
        refine ⟨row, decision, hrow, hdecision, howner, fun hstatus => ?_⟩
        obtain ⟨⟨v', hv', haccepts⟩, -⟩ := hevidence hstatus
        obtain rfl := Option.some.inj (hv.symm.trans hv')
        exact haccepts

/-- **In every run, verification stays independent and complete, and the two functions agree, exactly
when each decision `VERIFIED` finds a live assignment with a result and brings what its request asks
for.** -/
theorem verification_gate (s : Tables) (ops : List Op) :
    (∀ p ∈ Run.trace step s ops, GateHolds p.1 p.2) ↔
      ∀ p ∈ Run.trace step s ops, covers p.1 p.2 = true :=
  forall₂_congr fun p _ => gateHolds_iff p.1 p.2

/-! ## a request of high risk -/

def riskyTeam : Tables :=
  { team with requests := [{ ownerId := 1, requiredCapability := "deploy_plan", risk := .high }] }

def answered : Op := ⟨1, .ingest 1 0 [("answer", .str "done")]⟩

/-- `mark_verification` looks at no policy -/
def markedVerified : Op := ⟨2, .markVerification 1 0 "VERIFIED" 1⟩

/-- where the risk is low, that is all -/
example : covers (Run.run step team [delegated, answered]) markedVerified = true := by
  decide

/-- One verifier is enough for `mark_verification`, whatever the risk of the request. -/
theorem risky_marked_verified :
    ¬ ∀ (s : Tables) (ops : List Op), ∀ p ∈ Run.trace step s ops, GateHolds p.1 p.2 := by
  intro h
  let found := Run.run step riskyTeam [delegated, answered]
  have hmem : (found, markedVerified) ∈
      Run.trace step riskyTeam ([delegated, answered] ++ [markedVerified]) := by
    rw [Run.trace_append]
    exact List.mem_append_right _ List.mem_cons_self
  have hcovers := (gateHolds_iff found markedVerified).1 (h _ _ _ hmem)
  exact absurd hcovers (by decide)

end LifeAI.Workforce
