import LifeAI.Operator.Paths
import Mathlib.Data.Rat.Init

/-!
# The workforce: delegation, verification, failure and takeover

* `Tables`        agent profiles, delegation requests, assignments and what belongs to them;
* `resolveDelegation`, `ingestUntrustedResult`, `markVerification`, `cancelAssignment`  the broker;
* `policyForRisk`, `applyVerificationDecision`  the verification pipeline;
* `recordCheckpoint`, `markFailure`, `safeRetrySameAgent`, `alternateAgentTakeover`,
  `resumeAfterRestart`      failure, takeover and resume;
* `Call`, `exec`  a call at a moment, and the tables that it leaves behind.

A function returns the tables also where it raises: what it has written before stays in the
session.  A flush that the database refuses rolls the transaction of the call back.  A profile, a
request, an assignment is named by its position.
-/

namespace LifeAI.Workforce

abbrev ProfileId := ℕ
abbrev RequestId := ℕ
abbrev AssignmentId := ℕ

/-- a JSON object -/
abbrev Payload := List (String × Json)

/-! ## rows -/

inductive AgentStatus where
  | needDetected | candidate | sandbox | probation | active | disabled | retired
  deriving DecidableEq

/-- the text of the column -/
def AgentStatus.name : AgentStatus → String
  | .needDetected => "need_detected"
  | .candidate => "candidate"
  | .sandbox => "sandbox"
  | .probation => "probation"
  | .active => "active"
  | .disabled => "disabled"
  | .retired => "retired"

/-- a row of `workforce_agent_profiles` -/
structure AgentProfile where
  ownerId : OwnerId
  agentKey : String
  status : AgentStatus := .candidate
  retiredAt : Option Time := none
  trustZone : String := "UNTRUSTED_REMOTE"
  allowedToolClasses : List String := []
  deriving DecidableEq

inductive Risk where
  | low | medium | high
  deriving DecidableEq

def Risk.name : Risk → String
  | .low => "low"
  | .medium => "medium"
  | .high => "high"

inductive RequestStatus where
  | opened | assigned | cancelled | failed | completed
  deriving DecidableEq

def RequestStatus.name : RequestStatus → String
  | .opened => "open"
  | .assigned => "assigned"
  | .cancelled => "cancelled"
  | .failed => "failed"
  | .completed => "completed"

/-- a row of `workforce_delegation_requests` -/
structure DelegationRequest where
  ownerId : OwnerId
  requiredCapability : String
  risk : Risk := .low
  dataSensitivity : String := "internal"
  costCeilingUsd : Option ℚ := none
  verificationRequirement : String := "independent_verifier"
  status : RequestStatus := .opened
  resolvedAt : Option Time := none
  deriving DecidableEq

inductive VerificationStatus where
  | unverified | checked | verified | rejected | superseded
  deriving DecidableEq

def VerificationStatus.name : VerificationStatus → String
  | .unverified => "UNVERIFIED"
  | .checked => "CHECKED"
  | .verified => "VERIFIED"
  | .rejected => "REJECTED"
  | .superseded => "SUPERSEDED"

/-- `VERIFICATION_STATUSES`, by their texts -/
def verificationStatus? (text : String) : Option VerificationStatus :=
  [VerificationStatus.unverified, .checked, .verified, .rejected, .superseded].find? (·.name = text)

inductive AssignmentStatus where
  | assigned | running | awaitingVerification | completed | failed | cancelled | revoked | expired
  | superseded
  deriving DecidableEq

def AssignmentStatus.name : AssignmentStatus → String
  | .assigned => "assigned"
  | .running => "running"
  | .awaitingVerification => "awaiting_verification"
  | .completed => "completed"
  | .failed => "failed"
  | .cancelled => "cancelled"
  | .revoked => "revoked"
  | .expired => "expired"
  | .superseded => "superseded"

inductive EffectState where
  | noneKnown | noneProven | unknown | effectProven
  deriving DecidableEq

def EffectState.name : EffectState → String
  | .noneKnown => "none_known"
  | .noneProven => "none_proven"
  | .unknown => "unknown"
  | .effectProven => "effect_proven"

def effectState? (text : String) : Option EffectState :=
  [EffectState.noneKnown, .noneProven, .unknown, .effectProven].find? (·.name = text)

/-- `CONSEQUENTIAL_BLOCK_STATES`; the other two are `SAFE_RETRY_EFFECT_STATES` -/
def EffectState.blocks (e : EffectState) : Bool := e = .unknown ∨ e = .effectProven

/-- a row of `workforce_assignments` -/
structure WorkforceAssignment where
  ownerId : OwnerId
  delegationRequestId : RequestId
  profileId : ProfileId
  contextPackageId : ℕ
  allowedReadPaths : List String := []
  allowedWritePaths : List String := []
  allowedToolClasses : List String := []
  allowedNetworkDestinations : List String := []
  allowedProjectIds : List String := []
  spendCeilingUsd : Option ℚ := none
  allowExecutionEffects : Bool := false
  expiresAt : Option Time := none
  revokedAt : Option Time := none
  revocationReason : Option String := none
  verificationStatus : VerificationStatus := .unverified
  verifierProfileId : Option ProfileId := none
  status : AssignmentStatus := .assigned
  resultPayload : Payload := []
  completedAt : Option Time := none
  supersedesAssignmentId : Option AssignmentId := none
  takeoverOfAssignmentId : Option AssignmentId := none
  failureClass : Option String := none
  externalEffectState : EffectState := .noneKnown
  retryCount : ℕ := 0

/-- a row of `workforce_assignment_checkpoints` -/
structure AssignmentCheckpoint where
  ownerId : OwnerId
  assignmentId : AssignmentId
  checkpointKind : String
  sequence : ℕ
  partialResult : Payload
  evidenceRefs : List Json
  externalEffectState : EffectState
  failureClass : Option String
  recoverable : Bool

/-- what comes with a decision -/
structure Evidence where
  verifierProfileId : Option ProfileId := none
  secondVerifierProfileId : Option ProfileId := none
  testEvidenceRef : Option String := none
  deterministicValidator : Option String := none
  founderApprovalRef : Option String := none
  agreement : Option Bool := none
  deriving DecidableEq

/-- `VerificationPolicy` -/
structure VerificationPolicy where
  risk : Risk
  requireIndependentVerifier : Bool
  requireTwoAgentAgreement : Bool
  requireTestEvidence : Bool
  requireDeterministicValidator : Bool
  requireFounderApproval : Bool
  deriving DecidableEq

/-- a row of `workforce_verification_decisions` -/
structure VerificationDecision where
  ownerId : OwnerId
  assignmentId : AssignmentId
  decision : VerificationStatus
  policySnapshot : VerificationPolicy
  evidence : Evidence
  reason : String
  deriving DecidableEq

/-- an item that is asked for in a context package; `body` is what of it is passed on -/
structure ContextItem where
  kind : String
  body : Payload := []

/-- a row of `workforce_context_packages` -/
structure ContextPackage where
  ownerId : OwnerId
  trustZone : String
  items : List ContextItem
  deniedKinds : List String

/-- a row of `workforce_performance_rollups` -/
structure PerformanceRollup where
  ownerId : OwnerId
  profileId : ProfileId
  capabilityTag : String
  jobsAttempted : ℕ := 0
  deriving DecidableEq

structure Tables where
  profiles : List AgentProfile := []
  requests : List DelegationRequest := []
  assignments : List WorkforceAssignment := []
  checkpoints : List AssignmentCheckpoint := []
  decisions : List VerificationDecision := []
  packages : List ContextPackage := []
  rollups : List PerformanceRollup := []

/-! ## registry, context, performance, injection -/

/-- `assert_agent_selectable` -/
def AgentProfile.assertSelectable (profile : AgentProfile) : Except Err Unit :=
  if profile.status ∈ [.retired, .disabled, .needDetected] then
    .error (.agentNotSelectable
      s!"agent '{profile.agentKey}' status={profile.status.name} is not selectable")
  else if profile.retiredAt ≠ none then
    .error (.agentNotSelectable s!"agent '{profile.agentKey}' is retired")
  else .ok ()

/-- `ALWAYS_DENIED_KINDS` -/
def alwaysDeniedKinds : List String :=
  ["vault", "secret", "api_key", "provider_credential", "system_secret"]

/-- `FORBIDDEN_EXTERNAL_DISCLOSURE_KINDS` -/
def forbiddenExternalDisclosureKinds : List String :=
  ["vault", "secret", "api_key", "provider_credential", "full_founder_memory",
    "full_conversation_history", "raw_sensitive_identity", "system_secret",
    "other_agent_private_package"]

/-- `classify_trust_zone` -/
def classifyTrustZone (zone : String) : String :=
  if zone ∈ ["LOCAL_INTERNAL", "CONTROLLED_INTERNAL", "EXTERNAL_PROVIDER", "UNTRUSTED_REMOTE"] then
    zone
  else "UNTRUSTED_REMOTE"

/-- `minimize_for_trust_zone` denies the kind -/
def deniedKind (zone kind : String) : Bool :=
  kind ∈ alwaysDeniedKinds ∨
    (zone ∈ ["EXTERNAL_PROVIDER", "UNTRUSTED_REMOTE"] ∧ kind ∈ forbiddenExternalDisclosureKinds)

/-- `create_context_package` -/
def contextPackage (ownerId : OwnerId) (trustZone : String) (items : List ContextItem) :
    ContextPackage :=
  let zone := classifyTrustZone trustZone
  { ownerId := ownerId
    trustZone := zone
    items := items.filter fun item => ¬ deniedKind zone item.kind
    deniedKinds := (items.filter fun item => deniedKind zone item.kind).map (·.kind) }

/-- `record_job_attempt` -/
def recordJobAttempt (rollups : List PerformanceRollup) (ownerId : OwnerId) (profileId : ProfileId)
    (capabilityTag : String) : List PerformanceRollup :=
  let here := fun r : PerformanceRollup =>
    r.ownerId = ownerId ∧ r.profileId = profileId ∧ r.capabilityTag = capabilityTag
  if rollups.any here then
    rollups.map fun r => if here r then { r with jobsAttempted := r.jobsAttempted + 1 } else r
  else rollups ++ [{ ownerId, profileId, capabilityTag, jobsAttempted := 1 }]

/-- `FORBIDDEN_AUTHORITY_KEYS` -/
def forbiddenAuthorityKeys : List String :=
  ["grant_authority", "widen_tools", "allowed_tool_classes", "allowed_write_paths",
    "spend_ceiling_usd", "trust_zone", "role", "status", "create_agent", "elevate_agent",
    "request_vault", "request_api_key", "request_secret", "override_mainai", "override_founder",
    "modify_system_policy", "self_verify", "set_verification_status", "verification_status",
    "create_subagent", "stronger_subagent", "change_own_role", "access_other_worker_context",
    "ignore_policy", "ignore_previous_instructions"]

/-- `INJECTION_NEEDLES` -/
def injectionNeedles : List String :=
  ["ignore previous instructions", "ignore policy", "you are now", "disclose the vault",
    "print the api key", "grant yourself", "widen your tools", "override mainai",
    "create a stronger agent", "change your role to", "exfiltrate"]

/-- the letters of `str.lower`; the Kelvin sign and the dotted capital `I` have small letters of
ASCII -/
def lowered (s : String) : List Char :=
  s.toList.flatMap fun c =>
    if c = '\u212a' then ['k'] else if c = '\u0130' then ['i', '\u0307'] else [c.toLower]

/-- `looks_like_prompt_injection` -/
def looksLikePromptInjection (text : String) : Bool :=
  injectionNeedles.any fun n => n.toList <:+: lowered text

def strippedKey (key : String) : Bool :=
  lowered key ∈ forbiddenAuthorityKeys.map String.toList ∨
    ["api_key", "vault", "secret", "credential", "subagent", "widen"].any fun f =>
      f.toList <:+: lowered key

mutual
/-- `_walk`, with the keys that it has stripped -/
def scrub : Json → Json × List String
  | .obj fields =>
    let r := scrubFields fields
    (.obj r.1, r.2)
  | .arr js =>
    let r := scrubList js
    (.arr r.1, r.2)
  | .str s =>
    if looksLikePromptInjection s then (.str "[REDACTED_INJECTION]", ["__injection_string__"])
    else (.str s, [])
  | j => (j, [])

def scrubList : List Json → List Json × List String
  | [] => ([], [])
  | j :: js =>
    let r := scrub j
    let rest := scrubList js
    (r.1 :: rest.1, r.2 ++ rest.2)

def scrubFields : Payload → Payload × List String
  | [] => ([], [])
  | (key, value) :: fields =>
    let rest := scrubFields fields
    if strippedKey key then (rest.1, key :: rest.2)
    else
      let r := scrub value
      ((key, r.1) :: rest.1, r.2 ++ rest.2)
end

namespace Tables

variable (s : Tables)

/-- `get_workforce_agent` -/
def getWorkforceAgent (ownerId : OwnerId) (agent : ProfileId) : Except Err AgentProfile :=
  match s.profiles[agent]? with
  | none => .error (.workforceRegistry s!"workforce agent {agent} not found for owner")
  | some row =>
    if row.ownerId ≠ ownerId then
      .error (.workforceRegistry s!"workforce agent {agent} not found for owner")
    else .ok row

/-- `get_workforce_agent` and `assert_agent_selectable` -/
def selectableAgent (ownerId : OwnerId) (agent : ProfileId) : Except Err AgentProfile :=
  match s.getWorkforceAgent ownerId agent with
  | .error e => .error e
  | .ok profile => profile.assertSelectable.map fun _ => profile

def setAssignment (a : AssignmentId) (row : WorkforceAssignment) : Tables :=
  { s with assignments := s.assignments.set a row }

def setRequest (r : RequestId) (row : DelegationRequest) : Tables :=
  { s with requests := s.requests.set r row }

end Tables

/-! ## authority -/

structure TaskScopedAuthority where
  allowedReadPaths : List String := []
  allowedWritePaths : List String := []
  allowedToolClasses : List String := []
  allowedNetworkDestinations : List String := []
  allowedProjectIds : List String := []
  spendCeilingUsd : Option ℚ := none
  allowExecutionEffects : Bool := false
  expiresAt : Option Time := none

namespace WorkforceAssignment

variable (row : WorkforceAssignment)

/-- the reasons of `assignment_authority_is_live` -/
def lapses (now : Time) : List String :=
  (if row.revokedAt ≠ none then ["revoked"] else []) ++
  (if row.expiresAt.any (· ≤ now) then ["expired"] else []) ++
  (if row.status ∈ [.revoked, .expired, .cancelled, .superseded] then
    [s!"status={row.status.name}"] else [])

/-- `assignment_authority_is_live` -/
def live (now : Time) : Bool := row.lapses now = []

/-- `revoke_assignment_authority` -/
def revoke (now : Time) (reason : String) : WorkforceAssignment :=
  { row with revokedAt := some now, revocationReason := some reason, status := .revoked }

/-- the status column after a decision; `completed_at` is set with it -/
def decide (now : Time) (decision : VerificationStatus) : WorkforceAssignment :=
  let row := { row with verificationStatus := decision }
  match decision with
  | .verified => { row with status := .completed, completedAt := some now }
  | .rejected => { row with status := .failed, completedAt := some now }
  | .superseded => { row with status := .superseded, completedAt := some now }
  | .unverified => row
  | .checked => row

end WorkforceAssignment

section

variable (now : Time) (s : Tables) (ownerId : OwnerId)

/-! ## the broker -/

/-- `submit_delegation_request` -/
def submitDelegationRequest (request : DelegationRequest) : Tables :=
  { s with requests := s.requests ++ [{ request with status := .opened, resolvedAt := none }] }

/-- what `resolve_delegation` is given; `best` is how `select_best_candidate` ends, whose scores
are floating-point numbers -/
structure Resolution where
  best : Except Err ProfileId
  contextItems : List ContextItem := []
  authority : Option TaskScopedAuthority := none
  /-- `ttl_hours`, in seconds -/
  ttl : Time := 24 * 3600
  verifierProfileId : Option ProfileId := none

/-- the check of the verifier in `resolve_delegation` -/
def checkVerifier (requirement : String) (profileId : ProfileId) (verifier : Option ProfileId) :
    Except Err Unit :=
  if requirement ≠ "independent_verifier" then .ok ()
  else
    match verifier with
    | none => .error (.delegationBroker "independent_verifier required but verifier_profile_id missing")
    | some v =>
      if v = profileId then
        .error (.delegationBroker "BUILDER_CANNOT_SELF_VERIFY: verifier must be a different agent")
      else (s.selectableAgent ownerId v).map fun _ => ()

/-- the assignment that `resolve_delegation` mints -/
def Resolution.assignment (q : Resolution) (request : RequestId) (req : DelegationRequest)
    (profileId : ProfileId) (profile : AgentProfile) (package : ℕ) : WorkforceAssignment :=
  let auth := q.authority.getD
    { allowedToolClasses := profile.allowedToolClasses
      spendCeilingUsd := req.costCeilingUsd
      expiresAt := some (now + q.ttl) }
  { ownerId
    delegationRequestId := request
    profileId
    contextPackageId := package
    allowedReadPaths := auth.allowedReadPaths
    allowedWritePaths := auth.allowedWritePaths
    allowedToolClasses := auth.allowedToolClasses
    allowedNetworkDestinations := auth.allowedNetworkDestinations
    allowedProjectIds := auth.allowedProjectIds
    spendCeilingUsd := auth.spendCeilingUsd
    allowExecutionEffects := auth.allowExecutionEffects
    expiresAt := auth.expiresAt
    verifierProfileId := q.verifierProfileId }

/-- `resolve_delegation` -/
def resolveDelegation (request : RequestId) (q : Resolution) : Except Err AssignmentId × Tables :=
  match s.requests[request]? with
  | none => (.error .noResultFound, s)
  | some req =>
    if req.ownerId ≠ ownerId then
      (.error (.delegationBroker "owner mismatch on delegation request"), s)
    else if req.status ≠ .opened then
      (.error (.delegationBroker s!"request status={req.status.name} is not open"), s)
    else
      match q.best with
      | .error e => (.error e, s)
      | .ok profileId =>
        match s.selectableAgent ownerId profileId with
        | .error e => (.error e, s)
        | .ok profile =>
          match checkVerifier s ownerId req.verificationRequirement profileId q.verifierProfileId with
          | .error e => (.error e, s)
          | .ok () =>
            (.ok s.assignments.length,
              { s with
                requests := s.requests.set request
                  { req with status := .assigned, resolvedAt := some now }
                assignments := s.assignments ++
                  [q.assignment now ownerId request req profileId profile s.packages.length]
                packages := s.packages ++ [contextPackage ownerId profile.trustZone q.contextItems]
                rollups := recordJobAttempt s.rollups ownerId profileId req.requiredCapability })

/-- `ingest_untrusted_result` -/
def ingestUntrustedResult (a : AssignmentId) (payload : Payload) : Except Err Unit × Tables :=
  match s.assignments[a]? with
  | none => (.error .noResultFound, s)
  | some row =>
    if row.ownerId ≠ ownerId then (.error (.delegationBroker "owner mismatch"), s)
    else if ¬ row.live now then
      (.error (.authorityEnvelope
        ("assignment " ++ toString a ++ " authority not live: " ++ ", ".intercalate (row.lapses now))), s)
    else
      let r := scrubFields payload
      (.ok (), s.setAssignment a
        { row with
          resultPayload :=
            [("data", .obj r.1), ("stripped_authority_keys", .arr (r.2.map .str))]
          verificationStatus := .unverified
          status := .awaitingVerification })

/-- the verifier that `VERIFIED` asks for -/
def WorkforceAssignment.refusesVerifier (row : WorkforceAssignment) (verifier : ProfileId)
    (mismatch : String) : Option Err :=
  if verifier = row.profileId then some (.verification "BUILDER_CANNOT_SELF_VERIFY")
  else if row.verifierProfileId ≠ none ∧ row.verifierProfileId ≠ some verifier then
    some (.verification mismatch)
  else none

/-- `mark_verification` -/
def markVerification (a : AssignmentId) (status : String) (verifier : ProfileId) :
    Except Err Unit × Tables :=
  match s.assignments[a]? with
  | none => (.error .noResultFound, s)
  | some row =>
    match verificationStatus? status with
    | none => (.error (.verification s!"invalid verification status: {status}"), s)
    | some decision =>
      if row.ownerId ≠ ownerId then (.error (.delegationBroker "owner mismatch"), s)
      else
        let refusal :=
          if decision = .verified then
            row.refusesVerifier verifier "verifier_profile_id does not match assignment requirement"
          else none
        match refusal with
        | some e => (.error e, s)
        | none => (.ok (), s.setAssignment a (row.decide now decision))

/-- `cancel_assignment` -/
def cancelAssignment (a : AssignmentId) (reason : String) : Except Err Unit × Tables :=
  match s.assignments[a]? with
  | none => (.error .noResultFound, s)
  | some row =>
    if row.ownerId ≠ ownerId then (.error (.delegationBroker "owner mismatch"), s)
    else (.ok (), s.setAssignment a (row.revoke now reason))

/-! ## the verification pipeline -/

/-- `policy_for_risk` -/
def policyForRisk (risk : String) : VerificationPolicy :=
  if lower risk = "high" then ⟨.high, true, true, true, true, true⟩
  else if lower risk = "medium" then ⟨.medium, true, false, true, false, false⟩
  else ⟨.low, true, false, false, false, false⟩

/-- `require_independent_verifier` -/
def WorkforceAssignment.refusesIndependence (row : WorkforceAssignment) (e : Evidence) : Option Err :=
  match e.verifierProfileId with
  | none => some (.verification "independent verifier required")
  | some v => row.refusesVerifier v "verifier does not match assignment requirement"

/-- `require_two_agent_agreement` -/
def WorkforceAssignment.refusesAgreement (row : WorkforceAssignment) (e : Evidence) : Option Err :=
  match e.secondVerifierProfileId with
  | none => some (.verification "two-agent agreement required")
  | some second =>
    if second = row.profileId ∨ some second = e.verifierProfileId then
      some (.verification "second verifier must be independent of builder and first verifier")
    else if e.agreement ≠ some true then some (.verification "two-agent agreement not confirmed")
    else none

/-- `require_test_evidence` and its siblings -/
def missingEvidence (required : Bool) (ref : Option String) (what : String) : Option Err :=
  if required ∧ ref.all (· = "") then some (.verification s!"{what} required for this risk") else none

/-- what `apply_verification_decision` asks of a `VERIFIED` -/
def WorkforceAssignment.refusesEvidence (row : WorkforceAssignment) (policy : VerificationPolicy)
    (e : Evidence) : Option Err :=
  (if policy.requireIndependentVerifier then row.refusesIndependence e else none) <|>
  (if policy.requireTwoAgentAgreement then row.refusesAgreement e else none) <|>
  missingEvidence policy.requireTestEvidence e.testEvidenceRef "test evidence" <|>
  missingEvidence policy.requireDeterministicValidator e.deterministicValidator
    "deterministic validator" <|>
  missingEvidence policy.requireFounderApproval e.founderApprovalRef "founder approval" <|>
  (if e.verifierProfileId = some row.profileId ∨ e.secondVerifierProfileId = some row.profileId then
    some (.verification "BUILDER_CANNOT_SELF_VERIFY")
  else none)

/-- `apply_verification_decision` -/
def applyVerificationDecision (a : AssignmentId) (decision risk : String) (e : Evidence)
    (reason : String) : Except Err Unit × Tables :=
  match s.assignments[a]? with
  | none => (.error .noResultFound, s)
  | some row =>
    if row.ownerId ≠ ownerId then (.error (.verification "owner mismatch"), s)
    else
      match verificationStatus? decision with
      | none => (.error (.verification s!"invalid decision: {decision}"), s)
      | some status =>
        let policy := policyForRisk risk
        let refusal := if status = .verified then row.refusesEvidence policy e else none
        match refusal with
        | some x => (.error x, s)
        | none =>
          let row' := row.decide now status
          let row' := if status = .checked then { row' with status := .awaitingVerification } else row'
          (.ok (), { s.setAssignment a row' with
            decisions := s.decisions ++ [⟨ownerId, a, status, policy, e, reason⟩] })

/-! ## failure, takeover, resume -/

/-- `FAILURE_CLASSES` -/
def failureClasses : List String :=
  ["agent_crash", "provider_timeout", "provider_rate_limit", "malformed_output", "partial_result",
    "lost_lease", "expired_assignment", "revoked_agent", "retired_agent", "mainai_restart",
    "worker_restart"]

/-- `ck_workforce_checkpoints_kind` -/
def checkpointKinds : List String :=
  ["progress", "partial_result", "crash", "timeout", "rate_limit", "malformed", "lost_lease",
    "restart", "takeover", "resume"]

/-- what `record_checkpoint` is given -/
structure CheckpointArgs where
  checkpointKind : String
  partialResult : Payload := []
  evidenceRefs : List Json := []
  /-- `none`: the caller states none -/
  externalEffectState : Option String := none
  failureClass : Option String := none
  recoverable : Bool := true

/-- the checkpoints of an assignment -/
def Tables.checkpointsOf (s : Tables) (a : AssignmentId) : List AssignmentCheckpoint :=
  s.checkpoints.filter (·.assignmentId = a)

/-- `_next_sequence` -/
def Tables.nextSequence (s : Tables) (a : AssignmentId) : ℕ :=
  ((s.checkpointsOf a).map (·.sequence)).foldl max 0 + 1

/-- `latest_checkpoint` -/
def Tables.latestCheckpoint (s : Tables) (a : AssignmentId) : Option AssignmentCheckpoint :=
  (s.checkpointsOf a).find? fun c => c.sequence + 1 = s.nextSequence a

/-- the checks of `record_checkpoint`, and the effect state that it records -/
def checkCheckpoint (row : WorkforceAssignment) (c : CheckpointArgs) : Except Err EffectState :=
  let stated := c.externalEffectState.getD "none_known"
  if row.ownerId ≠ ownerId then .error (.failureTakeover "owner mismatch")
  else if c.failureClass.any (· ∉ failureClasses) then
    .error (.failureTakeover ("unknown failure_class: " ++ c.failureClass.getD ""))
  else
    match effectState? stated with
    | none => .error (.failureTakeover s!"invalid external_effect_state: {stated}")
    | some effect => .ok effect

/-- the tables with a checkpoint of the assignment `row` -/
def Tables.withCheckpoint (s : Tables) (a : AssignmentId) (row : WorkforceAssignment)
    (c : CheckpointArgs) (effect : EffectState) : Tables :=
  { s.setAssignment a
      { row with
        externalEffectState := effect
        failureClass := c.failureClass <|> row.failureClass } with
    checkpoints := s.checkpoints ++
      [⟨row.ownerId, a, c.checkpointKind, s.nextSequence a, c.partialResult, c.evidenceRefs, effect,
        c.failureClass, c.recoverable⟩] }

/-- `record_checkpoint` -/
def recordCheckpoint (a : AssignmentId) (c : CheckpointArgs) : Except Err Unit × Tables :=
  match s.assignments[a]? with
  | none => (.error .noResultFound, s)
  | some row =>
    match checkCheckpoint ownerId row c with
    | .error e => (.error e, s)
    | .ok effect =>
      if c.checkpointKind ∉ checkpointKinds then
        (.error (.integrityError "ck_workforce_checkpoints_kind"), s)
      else (.ok (), s.withCheckpoint a row c effect)

/-- `can_safely_retry` -/
def WorkforceAssignment.canSafelyRetry (row : WorkforceAssignment) : Except Err Unit :=
  if row.externalEffectState.blocks then
    .error (.failureTakeover ("blocked: external_effect_state=" ++ row.externalEffectState.name ++
      " (UNKNOWN EXTERNAL EFFECT != NO EXTERNAL EFFECT)"))
  else .ok ()

/-- `_kind_for_failure` -/
def kindForFailure (failureClass : String) : String :=
  ([("agent_crash", "crash"), ("provider_timeout", "timeout"), ("provider_rate_limit", "rate_limit"),
    ("malformed_output", "malformed"), ("partial_result", "partial_result"),
    ("lost_lease", "lost_lease"), ("mainai_restart", "restart"), ("worker_restart", "restart"),
    ("expired_assignment", "crash"), ("revoked_agent", "crash"),
    ("retired_agent", "crash")].lookup failureClass).getD "crash"

/-- `mark_failure` -/
def markFailure (a : AssignmentId) (failureClass externalEffectState : String)
    (partialResult : Payload) (evidenceRefs : List Json) : Except Err Unit × Tables :=
  match s.assignments[a]? with
  | none => (.error .noResultFound, s)
  | some row =>
    let c : CheckpointArgs :=
      { checkpointKind := kindForFailure failureClass
        partialResult
        evidenceRefs
        externalEffectState := some externalEffectState
        failureClass := some failureClass
        recoverable := externalEffectState ∈ ["none_known", "none_proven"] }
    match checkCheckpoint ownerId row c with
    | .error e => (.error e, s)
    | .ok effect => (.ok (), s.withCheckpoint a { row with status := .failed } c effect)

/-- `safe_retry_same_agent`: `record_checkpoint` looks at the owner when the retry is counted -/
def safeRetrySameAgent (a : AssignmentId) : Except Err Unit × Tables :=
  match s.assignments[a]? with
  | none => (.error .noResultFound, s)
  | some row =>
    match row.canSafelyRetry with
    | .error e => (.error e, s)
    | .ok () =>
      if ¬ row.live now then
        (.error (.failureTakeover
          ("assignment authority not live: " ++ ", ".intercalate (row.lapses now))), s)
      else
        let retried := { row with retryCount := row.retryCount + 1, status := .assigned }
        let c : CheckpointArgs :=
          { checkpointKind := "resume"
            partialResult := (s.latestCheckpoint a).elim [] (·.partialResult)
            externalEffectState := some "none_proven" }
        match checkCheckpoint ownerId retried c with
        | .error e => (.error e, s.setAssignment a retried)
        | .ok effect => (.ok (), s.withCheckpoint a retried c effect)

/-- `resume_after_restart` -/
def resumeAfterRestart (a : AssignmentId) (restartKind : String) : Except Err Unit × Tables :=
  if restartKind ∉ ["mainai_restart", "worker_restart"] then
    (.error (.failureTakeover s!"invalid restart_kind: {restartKind}"), s)
  else
    match s.assignments[a]? with
    | none => (.error .noResultFound, s)
    | some row =>
      let prior := s.latestCheckpoint a
      recordCheckpoint s ownerId a
        { checkpointKind := "restart"
          partialResult := prior.elim [] (·.partialResult)
          evidenceRefs := prior.elim [] (·.evidenceRefs)
          externalEffectState := some row.externalEffectState.name
          failureClass := some restartKind
          recoverable := ¬ row.externalEffectState.blocks }

/-- what `alternate_agent_takeover` is given -/
structure TakeoverArgs where
  failed : AssignmentId
  request : RequestId
  alternate : ProfileId
  verifierProfileId : Option ProfileId := none
  contextItems : List ContextItem := []

/-- `sorted(prior_tools & alt_tools)` -/
def commonTools (prior alt : List String) : List String :=
  ((prior.filter (· ∈ alt)).dedup).mergeSort (· ≤ ·)

/-- the verifier of the new assignment: the one of the failed assignment, where an independent one is
required and none is named -/
def TakeoverArgs.verifier (t : TakeoverArgs) (req : DelegationRequest) (row : WorkforceAssignment) :
    Option ProfileId :=
  if req.verificationRequirement = "independent_verifier" then
    t.verifierProfileId <|> row.verifierProfileId
  else t.verifierProfileId

/-- the new assignment -/
def TakeoverArgs.assignment (t : TakeoverArgs) (req : DelegationRequest) (row : WorkforceAssignment)
    (alt : AgentProfile) (package : ℕ) (preserved : Payload) : WorkforceAssignment where
  ownerId := ownerId
  delegationRequestId := t.request
  profileId := t.alternate
  contextPackageId := package
  allowedReadPaths := row.allowedReadPaths
  allowedToolClasses := commonTools row.allowedToolClasses alt.allowedToolClasses
  allowedProjectIds := row.allowedProjectIds
  spendCeilingUsd := row.spendCeilingUsd
  expiresAt := some (now + 12 * 3600)
  verifierProfileId := t.verifier req row
  resultPayload := [("inherited_partial", .obj preserved)]
  supersedesAssignmentId := some t.failed
  takeoverOfAssignmentId := some t.failed
  externalEffectState := .noneProven

/-- the failed assignment, marked as superseded -/
def WorkforceAssignment.supersede (row : WorkforceAssignment) (now : Time) : WorkforceAssignment :=
  { ({ row with verificationStatus := .superseded }).revoke now "takeover_reassign" with
    status := .superseded }

/-- `request.status = "open"`, where it is not -/
def DelegationRequest.reopen (req : DelegationRequest) : DelegationRequest :=
  if req.status ≠ .opened then { req with status := .opened, resolvedAt := none } else req

/-- the tables when the failed assignment is superseded, its request is open again and the package is
made -/
def Tables.superseding (s : Tables) (now : Time) (ownerId : OwnerId) (t : TakeoverArgs)
    (row : WorkforceAssignment) (req : DelegationRequest) (alt : AgentProfile) : Tables :=
  { (s.setAssignment t.failed (row.supersede now)).setRequest t.request req.reopen with
    packages := s.packages ++ [contextPackage ownerId alt.trustZone t.contextItems] }

/-- the tables of a takeover that goes through; the successor has the first checkpoint -/
def Tables.takenOver (s : Tables) (now : Time) (ownerId : OwnerId) (t : TakeoverArgs)
    (row : WorkforceAssignment) (req : DelegationRequest) (alt : AgentProfile) : Tables :=
  let preserved := (s.latestCheckpoint t.failed).elim row.resultPayload (·.partialResult)
  let superseding := s.superseding now ownerId t row req alt
  let minted := t.assignment now ownerId req row alt s.packages.length preserved
  { superseding with
    requests := s.requests.set t.request { req with status := .assigned, resolvedAt := some now }
    assignments :=
      (s.assignments.set t.failed { row.supersede now with supersedesAssignmentId := none }) ++ [minted]
    checkpoints := s.checkpoints ++
      [⟨ownerId, s.assignments.length, "takeover", 1, preserved, [], .noneProven, none, true⟩]
    rollups := recordJobAttempt s.rollups ownerId t.alternate req.requiredCapability }

/-- `alternate_agent_takeover` -/
def alternateAgentTakeover (t : TakeoverArgs) : Except Err AssignmentId × Tables :=
  match s.assignments[t.failed]?, s.requests[t.request]? with
  | some row, some req =>
    match row.canSafelyRetry with
    | .error e => (.error e, s)
    | .ok () =>
      match s.selectableAgent ownerId t.alternate with
      | .error e => (.error e, s)
      | .ok alt =>
        if t.alternate = row.profileId then
          (.error (.failureTakeover "alternate agent must differ from failed assignment agent"), s)
        else if req.verificationRequirement = "independent_verifier" ∧
            (t.verifier req row = none ∨ t.verifier req row = some t.alternate) then
          (.error (.failureTakeover "independent verifier required and must differ from builder"),
            s.superseding now ownerId t row req alt)
        else if req.ownerId ≠ ownerId then
          (.error (.integrityError "fk_workforce_assignments_request_owner"), s)
        else (.ok s.assignments.length, s.takenOver now ownerId t row req alt)
  | _, _ => (.error .noResultFound, s)

end

/-! ## calls -/

inductive Call where
  /-- the registry leaves these profiles -/
  | registry (profiles : List AgentProfile)
  | submit (request : DelegationRequest)
  | resolve (ownerId : OwnerId) (request : RequestId) (q : Resolution)
  | ingest (ownerId : OwnerId) (a : AssignmentId) (payload : Payload)
  | markVerification (ownerId : OwnerId) (a : AssignmentId) (status : String) (verifier : ProfileId)
  | applyDecision (ownerId : OwnerId) (a : AssignmentId) (decision risk : String) (e : Evidence)
      (reason : String)
  | cancel (ownerId : OwnerId) (a : AssignmentId) (reason : String)
  | checkpoint (ownerId : OwnerId) (a : AssignmentId) (c : CheckpointArgs)
  | failure (ownerId : OwnerId) (a : AssignmentId) (failureClass externalEffectState : String)
      (partialResult : Payload) (evidenceRefs : List Json)
  | retry (ownerId : OwnerId) (a : AssignmentId)
  | takeover (ownerId : OwnerId) (t : TakeoverArgs)
  | restart (ownerId : OwnerId) (a : AssignmentId) (restartKind : String)

/-- a call, and when it is made -/
structure Op where
  now : Time
  call : Call

/-- the assignment that it returns, if it mints one, and the tables that it leaves behind -/
def Op.exec (s : Tables) (op : Op) : Except Err (Option AssignmentId) × Tables :=
  let plain := fun r : Except Err Unit × Tables => (r.1.map fun _ => none, r.2)
  let minted := fun r : Except Err AssignmentId × Tables => (r.1.map some, r.2)
  match op.call with
  | .registry profiles => (.ok none, { s with profiles })
  | .submit request => (.ok none, submitDelegationRequest s request)
  | .resolve ownerId request q => minted (resolveDelegation op.now s ownerId request q)
  | .ingest ownerId a payload => plain (ingestUntrustedResult op.now s ownerId a payload)
  | .markVerification ownerId a status verifier =>
    plain (markVerification op.now s ownerId a status verifier)
  | .applyDecision ownerId a decision risk e reason =>
    plain (applyVerificationDecision op.now s ownerId a decision risk e reason)
  | .cancel ownerId a reason => plain (cancelAssignment op.now s ownerId a reason)
  | .checkpoint ownerId a c => plain (recordCheckpoint s ownerId a c)
  | .failure ownerId a failureClass externalEffectState partialResult evidenceRefs =>
    plain (markFailure s ownerId a failureClass externalEffectState partialResult evidenceRefs)
  | .retry ownerId a => plain (safeRetrySameAgent op.now s ownerId a)
  | .takeover ownerId t => minted (alternateAgentTakeover op.now s ownerId t)
  | .restart ownerId a restartKind => plain (resumeAfterRestart s ownerId a restartKind)

/-- a step of a run -/
def step (s : Tables) (op : Op) : Tables := (op.exec s).2

end LifeAI.Workforce
