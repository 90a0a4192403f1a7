import LifeAI.Base
import LifeAI.Lib.Versions

/-!
# The goal leases of the supervisor

`development_supervisor/lease.py` over migration 0059, for transactions under READ COMMITTED.
`now` is the `now()` of the database, the start of the transaction; it is an argument of every
statement, and nothing is assumed about it.

* `SupervisorGoalLease`  a row of `supervisor_goal_leases`; its id is its position;
* `claimSupervisorGoalLease`, `renewSupervisorGoalLease`, `releaseSupervisorGoalLease`
               the three statements, which may have to wait for another transaction;
* `LeaseStep`  a statement, a commit or a rollback of a transaction;
* `LeaseSys`   the table, and the claims that succeeded: those of a transaction that is rolled
               back did not.
-/

namespace LifeAI

open Versions

abbrev LeaseId := Nat

inductive SupervisorLeaseStatus where
  | active | released
  deriving DecidableEq

structure SupervisorGoalLease where
  ownerId : OwnerId
  goalId : GoalId
  envelopeId : Option Nat
  workerId : String
  leaseGeneration : Nat := 1
  status : SupervisorLeaseStatus := .active
  acquiredAt : Time
  expiresAt : Time
  lastHeartbeatAt : Option Time
  releasedAt : Option Time := none
  deriving DecidableEq

/-- the arguments of `claim_supervisor_goal_lease` -/
structure LeaseRequest where
  ownerId : OwnerId
  goalId : GoalId
  envelopeId : Nat
  workerId : String
  leaseSeconds : Nat
  deriving DecidableEq

/-- what a claim hands out, and what `renew` and `release` present -/
structure LeaseToken where
  leaseId : LeaseId
  workerId : String
  leaseGeneration : Nat
  deriving DecidableEq

abbrev LeaseTable := Table SupervisorGoalLease

/-- the row that `_CLAIM_SQL` inserts -/
def LeaseRequest.row (c : LeaseRequest) (now : Time) : SupervisorGoalLease where
  ownerId := c.ownerId
  goalId := c.goalId
  envelopeId := some c.envelopeId
  workerId := c.workerId
  acquiredAt := now
  expiresAt := now + c.leaseSeconds
  lastHeartbeatAt := some now

/-- its `DO UPDATE SET` -/
def LeaseRequest.takeOver (c : LeaseRequest) (now : Time) (r : SupervisorGoalLease) :
    SupervisorGoalLease :=
  { r with
    workerId := c.workerId
    envelopeId := some c.envelopeId
    leaseGeneration := r.leaseGeneration + 1
    expiresAt := now + c.leaseSeconds
    lastHeartbeatAt := some now
    acquiredAt := now }

/-- the row stands in `uq_supervisor_goal_leases_one_active_per_goal` -/
def SupervisorGoalLease.holds (r : SupervisorGoalLease) (g : GoalId) : Bool :=
  r.goalId = g ∧ r.status = .active

/-- a row of the goal that another transaction has written: the insert waits for its end -/
def goalHeld (t : LeaseTable) (n : Nat) (g : GoalId) : Bool :=
  (List.range t.length).any fun i =>
    t.heldByOther n i ∧
      ((t.view n i).any (·.goalId = g) ∨ (t.top i).any (·.goalId = g))

/-- the row that the insert conflicts with -/
def conflictingLease (t : LeaseTable) (n : Nat) (g : GoalId) : Option LeaseId :=
  (List.range t.length).find? fun i => (t.view n i).any (·.holds g)

inductive ClaimAnswer where
  | waits
  /-- no row came back -/
  | refused
  | claimed (k : LeaseToken) (t : LeaseTable)
  deriving DecidableEq

/-- `claim_supervisor_goal_lease` -/
def claimSupervisorGoalLease (t : LeaseTable) (n : Nat) (now : Time) (c : LeaseRequest) :
    ClaimAnswer :=
  if goalHeld t n c.goalId then .waits
  else match conflictingLease t n c.goalId with
    | none => .claimed ⟨t.length, c.workerId, 1⟩ (t.insert n (c.row now))
    | some i =>
      match t.view n i with
      | none => .refused
      | some r =>
        if r.expiresAt < now then
          .claimed ⟨i, c.workerId, r.leaseGeneration + 1⟩ (t.write n i (c.takeOver now r))
        else .refused

inductive FencedAnswer where
  | waits
  /-- no row was updated: `renew` raises `SupervisorLeaseLostError`, `release` returns `False` -/
  | lost
  | updated (t : LeaseTable)
  deriving DecidableEq

/-- the WHERE clause of `renew` and `release` -/
def LeaseToken.matchesRow (k : LeaseToken) (r : SupervisorGoalLease) : Bool :=
  r.workerId = k.workerId ∧ r.leaseGeneration = k.leaseGeneration ∧ r.status = .active

/-- the fenced UPDATE of the row that the token names; it waits for the transaction that has
written the row, and looks at the row again -/
def fencedUpdate (t : LeaseTable) (n : Nat) (k : LeaseToken)
    (set : SupervisorGoalLease → SupervisorGoalLease) : FencedAnswer :=
  match t.view n k.leaseId with
  | none => .lost
  | some r =>
    if ¬ k.matchesRow r then .lost
    else if t.heldByOther n k.leaseId then .waits
    else .updated (t.write n k.leaseId (set r))

/-- `renew_supervisor_goal_lease` -/
def renewSupervisorGoalLease (t : LeaseTable) (n : Nat) (now : Time) (k : LeaseToken)
    (leaseSeconds : Nat) : FencedAnswer :=
  fencedUpdate t n k fun r =>
    { r with expiresAt := now + leaseSeconds, lastHeartbeatAt := some now }

/-- `release_supervisor_goal_lease` -/
def releaseSupervisorGoalLease (t : LeaseTable) (n : Nat) (now : Time) (k : LeaseToken) :
    FencedAnswer :=
  fencedUpdate t n k fun r => { r with status := .released, releasedAt := some now }

/-! ## the system -/

/-- a claim that has handed out its token; `tx` is its transaction as long as that is open -/
structure LeaseClaim where
  tx : Option Nat
  goalId : GoalId
  token : LeaseToken
  deriving DecidableEq

structure LeaseSys where
  rows : LeaseTable := []
  /-- the claims that succeeded, in their order -/
  claims : List LeaseClaim := []
  deriving DecidableEq

/-- a statement of the `n`-th transaction, or its end -/
inductive LeaseStep where
  | claim (n : Nat) (now : Time) (c : LeaseRequest)
  | renew (n : Nat) (now : Time) (k : LeaseToken) (leaseSeconds : Nat)
  | release (n : Nat) (now : Time) (k : LeaseToken)
  | commit (n : Nat)
  | rollback (n : Nat)
  deriving DecidableEq

/-- the claim is durable from now on -/
def LeaseClaim.commit (n : Nat) (x : LeaseClaim) : LeaseClaim :=
  if x.tx = some n then { x with tx := none } else x

def LeaseSys.update (s : LeaseSys) : FencedAnswer → LeaseSys
  | .updated t => { s with rows := t }
  | _ => s

def LeaseStep.step (s : LeaseSys) : LeaseStep → LeaseSys
  | .claim n now c =>
    match claimSupervisorGoalLease s.rows n now c with
    | .claimed k t => { rows := t, claims := s.claims ++ [⟨some n, c.goalId, k⟩] }
    | _ => s
  | .renew n now k secs => s.update (renewSupervisorGoalLease s.rows n now k secs)
  | .release n now k => s.update (releaseSupervisorGoalLease s.rows n now k)
  | .commit n => { rows := s.rows.commit n, claims := s.claims.map (LeaseClaim.commit n) }
  | .rollback n => { rows := s.rows.rollback n, claims := s.claims.filter (·.tx ≠ some n) }

/-- the state after a list of steps, from empty tables -/
def leaseRun (os : List LeaseStep) : LeaseSys := Run.run LeaseStep.step {} os

/-! ## what the statements do -/

variable {t t' : LeaseTable} {n i : Nat} {now : Time} {k : LeaseToken}
  {set : SupervisorGoalLease → SupervisorGoalLease}

theorem goalHeld_eq_false {g : GoalId} (h : goalHeld t n g = false) (hi : i < t.length)
    (hg : (t.view n i).any (·.goalId = g) ∨ (t.top i).any (·.goalId = g)) :
    t.heldByOther n i = false := by
  unfold goalHeld at h
  rw [List.any_eq_false] at h
  have hrow := h i (List.mem_range.2 hi)
  by_contra hother
  rw [Bool.not_eq_false] at hother
  exact hrow (by rw [decide_eq_true_eq]; exact ⟨hother, hg⟩)

theorem find_conflictingLease {g : GoalId} (h : conflictingLease t n g = some i) :
    ∃ r, t.view n i = some r ∧ r.holds g := by
  have hh := List.find?_some h
  cases hv : t.view n i with
  | none => rw [hv] at hh; cases hh
  | some r => rw [hv] at hh; exact ⟨r, rfl, hh⟩

theorem conflictingLease_eq_none {g : GoalId} (h : conflictingLease t n g = none)
    {r : SupervisorGoalLease} (hr : t.view n i = some r) : ¬ r.holds g := by
  unfold conflictingLease at h
  rw [List.find?_eq_none] at h
  intro hh
  exact h i (List.mem_range.2 (Table.lt_of_view hr)) (by rw [hr]; exact hh)

/-- an update that went through: the row is free, and its newest version matches the token -/
theorem fencedUpdate_updated : fencedUpdate t n k set = .updated t' ↔
    t.heldByOther n k.leaseId = false ∧
      ∃ r, t.top k.leaseId = some r ∧ k.matchesRow r ∧ t' = t.write n k.leaseId (set r) := by
  unfold fencedUpdate
  constructor
  · intro h
    cases hv : t.view n k.leaseId with
    | none => simp [hv] at h
    | some r =>
      rw [hv] at h
      dsimp only at h
      split at h
      · cases h
      · next hm =>
        split at h
        · cases h
        · next hfree =>
          rw [Bool.not_eq_true] at hfree
          cases h
          rw [Table.view_eq_top hfree] at hv
          exact ⟨hfree, r, hv, not_not.1 hm, rfl⟩
  · rintro ⟨hfree, r, hr, hm, rfl⟩
    rw [Table.view_eq_top hfree, hr]
    simp [hm, hfree]

/-- a claim that went through: no row of the goal is held by another transaction, and it took over
the active row of the goal, which had expired, or there was none -/
theorem claim_claimed {c : LeaseRequest} (h : claimSupervisorGoalLease t n now c = .claimed k t') :
    goalHeld t n c.goalId = false ∧
      ((∃ i r, t.top i = some r ∧ r.holds c.goalId ∧ r.expiresAt < now ∧
          k = ⟨i, c.workerId, r.leaseGeneration + 1⟩ ∧ t' = t.write n i (c.takeOver now r)) ∨
        ((∀ i r, t.view n i = some r → ¬ r.holds c.goalId) ∧ k = ⟨t.length, c.workerId, 1⟩ ∧
          t' = t.insert n (c.row now))) := by
  unfold claimSupervisorGoalLease at h
  split at h
  · cases h
  next hfree =>
  rw [Bool.not_eq_true] at hfree
  refine ⟨hfree, ?_⟩
  cases hc : conflictingLease t n c.goalId with
  | none =>
    rw [hc] at h
    cases h
    exact .inr ⟨fun i r hr => conflictingLease_eq_none hc hr, rfl, rfl⟩
  | some i =>
    obtain ⟨r, hr, hh⟩ := find_conflictingLease hc
    have hother : t.heldByOther n i = false := by
      refine goalHeld_eq_false hfree (Table.lt_of_view hr) (.inl ?_)
      rw [hr]
      exact decide_eq_true (of_decide_eq_true hh).1
    rw [hc] at h
    dsimp only at h
    rw [hr] at h
    dsimp only at h
    split at h
    · next hexp =>
      cases h
      rw [Table.view_eq_top hother] at hr
      exact .inl ⟨i, r, hr, hh, hexp, rfl, rfl⟩
    · cases h

end LifeAI
