import LifeAI.Lib.Run

/-!
# Exceptions and identifiers

Rows of a table are kept in a `List`; the id of a row is its position, so ids are fresh and
unique by construction (rows of these tables are never deleted).  `Err` has one constructor
for each exception class that the modelled functions raise or let through.
-/

namespace LifeAI

abbrev OwnerId := Nat
abbrev GoalId := Nat
abbrev PlanId := Nat
abbrev TaskId := Nat
abbrev JobId := Nat
/-- seconds -/
abbrev Time := Nat

inductive Err where
  /-- `scalar_one()` found no row -/
  | noResultFound
  /-- `scalar_one_or_none()` found several -/
  | multipleResultsFound
  /-- a CHECK, a unique key or a trigger refused the flush -/
  | integrityError (constraint : String)
  | valueError
  | jobNotFound (job : JobId)
  | invalidJobTransition (job : JobId)
  | invalidInputRefs
  | idempotencyConflict
  | capabilityUnavailable
  | jobLeaseLost (job : JobId) (worker : String) (generation : Nat)
  | jobNotSupersedable (job : JobId)
  | jobNotDeclinable (job : JobId)
  | providerSpend (message : String)
  | planValidation (message : String)
  | planCycle (nodes : List Nat)
  | planInsertionAuthority (message : String)
  | planInsertionValidation (message : String)
  | planInsertionConflict (message : String)
  | executionEnvelope (message : String)
  | egressDenied (reason : String)
  | providerPlanning (message : String)
  | candidateValidation (message : String)
  /-- `IdempotencyConflict` of `intelligence_governance` -/
  | intelligenceConflict
  | workIntelligence (message : String)
  | approvalRequired (task : TaskId)
  | taskNotRetryable (task : TaskId)
  | taskNotCancellable (task : TaskId)
  | takeover (message : String)
  | salvage (message : String)
  | recoveryApprovalRequired
  | operatorPath (message : String)
  | operatorAuthorization (message : String)
  | operatorAuthorityTransition (message : String)
  | operatorCommand (message : String)
  | operatorVerificationRequired (message : String)
  | operatorCapabilityMissing (capability whyNeeded : String) (canContinue : Bool)
  | driverPlan (message : String)
  | gapEvidence (message : String)
  | gapLeaseLost (message : String)
  | gapLineage (message : String)
  | gapCapability (message : String)
  | problemLearning (message : String)
  | workforceRegistry (message : String)
  | agentNotSelectable (message : String)
  | delegationBroker (message : String)
  | verification (message : String)
  | authorityEnvelope (message : String)
  | failureTakeover (message : String)
  | worktree (message : String)
  | worktreeOwnership (message : String)
  | strategySynthesis (message : String)
  | strategyEvaluation (message : String)
  | invalidThreadOperation (message : String)
  | invalidContextReference (message : String)
  | costGovernance (message : String)
  | founderMemory (message : String)
  | memorySourceIdentityConflict (message : String)
  /-- `StorageError` and its subclasses -/
  | storage (message : String)
  | unicodeDecodeError
  | attributeError
  | recursionError
  | typeError
  | keyError
  /-- the database cannot store a value -/
  | dataError
  | osError
  | runtimeError
  /-- RAISE EXCEPTION in a SQL function -/
  | sqlException (message : String)
  /-- the process died, or the task was cancelled: `except Exception` does not see it -/
  | died
  deriving DecidableEq

instance decidableEqExcept {ε α : Type} [DecidableEq ε] [DecidableEq α] :
    DecidableEq (Except ε α)
  | .ok a, .ok b => decidable_of_iff (a = b) ⟨congrArg _, Except.ok.inj⟩
  | .error a, .error b => decidable_of_iff (a = b) ⟨congrArg _, Except.error.inj⟩
  | .ok _, .error _ => isFalse nofun
  | .error _, .ok _ => isFalse nofun

/-- what `do` peels off a successful computation -/
theorem bind_eq_ok {ε α β : Type} {x : Except ε α} {f : α → Except ε β} {b : β} :
    (x >>= f) = .ok b ↔ ∃ a, x = .ok a ∧ f a = .ok b := by
  cases x with
  | error e => simp [bind, Except.bind]
  | ok a => simp [bind, Except.bind]

/-- a guard at the head of a `do` block -/
theorem guard_eq_ok {ε β : Type} {c : Prop} [Decidable c] {e : ε} {x : Except ε β} {b : β} :
    (if c then .error e else x) = .ok b ↔ ¬ c ∧ x = .ok b := by
  by_cases h : c <;> simp [h]

/-- `str.isspace` of one character -/
def isspace (c : Char) : Bool :=
  let n := c.toNat
  (9 ≤ n ∧ n ≤ 13) ∨ (28 ≤ n ∧ n ≤ 32) ∨ n = 0x85 ∨ n = 0xA0 ∨ n = 0x1680 ∨
    (0x2000 ≤ n ∧ n ≤ 0x200A) ∨ n = 0x2028 ∨ n = 0x2029 ∨ n = 0x202F ∨ n = 0x205F ∨ n = 0x3000

/-- `not s or not s.strip()` -/
def blank (s : String) : Bool := s.toList.all isspace

/-- what every step of a fold keeps, the fold keeps -/
theorem foldlM_ok {ε σ α : Type} {P : σ → Prop} {f : σ → α → Except ε σ} {as : List α}
    (hstep : ∀ s a s', a ∈ as → P s → f s a = .ok s' → P s') {s s' : σ} (h0 : P s)
    (h : as.foldlM f s = .ok s') : P s' := by
  induction as generalizing s with
  | nil =>
    cases h
    exact h0
  | cons a as ih =>
    rw [List.foldlM_cons, bind_eq_ok] at h
    obtain ⟨s1, h1, h2⟩ := h
    exact ih (fun s a' s' ha' => hstep s a' s' (List.mem_cons_of_mem _ ha'))
      (hstep s a s1 (List.mem_cons_self ..) h0 h1) h2

/-- a loop that raised nothing -/
theorem forM_ok {ε α : Type} {f : α → Except ε Unit} {as : List α} (h : as.forM f = .ok ()) :
    ∀ a ∈ as, f a = .ok () := by
  induction as with
  | nil => simp
  | cons a as ih =>
    rw [List.forM, bind_eq_ok] at h
    obtain ⟨_, h1, h2⟩ := h
    intro b hb
    rcases List.mem_cons.1 hb with rfl | hb
    · exact h1
    · exact ih h2 b hb

/-- a fold over different items, each of which finds what it needs (`Q`) because the others
leave that alone -/
theorem foldlM_each {ε σ α : Type} {P : σ → Prop} {Q : α → σ → Prop} {f : σ → α → Except ε σ}
    (hstep : ∀ s a s', P s → Q a s → f s a = .ok s' → P s' ∧ ∀ b, b ≠ a → Q b s → Q b s')
    {as : List α} (hnd : as.Nodup) {s s' : σ} (h0 : P s) (hQ : ∀ a ∈ as, Q a s)
    (h : as.foldlM f s = .ok s') : P s' := by
  induction as generalizing s with
  | nil =>
    cases h
    exact h0
  | cons a as ih =>
    rw [List.foldlM_cons, bind_eq_ok] at h
    obtain ⟨s1, h1, h2⟩ := h
    obtain ⟨hP, hkeep⟩ := hstep s a s1 h0 (hQ a (List.mem_cons_self ..)) h1
    have hnd' := List.nodup_cons.1 hnd
    refine ih hnd'.2 hP (fun b hb => ?_) h2
    exact hkeep b (fun hba => hnd'.1 (hba ▸ hb)) (hQ b (List.mem_cons_of_mem _ hb))

/-- a transaction: an exception rolls back -/
def transact {σ : Type*} (s : σ) : Except Err σ → σ
  | .ok s' => s'
  | .error _ => s

@[simp] theorem transact_ok {σ : Type*} (s s' : σ) : transact s (.ok s') = s' := rfl
@[simp] theorem transact_error {σ : Type*} (s : σ) (e : Err) : transact s (.error e) = s := rfl

/-- a row after an UPDATE of an existing row -/
theorem getElem?_set_row {α : Type*} {rows : List α} {j i : Nat} {r r' : α}
    (h : rows[j]? = some r) : (rows.set j r')[i]? = if j = i then some r' else rows[i]? := by
  have hj : j < rows.length := (List.getElem?_eq_some_iff.1 h).1
  rw [List.getElem?_set]
  by_cases hi : j = i
  · simp [hi, hi ▸ hj]
  · simp [hi]

theorem set_same {α : Type*} {rows : List α} {j : Nat} {x : α} (hx : rows[j]? = some x) :
    rows.set j x = rows := by
  obtain ⟨hlt, rfl⟩ := List.getElem?_eq_some_iff.1 hx
  exact List.set_getElem_self hlt

/-- an UPDATE leaves a column that it does not write -/
theorem map_set_same {α β : Type*} {f : α → β} {rows : List α} {j : Nat} {x x' : α}
    (hx : rows[j]? = some x) (hf : f x' = f x) : (rows.set j x').map f = rows.map f := by
  rw [List.map_set, hf]
  refine set_same ?_
  rw [List.getElem?_map, hx]
  rfl

/-- a row after an INSERT -/
theorem getElem?_insert {α : Type*} {rows : List α} {i : Nat} {r r' : α}
    (h : (rows ++ [r'])[i]? = some r) : rows[i]? = some r ∨ i = rows.length ∧ r = r' := by
  rw [List.getElem?_append] at h
  split at h
  · exact .inl h
  · next hi =>
    obtain ⟨h1, h2⟩ := List.getElem?_eq_some_iff.1 h
    simp only [List.length_singleton, Nat.lt_one_iff] at h1
    refine .inr ⟨by omega, ?_⟩
    simpa [h1] using h2.symm

/-- at most one row of a table satisfies `p` -/
theorem countP_le_one {α : Type*} {p : α → Bool} {rows : List α}
    (h : ∀ (j k : Nat) (a b : α), rows[j]? = some a → rows[k]? = some b → p a → p b → j = k) :
    rows.countP p ≤ 1 := by
  induction rows with
  | nil => simp
  | cons r rows ih =>
    rw [List.countP_cons]
    split
    · next hr =>
      have hnone : rows.countP p = 0 := by
        rw [List.countP_eq_zero]
        intro a ha hp
        obtain ⟨k, hk, rfl⟩ := List.getElem_of_mem ha
        exact absurd (h 0 (k + 1) r _ rfl (by simp [hk]) hr hp) (Nat.succ_ne_zero k).symm
      omega
    · have := ih fun j k a b ha hb hpa hpb =>
        Nat.succ.inj (h (j + 1) (k + 1) a b (by simpa using ha) (by simpa using hb) hpa hpb)
      omega

/-- What the unit of work writes to one column: a flush updates the columns whose value
differs from the one loaded, the others keep what the row holds now. -/
def dirty {α : Type*} [DecidableEq α] (loaded new now : α) : α :=
  if new = loaded then now else new

@[simp] theorem dirty_self {α : Type*} [DecidableEq α] (loaded new : α) :
    dirty loaded new loaded = new := by
  unfold dirty
  split
  · next h => exact h.symm
  · rfl

end LifeAI
