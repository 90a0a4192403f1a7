import LifeAI.Supervisor.Lease

/-!
# The rows of one goal, and the tokens handed out for it

The rows are read either as the newest versions or as the committed ones; `Serial` says of such a
reading that one row at most is active, and that of two tokens either both are of one row, the later
one with the larger generation, or the row of the earlier one is released.

* `Serial`              one reading of the rows of a goal, with the tokens of its claims;
* `Serial.write`        a renewal or a release;
* `Serial.snoc_takeOver`, `Serial.snoc_insert`   a claim;
* `Serial.not_matches`  an earlier token does not match its row any more.
-/

namespace LifeAI

/-- the rows of the goal `g`, and the tokens that were handed out for it -/
structure Serial (g : GoalId) (row : LeaseId → Option SupervisorGoalLease)
    (tokens : List LeaseToken) : Prop where
  one : ∀ {i j r r'}, row i = some r → r.holds g → row j = some r' → r'.holds g → i = j
  known : ∀ k ∈ tokens, ∃ r, row k.leaseId = some r ∧ r.goalId = g ∧
    k.leaseGeneration ≤ r.leaseGeneration
  fenced : tokens.Pairwise fun k k' =>
    (k.leaseId = k'.leaseId ∧ k.leaseGeneration < k'.leaseGeneration) ∨
      (k.leaseId ≠ k'.leaseId ∧ ∃ r, row k.leaseId = some r ∧ r.status = .released)

theorem SupervisorGoalLease.holds_iff {r : SupervisorGoalLease} {g : GoalId} :
    r.holds g ↔ r.goalId = g ∧ r.status = .active := by
  unfold holds
  rw [decide_eq_true_eq]

theorem LeaseToken.matchesRow_iff {k : LeaseToken} {r : SupervisorGoalLease} :
    k.matchesRow r ↔ r.workerId = k.workerId ∧ r.leaseGeneration = k.leaseGeneration ∧
      r.status = .active := by
  unfold matchesRow
  rw [decide_eq_true_eq]

theorem SupervisorLeaseStatus.eq_released {x : SupervisorLeaseStatus} (h : x ≠ .active) :
    x = .released := by
  cases x with
  | active => exact absurd rfl h
  | released => rfl

namespace Serial

variable {g : GoalId} {row row' : LeaseId → Option SupervisorGoalLease} {ks : List LeaseToken}
  {k k' : LeaseToken} {r r' : SupervisorGoalLease} {i : LeaseId}

theorem empty : Serial g (fun _ => none) [] where
  one h := by cases h
  known _ h := by cases h
  fenced := .nil

/-- only the rows of the goal matter -/
theorem congr (h : Serial g row ks)
    (hrow : ∀ i r, r.goalId = g → (row i = some r ↔ row' i = some r)) : Serial g row' ks where
  one hi hr hj hr' :=
    h.one ((hrow _ _ (SupervisorGoalLease.holds_iff.1 hr).1).2 hi) hr
      ((hrow _ _ (SupervisorGoalLease.holds_iff.1 hr').1).2 hj) hr'
  known k hk := by
    obtain ⟨r, hr, hg, hle⟩ := h.known k hk
    exact ⟨r, (hrow _ _ hg).1 hr, hg, hle⟩
  fenced := by
    refine List.Pairwise.imp_of_mem ?_ h.fenced
    rintro k k' hk - (hsame | ⟨hne, r, hr, hst⟩)
    · exact .inl hsame
    · obtain ⟨r₁, hr₁, hg, -⟩ := h.known k hk
      rw [hr] at hr₁
      cases hr₁
      exact .inr ⟨hne, r, (hrow _ _ hg).1 hr, hst⟩

/-- a row keeps its goal and does not lose generations, and is not made active -/
theorem write (h : Serial g row ks) (hi : row i = some r) (hg : r'.goalId = r.goalId)
    (hgen : r.leaseGeneration ≤ r'.leaseGeneration) (hst : r'.status = .active → r.status = .active)
    (hrow : ∀ j, row' j = if i = j then some r' else row j) : Serial g row' ks where
  one {j j' s s'} hj hs hj' hs' := by
    have back : ∀ {j s}, row' j = some s → s.holds g → ∃ s₀, row j = some s₀ ∧ s₀.holds g := by
      intro j s hj hs
      rw [hrow] at hj
      by_cases hij : i = j
      · rw [if_pos hij] at hj
        cases hj
        subst hij
        rw [SupervisorGoalLease.holds_iff] at hs
        exact ⟨r, hi, SupervisorGoalLease.holds_iff.2 ⟨hg ▸ hs.1, hst hs.2⟩⟩
      · rw [if_neg hij] at hj
        exact ⟨s, hj, hs⟩
    obtain ⟨s₀, hj₀, hs₀⟩ := back hj hs
    obtain ⟨s₁, hj₁, hs₁⟩ := back hj' hs'
    exact h.one hj₀ hs₀ hj₁ hs₁
  known k hk := by
    obtain ⟨s, hs, hsg, hle⟩ := h.known k hk
    rw [hrow]
    by_cases hij : i = k.leaseId
    · rw [if_pos hij]
      rw [← hij, hi] at hs
      cases hs
      exact ⟨r', rfl, hg.trans hsg, Nat.le_trans hle hgen⟩
    · rw [if_neg hij]
      exact ⟨s, hs, hsg, hle⟩
  fenced := by
    refine h.fenced.imp ?_
    rintro k k' (hsame | ⟨hne, s, hs, hrel⟩)
    · exact .inl hsame
    · refine .inr ⟨hne, ?_⟩
      rw [hrow]
      by_cases hij : i = k.leaseId
      · rw [if_pos hij]
        rw [← hij, hi] at hs
        cases hs
        refine ⟨r', rfl, SupervisorLeaseStatus.eq_released fun hact => ?_⟩
        rw [hst hact] at hrel
        cases hrel
      · rw [if_neg hij]
        exact ⟨s, hs, hrel⟩

/-- a claim takes over the active row with a generation that no token of the row has -/
theorem snoc_takeOver (h : Serial g row ks) (hi : row i = some r) (hr : r.holds g)
    (hk : k.leaseId = i) (hgen : r.leaseGeneration < k.leaseGeneration)
    (hr' : r'.goalId = g ∧ r'.leaseGeneration = k.leaseGeneration)
    (hrow : ∀ j, row' j = if i = j then some r' else row j) : Serial g row' (ks ++ [k]) := by
  have hgoal := (SupervisorGoalLease.holds_iff.1 hr).1
  have hw : Serial g row' ks :=
    h.write hi (hr'.1.trans hgoal.symm) (by rw [hr'.2]; exact Nat.le_of_lt hgen)
      (fun _ => (SupervisorGoalLease.holds_iff.1 hr).2) hrow
  refine ⟨hw.one, fun x hx => ?_, ?_⟩
  · rw [List.mem_append, List.mem_singleton] at hx
    cases hx with
    | inl hx => exact hw.known x hx
    | inr hx =>
      subst hx
      exact ⟨r', by rw [hrow, if_pos hk.symm], hr'.1, hr'.2 ▸ Nat.le_refl _⟩
  · rw [List.pairwise_append]
    refine ⟨hw.fenced, List.pairwise_singleton _ _, fun x hx y hy => ?_⟩
    rw [List.mem_singleton] at hy
    subst hy
    obtain ⟨s, hs, hsg, hle⟩ := h.known x hx
    by_cases hxi : x.leaseId = i
    · -- the same row: the generation has grown
      rw [hxi, hi] at hs
      cases hs
      exact .inl ⟨hxi.trans hk.symm, Nat.lt_of_le_of_lt hle hgen⟩
    · -- another row of the goal is not active beside the `i`-th one
      refine .inr ⟨fun e => hxi (e.trans hk), s, ?_, ?_⟩
      · rw [hrow, if_neg (fun e => hxi e.symm)]
        exact hs
      · refine SupervisorLeaseStatus.eq_released fun hact => hxi ?_
        exact h.one hs (SupervisorGoalLease.holds_iff.2 ⟨hsg, hact⟩) hi hr

/-- a claim inserts a row, as no row of the goal is active -/
theorem snoc_insert (h : Serial g row ks) (hnew : row i = none)
    (hnone : ∀ j s, row j = some s → ¬ s.holds g) (hk : k.leaseId = i)
    (hr' : r'.goalId = g ∧ r'.leaseGeneration = k.leaseGeneration)
    (hrow : ∀ j, row' j = if i = j then some r' else row j) : Serial g row' (ks ++ [k]) where
  one {j j' s s'} hj hs hj' hs' := by
    have only : ∀ {j s}, row' j = some s → s.holds g → i = j := by
      intro j s hj hs
      by_contra hij
      rw [hrow, if_neg hij] at hj
      exact hnone j s hj hs
    exact (only hj hs).symm.trans (only hj' hs')
  known x hx := by
    rw [List.mem_append, List.mem_singleton] at hx
    rw [hrow]
    cases hx with
    | inl hx =>
      obtain ⟨s, hs, hsg, hle⟩ := h.known x hx
      have hne : i ≠ x.leaseId := fun e => by rw [← e, hnew] at hs; cases hs
      rw [if_neg hne]
      exact ⟨s, hs, hsg, hle⟩
    | inr hx =>
      subst hx
      rw [if_pos hk.symm]
      exact ⟨r', rfl, hr'.1, hr'.2 ▸ Nat.le_refl _⟩
  fenced := by
    have released : ∀ x ∈ ks, i ≠ x.leaseId ∧ ∃ s, row' x.leaseId = some s ∧
        s.status = .released := by
      intro x hx
      obtain ⟨s, hs, hsg, -⟩ := h.known x hx
      have hne : i ≠ x.leaseId := fun e => by rw [← e, hnew] at hs; cases hs
      refine ⟨hne, s, by rw [hrow, if_neg hne, hs], SupervisorLeaseStatus.eq_released fun hact => ?_⟩
      exact hnone _ s hs (SupervisorGoalLease.holds_iff.2 ⟨hsg, hact⟩)
    rw [List.pairwise_append]
    refine ⟨?_, List.pairwise_singleton _ _, fun x hx y hy => ?_⟩
    · refine List.Pairwise.imp_of_mem ?_ h.fenced
      rintro x y hx - (hsame | ⟨hne, -⟩)
      · exact .inl hsame
      · exact .inr ⟨hne, (released x hx).2⟩
    · rw [List.mem_singleton] at hy
      subst hy
      obtain ⟨hne, hrel⟩ := released x hx
      exact .inr ⟨fun e => hne (hk.symm.trans e.symm), hrel⟩

/-- a row that an earlier token of the goal names does not match it -/
theorem not_matches (h : Serial g row ks) (hks : [k, k'].Sublist ks) (hr : row k.leaseId = some r) :
    ¬ k.matchesRow r := by
  intro hm
  rw [LeaseToken.matchesRow_iff] at hm
  have hpair := h.fenced.sublist hks
  rw [List.pairwise_pair] at hpair
  rcases hpair with ⟨hid, hlt⟩ | ⟨-, s, hs, hrel⟩
  · obtain ⟨s, hs, -, hle⟩ := h.known k' (hks.subset (by simp))
    rw [← hid, hr] at hs
    cases hs
    omega
  · rw [hr] at hs
    cases hs
    rw [hm.2.2] at hrel
    cases hrel

end Serial

end LifeAI
