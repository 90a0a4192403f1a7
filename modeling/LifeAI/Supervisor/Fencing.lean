import LifeAI.Supervisor.Serial

/-!
# A goal has one holder, and a token that was fenced stays fenced

`LeaseInv` keeps the newest versions of the rows and the committed ones apart by what open
transactions hold: one transaction at a time has open writes in the rows of a goal, so that its end
either makes the newest versions of these rows the committed ones, or takes all of them back.

* `LeaseInv`  what holds after every list of steps;
* `LeaseInv.claim`, `LeaseInv.update`, `LeaseInv.commit`, `LeaseInv.rollback`   the steps;
* `supervisor_goal_lease_fencing`   the exclusion and the fencing.
-/

namespace LifeAI

open Versions

/-! ## what holds after every list of steps -/

namespace LeaseSys

/-- the tokens of the goal, in the order of their claims -/
def tokens (s : LeaseSys) (g : GoalId) : List LeaseToken :=
  (s.claims.filter (·.goalId = g)).map (·.token)

/-- those whose claims are committed -/
def durableTokens (s : LeaseSys) (g : GoalId) : List LeaseToken :=
  (s.claims.filter fun x => x.goalId = g ∧ x.tx = none).map (·.token)

end LeaseSys

structure LeaseInv (s : LeaseSys) : Prop where
  sameGoal : ∀ {i c p}, s.rows.committed i = some c → s.rows.pending i = some p →
    p.2.goalId = c.goalId
  /-- one transaction at a time has open writes in the rows of a goal -/
  holder : ∀ {i j p q}, s.rows.pending i = some p → s.rows.pending j = some q →
    p.2.goalId = q.2.goalId → p.1 = q.1
  /-- the active row of a goal with open writes is written by one of them -/
  held : ∀ {i j p r}, s.rows.pending j = some p → s.rows.top i = some r → r.holds p.2.goalId →
    ∃ q, s.rows.pending i = some q
  entry : ∀ x ∈ s.claims, ∀ n, x.tx = some n →
    ∃ r, s.rows.pending x.token.leaseId = some (n, r) ∧ r.goalId = x.goalId
  newest : ∀ g, Serial g s.rows.top (s.tokens g)
  durable : ∀ g, Serial g s.rows.committed (s.durableTokens g)

namespace LeaseInv

variable {s : LeaseSys} {t' : LeaseTable} {n : Nat} {i : LeaseId} {r : SupervisorGoalLease}

theorem empty : LeaseInv {} where
  sameGoal h := by cases h
  holder h := by cases h
  held h := by cases h
  entry _ h := by cases h
  newest _ := Serial.empty
  durable _ := Serial.empty

/-- a write of the `n`-th transaction, when no other one has open writes in the rows of the goal and
no other row of the goal is active afterwards -/
theorem wrote (h : LeaseInv s) (w : s.rows.Wrote t' n i r) (news : List LeaseClaim)
    (hnew : ∀ x ∈ news, x.tx = some n ∧ x.goalId = r.goalId ∧ x.token.leaseId = i)
    (hgoal : ∀ r₀, s.rows.top i = some r₀ → r₀.goalId = r.goalId)
    (hown : ∀ j p, s.rows.pending j = some p → p.2.goalId = r.goalId → p.1 = n)
    (honly : ∀ j r', t'.top j = some r' → r'.holds r.goalId → i = j)
    (hs : Serial r.goalId t'.top (LeaseSys.tokens ⟨t', s.claims ++ news⟩ r.goalId)) :
    LeaseInv ⟨t', s.claims ++ news⟩ where
  sameGoal {j c p} hc hp := by
    rw [w.committed] at hc
    by_cases hij : i = j
    · subst hij
      rw [w.pending_self] at hp
      cases hp
      cases hq : s.rows.pending i with
      | none =>
        rw [← Table.top_of_quiet hq] at hc
        exact (hgoal c hc).symm
      | some q => exact (hgoal q.2 (Table.top_of_pending hq)).symm.trans (h.sameGoal hc hq)
    · rw [w.pending_ne hij] at hp
      exact h.sameGoal hc hp
  holder {j j' p q} hp hq hpq := by
    by_cases hj : i = j
    · subst hj
      rw [w.pending_self] at hp
      cases hp
      by_cases hj' : i = j'
      · subst hj'
        rw [w.pending_self] at hq
        cases hq
        rfl
      · rw [w.pending_ne hj'] at hq
        exact (hown j' q hq hpq.symm).symm
    · rw [w.pending_ne hj] at hp
      by_cases hj' : i = j'
      · subst hj'
        rw [w.pending_self] at hq
        cases hq
        exact hown j p hp hpq
      · rw [w.pending_ne hj'] at hq
        exact h.holder hp hq hpq
  held {i' j p r'} hp ht hr' := by
    by_cases hg : p.2.goalId = r.goalId
    · rw [hg] at hr'
      have hi := honly i' r' ht hr'
      exact ⟨(n, r), hi ▸ w.pending_self⟩
    · have hj : i ≠ j := by
        rintro rfl
        rw [w.pending_self] at hp
        cases hp
        exact hg rfl
      have hi : i ≠ i' := by
        rintro rfl
        rw [w.top_self] at ht
        cases ht
        exact hg (SupervisorGoalLease.holds_iff.1 hr').1.symm
      rw [w.pending_ne hj] at hp
      rw [w.top_ne hi] at ht
      rw [w.pending_ne hi]
      exact h.held hp ht hr'
  entry x hx m hm := by
    rw [List.mem_append] at hx
    cases hx with
    | inl hx =>
      obtain ⟨r₁, hr₁, hg₁⟩ := h.entry x hx m hm
      by_cases hi : i = x.token.leaseId
      · rw [← hi] at hr₁
        have hgr := hgoal r₁ (Table.top_of_pending hr₁)
        have hmn : m = n := hown i _ hr₁ hgr
        rw [← hi, hmn]
        exact ⟨r, w.pending_self, hgr.symm.trans hg₁⟩
      · rw [w.pending_ne hi]
        exact ⟨r₁, hr₁, hg₁⟩
    | inr hx =>
      obtain ⟨htx, hg, hid⟩ := hnew x hx
      rw [hm] at htx
      cases htx
      rw [hid]
      exact ⟨r, w.pending_self, hg.symm⟩
  newest g := by
    by_cases hg : r.goalId = g
    · subst hg
      exact hs
    · have hnews : news.filter (·.goalId = g) = [] := by
        rw [List.filter_eq_nil_iff]
        intro x hx
        rw [decide_eq_true_eq, (hnew x hx).2.1]
        exact hg
      have htok : LeaseSys.tokens ⟨t', s.claims ++ news⟩ g = s.tokens g := by
        unfold LeaseSys.tokens
        rw [List.filter_append, hnews, List.append_nil]
      rw [htok]
      refine (h.newest g).congr fun j r' hr' => ?_
      by_cases hij : i = j
      · subst hij
        rw [w.top_self]
        constructor
        · intro ht
          exact absurd ((hgoal r' ht).symm.trans hr') hg
        · intro ht
          cases ht
          exact absurd hr' hg
      · rw [w.top_ne hij]
  durable g := by
    have hnews : news.filter (fun x => decide (x.goalId = g ∧ x.tx = none)) = [] := by
      rw [List.filter_eq_nil_iff]
      intro x hx
      rw [decide_eq_true_eq, (hnew x hx).1]
      rintro ⟨-, htx⟩
      cases htx
    have htok : LeaseSys.durableTokens ⟨t', s.claims ++ news⟩ g = s.durableTokens g := by
      unfold LeaseSys.durableTokens
      rw [List.filter_append, hnews, List.append_nil]
    rw [htok]
    refine (h.durable g).congr fun j r' _ => ?_
    rw [w.committed]

/-- the rows of a goal without open writes of others have the newest version in a transaction -/
theorem free_of_goalHeld {t : LeaseTable} {g : GoalId} (hfree : goalHeld t n g = false) {j : LeaseId}
    {r' : SupervisorGoalLease} (ht : t.top j = some r') (hg : r'.goalId = g) :
    t.heldByOther n j = false := by
  refine goalHeld_eq_false hfree (Table.lt_of_top ht) (.inr ?_)
  rw [ht]
  exact decide_eq_true hg

/-- a claim -/
theorem claim (h : LeaseInv s) {now : Time} {c : LeaseRequest} {k : LeaseToken}
    (hc : claimSupervisorGoalLease s.rows n now c = .claimed k t') :
    LeaseInv ⟨t', s.claims ++ [⟨some n, c.goalId, k⟩]⟩ := by
  obtain ⟨hfree, hcase⟩ := claim_claimed hc
  have hown : ∀ j p, s.rows.pending j = some p → p.2.goalId = c.goalId → p.1 = n := by
    intro j p hp hg
    exact Table.pending_eq_of_free hp (free_of_goalHeld hfree (Table.top_of_pending hp) hg)
  have htok : LeaseSys.tokens ⟨t', s.claims ++ [⟨some n, c.goalId, k⟩]⟩ c.goalId =
      s.tokens c.goalId ++ [k] := by
    simp [LeaseSys.tokens, List.filter_append]
  rcases hcase with ⟨i, r, hr, hh, -, hk, rfl⟩ | ⟨hnone, hk, rfl⟩
  · have hrg := (SupervisorGoalLease.holds_iff.1 hh).1
    have w := Table.wrote_write (n := n) (r := c.takeOver now r) (Table.lt_of_top hr)
    have hg : (c.takeOver now r).goalId = c.goalId := hrg
    refine h.wrote w _ ?_ ?_ ?_ ?_ ?_
    · intro x hx
      rw [List.mem_singleton] at hx
      subst hx
      exact ⟨rfl, hg.symm, by rw [hk]⟩
    · intro r₀ hr₀
      rw [hr] at hr₀
      cases hr₀
      rfl
    · intro j p hp hpg
      exact hown j p hp (hpg.trans hg)
    · intro j r' ht hr'
      by_contra hij
      rw [w.top_ne hij] at ht
      rw [hg] at hr'
      exact hij ((h.newest c.goalId).one hr hh ht hr')
    · rw [hg, htok]
      refine (h.newest c.goalId).snoc_takeOver hr hh (by rw [hk]) ?_ ⟨hg, by rw [hk]; rfl⟩ w.top
      rw [hk]
      exact Nat.lt_succ_self _
  · have w := Table.wrote_insert (t := s.rows) (n := n) (r := c.row now)
    have hnew : s.rows.top s.rows.length = none := by
      cases ht : s.rows.top s.rows.length with
      | none => rfl
      | some r' => exact absurd (Table.lt_of_top ht) (Nat.lt_irrefl _)
    have hnone' : ∀ j r', s.rows.top j = some r' → ¬ r'.holds c.goalId := by
      intro j r' ht hr'
      have hj := free_of_goalHeld hfree ht (SupervisorGoalLease.holds_iff.1 hr').1
      exact hnone j r' ((Table.view_eq_top hj).trans ht) hr'
    refine h.wrote w _ ?_ ?_ hown ?_ ?_
    · intro x hx
      rw [List.mem_singleton] at hx
      subst hx
      exact ⟨rfl, rfl, by rw [hk]⟩
    · intro r₀ hr₀
      rw [hnew] at hr₀
      cases hr₀
    · intro j r' ht hr'
      by_contra hij
      rw [w.top_ne hij] at ht
      exact hnone' j r' ht hr'
    · rw [show (c.row now).goalId = c.goalId from rfl, htok]
      exact (h.newest c.goalId).snoc_insert hnew hnone' (by rw [hk]) ⟨rfl, by rw [hk]; rfl⟩ w.top

/-- a renewal or a release -/
theorem update (h : LeaseInv s) {k : LeaseToken} {set : SupervisorGoalLease → SupervisorGoalLease}
    (hg : ∀ r, (set r).goalId = r.goalId)
    (hgen : ∀ r, (set r).leaseGeneration = r.leaseGeneration) :
    LeaseInv (s.update (fencedUpdate s.rows n k set)) := by
  cases hu : fencedUpdate s.rows n k set with
  | waits => exact h
  | lost => exact h
  | updated t' =>
    obtain ⟨hfree, r, hr, hm, rfl⟩ := fencedUpdate_updated.1 hu
    have hact := (LeaseToken.matchesRow_iff.1 hm).2.2
    have hh : r.holds (set r).goalId := SupervisorGoalLease.holds_iff.2 ⟨(hg r).symm, hact⟩
    have w := Table.wrote_write (n := n) (r := set r) (Table.lt_of_top hr)
    have hinv : LeaseInv ⟨s.rows.write n k.leaseId (set r), s.claims ++ []⟩ := by
      refine h.wrote w [] ?_ ?_ ?_ ?_ ?_
      · intro x hx
        cases hx
      · intro r₀ hr₀
        rw [hr] at hr₀
        cases hr₀
        exact (hg r).symm
      · -- the active row of the goal is free, and it is open if any row of the goal is
        intro j p hp hpg
        obtain ⟨q, hq⟩ := h.held hp hr (by rw [hpg]; exact hh)
        have hqr : q.2 = r := Option.some.inj ((Table.top_of_pending hq).symm.trans hr)
        have hpq := h.holder hp hq (by rw [hqr, hpg, hg])
        exact hpq.trans (Table.pending_eq_of_free hq hfree)
      · intro j r' ht hr'
        by_contra hij
        rw [w.top_ne hij] at ht
        exact hij ((h.newest _).one hr hh ht hr')
      · rw [List.append_nil]
        exact (h.newest _).write hr (hg r) (Nat.le_of_eq (hgen r).symm) (fun _ => hact) w.top
    rw [List.append_nil] at hinv
    exact hinv

/-! The end of a transaction: what it has written in the rows of a goal is either all that is open
there, or nothing. -/

theorem commit_token (x : LeaseClaim) : (x.commit n).token = x.token := by
  unfold LeaseClaim.commit
  split <;> rfl

theorem commit_goalId (x : LeaseClaim) : (x.commit n).goalId = x.goalId := by
  unfold LeaseClaim.commit
  split <;> rfl

theorem commit_tx (x : LeaseClaim) : (x.commit n).tx = if x.tx = some n then none else x.tx := by
  unfold LeaseClaim.commit
  split <;> rfl

theorem any_pending {t : LeaseTable} {j : LeaseId} :
    (t.pending j).any (·.1 = n) = true ↔ ∃ r, t.pending j = some (n, r) := by
  cases t.pending j with
  | none => simp
  | some p =>
    obtain ⟨m, r⟩ := p
    simp

/-- where the `n`-th transaction has written a row of the goal, the other rows of it are quiet -/
theorem top_iff_of_open (h : LeaseInv s) {j : LeaseId} (hj : s.rows.pending j = some (n, r))
    {r' : SupervisorGoalLease} (hr' : r'.goalId = r.goalId)
    (hi : ¬ (s.rows.pending i).any (·.1 = n) = true) :
    s.rows.top i = some r' ↔ s.rows.committed i = some r' := by
  cases hp : s.rows.pending i with
  | none => rw [Table.top_of_quiet hp]
  | some p =>
    have hne : p.2.goalId ≠ r.goalId := by
      intro hg
      have hpn := h.holder hp hj hg
      exact hi (any_pending.2 ⟨p.2, by rw [hp, ← show p.1 = n from hpn]⟩)
    rw [Table.top_of_pending hp]
    constructor
    · intro ht
      cases ht
      exact absurd hr' hne
    · intro hc
      exact absurd ((h.sameGoal hc hp).trans hr') hne

/-- where it has not, its open writes are in rows of other goals -/
theorem top_iff_of_not_open (h : LeaseInv s) {g : GoalId}
    (hno : ∀ j r, s.rows.pending j = some (n, r) → r.goalId ≠ g)
    {r' : SupervisorGoalLease} (hr' : r'.goalId = g)
    (hi : (s.rows.pending i).any (·.1 = n) = true) :
    s.rows.top i = some r' ↔ s.rows.committed i = some r' := by
  obtain ⟨r, hp⟩ := any_pending.1 hi
  have hne := hno i r hp
  rw [Table.top_of_pending hp]
  constructor
  · intro ht
    cases ht
    exact absurd hr' hne
  · intro hc
    exact absurd ((h.sameGoal hc hp).trans hr') hne

/-- every claim of the goal is committed or of the `n`-th transaction, or none is of it -/
theorem claims_of_open (h : LeaseInv s) {j : LeaseId} (hj : s.rows.pending j = some (n, r))
    {x : LeaseClaim} (hx : x ∈ s.claims) (hg : x.goalId = r.goalId) :
    x.tx = none ∨ x.tx = some n := by
  cases htx : x.tx with
  | none => exact .inl rfl
  | some m =>
    obtain ⟨r₁, hr₁, hg₁⟩ := h.entry x hx m htx
    have hmn : m = n := h.holder hr₁ hj (hg₁.trans hg)
    exact .inr (by rw [hmn])

theorem claims_of_not_open (h : LeaseInv s) {g : GoalId}
    (hno : ∀ j r, s.rows.pending j = some (n, r) → r.goalId ≠ g)
    {x : LeaseClaim} (hx : x ∈ s.claims) (hg : x.goalId = g) : x.tx ≠ some n := by
  intro htx
  obtain ⟨r₁, hr₁, hg₁⟩ := h.entry x hx n htx
  exact hno _ _ hr₁ (hg₁.trans hg)

/-- what is still open after the end of the `n`-th transaction is of another one -/
theorem pending_end {t t' : LeaseTable}
    (ht : ∀ i, t'.pending i = if (t.pending i).any (·.1 = n) then none else t.pending i)
    {i : LeaseId} {p : Nat × SupervisorGoalLease} :
    t'.pending i = some p ↔ t.pending i = some p ∧ p.1 ≠ n := by
  rw [ht]
  obtain ⟨m, r⟩ := p
  cases hq : t.pending i with
  | none => simp
  | some q =>
    obtain ⟨m', r'⟩ := q
    by_cases hm : m' = n
    · subst hm
      simp only [Option.any_some, decide_true, if_true, reduceCtorEq, Option.some.injEq,
        Prod.mk.injEq, ne_eq, false_iff, not_and, not_not]
      rintro ⟨e, -⟩
      exact e.symm
    · simp only [Option.any_some, hm, decide_false, Bool.false_eq_true, if_false, Option.some.injEq,
        Prod.mk.injEq, ne_eq, iff_self_and]
      rintro ⟨rfl, -⟩
      exact hm

theorem commit (h : LeaseInv s) (n : Nat) :
    LeaseInv ⟨s.rows.commit n, s.claims.map (LeaseClaim.commit n)⟩ where
  sameGoal {i c p} hc hp := by
    obtain ⟨hp, hpn⟩ := (pending_end fun _ => Table.pending_commit).1 hp
    have hi : ¬ (s.rows.pending i).any (·.1 = n) = true := by
      rw [hp]
      simpa using hpn
    rw [Table.committed_commit, if_neg hi] at hc
    exact h.sameGoal hc hp
  holder hp hq hpq :=
    h.holder ((pending_end fun _ => Table.pending_commit).1 hp).1
      ((pending_end fun _ => Table.pending_commit).1 hq).1 hpq
  held {i j p r} hp ht hr := by
    obtain ⟨hp, hpn⟩ := (pending_end fun _ => Table.pending_commit).1 hp
    rw [Table.top_commit] at ht
    obtain ⟨q, hq⟩ := h.held hp ht hr
    have hqr : q.2 = r := Option.some.inj ((Table.top_of_pending hq).symm.trans ht)
    have hpq := h.holder hp hq (by rw [hqr, (SupervisorGoalLease.holds_iff.1 hr).1])
    exact ⟨q, (pending_end fun _ => Table.pending_commit).2 ⟨hq, hpq ▸ hpn⟩⟩
  entry x hx m hm := by
    obtain ⟨y, hy, rfl⟩ := List.mem_map.1 hx
    rw [commit_tx] at hm
    split at hm
    · cases hm
    next hyn =>
    obtain ⟨r, hr, hg⟩ := h.entry y hy m hm
    rw [commit_token, commit_goalId]
    refine ⟨r, (pending_end fun _ => Table.pending_commit).2 ⟨hr, ?_⟩, hg⟩
    rintro rfl
    exact hyn hm
  newest g := by
    have htok : LeaseSys.tokens ⟨s.rows.commit n, s.claims.map (LeaseClaim.commit n)⟩ g =
        s.tokens g := by
      simp only [LeaseSys.tokens, List.filter_map, List.map_map, Function.comp_def, commit_token,
        commit_goalId]
    rw [htok]
    refine (h.newest g).congr fun i r _ => ?_
    rw [Table.top_commit]
  durable g := by
    have hdur : LeaseSys.durableTokens ⟨s.rows.commit n, s.claims.map (LeaseClaim.commit n)⟩ g =
        (s.claims.filter fun x => x.goalId = g ∧ (x.tx = none ∨ x.tx = some n)).map (·.token) := by
      simp only [LeaseSys.durableTokens, List.filter_map, List.map_map, Function.comp_def,
        commit_token, commit_goalId, commit_tx]
      congr 1
      refine List.filter_congr fun x _ => ?_
      by_cases hx : x.tx = some n <;> simp [hx]
    rw [hdur]
    by_cases hopen : ∃ j r, s.rows.pending j = some (n, r) ∧ r.goalId = g
    · obtain ⟨j, r, hj, rfl⟩ := hopen
      have htok : s.tokens r.goalId = (s.claims.filter fun x =>
          x.goalId = r.goalId ∧ (x.tx = none ∨ x.tx = some n)).map (·.token) := by
        unfold LeaseSys.tokens
        congr 1
        refine List.filter_congr fun x hx => ?_
        rw [decide_eq_decide]
        exact ⟨fun hg => ⟨hg, h.claims_of_open hj hx hg⟩, And.left⟩
      rw [← htok]
      refine (h.newest r.goalId).congr fun i r' hr' => ?_
      rw [Table.committed_commit]
      split
      · rfl
      · next hi => exact h.top_iff_of_open hj hr' hi
    · have hno : ∀ j r, s.rows.pending j = some (n, r) → r.goalId ≠ g :=
        fun j r hj hg => hopen ⟨j, r, hj, hg⟩
      have htok : s.durableTokens g = (s.claims.filter fun x =>
          x.goalId = g ∧ (x.tx = none ∨ x.tx = some n)).map (·.token) := by
        unfold LeaseSys.durableTokens
        congr 1
        refine List.filter_congr fun x hx => ?_
        rw [decide_eq_decide]
        refine and_congr_right fun hg => ?_
        rw [or_iff_left (h.claims_of_not_open hno hx hg)]
      rw [← htok]
      refine (h.durable g).congr fun i r' hr' => ?_
      rw [Table.committed_commit]
      split
      · next hi => exact (h.top_iff_of_not_open hno hr' hi).symm
      · rfl

theorem rollback (h : LeaseInv s) (n : Nat) :
    LeaseInv ⟨s.rows.rollback n, s.claims.filter (·.tx ≠ some n)⟩ where
  sameGoal hc hp := by
    rw [Table.committed_rollback] at hc
    exact h.sameGoal hc ((pending_end fun _ => Table.pending_rollback).1 hp).1
  holder hp hq hpq :=
    h.holder ((pending_end fun _ => Table.pending_rollback).1 hp).1
      ((pending_end fun _ => Table.pending_rollback).1 hq).1 hpq
  held {i j p r} hp ht hr := by
    obtain ⟨hp, hpn⟩ := (pending_end fun _ => Table.pending_rollback).1 hp
    have hg := (SupervisorGoalLease.holds_iff.1 hr).1
    have hi : ¬ (s.rows.pending i).any (·.1 = n) = true := by
      intro hi
      obtain ⟨r', hr'⟩ := any_pending.1 hi
      rw [Table.top_rollback, if_pos hi] at ht
      exact hpn (h.holder hp hr' (hg.symm.trans (h.sameGoal ht hr').symm))
    rw [Table.top_rollback, if_neg hi] at ht
    obtain ⟨q, hq⟩ := h.held hp ht hr
    refine ⟨q, (pending_end fun _ => Table.pending_rollback).2 ⟨hq, fun hqn => ?_⟩⟩
    exact hi (any_pending.2 ⟨q.2, by rw [hq, ← hqn]⟩)
  entry x hx m hm := by
    rw [List.mem_filter, decide_eq_true_eq] at hx
    obtain ⟨r, hr, hg⟩ := h.entry x hx.1 m hm
    refine ⟨r, (pending_end fun _ => Table.pending_rollback).2 ⟨hr, ?_⟩, hg⟩
    rintro rfl
    exact hx.2 hm
  newest g := by
    have hfil : LeaseSys.tokens ⟨s.rows.rollback n, s.claims.filter (·.tx ≠ some n)⟩ g =
        (s.claims.filter fun x => x.goalId = g ∧ x.tx ≠ some n).map (·.token) := by
      unfold LeaseSys.tokens
      rw [List.filter_filter]
      simp only [Bool.decide_and]
    rw [hfil]
    by_cases hopen : ∃ j r, s.rows.pending j = some (n, r) ∧ r.goalId = g
    · obtain ⟨j, r, hj, rfl⟩ := hopen
      have htok : s.durableTokens r.goalId = (s.claims.filter fun x =>
          x.goalId = r.goalId ∧ x.tx ≠ some n).map (·.token) := by
        unfold LeaseSys.durableTokens
        congr 1
        refine List.filter_congr fun x hx => ?_
        rw [decide_eq_decide]
        refine and_congr_right fun hg => ⟨fun e => by simp [e], fun hn => ?_⟩
        exact (h.claims_of_open hj hx hg).resolve_right hn
      rw [← htok]
      refine (h.durable r.goalId).congr fun i r' hr' => ?_
      rw [Table.top_rollback]
      split
      · rfl
      · next hi => exact (h.top_iff_of_open hj hr' hi).symm
    · have hno : ∀ j r, s.rows.pending j = some (n, r) → r.goalId ≠ g :=
        fun j r hj hg => hopen ⟨j, r, hj, hg⟩
      have htok : s.tokens g = (s.claims.filter fun x =>
          x.goalId = g ∧ x.tx ≠ some n).map (·.token) := by
        unfold LeaseSys.tokens
        congr 1
        refine List.filter_congr fun x hx => ?_
        rw [decide_eq_decide]
        exact ⟨fun hg => ⟨hg, h.claims_of_not_open hno hx hg⟩, And.left⟩
      rw [← htok]
      refine (h.newest g).congr fun i r' hr' => ?_
      rw [Table.top_rollback]
      split
      · next hi => exact h.top_iff_of_not_open hno hr' hi
      · rfl
  durable g := by
    have htok : LeaseSys.durableTokens ⟨s.rows.rollback n, s.claims.filter (·.tx ≠ some n)⟩ g =
        s.durableTokens g := by
      unfold LeaseSys.durableTokens
      rw [List.filter_filter]
      congr 1
      refine List.filter_congr fun x _ => ?_
      rw [← Bool.decide_and, decide_eq_decide]
      refine and_iff_left_of_imp fun hx => ?_
      simp [hx.2]
    rw [htok]
    refine (h.durable g).congr fun i r _ => ?_
    rw [Table.committed_rollback]

theorem step (h : LeaseInv s) (o : LeaseStep) : LeaseInv (o.step s) := by
  cases o with
  | claim n now c =>
    cases hc : claimSupervisorGoalLease s.rows n now c with
    | waits => simpa only [LeaseStep.step, hc] using h
    | refused => simpa only [LeaseStep.step, hc] using h
    | claimed k t => simpa only [LeaseStep.step, hc] using h.claim hc
  | renew n now k secs | release n now k => exact h.update (fun _ => rfl) (fun _ => rfl)
  | commit n => exact h.commit n
  | rollback n => exact h.rollback n

theorem run (os : List LeaseStep) : LeaseInv (leaseRun os) :=
  Run.inv_all (I := LeaseInv) (fun _ o h => h.step o) .empty os

/-- the token of a claim that a later one of the same goal follows is refused -/
theorem not_updated (h : LeaseInv s) {x y : LeaseClaim} (hxy : [x, y].Sublist s.claims)
    (hg : x.goalId = y.goalId) (n : Nat) (set : SupervisorGoalLease → SupervisorGoalLease)
    (t : LeaseTable) : fencedUpdate s.rows n x.token set ≠ .updated t := by
  intro hu
  obtain ⟨-, r, hr, hm, -⟩ := fencedUpdate_updated.1 hu
  have htok : [x.token, y.token].Sublist (s.tokens x.goalId) := by
    have hsub := (hxy.filter (·.goalId = x.goalId)).map (·.token)
    simpa [LeaseSys.tokens, hg] using hsub
  exact (h.newest x.goalId).not_matches htok hr hm

end LeaseInv

/-! ## exclusion and fencing -/

namespace LeaseSys

/-- one row of the goal at most is active -/
def OneActive (row : LeaseId → Option SupervisorGoalLease) : Prop :=
  ∀ g i j r r', row i = some r → r.holds g → row j = some r' → r'.holds g → i = j

/-- neither `renew` nor `release` goes through with the token, in any transaction at any time -/
def Fenced (s : LeaseSys) (k : LeaseToken) : Prop :=
  ∀ n now leaseSeconds t, renewSupervisorGoalLease s.rows n now k leaseSeconds ≠ .updated t ∧
    releaseSupervisorGoalLease s.rows n now k ≠ .updated t

end LeaseSys

/-- committed claims stay, in their order -/
theorem LeaseStep.sublist_claims {s : LeaseSys} {xs : List LeaseClaim}
    (hxs : ∀ x ∈ xs, x.tx = none) (h : xs.Sublist s.claims) (o : LeaseStep) :
    xs.Sublist (o.step s).claims := by
  have hupd : ∀ a, (s.update a).claims = s.claims := by
    intro a
    cases a <;> rfl
  cases o with
  | claim n now c =>
    cases hc : claimSupervisorGoalLease s.rows n now c with
    | waits => simpa only [LeaseStep.step, hc] using h
    | refused => simpa only [LeaseStep.step, hc] using h
    | claimed k t =>
      simp only [LeaseStep.step, hc]
      exact h.trans (List.sublist_append_left _ _)
  | renew n now k secs => exact (hupd _).symm ▸ h
  | release n now k => exact (hupd _).symm ▸ h
  | commit n =>
    have hmap : xs.map (LeaseClaim.commit n) = xs := by
      rw [List.map_congr_left (g := id), List.map_id]
      intro x hx
      simp [LeaseClaim.commit, hxs x hx]
    rw [← hmap]
    exact h.map _
  | rollback n =>
    have hfil : xs.filter (·.tx ≠ some n) = xs := by
      rw [List.filter_eq_self]
      intro x hx
      simp [hxs x hx]
    rw [← hfil]
    exact h.filter _

/-- **Exclusion and fencing** -/
theorem supervisor_goal_lease_fencing (os : List LeaseStep) :
    LeaseSys.OneActive (leaseRun os).rows.committed ∧
    (∀ n, LeaseSys.OneActive ((leaseRun os).rows.view n)) ∧
    (∀ n now c k t, claimSupervisorGoalLease (leaseRun os).rows n now c = .claimed k t →
      ∀ i r, (leaseRun os).rows.view n i = some r → r.holds c.goalId → r.expiresAt < now) ∧
    (∀ x y, [x, y].Sublist (leaseRun os).claims → x.goalId = y.goalId →
      (leaseRun os).Fenced x.token) ∧
    (∀ x y, [x, y].Sublist (leaseRun os).claims → x.goalId = y.goalId →
      x.tx = none → y.tx = none → ∀ os', (leaseRun (os ++ os')).Fenced x.token) := by
  have h := LeaseInv.run os
  have fenced : ∀ {s : LeaseSys}, LeaseInv s → ∀ x y, [x, y].Sublist s.claims →
      x.goalId = y.goalId → s.Fenced x.token := by
    intro s hs x y hxy hg n now secs t
    exact ⟨hs.not_updated hxy hg n _ t, hs.not_updated hxy hg n _ t⟩
  refine ⟨fun g i j r r' hi hr hj hr' => (h.durable g).one hi hr hj hr', ?_, ?_, fenced h, ?_⟩
  · intro n g i j r r' hi hr hj hr'
    rw [Table.view_eq_committed_commit] at hi hj
    exact ((h.commit n).durable g).one hi hr hj hr'
  · intro n now c k t hc i r hr hh
    obtain ⟨hfree, ⟨j, r', hr', hh', hexp, -⟩ | ⟨hnone, -⟩⟩ := claim_claimed hc
    · have hg := (SupervisorGoalLease.holds_iff.1 hh).1
      have hi : (leaseRun os).rows.heldByOther n i = false := by
        refine goalHeld_eq_false hfree (Table.lt_of_view hr) (.inl ?_)
        rw [hr]
        exact decide_eq_true hg
      rw [Table.view_eq_top hi] at hr
      have hij := (h.newest c.goalId).one hr hh hr' hh'
      rw [hij, hr'] at hr
      cases hr
      exact hexp
    · exact absurd hh (hnone i r hr)
  · intro x y hxy hg hx hy os'
    have hcomm : ∀ z ∈ [x, y], z.tx = none := by
      intro z hz
      rw [List.mem_pair] at hz
      rcases hz with rfl | rfl
      · exact hx
      · exact hy
    have hsub : [x, y].Sublist (leaseRun (os ++ os')).claims := by
      unfold leaseRun at hxy ⊢
      rw [Run.run_append]
      exact Run.inv_all (I := fun s : LeaseSys => [x, y].Sublist s.claims)
        (fun _ o h => o.sublist_claims hcomm h) hxy os'
    exact fenced (LeaseInv.run (os ++ os')) x y hsub hg

end LifeAI
