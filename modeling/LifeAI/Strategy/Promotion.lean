import LifeAI.Strategy.Steps

/-!
# The promotion of a candidate

The rule is written twice: `promotion_summary` counts in a loop, the trigger of migration 0044
counts the rows of a join.

* `Newest`     the assessment that the others of its kind do not come after;
* `Supported`  the evidence that both ask for;
* `foldl_add`  what the loop counts;
* `promotionRows_eq`   the rows of the join;
* `gates_agree`   **the service and the trigger accept the same candidates, those that are
                  supported, and no call approves another one**.
-/

set_option linter.unusedSectionVars false

namespace LifeAI.Strategy

open Synthesis (owned_ok)

variable {Doc : Type} [DecidableEq Doc]

/-! ## the newest row -/

/-- of the rows with `p`, one that none comes after -/
structure Newest {α : Type} (stamp : α → ℕ × ℕ) (p : α → Prop) (rows : List α) (a : α) : Prop where
  mem : a ∈ rows
  holds : p a
  newest : ∀ b ∈ rows, p b → Newer (stamp a) (stamp b)

theorem Newer.trans {a b c : ℕ × ℕ} (h : Newer a b) (h' : Newer b c) : Newer a c := by
  unfold Newer at *
  omega

theorem Newer.total (a b : ℕ × ℕ) : Newer a b ∨ Newer b a := by
  unfold Newer
  omega

theorem Newer.antisymm {a b : ℕ × ℕ} (h : Newer a b) (h' : Newer b a) : a = b := by
  unfold Newer at *
  apply Prod.ext
  · omega
  · omega

section
variable {α : Type} {stamp : α → ℕ × ℕ} {p : α → Prop} [DecidablePred p] {rows : List α} {a : α}

theorem latest_eq_none : latest stamp rows = none ↔ rows = [] := by
  unfold latest
  rw [List.head?_eq_none_iff, ← List.length_eq_zero_iff, List.length_insertionSort,
    List.length_eq_zero_iff]

theorem newest_of_latest (h : latest stamp (rows.filter fun b => p b) = some a) :
    Newest stamp p rows a := by
  have htotal : Std.Total fun a b : α => Newer (stamp a) (stamp b) :=
    ⟨fun a b => Newer.total _ _⟩
  have htrans : IsTrans α fun a b => Newer (stamp a) (stamp b) := ⟨fun a b c => Newer.trans⟩
  have hsorted := List.pairwise_insertionSort (fun a b => Newer (stamp a) (stamp b))
    (rows.filter fun b => p b)
  have hmem : ∀ b, b ∈ (rows.filter fun b => p b).insertionSort
      (fun a b => Newer (stamp a) (stamp b)) ↔ b ∈ rows ∧ p b := by
    intro b
    rw [List.mem_insertionSort, List.mem_filter, decide_eq_true_eq]
  unfold latest at h
  obtain ⟨rest, hrest⟩ := List.head?_eq_some_iff.1 h
  rw [hrest] at hsorted hmem
  obtain ⟨ha, hp⟩ := (hmem a).1 List.mem_cons_self
  refine ⟨ha, hp, fun b hb hpb => ?_⟩
  rcases List.mem_cons.1 ((hmem b).2 ⟨hb, hpb⟩) with rfl | hlater
  · exact (Newer.total _ _).elim id id
  · exact (List.pairwise_cons.1 hsorted).1 b hlater

/-- where the stamps differ, the newest row comes first -/
theorem latest_of_newest (hinj : ∀ a ∈ rows, ∀ b ∈ rows, stamp a = stamp b → a = b)
    (h : Newest stamp p rows a) : latest stamp (rows.filter fun b => p b) = some a := by
  cases hl : latest stamp (rows.filter fun b => p b) with
  | none =>
    have hnil := latest_eq_none.1 hl
    have ha : a ∈ rows.filter fun b => p b := by
      rw [List.mem_filter, decide_eq_true_eq]
      exact ⟨h.mem, h.holds⟩
    rw [hnil] at ha
    exact absurd ha List.not_mem_nil
  | some b =>
    have hb := newest_of_latest hl
    have hstamp : stamp b = stamp a :=
      Newer.antisymm (hb.newest a h.mem h.holds) (h.newest b hb.mem hb.holds)
    rw [hinj b hb.mem a h.mem hstamp]

end

/-! ## the evidence -/

namespace Tables

variable (s : Tables Doc) (ownerId : OwnerId)

/-- comparable or partially comparable by its latest assessment -/
def Comparable (k : ComparisonId) : Prop :=
  ∃ a, Newest (fun a : ComparabilityAssessment Doc => (a.createdAt, a.id))
    (fun a => a.ownerId = ownerId ∧ a.comparisonId = k) s.comparabilities a ∧
      (a.status = .comparable ∨ a.status = .partiallyComparable)

/-- the latest assessment of the challenger is a pass, without unresolved regression or scope
violation -/
def Passes (k : ComparisonId) : Prop :=
  ∃ q, Newest (fun q : QualityAssessment => (q.createdAt, q.id))
    (fun q => q.ownerId = ownerId ∧ q.comparisonId = k ∧ q.subject = .challenger) s.qualities q ∧
      q.state = .qualityPass ∧ q.unresolvedRegression = false ∧ q.scopeViolation = false

/-- the comparison is linked to the candidate -/
def LinkedTo (id : CandidateId) (k : ComparisonId) : Prop :=
  ∃ l ∈ s.promotionLinks, l.ownerId = ownerId ∧ l.parentId = id ∧ l.comparisonId = k

end Tables

/-- enough linked comparisons are comparable, and every one of these has passed -/
structure Supported (s : Tables Doc) (id : CandidateId) (c : Candidate Doc) : Prop where
  enough : ∃ ks : List ComparisonId, ks.Nodup ∧ c.minimumValidComparisons.getD 2 ≤ ks.length ∧
    ∀ k ∈ ks, s.LinkedTo c.ownerId id k ∧ s.Comparable c.ownerId k
  passes : ∀ k, s.LinkedTo c.ownerId id k → s.Comparable c.ownerId k → s.Passes c.ownerId k

/-- the trigger accepts the approval -/
def Accepts (s : Tables Doc) (id : CandidateId) (c : Candidate Doc) : Prop :=
  candidateGuard s id c { c with state := .approved } = none

/-- the service's own check of an approval passes -/
def Promotable (s : Tables Doc) (id : CandidateId) (c : Candidate Doc) : Prop :=
  ∃ summary, promotionSummary s c.ownerId id = .ok summary ∧ summary.promotable = true

/-- the gates agree on a candidate under review -/
def GatesAgree (s : Tables Doc) : Prop :=
  ∀ (id : CandidateId) (c : Candidate Doc), s.candidates[id]? = some c → c.state = .underReview →
    (Promotable s id c ↔ Accepts s id c) ∧ (Accepts s id c ↔ Supported s id c)

/-- what the constraints of the tables say -/
structure Lawful (s : Tables Doc) : Prop where
  comparabilityIds : (s.comparabilities.map (·.id)).Nodup
  qualityIds : (s.qualities.map (·.id)).Nodup
  pairs : s.promotionLinks.Pairwise fun l l' =>
    ¬ (l.ownerId = l'.ownerId ∧ l.parentId = l'.parentId ∧ l.comparisonId = l'.comparisonId)
  minimum : ∀ c ∈ s.candidates, ∀ n, c.minimumValidComparisons = some n → 0 < n

variable {s : Tables Doc} {ownerId : OwnerId} {id : CandidateId} {c : Candidate Doc}

/-- rows with different ids have different stamps -/
theorem stamps_inj {α : Type} {createdAt ids : α → ℕ} {rows : List α} (h : (rows.map ids).Nodup) :
    ∀ a ∈ rows, ∀ b ∈ rows, (createdAt a, ids a) = (createdAt b, ids b) → a = b := by
  intro a ha b hb heq
  exact List.inj_on_of_nodup_map h ha hb (Prod.mk.inj heq).2

/-- the link counts as valid -/
def counted (s : Tables Doc) (ownerId : OwnerId) (l : Link) : Bool :=
  (s.latestComparability ownerId l.comparisonId).any (·.valid)

theorem counted_iff (h : Lawful s) {l : Link} :
    counted s ownerId l = true ↔ s.Comparable ownerId l.comparisonId := by
  unfold counted Tables.Comparable Tables.latestComparability
  constructor
  · intro hany
    obtain ⟨a, ha, hvalid⟩ := (Option.any_eq_true _ _).1 hany
    exact ⟨a, newest_of_latest ha, of_decide_eq_true hvalid⟩
  · intro hnewest
    obtain ⟨a, ha, hvalid⟩ := hnewest
    rw [latest_of_newest (stamps_inj h.comparabilityIds) ha]
    exact decide_eq_true hvalid

theorem passing_iff (h : Lawful s) {l : Link} :
    passing (s.latestQuality ownerId l.comparisonId) = true ↔ s.Passes ownerId l.comparisonId := by
  unfold passing Tables.Passes Tables.latestQuality
  constructor
  · intro hany
    obtain ⟨q, hq, hpass⟩ := (Option.any_eq_true _ _).1 hany
    have hpass := of_decide_eq_true hpass
    simp only [Bool.not_eq_true] at hpass
    exact ⟨q, newest_of_latest hq, hpass⟩
  · intro hnewest
    obtain ⟨q, hq, hpass⟩ := hnewest
    rw [latest_of_newest (stamps_inj h.qualityIds) hq]
    have hnot : q.state = .qualityPass ∧ ¬ q.unresolvedRegression = true ∧ ¬ q.scopeViolation = true := by
      simp only [Bool.not_eq_true]
      exact hpass
    exact decide_eq_true hnot

/-! ## the loop and the join -/

theorem Counts.add_eq (n : Counts) (k : Option (ComparabilityAssessment Doc))
    (q : Option QualityAssessment) : n.add k q =
      let valid := k.any (·.valid)
      let pass := q.any (·.state = .qualityPass)
      let conflict := q.any fun q => q.unresolvedRegression || q.scopeViolation
      ⟨n.valid + (valid : Bool).toNat, n.invalid + (!valid).toNat, n.passed + (valid && pass).toNat,
        n.failed + (valid && !pass).toNat, n.conflicts + (valid && conflict).toNat⟩ := by
  unfold Counts.add
  cases k.any (·.valid) with
  | false => simp
  | true =>
    cases q.any (·.state = .qualityPass) <;>
      cases q.any (fun q => q.unresolvedRegression || q.scopeViolation) <;> simp

/-- every count of the loop counts links -/
theorem foldl_add (comparability : Link → Option (ComparabilityAssessment Doc))
    (quality : Link → Option QualityAssessment) (links : List Link) (n : Counts) :
    links.foldl (fun n l => n.add (comparability l) (quality l)) n =
      let valid := fun l => (comparability l).any (·.valid)
      let pass := fun l => (quality l).any (·.state = .qualityPass)
      let conflict := fun l => (quality l).any fun q => q.unresolvedRegression || q.scopeViolation
      ⟨n.valid + links.countP valid, n.invalid + links.countP fun l => !valid l,
        n.passed + links.countP fun l => valid l && pass l,
        n.failed + links.countP fun l => valid l && !pass l,
        n.conflicts + links.countP fun l => valid l && conflict l⟩ := by
  induction links generalizing n with
  | nil => rfl
  | cons l links ih =>
    rw [List.foldl_cons, ih, Counts.add_eq]
    simp only [List.countP_cons, Counts.mk.injEq]
    have hnat : ∀ b : Bool, b.toNat = if b = true then 1 else 0 := by decide
    simp only [hnat]
    omega

theorem promotionRows_eq (s : Tables Doc) (c : Candidate Doc) (id : CandidateId) :
    promotionRows s c id = ((s.linked c.ownerId id).filter (counted s c.ownerId)).map
      fun l => s.latestQuality c.ownerId l.comparisonId := by
  unfold promotionRows
  induction s.linked c.ownerId id with
  | nil => rfl
  | cons l links ih =>
    rw [List.flatMap_cons, ih, List.filter_cons]
    unfold counted
    cases s.latestComparability c.ownerId l.comparisonId with
    | none => rfl
    | some a =>
      dsimp only
      rw [Option.any_some]
      cases a.valid with
      | false => rfl
      | true => rfl

/-- enough of the links count, and the challenger of each has passed -/
def Carried (s : Tables Doc) (id : CandidateId) (c : Candidate Doc) : Prop :=
  c.minimumValidComparisons.getD 2 ≤ ((s.linked c.ownerId id).countP (counted s c.ownerId) : ℤ) ∧
    ∀ l ∈ s.linked c.ownerId id, counted s c.ownerId l = true →
      passing (s.latestQuality c.ownerId l.comparisonId) = true

theorem accepts_iff (hstate : c.state = .underReview) : Accepts s id c ↔ Carried s id c := by
  have hrows : (promotionRows s { c with state := .approved } id) =
      ((s.linked c.ownerId id).filter (counted s c.ownerId)).map
        fun l => s.latestQuality c.ownerId l.comparisonId := promotionRows_eq s _ id
  have hallowed : CandidateState.approved ∈ candidateTransitions c.state := by
    rw [hstate]
    decide
  have hcount : ((s.linked c.ownerId id).filter (counted s c.ownerId)).length =
      (s.linked c.ownerId id).countP (counted s c.ownerId) := List.countP_eq_length_filter.symm
  unfold Accepts candidateGuard Carried
  rw [hrows]
  simp only [ne_eq, not_true_eq_false, false_or, if_false, hallowed, List.length_map, hcount,
    true_and]
  rw [List.countP_map, ite_eq_right_iff, ← hcount, List.countP_eq_length]
  simp only [reduceCtorEq, imp_false, not_or, not_lt, not_not, List.mem_filter, and_imp,
    Function.comp_apply]

theorem minimum_eq (h : ∀ n, c.minimumValidComparisons = some n → 0 < n) :
    c.minimum = c.minimumValidComparisons.getD 2 := by
  unfold Candidate.minimum
  cases hmin : c.minimumValidComparisons with
  | none => rfl
  | some n =>
    have hpos := h n hmin
    have hkept : (some n).filter (fun n : ℤ => n ≠ 0) = some n := by
      rw [Option.filter_some, if_pos]
      exact decide_eq_true (by omega)
    rw [hkept]

/-- a pass has neither an unresolved regression nor a scope violation -/
theorem passing_eq (q : Option QualityAssessment) : passing q =
    (q.any (·.state = .qualityPass) && !q.any fun q => q.unresolvedRegression || q.scopeViolation) := by
  cases q with
  | none => rfl
  | some q =>
    unfold passing
    rw [Option.any_some, Option.any_some, Option.any_some]
    cases q.unresolvedRegression <;> cases q.scopeViolation <;> simp

theorem promotable_iff (hrow : s.candidates[id]? = some c)
    (hpos : ∀ n, c.minimumValidComparisons = some n → 0 < n) :
    Promotable s id c ↔ Carried s id c := by
  have howned : promotionSummary s c.ownerId id = .ok (summaryOf s c.ownerId id c) := by
    unfold promotionSummary
    rw [owned_ok.2 ⟨hrow, rfl⟩]
    rfl
  have hsummary : Promotable s id c ↔ (summaryOf s c.ownerId id c).promotable = true := by
    constructor
    · intro h
      obtain ⟨summary, hsummary, hpromotable⟩ := h
      rw [Except.ok.inj (howned.symm.trans hsummary)]
      exact hpromotable
    · exact fun h => ⟨_, howned, h⟩
  rw [hsummary]
  unfold summaryOf Carried
  dsimp only
  rw [foldl_add, minimum_eq hpos]
  simp only [decide_eq_true_eq, Nat.zero_add]
  refine and_congr_right fun _ => ?_
  rw [List.countP_eq_zero, List.countP_eq_zero]
  unfold counted
  constructor
  · intro h l hl hcounted
    obtain ⟨-, hfailed, hconflicts⟩ := h
    have hpass := hfailed l hl
    have hconflict := hconflicts l hl
    rw [hcounted, Bool.true_and] at hpass hconflict
    rw [passing_eq]
    simpa using ⟨by simpa using hpass, by simpa using hconflict⟩
  · intro h
    have hpass : ∀ l ∈ s.linked c.ownerId id,
        (s.latestComparability c.ownerId l.comparisonId).any (·.valid) = true →
          (s.latestQuality c.ownerId l.comparisonId).any (·.state = .qualityPass) = true ∧
            (s.latestQuality c.ownerId l.comparisonId).any
              (fun q => q.unresolvedRegression || q.scopeViolation) = false := by
      intro l hl hcounted
      have hl' := h l hl hcounted
      rw [passing_eq, Bool.and_eq_true, Bool.not_eq_true'] at hl'
      exact hl'
    refine ⟨List.countP_congr fun l hl => ?_, fun l hl => ?_, fun l hl => ?_⟩
    · rw [Bool.and_eq_true]
      exact ⟨And.left, fun hc => ⟨hc, (hpass l hl hc).1⟩⟩
    · rw [Bool.and_eq_true]
      intro hboth
      rw [(hpass l hl hboth.1).1] at hboth
      cases hboth.2
    · rw [Bool.and_eq_true]
      intro hboth
      rw [(hpass l hl hboth.1).2] at hboth
      cases hboth.2

theorem mem_linked {l : Link} :
    l ∈ s.linked ownerId id ↔ l ∈ s.promotionLinks ∧ l.ownerId = ownerId ∧ l.parentId = id := by
  unfold Tables.linked
  rw [List.mem_filter, decide_eq_true_eq]

/-- links of a candidate are of different comparisons -/
theorem linked_nodup (h : Lawful s) : ((s.linked ownerId id).map (·.comparisonId)).Nodup := by
  rw [List.Nodup, List.pairwise_map]
  refine (h.pairs.filter _).imp_of_mem fun {l l'} hl hl' hne heq => ?_
  obtain ⟨-, howner, hparent⟩ := mem_linked.1 hl
  obtain ⟨-, howner', hparent'⟩ := mem_linked.1 hl'
  exact hne ⟨howner.trans howner'.symm, hparent.trans hparent'.symm, heq⟩

theorem carried_iff (h : Lawful s) : Carried s id c ↔ Supported s id c := by
  have hlinked : ∀ k, s.LinkedTo c.ownerId id k ↔
      ∃ l ∈ s.linked c.ownerId id, l.comparisonId = k := by
    intro k
    constructor
    · intro hk
      obtain ⟨l, hl, howner, hparent, rfl⟩ := hk
      exact ⟨l, mem_linked.2 ⟨hl, howner, hparent⟩, rfl⟩
    · intro hk
      obtain ⟨l, hl, rfl⟩ := hk
      obtain ⟨hmem, howner, hparent⟩ := mem_linked.1 hl
      exact ⟨l, hmem, howner, hparent, rfl⟩
  have hpasses : (∀ l ∈ s.linked c.ownerId id, counted s c.ownerId l = true →
      passing (s.latestQuality c.ownerId l.comparisonId) = true) ↔
        ∀ k, s.LinkedTo c.ownerId id k → s.Comparable c.ownerId k → s.Passes c.ownerId k := by
    constructor
    · intro hall k hk hcomparable
      obtain ⟨l, hl, rfl⟩ := (hlinked k).1 hk
      exact (passing_iff h).1 (hall l hl ((counted_iff h).2 hcomparable))
    · intro hall l hl hcounted
      exact (passing_iff h).2 (hall _ ((hlinked _).2 ⟨l, hl, rfl⟩) ((counted_iff h).1 hcounted))
  -- the comparisons that count, one for each link
  have hks : ∀ k, k ∈ ((s.linked c.ownerId id).filter (counted s c.ownerId)).map (·.comparisonId) ↔
      s.LinkedTo c.ownerId id k ∧ s.Comparable c.ownerId k := by
    intro k
    rw [List.mem_map]
    constructor
    · intro hk
      obtain ⟨l, hl, rfl⟩ := hk
      obtain ⟨hmem, hcounted⟩ := List.mem_filter.1 hl
      exact ⟨(hlinked _).2 ⟨l, hmem, rfl⟩, (counted_iff h).1 hcounted⟩
    · intro hk
      obtain ⟨hk, hcomparable⟩ := hk
      obtain ⟨l, hl, rfl⟩ := (hlinked k).1 hk
      exact ⟨l, List.mem_filter.2 ⟨hl, (counted_iff h).2 hcomparable⟩, rfl⟩
  have hlength : (((s.linked c.ownerId id).filter (counted s c.ownerId)).map
      (·.comparisonId)).length = (s.linked c.ownerId id).countP (counted s c.ownerId) := by
    rw [List.length_map, List.countP_eq_length_filter]
  constructor
  · intro hc
    obtain ⟨henough, hall⟩ := hc
    refine ⟨⟨_, (linked_nodup h).sublist (List.filter_sublist.map _), ?_, fun k hk => (hks k).1 hk⟩,
      hpasses.1 hall⟩
    rw [hlength]
    exact henough
  · intro hs
    obtain ⟨⟨ks, hnodup, hmin, hall⟩, hpass⟩ := hs
    refine ⟨hmin.trans ?_, hpasses.2 hpass⟩
    rw [← hlength]
    have hsub : ks ⊆ ((s.linked c.ownerId id).filter (counted s c.ownerId)).map (·.comparisonId) :=
      fun k hk => (hks k).2 (hall k hk)
    exact_mod_cast (hnodup.subperm hsub).length_le

theorem Lawful.gates (h : Lawful s) : GatesAgree s := by
  intro id c hrow hstate
  have hpos := h.minimum c (List.mem_of_getElem? hrow)
  refine ⟨(promotable_iff hrow hpos).trans (accepts_iff hstate).symm, ?_⟩
  exact (accepts_iff hstate).trans (carried_iff h)

/-! ## every run -/

theorem refusal_id {α : Type} {rows : List α} {ids : α → ℕ} {row : α}
    (h : (rows.map ids).Nodup) (hnew : rows.any (fun r => ids r = ids row) = false) :
    ((rows ++ [row]).map ids).Nodup := by
  rw [List.map_append, List.nodup_append]
  refine ⟨h, List.nodup_singleton _, fun i hi j hj heq => ?_⟩
  obtain ⟨r, hr, rfl⟩ := List.mem_map.1 hi
  rw [List.map_singleton, List.mem_singleton] at hj
  rw [List.any_eq_false] at hnew
  exact hnew r hr (decide_eq_true (heq.trans hj))

theorem Wrote.lawful (h : Lawful s) (hwrote : Wrote lib s t) : Lawful t := by
  cases hwrote with
  | nothing => exact h
  | comparison row => exact { h with }
  | comparability row hrefusal =>
    refine { h with comparabilityIds := refusal_id h.comparabilityIds ?_ }
    unfold ComparabilityAssessment.refusal at hrefusal
    split_ifs at hrefusal with h1 h2 h3
    exact Bool.eq_false_of_not_eq_true h3
  | quality row hrefusal =>
    refine { h with qualityIds := refusal_id h.qualityIds ?_ }
    unfold QualityAssessment.refusal at hrefusal
    split_ifs at hrefusal with h1 h2 h3
    exact Bool.eq_false_of_not_eq_true h3
  | delta row => exact { h with }
  | experiment row hdraft hreason => exact { h with }
  | experimentState id row next reason hrow hnext => exact { h with }
  | candidate row hrefusal hstate =>
    refine { h with minimum := fun c hc n hn => ?_ }
    rcases List.mem_append.1 hc with hc | hc
    · exact h.minimum c hc n hn
    · rw [List.mem_singleton.1 hc] at hn
      unfold Candidate.refusal notPositive at hrefusal
      split_ifs at hrefusal with h1 h2 h3 h4
      rw [hn, Option.any_some, decide_eq_true_eq] at h3
      omega
  | candidateState id row next hrow hguard =>
    refine { h with minimum := fun c hc n hn => ?_ }
    rcases List.mem_or_eq_of_mem_set hc with hc | rfl
    · exact h.minimum c hc n hn
    · exact h.minimum row (List.mem_of_getElem? hrow) n hn
  | experimentLink row => exact { h with }
  | promotionLink row hrefusal =>
    refine { h with pairs := ?_ }
    unfold Link.refusal at hrefusal
    split_ifs at hrefusal with h1 h2
    rw [List.pairwise_append]
    refine ⟨h.pairs, List.pairwise_singleton _ _, fun l hl l' hl' heq => ?_⟩
    rw [List.mem_singleton.1 hl'] at heq
    exact h2 (List.any_eq_true.2 ⟨l, hl, decide_eq_true heq⟩)

theorem Lawful.step (h : Lawful s) (op : Op Doc) : Lawful (step lib s op) := by
  rcases step_cases lib s op with ⟨mid, events, hwrote, -, heq⟩ | ⟨new, -, heq⟩
  · rw [heq]
    exact { hwrote.lawful h with }
  · rw [heq]
    exact { h with }

/-- a candidate is approved by a step: it was under review, and supported -/
def Approved (s t : Tables Doc) : Prop :=
  ∀ (id : CandidateId) (new : Candidate Doc), t.candidates[id]? = some new → new.state = .approved →
    ∃ old, s.candidates[id]? = some old ∧
      (old.state = .approved ∨ old.state = .underReview ∧ Supported s id old)

theorem Approved.same (h : t.candidates = s.candidates) : Approved s t := by
  intro id new hnew happroved
  rw [h] at hnew
  exact ⟨new, hnew, .inl happroved⟩

theorem candidateTransitions_approved {old : CandidateState}
    (h : CandidateState.approved ∈ candidateTransitions old) : old = .underReview := by
  cases old <;> revert h <;> decide

/-- the trigger lets an approval through from a review only -/
theorem guard_underReview {row : Candidate Doc}
    (h : candidateGuard s id row { row with state := .approved } = none) :
    row.state = .underReview := by
  unfold candidateGuard at h
  dsimp only at h
  split_ifs at h with h1 h2 h3
  exact candidateTransitions_approved h3

theorem Wrote.approved (h : Lawful s) (hwrote : Wrote lib s t) : Approved s t := by
  cases hwrote with
  | candidate row hrefusal hstate =>
    intro id new hnew happroved
    rcases getElem?_insert hnew with hold | ⟨-, rfl⟩
    · exact ⟨new, hold, .inl happroved⟩
    · rw [hstate] at happroved
      cases happroved
  | candidateState id row next hrow hguard =>
    intro i new hnew happroved
    rcases eq_or_ne id i with rfl | hne
    · have hlt := (List.getElem?_eq_some_iff.1 hrow).1
      rw [List.getElem?_set_self hlt] at hnew
      obtain rfl := Option.some.inj hnew
      obtain rfl : next = .approved := happroved
      have hreview := guard_underReview hguard
      exact ⟨row, hrow, .inr ⟨hreview, (h.gates id row hrow hreview).2.1 hguard⟩⟩
    · rw [List.getElem?_set_ne hne] at hnew
      exact ⟨new, hnew, .inl happroved⟩
  | nothing | comparison | comparability | quality | delta | experiment | experimentState
  | experimentLink | promotionLink => exact .same rfl

theorem step_approved (h : Lawful s) (op : Op Doc) : Approved s (Strategy.step lib s op) := by
  rcases step_cases lib s op with ⟨mid, events, hwrote, -, heq⟩ | ⟨new, -, heq⟩
  · have happroved : Approved s mid := hwrote.approved h
    rw [heq]
    exact happroved
  · rw [heq]
    exact .same rfl

/-- **The promotion gates**: in every run the service's check of a candidate under review passes
exactly when the trigger accepts its approval, which is when the candidate is supported; and a step
approves no other candidate. -/
theorem gates_agree (lib : Documents Doc) (ops : List (Op Doc)) :
    Run.Always (step lib) GatesAgree {} ops ∧
      ∀ p ∈ Run.trace (step lib) {} ops, Approved p.1 (step lib p.1 p.2) := by
  have hstart : Lawful ({} : Tables Doc) :=
    ⟨List.nodup_nil, List.nodup_nil, List.Pairwise.nil, fun c hc => absurd hc List.not_mem_nil⟩
  have hmeets : Run.Meets (step lib) (fun _ _ => True) {} ops :=
    Run.Meets.of_forall _ (fun _ _ => trivial) _
  constructor
  · exact Run.always (I := Lawful) (fun s h => h.gates) (fun s op h _ => h.step op) hstart hmeets
  · exact Run.trace_all_of_meets (I := Lawful) (fun s op h _ => ⟨step_approved h op, h.step op⟩) hstart
      hmeets

end LifeAI.Strategy
