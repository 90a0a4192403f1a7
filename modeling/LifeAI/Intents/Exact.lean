import LifeAI.Intents.Feasibility
import LifeAI.Lib.Straight

/-!
# What the feasibility of an intent tells

The walk of `evaluate_feasibility` is the bounded search along straight walks: `walk_eq`.

* `Requires`  an intent requires another one;
* `Feasible`  the root is active, no cycle can be reached, and nothing that is required is blocked
              or other than active;
* `evaluateFeasibility_exact`  what the bounds do not cut off, the result tells exactly.
-/

namespace LifeAI.Intents

open Straight

variable {db : Db} {ownerId : OwnerId} {maxNodes left : ℕ} {node : LifeIntent}
  {path : List IntentId} {w : Walk}

variable (db ownerId) in
/-- the intents that an intent requires -/
def required (intentId : IntentId) : List IntentId :=
  (deps db ownerId intentId).map LifeIntentDependency.toIntentId

theorem nodup_required (i : IntentId) : (required db ownerId i).Nodup := by
  refine List.Nodup.map_on (fun d hd e he hde => ?_) (db.unique.filter _)
  have hd' := of_decide_eq_true (List.mem_filter.1 hd).2
  have he' := of_decide_eq_true (List.mem_filter.1 he).2
  cases d
  cases e
  obtain ⟨h1, h2, h3⟩ := hd'
  obtain ⟨k1, k2, k3⟩ := he'
  dsimp only at *
  subst h1 h2 h3 hde
  rw [k1, k2, k3]

theorem intent_eq_ok {i : IntentId} : intent db ownerId i = .ok node ↔
    db.intents.find? (fun r => r.id = i ∧ r.ownerId = ownerId) = some node := by
  unfold intent
  cases db.intents.find? fun r => r.id = i ∧ r.ownerId = ownerId with
  | none => simp
  | some r => simp

theorem intent_id {i : IntentId} (h : intent db ownerId i = .ok node) : node.id = i :=
  have hfound := List.find?_some (intent_eq_ok.1 h)
  (of_decide_eq_true hfound).1

/-- the foreign key: what is required is there -/
theorem intent_of_required {i j : IntentId} (h : j ∈ required db ownerId i) :
    ∃ next, intent db ownerId j = .ok next := by
  obtain ⟨d, hd, rfl⟩ := List.mem_map.1 h
  obtain ⟨hmem, hd⟩ := List.mem_filter.1 hd
  obtain ⟨howner, -, -⟩ := of_decide_eq_true hd
  obtain ⟨r, hr, hkey⟩ := List.mem_map.1 (db.targets d hmem)
  obtain ⟨hid, hro⟩ := Prod.mk.inj hkey
  cases hf : db.intents.find? fun r => r.id = d.toIntentId ∧ r.ownerId = ownerId with
  | some next => exact ⟨next, intent_eq_ok.2 hf⟩
  | none => exact absurd (decide_eq_true ⟨hid, hro.trans howner⟩) (List.find?_eq_none.1 hf r hr)

/-! ## the walk is the search -/

variable (db ownerId) in
/-- the reasons for what the search meets -/
def report : Event IntentId → List Reason
  | .bound p => [⟨p, .boundReached⟩]
  | .cycle p => [⟨p, .dependencyCycle⟩]
  | .visit p => match (p.getLast?).map (intent db ownerId) with
    | some (.ok node) => nodeReasons db ownerId node p
    | _ => []

/-- the cycle that the search meets -/
def reportCycle : Event IntentId → List (List IntentId)
  | .cycle p => [p]
  | _ => []

variable (db ownerId) in
/-- the variables of the walk after what the search has met -/
def Walk.after (w : Walk) (r : List (Event IntentId) × List IntentId) : Walk where
  reasons := w.reasons ++ r.1.flatMap (report db ownerId)
  cycles := w.cycles ++ r.1.flatMap reportCycle
  seen := r.2

theorem Walk.after_append (w : Walk) (es : List (Event IntentId)) (r : List (Event IntentId))
    (s t : List IntentId) :
    (w.after db ownerId (es, s)).after db ownerId (r, t) = w.after db ownerId (es ++ r, t) := by
  unfold Walk.after
  simp only [List.flatMap_append, List.append_assoc]

/-- the branches of a node, one after the other -/
theorem foldlM_after {f : Walk → LifeIntentDependency → Except IntentError Walk}
    {g : IntentId → List IntentId → List (Event IntentId) × List IntentId}
    {ds : List LifeIntentDependency}
    (hf : ∀ d ∈ ds, ∀ w, f w d = .ok (w.after db ownerId (g d.toIntentId w.seen))) (w : Walk)
    (r : List (Event IntentId) × List IntentId) :
    ds.foldlM f (w.after db ownerId r) =
      .ok (w.after db ownerId (collect g (ds.map LifeIntentDependency.toIntentId) r)) := by
  induction ds generalizing r with
  | nil => rfl
  | cons d ds ih =>
    rw [List.foldlM_cons, List.map_cons, collect_cons, hf d List.mem_cons_self]
    show ds.foldlM f ((w.after db ownerId r).after db ownerId (g d.toIntentId r.2)) = _
    have happend : (w.after db ownerId r).after db ownerId (g d.toIntentId r.2) =
        w.after db ownerId (r.1 ++ (g d.toIntentId r.2).1, (g d.toIntentId r.2).2) :=
      Walk.after_append w _ _ _ _
    rw [happend]
    exact ih (fun e he => hf e (List.mem_cons_of_mem _ he)) _

theorem walk_eq (hnode : intent db ownerId node.id = .ok node) :
    walk db ownerId maxNodes left node path w =
      .ok (w.after db ownerId
        (search (required db ownerId) maxNodes left path node.id w.seen)) := by
  induction left generalizing node path w with
  | zero => simp [walk, search, Walk.after, report, reportCycle]
  | succ left ih =>
    unfold walk search
    split_ifs with hfull hcycle
    · simp [Walk.after, report, reportCycle]
    · simp [Walk.after, report, reportCycle]
    · have hvisit : ({ w with
            seen := w.seen.insert node.id
            reasons := w.reasons ++ nodeReasons db ownerId node (path ++ [node.id]) } : Walk) =
          w.after db ownerId ([.visit (path ++ [node.id])], w.seen.insert node.id) := by
        simp [Walk.after, report, reportCycle, hnode]
      dsimp only
      rw [hvisit]
      refine foldlM_after (fun d hd w => ?_) w _
      obtain ⟨next, hnext⟩ := intent_of_required (List.mem_map_of_mem hd)
      have hid := intent_id hnext
      rw [hnext]
      dsimp only
      rw [ih (hid.symm ▸ hnext), hid]

/-! ## what the reasons say -/

theorem mem_nodeReasons {x : Reason} {p : List IntentId} (hx : x ∈ nodeReasons db ownerId node p) :
    x.reason ≠ .boundReached ∧ x.reason ≠ .dependencyCycle := by
  unfold nodeReasons at hx
  rcases List.mem_append.1 hx with hx | hx
  · split_ifs at hx
    · obtain rfl := List.mem_singleton.1 hx
      exact ⟨nofun, nofun⟩
    · cases hx
  · obtain ⟨b, -, rfl⟩ := List.mem_map.1 hx
    exact ⟨nofun, nofun⟩

/-- a node gives no reason exactly when it is active and nothing blocks it -/
theorem nodeReasons_eq_nil {p : List IntentId} : nodeReasons db ownerId node p = [] ↔
    node.state = .active ∧ blockers db ownerId node.id = [] := by
  unfold nodeReasons
  rw [List.append_eq_nil_iff, List.map_eq_nil_iff]
  refine and_congr_left fun _ => ?_
  cases node.state <;> simp [nonActionable]

theorem report_visit {p : List IntentId} {e : Event IntentId} {x : Reason}
    (he : e = .visit p) (hx : x ∈ report db ownerId e) :
    x.reason ≠ .boundReached ∧ x.reason ≠ .dependencyCycle := by
  subst he
  unfold report at hx
  dsimp only at hx
  split at hx
  · exact mem_nodeReasons hx
  · cases hx

theorem bound_reported_iff {es : List (Event IntentId)} :
    (∃ x ∈ es.flatMap (report db ownerId), x.reason = .boundReached) ↔ ∃ e ∈ es, e.isBound := by
  constructor
  · rintro ⟨x, hx, hbound⟩
    obtain ⟨e, he, hx⟩ := List.mem_flatMap.1 hx
    refine ⟨e, he, ?_⟩
    cases hcase : e with
    | bound p => trivial
    | cycle p =>
      rw [hcase] at hx
      obtain rfl := List.mem_singleton.1 hx
      cases hbound
    | visit p => exact absurd hbound (report_visit hcase hx).1
  · rintro ⟨e, he, hbound⟩
    cases e with
    | bound p =>
      exact ⟨⟨p, .boundReached⟩, List.mem_flatMap.2 ⟨_, he, List.mem_singleton_self _⟩, rfl⟩
    | cycle p => cases hbound
    | visit p => cases hbound

theorem cycle_reported_iff {es : List (Event IntentId)} :
    (∃ x ∈ es.flatMap (report db ownerId), x.reason = .dependencyCycle) ↔ ∃ p, .cycle p ∈ es := by
  constructor
  · rintro ⟨x, hx, hcycle⟩
    obtain ⟨e, he, hx⟩ := List.mem_flatMap.1 hx
    cases hcase : e with
    | cycle p => exact ⟨p, hcase ▸ he⟩
    | bound p =>
      rw [hcase] at hx
      obtain rfl := List.mem_singleton.1 hx
      cases hcycle
    | visit p => exact absurd hcycle (report_visit hcase hx).2
  · rintro ⟨p, he⟩
    exact ⟨⟨p, .dependencyCycle⟩, List.mem_flatMap.2 ⟨_, he, List.mem_singleton_self _⟩, rfl⟩

/-! ## the graph of what is required -/

variable (db ownerId) in
/-- the root requires an intent, over any number of others -/
def Reaches (root i : IntentId) : Prop :=
  Relation.ReflTransGen (Follows (required db ownerId)) root i

variable (db ownerId) in
/-- a cycle of requirements can be reached -/
def Cyclic (root : IntentId) : Prop :=
  ∃ i, Reaches db ownerId root i ∧ Relation.TransGen (Follows (required db ownerId)) i i

theorem intent_of_reaches {root i : IntentId} (hroot : ∃ r, intent db ownerId root = .ok r)
    (h : Reaches db ownerId root i) : ∃ r, intent db ownerId i = .ok r := by
  cases Relation.ReflTransGen.cases_tail h with
  | inl heq => exact heq ▸ hroot
  | inr hstep =>
    obtain ⟨j, -, hji⟩ := hstep
    exact intent_of_required hji

theorem reaches_finite (root : IntentId) : {i | Reaches db ownerId root i}.Finite := by
  refine (List.finite_toSet (root :: db.dependencies.map (·.toIntentId))).subset fun i hi => ?_
  rcases Relation.ReflTransGen.cases_tail hi with rfl | ⟨j, -, hji⟩
  · exact List.mem_cons_self
  · obtain ⟨d, hd, rfl⟩ := List.mem_map.1 hji
    exact List.mem_cons_of_mem _ (List.mem_map_of_mem (List.mem_filter.1 hd).1)

variable (db ownerId) in
/-- the root is active, no cycle can be reached, and everything required is active and unblocked -/
structure Feasible (root : IntentId) : Prop where
  acyclic : ¬ Cyclic db ownerId root
  active : ∀ i r, Reaches db ownerId root i → intent db ownerId i = .ok r → r.state = .active
  unblocked : ∀ i, Reaches db ownerId root i → blockers db ownerId i = []

/-! ## the result -/

section

variable {root : LifeIntent} {n : ℕ} {es : List (Event IntentId)}

theorem report_walk {p : List IntentId} {i : IntentId} {r : LifeIntent}
    (hr : intent db ownerId i = .ok r) (hlen : p.length < n) (hi : i ∉ p) :
    report db ownerId (event n (p, i)) = nodeReasons db ownerId r (p ++ [i]) := by
  rw [event, if_neg (Nat.not_le.2 hlen), if_neg hi]
  simp [report, hr]

/-- no bound has been met, so what the search has met are the ends of the straight walks -/
theorem cycle_of_walks (hes : es = (walks (required db ownerId) n [] root.id).map (event n))
    (hfree : ∀ e ∈ es, ¬ e.isBound) : (∃ p, .cycle p ∈ es) ↔ Cyclic db ownerId root.id := by
  have hshort : ∀ p i, IsStraight (required db ownerId) root.id (p, i) → p.length < n := by
    intro p i hp
    exact hp.short fun w hw => hfree _ (hes ▸ List.mem_map_of_mem hw)
  unfold Cyclic Reaches
  rw [← exists_closing_iff]
  constructor
  · rintro ⟨p, hp⟩
    rw [hes] at hp
    obtain ⟨⟨q, i⟩, hw, he⟩ := List.mem_map.1 hp
    have hq := (mem_walks_root.1 hw).1
    rw [event, if_neg (Nat.not_le.2 (hshort q i hq))] at he
    split_ifs at he with hi
    exact ⟨q, i, hq, hi⟩
  · rintro ⟨p, i, hp, hi⟩
    refine ⟨p ++ [i], ?_⟩
    rw [hes]
    refine List.mem_map.2 ⟨(p, i), mem_walks_root.2 ⟨hp, (hshort p i hp).le⟩, ?_⟩
    rw [event, if_neg (Nat.not_le.2 (hshort p i hp)), if_pos hi]

theorem feasible_of_walks (hroot : intent db ownerId root.id = .ok root)
    (hes : es = (walks (required db ownerId) n [] root.id).map (event n))
    (hfree : ∀ e ∈ es, ¬ e.isBound) :
    es.flatMap (report db ownerId) = [] ↔ Feasible db ownerId root.id := by
  have hshort : ∀ p i, IsStraight (required db ownerId) root.id (p, i) → p.length < n := by
    intro p i hp
    exact hp.short fun w hw => hfree _ (hes ▸ List.mem_map_of_mem hw)
  rw [List.flatMap_eq_nil_iff]
  constructor
  · intro h
    have hnode : ∀ i r, Reaches db ownerId root.id i → intent db ownerId i = .ok r →
        r.state = .active ∧ blockers db ownerId r.id = [] := by
      intro i r hi hr
      obtain ⟨p, hp, hip⟩ := exists_straight_iff.1 hi
      have hlen := hshort p i hp
      have hevent := h (event n (p, i)) (by
        rw [hes]
        exact List.mem_map_of_mem (mem_walks_root.2 ⟨hp, hlen.le⟩))
      rw [report_walk hr hlen hip] at hevent
      exact nodeReasons_eq_nil.1 hevent
    refine ⟨fun hcyclic => ?_, fun i r hi hr => (hnode i r hi hr).1, fun i hi => ?_⟩
    · obtain ⟨p, hp⟩ := (cycle_of_walks hes hfree).2 hcyclic
      exact absurd (h _ hp) (by simp [report])
    · obtain ⟨r, hr⟩ := intent_of_reaches ⟨root, hroot⟩ hi
      exact intent_id hr ▸ (hnode i r hi hr).2
  · rintro ⟨hacyclic, hactive, hunblocked⟩ e he
    rw [hes] at he
    obtain ⟨⟨p, i⟩, hw, rfl⟩ := List.mem_map.1 he
    have hp := (mem_walks_root.1 hw).1
    have hi : i ∉ p := fun hi => hacyclic (exists_closing_iff.1 ⟨p, i, hp, hi⟩)
    obtain ⟨r, hr⟩ := intent_of_reaches ⟨root, hroot⟩ hp.reaches
    rw [report_walk hr (hshort p i hp) hi]
    refine nodeReasons_eq_nil.2 ⟨hactive i r hp.reaches hr, ?_⟩
    rw [intent_id hr]
    exact hunblocked i hp.reaches

end

variable (db ownerId) in
/-- what a result tells of the graph behind the root -/
structure FeasibilityResult.Exact (root : IntentId) (maxDepth maxNodes : ℤ)
    (result : FeasibilityResult) : Prop where
  /-- the bounds suffice -/
  unbounded : ({i | Reaches db ownerId root i}.ncard < maxNodes ∨
      {w | IsStraight (required db ownerId) root w}.ncard ≤ maxNodes) →
    (∀ w, IsStraight (required db ownerId) root w → w.1.length ≤ maxDepth) →
    ∀ x ∈ result.reasons, x.reason ≠ .boundReached
  /-- a cycle that is reported is there -/
  sound : (∃ x ∈ result.reasons, x.reason = .dependencyCycle) → Cyclic db ownerId root
  cycle : (∀ x ∈ result.reasons, x.reason ≠ .boundReached) →
    ((∃ x ∈ result.reasons, x.reason = .dependencyCycle) ↔ Cyclic db ownerId root)
  actionable : result.actionable ↔
    (∀ x ∈ result.reasons, x.reason ≠ .boundReached) ∧ Feasible db ownerId root

/-- `evaluate_feasibility` ends with a result, for every graph and all bounds that it accepts -/
theorem evaluateFeasibility_exact {root : LifeIntent} (hroot : intent db ownerId root.id = .ok root)
    {maxDepth maxNodes : ℤ}
    (hbounds : 0 ≤ maxDepth ∧ maxDepth ≤ 50 ∧ 1 ≤ maxNodes ∧ maxNodes ≤ 1000) :
    ∃ result, evaluateFeasibility db ownerId root.id maxDepth maxNodes = .ok result ∧
      result.Exact db ownerId root.id maxDepth maxNodes := by
  let succ := required db ownerId
  let n := maxDepth.toNat + 1
  let es := (search succ maxNodes.toNat n [] root.id []).1
  have hwalk : walk db ownerId maxNodes.toNat n root [] {} =
      .ok (({} : Walk).after db ownerId (search succ maxNodes.toNat n [] root.id [])) :=
    walk_eq hroot
  have heval : evaluateFeasibility db ownerId root.id maxDepth maxNodes = .ok {
      intentId := root.id
      actionable := (es.flatMap (report db ownerId)).isEmpty
      state := root.state
      reasons := es.flatMap (report db ownerId)
      cycles := es.flatMap reportCycle } := by
    unfold evaluateFeasibility
    rw [if_neg (not_not_intro hbounds), hroot]
    dsimp only
    rw [hwalk]
    rfl
  have hfree_iff : (∀ x ∈ es.flatMap (report db ownerId), x.reason ≠ .boundReached) ↔
      ∀ e ∈ es, ¬ e.isBound := by
    have hbound : ¬ (∃ x ∈ es.flatMap (report db ownerId), x.reason = .boundReached) ↔
        ¬ ∃ e ∈ es, e.isBound := not_congr bound_reported_iff
    simpa only [not_exists, not_and] using hbound
  have hes : (∀ e ∈ es, ¬ e.isBound) → es = (walks succ n [] root.id).map (event n) :=
    fun hfree => search_eq (Nat.zero_add n) hfree
  refine ⟨_, heval, ?_, ?_, ?_, ?_⟩
  · intro hnodes hdepth
    have hshort : ∀ w, IsStraight succ root.id w → w.1.length < n := by
      intro w hw
      have := hdepth w hw
      omega
    have hall : es = (walks succ n [] root.id).map (event n) := by
      rcases hnodes with hpoints | hwalks
      · refine search_eq_of_few_points (reaches_finite root.id) ?_
        have hpoints' :
            ({x | Relation.ReflTransGen (Follows succ) root.id x}.ncard : ℤ) < maxNodes := hpoints
        omega
      · refine search_eq_of_few_walks ?_
        rw [← ncard_walks nodup_required root.id fun w hw => (hshort w hw).le]
        omega
    refine hfree_iff.2 fun e he hbound => ?_
    rw [hall] at he
    obtain ⟨w, hw, rfl⟩ := List.mem_map.1 he
    have hlen := hshort w (mem_walks_root.1 hw).1
    exact absurd (event_isBound_iff.1 hbound) (Nat.not_le.2 hlen)
  · intro hcycle
    obtain ⟨p, hp⟩ := cycle_reported_iff.1 hcycle
    obtain ⟨⟨q, i⟩, hw, he⟩ := List.mem_map.1 (mem_search (Nat.zero_add n) hp nofun)
    unfold event at he
    split_ifs at he with hlen hi
    exact exists_closing_iff.1 ⟨q, i, (mem_walks_root.1 hw).1, hi⟩
  · intro hfree
    have hfree' := hfree_iff.1 hfree
    exact cycle_reported_iff.trans (cycle_of_walks (hes hfree') hfree')
  · rw [List.isEmpty_iff]
    constructor
    · intro hnil
      have hfree : ∀ x ∈ es.flatMap (report db ownerId), x.reason ≠ .boundReached := by
        rw [hnil]
        exact fun x hx => absurd hx List.not_mem_nil
      have hfree' := hfree_iff.1 hfree
      exact ⟨hfree, (feasible_of_walks hroot (hes hfree') hfree').1 hnil⟩
    · rintro ⟨hfree, hfeasible⟩
      have hfree' := hfree_iff.1 hfree
      exact (feasible_of_walks hroot (hes hfree') hfree').2 hfeasible

/-! ## two ways to one intent, and an intent that is completed -/

/-- `1` requires `2` and `3`, and both require `4` -/
def diamond : Db where
  intents := [⟨1, 1, .active⟩, ⟨2, 1, .active⟩, ⟨3, 1, .active⟩, ⟨4, 1, .active⟩]
  blockers := []
  dependencies := [⟨1, 1, 2, .requires⟩, ⟨1, 1, 3, .requires⟩, ⟨1, 2, 4, .requires⟩,
    ⟨1, 3, 4, .requires⟩]
  ids := by decide
  targets := by decide
  unique := by decide
  noSelf := by decide

/-- `1` requires `2`, which is completed -/
def finished : Db where
  intents := [⟨1, 1, .active⟩, ⟨2, 1, .completed⟩]
  blockers := []
  dependencies := [⟨1, 1, 2, .requires⟩]
  ids := by decide
  targets := by decide
  unique := by decide
  noSelf := by decide

theorem evaluateFeasibility_exact_diamond :
    ∃ result, evaluateFeasibility diamond 1 1 2 5 = .ok result ∧
      result.Exact diamond 1 1 2 5 :=
  @evaluateFeasibility_exact diamond 1 ⟨1, 1, .active⟩ rfl 2 5 (by decide)

/-- four intents, paths of two steps: the bound of four is reported.  A completed intent that is
required stops its root. -/
theorem bound_within_limits :
    ({i | Reaches diamond 1 1 i}.ncard ≤ 4 ∧
      (∀ w, IsStraight (required diamond 1) 1 w → w.1.length ≤ 20) ∧
      ∃ result, evaluateFeasibility diamond 1 1 20 4 = .ok result ∧
        ∃ x ∈ result.reasons, x.reason = .boundReached) ∧
    evaluateFeasibility finished 1 1 = .ok {
      intentId := 1
      actionable := false
      state := .active
      reasons := [⟨[1, 2], .state .completed⟩]
      cycles := [] } := by
  refine ⟨⟨?_, fun w hw => ?_, ?_⟩, by decide⟩
  · have hsub : {i | Reaches diamond 1 1 i} ⊆ (({1, 2, 3, 4} : Finset ℕ) : Set ℕ) := by
      intro i hi
      rcases Relation.ReflTransGen.cases_tail hi with rfl | ⟨j, -, hji⟩
      · decide
      · obtain ⟨d, hd, rfl⟩ := List.mem_map.1 hji
        have htargets : ∀ d ∈ diamond.dependencies, d.toIntentId ∈ ({1, 2, 3, 4} : Finset ℕ) := by
          decide
        exact htargets d (List.mem_filter.1 hd).1
    have hcard := Set.ncard_le_ncard hsub (Finset.finite_toSet _)
    rwa [Set.ncard_coe_finset] at hcard
  · have hwalks : ∀ w ∈ walks (required diamond 1) 20 [] 1, ¬ 20 ≤ w.1.length := by decide
    exact (hw.short fun x hx hbound => hwalks x hx (event_isBound_iff.1 hbound)).le
  · exact ⟨_, rfl, by decide⟩

end LifeAI.Intents
