import LifeAI.Lib.Digraph

/-!
# Depth-first search along simple paths

A walk is straight when no point repeats before its last one; it is given by the points before the
last one and the last one.

* `walks`   the straight walks from a point, up to a length;
* `search`  the search that goes them through, with a bound on the points that it has seen; `seen`
            does not cut a branch off;
* `event`   what the search meets at the end of a walk.

`search_eq` tells what a search that met no bound has met, `search_eq_of_room` when it meets none;
`exists_closing_iff` and `exists_straight_iff` say what straight walks show of the relation.
-/

namespace Straight

variable {α : Type*}

/-! ## branches one after the other -/

section collect

variable {ε : Type*}

/-- what one branch after the other meets, when each finds what those before it have seen -/
def collect (f : α → List α → List ε × List α) (us : List α) (r : List ε × List α) :
    List ε × List α :=
  us.foldl (fun r u =>
    let q := f u r.2
    (r.1 ++ q.1, q.2)) r

variable {f : α → List α → List ε × List α} {g : α → List ε} {us : List α}
  {r : List ε × List α}

theorem collect_cons (u : α) : collect f (u :: us) r =
    collect f us (r.1 ++ (f u r.2).1, (f u r.2).2) := rfl

/-- every branch that meets nothing of `P` is the one of `g` -/
theorem collect_eq {P : ε → Prop}
    (hf : ∀ u ∈ us, ∀ seen, (∀ e ∈ (f u seen).1, ¬ P e) → (f u seen).1 = g u)
    (hfree : ∀ e ∈ (collect f us r).1, ¬ P e) :
    (collect f us r).1 = r.1 ++ us.flatMap g := by
  have hgrows : ∀ (us : List α) (r : List ε × List α), r.1 ⊆ (collect f us r).1 := by
    intro us
    induction us with
    | nil => exact fun r => List.Subset.refl _
    | cons u us ih =>
      intro r
      rw [collect_cons]
      exact List.Subset.trans (List.subset_append_left _ _) (ih (r.1 ++ (f u r.2).1, (f u r.2).2))
  induction us generalizing r with
  | nil => exact (List.append_nil _).symm
  | cons u us ih =>
    rw [collect_cons] at hfree ⊢
    have hfirst : (f u r.2).1 = g u := by
      refine hf u List.mem_cons_self r.2 fun e he => hfree e (hgrows _ _ ?_)
      exact List.mem_append_right _ he
    rw [ih (fun x hx => hf x (List.mem_cons_of_mem _ hx)) hfree, hfirst, List.flatMap_cons,
      List.append_assoc]

/-- what is met, was met before or in a branch -/
theorem mem_collect {e : ε} (he : e ∈ (collect f us r).1) :
    e ∈ r.1 ∨ ∃ u ∈ us, ∃ seen, e ∈ (f u seen).1 := by
  induction us generalizing r with
  | nil => exact .inl he
  | cons u us ih =>
    rw [collect_cons] at he
    rcases ih he with he | ⟨x, hx, seen, he⟩
    · rcases List.mem_append.1 he with he | he
      · exact .inl he
      · exact .inr ⟨u, List.mem_cons_self, r.2, he⟩
    · exact .inr ⟨x, List.mem_cons_of_mem _ hx, seen, he⟩

/-- `I k` is room for `k` more; every branch uses as much as `g` says -/
theorem collect_room {I : ℕ → List α → Prop}
    (hf : ∀ u ∈ us, ∀ k seen, I ((g u).length + k) seen → (f u seen).1 = g u ∧ I k (f u seen).2)
    {k : ℕ} (hr : I ((us.flatMap g).length + k) r.2) :
    (collect f us r).1 = r.1 ++ us.flatMap g ∧ I k (collect f us r).2 := by
  induction us generalizing r with
  | nil =>
    refine ⟨(List.append_nil _).symm, ?_⟩
    rwa [List.flatMap_nil, List.length_nil, Nat.zero_add] at hr
  | cons u us ih =>
    rw [List.flatMap_cons, List.length_append, Nat.add_assoc] at hr
    obtain ⟨hfirst, hroom⟩ := hf u List.mem_cons_self _ _ hr
    obtain ⟨hrest, hend⟩ := @ih (r.1 ++ (f u r.2).1, (f u r.2).2)
      (fun x hx => hf x (List.mem_cons_of_mem _ hx)) hroom
    rw [collect_cons]
    refine ⟨?_, hend⟩
    rw [hrest, hfirst, List.flatMap_cons, List.append_assoc]

end collect

/-! ## straight walks -/

section

variable (succ : α → List α)

/-- one point follows another -/
def Follows (a b : α) : Prop := b ∈ succ a

/-- a walk from `root` on which no point repeats before the last one -/
structure IsStraight (root : α) (w : List α × α) : Prop where
  head : (w.1 ++ [w.2]).head? = some root
  chain : (w.1 ++ [w.2]).IsChain (Follows succ)
  nodup : w.1.Nodup

variable {succ} {p : List α} {root u v : α}

namespace IsStraight

theorem nil (root : α) : IsStraight succ root ([], root) :=
  ⟨rfl, List.isChain_singleton _, List.nodup_nil⟩

/-- a walk that has closed no cycle goes on -/
theorem extend (h : IsStraight succ root (p, u)) (hu : u ∉ p) (huv : Follows succ u v) :
    IsStraight succ root (p ++ [u], v) where
  head := by
    have hhead := h.head
    rw [List.head?_append, hhead, Option.some_or]
  chain := h.chain.append (List.isChain_singleton v) (by simpa using huv)
  nodup := h.nodup.append (List.nodup_singleton u) (by simpa using hu)

/-- the part of a walk before one of its points -/
theorem before {s t : List α} {c : α} (h : IsStraight succ root (s ++ c :: t, u)) :
    IsStraight succ root (s, c) ∧ c ∉ s := by
  have hsplit : s ++ c :: t ++ [u] = s ++ [c] ++ (t ++ [u]) := by simp
  have hhead := h.head
  have hchain := h.chain
  have hnodup := h.nodup
  dsimp only at hhead hchain hnodup
  rw [hsplit] at hhead hchain
  refine ⟨⟨?_, (List.isChain_append.1 hchain).1, (List.nodup_append.1 hnodup).1⟩, fun hc => ?_⟩
  · rw [List.head?_append] at hhead
    cases hs : (s ++ [c]).head? with
    | none => simp at hs
    | some x =>
      rw [hs] at hhead
      exact hhead
  · exact (List.nodup_append.1 hnodup).2.2 c hc c List.mem_cons_self rfl

/-- a walk comes from its root -/
theorem reaches (h : IsStraight succ root (p, u)) :
    Relation.ReflTransGen (Follows succ) root u := by
  cases p with
  | nil =>
    obtain rfl : u = root := Option.some.inj h.head
    exact .refl
  | cons a p =>
    obtain rfl : a = root := Option.some.inj h.head
    exact (Digraph.transGen_of_chain h.chain).to_reflTransGen

/-- a walk that closes comes to a cycle -/
theorem closes (h : IsStraight succ root (p, u)) (hu : u ∈ p) :
    Relation.TransGen (Follows succ) u u := by
  obtain ⟨s, t, rfl⟩ := List.append_of_mem hu
  have hchain := h.chain
  dsimp only at hchain
  rw [List.append_assoc] at hchain
  exact Digraph.transGen_of_chain (List.isChain_append.1 hchain).2.1

end IsStraight

/-- what is reachable, stands at the end of a walk that closes nothing -/
theorem exists_straight_iff : Relation.ReflTransGen (Follows succ) root u ↔
    ∃ p, IsStraight succ root (p, u) ∧ u ∉ p := by
  constructor
  · intro h
    induction h with
    | refl => exact ⟨[], .nil root, List.not_mem_nil⟩
    | @tail b c _ hbc ih =>
      obtain ⟨p, hp, hb⟩ := ih
      by_cases hc : c ∈ p ++ [b]
      · rcases List.mem_append.1 hc with hc | hc
        · obtain ⟨s, t, rfl⟩ := List.append_of_mem hc
          exact ⟨s, hp.before⟩
        · obtain rfl := List.mem_singleton.1 hc
          exact ⟨p, hp, hb⟩
      · exact ⟨p ++ [b], hp.extend hb hbc, hc⟩
  · rintro ⟨p, hp, -⟩
    exact hp.reaches

/-- a cycle is reachable exactly when a straight walk closes one -/
theorem exists_closing_iff : (∃ p u, IsStraight succ root (p, u) ∧ u ∈ p) ↔
    ∃ a, Relation.ReflTransGen (Follows succ) root a ∧ Relation.TransGen (Follows succ) a a := by
  constructor
  · rintro ⟨p, u, hp, hu⟩
    exact ⟨u, hp.reaches, hp.closes hu⟩
  · rintro ⟨a, ha, hcycle⟩
    by_contra hno
    have hopen : ∀ p u, IsStraight succ root (p, u) → u ∉ p := fun p u hp hu => hno ⟨p, u, hp, hu⟩
    obtain ⟨p, hp, -⟩ := exists_straight_iff.1 ha
    have hround : ∀ b, Relation.ReflTransGen (Follows succ) a b →
        ∃ q, IsStraight succ root (q, b) ∧ (a ∈ q ∨ a = b) := by
      intro b hb
      induction hb with
      | refl => exact ⟨p, hp, .inr rfl⟩
      | @tail b c _ hbc ih =>
        obtain ⟨q, hq, haq⟩ := ih
        refine ⟨q ++ [b], hq.extend (hopen q b hq) hbc, .inl ?_⟩
        rcases haq with haq | rfl
        · exact List.mem_append_left _ haq
        · exact List.mem_append_right _ (List.mem_singleton_self _)
    obtain ⟨b, hab, hba⟩ := Relation.TransGen.tail'_iff.1 hcycle
    obtain ⟨q, hq, haq⟩ := hround b hab
    refine hopen (q ++ [b]) a (hq.extend (hopen q b hq) hba) ?_
    rcases haq with haq | rfl
    · exact List.mem_append_left _ haq
    · exact List.mem_append_right _ (List.mem_singleton_self _)

end

variable [DecidableEq α]

/-! ## walks and search -/

inductive Event (α : Type*) where
  /-- a new point at the end of the path -/
  | visit (path : List α)
  /-- the last point has been met on the path -/
  | cycle (path : List α)
  /-- the search goes no further than the path -/
  | bound (path : List α)
  deriving DecidableEq

/-- what stands at the end of a walk, when fewer than `n` points may come before it -/
def event (n : ℕ) (w : List α × α) : Event α :=
  if n ≤ w.1.length then .bound w.1
  else if w.2 ∈ w.1 then .cycle (w.1 ++ [w.2])
  else .visit (w.1 ++ [w.2])

variable (succ : α → List α) (maxNodes : ℕ)

/-- the straight walks that go on from `path` with `v` -/
def walks : ℕ → List α → α → List (List α × α)
  | 0, path, v => [(path, v)]
  | left + 1, path, v =>
    (path, v) :: if v ∈ path then [] else (succ v).flatMap (walks left (path ++ [v]))

/-- the search from `v` at the end of `path`: what it meets, and what it has seen -/
def search : ℕ → List α → α → List α → List (Event α) × List α
  | 0, path, _, seen => ([.bound path], seen)
  | left + 1, path, v, seen =>
    if maxNodes ≤ seen.length then ([.bound path], seen)
    else if v ∈ path then ([.cycle (path ++ [v])], seen)
    else collect (search left (path ++ [v])) (succ v) ([.visit (path ++ [v])], seen.insert v)

variable {succ maxNodes} {left n : ℕ} {path p : List α} {root u v : α} {seen : List α}

/-! ## the walks -/

theorem mem_walks (hpath : path.Nodup) : (p, u) ∈ walks succ left path v ↔
    ∃ q, p = path ++ q ∧ (q ++ [u]).head? = some v ∧ (q ++ [u]).IsChain (Follows succ) ∧
      p.Nodup ∧ q.length ≤ left := by
  induction left generalizing path v with
  | zero =>
    constructor
    · intro h
      obtain ⟨rfl, rfl⟩ := Prod.mk.inj (List.mem_singleton.1 h)
      exact ⟨[], (List.append_nil _).symm, rfl, List.isChain_singleton _, hpath, le_rfl⟩
    · rintro ⟨q, rfl, hhead, -, -, hlen⟩
      obtain rfl := List.eq_nil_of_length_eq_zero (Nat.le_zero.1 hlen)
      obtain rfl : u = v := Option.some.inj hhead
      exact List.mem_singleton.2 (by rw [List.append_nil])
  | succ left ih =>
    rw [walks, List.mem_cons]
    constructor
    · rintro (h | h)
      · obtain ⟨rfl, rfl⟩ := Prod.mk.inj h
        exact ⟨[], (List.append_nil _).symm, rfl, List.isChain_singleton _, hpath, Nat.zero_le _⟩
      · split_ifs at h with hv
        · cases h
        · obtain ⟨x, hx, h⟩ := List.mem_flatMap.1 h
          have hnext : (path ++ [v]).Nodup :=
            hpath.append (List.nodup_singleton v) (by simpa using hv)
          obtain ⟨q, rfl, hhead, hchain, hnodup, hlen⟩ := (ih hnext).1 h
          refine ⟨v :: q, by simp, rfl, ?_, hnodup, Nat.succ_le_succ hlen⟩
          rw [List.cons_append, List.isChain_cons]
          refine ⟨fun y hy => ?_, hchain⟩
          rw [hhead] at hy
          cases hy
          exact hx
    · rintro ⟨q, rfl, hhead, hchain, hnodup, hlen⟩
      cases q with
      | nil =>
        obtain rfl : u = v := Option.some.inj hhead
        exact .inl (by rw [List.append_nil])
      | cons a q =>
        obtain rfl : a = v := Option.some.inj hhead
        have hsplit : path ++ a :: q = path ++ [a] ++ q := by simp
        have hnext : (path ++ [a]).Nodup := (List.nodup_append.1 (hsplit ▸ hnodup)).1
        have ha : a ∉ path := fun h =>
          (List.nodup_append.1 hnext).2.2 a h a (List.mem_singleton_self a) rfl
        rw [List.cons_append, List.isChain_cons] at hchain
        right
        rw [if_neg ha, List.mem_flatMap]
        cases hx : (q ++ [u]).head? with
        | none => simp at hx
        | some x =>
          exact ⟨x, hchain.1 x hx,
            (ih hnext).2 ⟨q, hsplit, hx, hchain.2, hnodup, Nat.le_of_succ_le_succ hlen⟩⟩

/-- the walks from a point are the straight ones -/
theorem mem_walks_root {w : List α × α} :
    w ∈ walks succ left [] root ↔ IsStraight succ root w ∧ w.1.length ≤ left := by
  obtain ⟨p, u⟩ := w
  rw [mem_walks List.nodup_nil]
  constructor
  · rintro ⟨q, rfl, hhead, hchain, hnodup, hlen⟩
    exact ⟨⟨hhead, hchain, hnodup⟩, hlen⟩
  · rintro ⟨⟨hhead, hchain, hnodup⟩, hlen⟩
    exact ⟨p, rfl, hhead, hchain, hnodup, hlen⟩

/-- a walk goes on from where it stands -/
theorem isPrefix_walks {w : List α × α} (hw : w ∈ walks succ left path v) :
    path ++ [v] <+: w.1 ++ [w.2] := by
  induction left generalizing path v with
  | zero => rw [List.mem_singleton.1 hw]
  | succ left ih =>
    rcases List.mem_cons.1 hw with rfl | hw
    · exact List.prefix_rfl
    · split_ifs at hw with hv
      · cases hw
      · obtain ⟨y, -, hy⟩ := List.mem_flatMap.1 hw
        exact (List.prefix_append _ _).trans (ih hy)

/-- no walk is listed twice -/
theorem nodup_walks (hsucc : ∀ v, (succ v).Nodup) : (walks succ left path v).Nodup := by
  induction left generalizing path v with
  | zero => exact List.nodup_singleton _
  | succ left ih =>
    unfold walks
    split_ifs with hv
    · exact List.nodup_singleton _
    · refine List.nodup_cons.2 ⟨fun hw => ?_, ?_⟩
      · obtain ⟨y, -, hy⟩ := List.mem_flatMap.1 hw
        have hlen := (isPrefix_walks hy).length_le
        simp at hlen
      · refine List.nodup_flatMap.2 ⟨fun y _ => ih, (hsucc v).imp fun {x y} hxy => ?_⟩
        intro w hx hy
        obtain ⟨s, hs⟩ := isPrefix_walks hx
        obtain ⟨t, ht⟩ := isPrefix_walks hy
        have heq : path ++ [v] ++ ([x] ++ s) = path ++ [v] ++ ([y] ++ t) := by
          rw [← List.append_assoc, ← List.append_assoc, hs, ht]
        exact hxy (List.cons.inj (List.append_cancel_left heq)).1

/-- as many straight walks as are listed -/
theorem ncard_walks (hsucc : ∀ v, (succ v).Nodup) (root : α)
    (hshort : ∀ w, IsStraight succ root w → w.1.length ≤ left) :
    {w | IsStraight succ root w}.ncard = (walks succ left [] root).length := by
  have hset : {w | IsStraight succ root w} = ((walks succ left [] root).toFinset : Set _) := by
    ext w
    rw [List.coe_toFinset]
    exact ⟨fun hw => mem_walks_root.2 ⟨hw, hshort w hw⟩, fun hw => (mem_walks_root.1 hw).1⟩
  rw [hset, Set.ncard_coe_finset, List.toFinset_card_of_nodup (nodup_walks hsucc)]

/-! ## the search -/

def Event.isBound : Event α → Prop
  | .bound _ => True
  | _ => False

theorem event_isBound_iff {w : List α × α} : (event n w).isBound ↔ n ≤ w.1.length := by
  unfold event
  split_ifs with hlen hw
  · exact iff_of_true trivial hlen
  · exact iff_of_false id hlen
  · exact iff_of_false id hlen

/-- the search meets no bound: then it has met the ends of all walks -/
theorem search_eq (hn : path.length + left = n)
    (hfree : ∀ e ∈ (search succ maxNodes left path v seen).1, ¬ e.isBound) :
    (search succ maxNodes left path v seen).1 = (walks succ left path v).map (event n) := by
  induction left generalizing path v seen with
  | zero => exact absurd trivial (hfree (.bound path) (List.mem_singleton_self _))
  | succ left ih =>
    have hlen : ¬ n ≤ path.length := by omega
    unfold search at hfree ⊢
    unfold walks
    by_cases hfull : maxNodes ≤ seen.length
    · rw [if_pos hfull] at hfree
      exact absurd trivial (hfree (.bound path) (List.mem_singleton_self _))
    · rw [if_neg hfull] at hfree ⊢
      by_cases hv : v ∈ path
      · rw [if_pos hv, if_pos hv, List.map_singleton, event, if_neg hlen, if_pos hv]
      · rw [if_neg hv] at hfree ⊢
        rw [if_neg hv, List.map_cons, event, if_neg hlen, if_neg hv, List.map_flatMap]
        refine collect_eq (fun u hu seen hseen => ih ?_ hseen) hfree
        rw [List.length_append, List.length_singleton]
        omega

/-- what the search meets besides bounds, stands at the end of a walk -/
theorem mem_search (hn : path.length + left = n) {e : Event α}
    (he : e ∈ (search succ maxNodes left path v seen).1) (hfree : ¬ e.isBound) :
    e ∈ (walks succ left path v).map (event n) := by
  induction left generalizing path v seen with
  | zero =>
    obtain rfl := List.mem_singleton.1 he
    exact absurd trivial hfree
  | succ left ih =>
    have hlen : ¬ n ≤ path.length := by omega
    unfold search at he
    unfold walks
    split_ifs at he with hfull hv
    · obtain rfl := List.mem_singleton.1 he
      exact absurd trivial hfree
    · rw [if_pos hv, List.map_singleton, event, if_neg hlen, if_pos hv]
      exact he
    · rw [if_neg hv, List.map_cons, event, if_neg hlen, if_neg hv, List.map_flatMap, List.mem_cons]
      rcases mem_collect he with he | ⟨u, hu, seen', he⟩
      · exact .inl (List.mem_singleton.1 he)
      · refine .inr (List.mem_flatMap.2 ⟨u, hu, ih ?_ he⟩)
        rw [List.length_append, List.length_singleton]
        omega

/-- the search has room for all walks: then it meets their ends -/
theorem search_eq_of_room (I : ℕ → List α → Prop) (hroom : ∀ k seen, I (k + 1) seen →
      seen.length < maxNodes ∧ I k seen ∧ ∀ v, Relation.ReflTransGen (Follows succ) root v →
        I k (seen.insert v))
    (hn : path.length + left = n) (hv : Relation.ReflTransGen (Follows succ) root v) {k : ℕ}
    (hI : I ((walks succ left path v).length + k) seen) :
    (search succ maxNodes left path v seen).1 = (walks succ left path v).map (event n) ∧
      I k (search succ maxNodes left path v seen).2 := by
  induction left generalizing path v seen k with
  | zero =>
    refine ⟨?_, (hroom k seen (Nat.add_comm 1 k ▸ hI)).2.1⟩
    show [Event.bound path] = [event n (path, v)]
    rw [event, if_pos (by dsimp only; omega)]
  | succ left ih =>
    have hlen : ¬ n ≤ path.length := by omega
    unfold search
    unfold walks at hI ⊢
    by_cases hvp : v ∈ path
    · rw [if_pos hvp] at hI ⊢
      obtain ⟨hfree, hnext, -⟩ := hroom k seen (Nat.add_comm 1 k ▸ hI)
      rw [if_neg (Nat.not_le.2 hfree), if_pos hvp, List.map_singleton, event, if_neg hlen,
        if_pos hvp]
      exact ⟨rfl, hnext⟩
    · rw [if_neg hvp, List.length_cons, Nat.succ_add] at hI
      rw [if_neg hvp]
      obtain ⟨hfree, -, hinsert⟩ := hroom _ seen hI
      rw [if_neg (Nat.not_le.2 hfree), if_neg hvp, List.map_cons, event, if_neg hlen, if_neg hvp,
        List.map_flatMap]
      have hbranches : I (((succ v).flatMap fun u =>
          (walks succ left (path ++ [v]) u).map (event n)).length + k) (seen.insert v) := by
        rw [← List.map_flatMap, List.length_map]
        exact hinsert v hv
      refine collect_room (I := I) (fun u hu k seen hk => ih ?_ (hv.tail hu) ?_) hbranches
      · rw [List.length_append, List.length_singleton]
        omega
      · rwa [List.length_map] at hk

/-- fewer points than the bound can be reached -/
theorem search_eq_of_few_points (hfinite : {x | Relation.ReflTransGen (Follows succ) root x}.Finite)
    (hfew : {x | Relation.ReflTransGen (Follows succ) root x}.ncard < maxNodes) :
    (search succ maxNodes n [] root []).1 = (walks succ n [] root).map (event n) := by
  let R : Set α := {x | Relation.ReflTransGen (Follows succ) root x}
  let I : ℕ → List α → Prop := fun _ seen => seen.Nodup ∧ ∀ x ∈ seen, x ∈ R
  have hroom : ∀ (k : ℕ) (seen : List α), I (k + 1) seen →
      seen.length < maxNodes ∧ I k seen ∧ ∀ v ∈ R, I k (seen.insert v) := by
    rintro k seen ⟨hnodup, hseen⟩
    refine ⟨?_, ⟨hnodup, hseen⟩, fun v hv => ⟨hnodup.insert, fun x hx => ?_⟩⟩
    · have hcard : seen.length = (seen.toFinset : Set α).ncard := by
        rw [Set.ncard_coe_finset, List.toFinset_card_of_nodup hnodup]
      have hsub : (seen.toFinset : Set α) ⊆ R := fun x hx => hseen x (by simpa using hx)
      have hle : (seen.toFinset : Set α).ncard ≤ R.ncard := Set.ncard_le_ncard hsub hfinite
      have hfew' : R.ncard < maxNodes := hfew
      omega
    · rcases List.mem_insert_iff.1 hx with rfl | hx
      · exact hv
      · exact hseen x hx
  have hstart : I ((walks succ n [] root).length + 0) [] := ⟨List.nodup_nil, by simp⟩
  exact (search_eq_of_room I hroom (Nat.zero_add n) .refl (k := 0) hstart).1

/-- there are no more walks than the bound -/
theorem search_eq_of_few_walks (hfew : (walks succ n [] root).length ≤ maxNodes) :
    (search succ maxNodes n [] root []).1 = (walks succ n [] root).map (event n) := by
  have hroom : ∀ (k : ℕ) (seen : List α), seen.length + (k + 1) ≤ maxNodes →
      seen.length < maxNodes ∧ seen.length + k ≤ maxNodes ∧
        ∀ v, Relation.ReflTransGen (Follows succ) root v →
          (seen.insert v).length + k ≤ maxNodes := by
    intro k seen hk
    refine ⟨by omega, by omega, fun v _ => ?_⟩
    have hlen : (seen.insert v).length ≤ seen.length + 1 := by
      by_cases hv : v ∈ seen
      · rw [List.insert_of_mem hv]
        omega
      · rw [List.insert_of_not_mem hv, List.length_cons]
    omega
  have hstart : ([] : List α).length + ((walks succ n [] root).length + 0) ≤ maxNodes := by
    simpa using hfew
  exact (search_eq_of_room (fun k seen => seen.length + k ≤ maxNodes) hroom (Nat.zero_add n) .refl
    hstart).1

/-- the search goes to the end of every walk only when all of them are short -/
theorem IsStraight.short (hfree : ∀ w ∈ walks succ n [] root, ¬ (event n w).isBound)
    (h : IsStraight succ root (p, u)) : p.length < n := by
  by_contra hlong
  have hcut : ∃ c, IsStraight succ root (p.take n, c) := by
    cases ht : p.drop n with
    | nil =>
      have hall : p.take n = p := List.take_of_length_le (List.drop_eq_nil_iff.1 ht)
      exact ⟨u, hall.symm ▸ h⟩
    | cons c t =>
      have hsplit : p = p.take n ++ c :: t := ht ▸ (List.take_append_drop n p).symm
      rw [hsplit] at h
      exact ⟨c, h.before.1⟩
  obtain ⟨c, hc⟩ := hcut
  have hlen : (p.take n).length = n := List.length_take_of_le (Nat.not_lt.1 hlong)
  exact hfree _ (mem_walks_root.2 ⟨hc, hlen.le⟩) (event_isBound_iff.2 hlen.ge)

end Straight
