import LifeAI.Lib.Digraph
import LifeAI.Tasks.Planner

/-!
# The cycle search is exact

`Dfs.Sound` is the invariant of the search: the path is a walk through the gray nodes, and the
black nodes are behind it.  `Dfs.foldlM_post` is a loop over nodes, and `visit_post` one call of
`visit`, by induction on the fuel.

* `detectCycle_spec`  a reported cycle is one, and without a report there is none.
-/

namespace LifeAI

open Digraph

/-- the edges as a relation -/
def edgeRel (edges : List (Nat × Nat)) (a b : Nat) : Prop := (a, b) ∈ edges

theorem mem_adjacencyOf {n : Nat} {edges : List (Nat × Nat)} {a b : Nat} (ha : a < n) :
    b ∈ (adjacencyOf n edges).getD a [] ↔ edgeRel edges a b := by
  simp only [adjacencyOf, List.getD_eq_getElem?_getD, List.getElem?_map,
    List.getElem?_range ha, Option.map_some, Option.getD_some, List.mem_map, List.mem_filter,
    decide_eq_true_eq, edgeRel]
  constructor
  · rintro ⟨⟨a', b'⟩, ⟨hm, rfl⟩, rfl⟩
    exact hm
  · intro h
    exact ⟨(a, b), ⟨h, rfl⟩, rfl⟩

/-! ## the state of the search -/

namespace Dfs

/-- the invariant of the search -/
structure Sound (r : Nat → Nat → Prop) (n : Nat) (s : Dfs) : Prop where
  size : s.color.length = n
  path : s.path.IsChain r
  gray : ∀ a, a ∈ s.path ↔ s.color[a]? = some .gray
  behind : Finished r fun (a : Nat) => s.color[a]? = some Color.black

/-- the nodes that may still be entered -/
def whites (s : Dfs) : Nat := s.color.count Color.white

/-- what a finished part of the search leaves as it was -/
structure Extends (s s' : Dfs) : Prop where
  path : s'.path = s.path
  color : ∀ (a : Nat) (c : Color), s.color[a]? = some c → c ≠ .white → s'.color[a]? = some c
  whites : s'.whites ≤ s.whites

theorem Extends.refl (s : Dfs) : Extends s s := ⟨rfl, fun _ _ h _ => h, le_rfl⟩

theorem Extends.trans {a b c : Dfs} (h : Extends a b) (h' : Extends b c) : Extends a c :=
  ⟨h'.path.trans h.path, fun i k hk hw => h'.color i k (h.color i k hk hw) hw,
    h'.whites.trans h.whites⟩

variable {r : Nat → Nat → Prop} {n : Nat} {s s' : Dfs} {v : Nat}

/-- `node` is entered -/
def enter (s : Dfs) (v : Nat) : Dfs := { color := s.color.set v .gray, path := s.path ++ [v] }

/-- `node` is left -/
def leave (s : Dfs) (v : Nat) : Dfs := { color := s.color.set v .black, path := s.path.dropLast }

theorem sound_start : Sound r n { color := List.replicate n .white } := by
  refine ⟨by simp, by simp, fun a => ?_, Finished.empty fun a => ?_⟩
  · simp [List.getElem?_replicate]
  · simp [List.getElem?_replicate]

theorem whites_enter (hv : s.color[v]? = some .white) : (s.enter v).whites + 1 = s.whites := by
  obtain ⟨hlt, hw⟩ := List.getElem?_eq_some_iff.1 hv
  have hpos : 0 < s.color.count Color.white := List.count_pos_iff.2 (List.mem_of_getElem? hv)
  simp only [whites, enter, List.count_set hlt, hw]
  simp
  omega

theorem Sound.enter (h : s.Sound r n) (hv : s.color[v]? = some .white)
    (hchain : (s.path ++ [v]).IsChain r) : (s.enter v).Sound r n := by
  refine ⟨by simpa [Dfs.enter] using h.size, hchain, fun a => ?_, ?_⟩
  · simp only [Dfs.enter, List.mem_append, List.mem_singleton, getElem?_set_row hv, h.gray]
    by_cases hva : v = a
    · simp [hva]
    · simp [hva, Ne.symm hva]
  · have hblack : (fun (a : Nat) => (s.enter v).color[a]? = some Color.black)
        = fun (a : Nat) => s.color[a]? = some Color.black := by
      funext a
      simp only [Dfs.enter, getElem?_set_row hv]
      by_cases hva : v = a
      · subst hva
        simp [hv]
      · simp [hva]
    rw [hblack]
    exact h.behind

/-- the walk goes on from the node that was entered -/
theorem Sound.chain_enter (h : (s.enter v).Sound r n) {b : Nat} (hb : r v b) :
    ((s.enter v).path ++ [b]).IsChain r := by
  refine List.IsChain.append h.path (by simp) fun x hx y hy => ?_
  have hx' : v = x := by simpa [Dfs.enter] using hx
  have hy' : b = y := by simpa using hy
  exact hx' ▸ hy' ▸ hb

/-- the neighbours of `v` are black when it is left -/
theorem Sound.leave (h : s'.Sound r n) (hs : s.Sound r n) (hv : s.color[v]? = some .white)
    (hext : (s.enter v).Extends s') (hsucc : ∀ b, r v b → s'.color[b]? = some .black) :
    (s'.leave v).Sound r n ∧ s.Extends (s'.leave v) := by
  have hpath : s'.path = s.path ++ [v] := hext.path
  have hdrop : (s'.leave v).path = s.path := by simp [Dfs.leave, hpath]
  have hgray : s'.color[v]? = some .gray := by
    refine hext.color v .gray ?_ (by decide)
    simp [Dfs.enter, getElem?_set_row hv]
  have hnew : v ∉ s.path := fun hm => by
    have := (hs.gray v).1 hm
    rw [hv] at this
    exact absurd this (by decide)
  have hcolor : ∀ a : Nat, (s'.leave v).color[a]? = if v = a then some .black else s'.color[a]? :=
    fun a => getElem?_set_row hgray
  refine ⟨⟨by simpa [Dfs.leave] using h.size, by rw [hdrop]; exact hs.path, fun a => ?_, ?_⟩,
    hdrop, fun a c hc hw => ?_, ?_⟩
  · have hmem := h.gray a
    rw [hpath, List.mem_append, List.mem_singleton] at hmem
    rw [hdrop, hcolor]
    by_cases hva : v = a
    · subst hva
      simp [hnew]
    · simpa [hva, Ne.symm hva] using hmem
  · refine h.behind.insert (v := v) (by rw [hgray]; decide) hsucc fun a => ?_
    rw [hcolor]
    by_cases hva : v = a
    · simp [hva]
    · simp [hva, Ne.symm hva]
  · have hva : v ≠ a := by
      rintro rfl
      rw [hv] at hc
      exact hw (Option.some.inj hc).symm
    rw [hcolor, if_neg hva]
    refine hext.color a c ?_ hw
    simp only [Dfs.enter, getElem?_set_row hv, if_neg hva]
    exact hc
  · obtain ⟨hlt, hg⟩ := List.getElem?_eq_some_iff.1 hgray
    have h1 := hext.whites
    have h2 := whites_enter hv
    have h3 : (s'.leave v).whites = s'.whites := by
      simp [whites, Dfs.leave, List.count_set hlt, hg]
    omega

/-- what a part of the search that blackens the nodes `done` ends with -/
def Post (r : Nat → Nat → Prop) (n : Nat) (s : Dfs) (done : List Nat) :
    Except (List Nat) Dfs → Prop
  | .ok s' => s'.Sound r n ∧ s.Extends s' ∧ ∀ b ∈ done, s'.color[b]? = some .black
  | .error cycle => ClosedWalk r cycle

/-- a loop over nodes each of which is blackened; `p` is the path and `k` bounds the fuel -/
theorem foldlM_post (bs : List Nat) (k : Nat) {p : List Nat}
    {f : Dfs → Nat → Except (List Nat) Dfs} (hf : ∀ s, s.Sound r n → s.path = p →
      s.whites ≤ k → ∀ b ∈ bs, Post r n s [b] (f s b))
    (hs : s.Sound r n) (hp : s.path = p) (hk : s.whites ≤ k) :
    Post r n s bs (bs.foldlM f s) := by
  induction bs generalizing s with
  | nil => exact ⟨hs, .refl s, by simp⟩
  | cons b bs ih =>
    have hstep := hf s hs hp hk b (List.mem_cons_self ..)
    rw [List.foldlM_cons]
    cases h1 : f s b with
    | error cycle =>
      rw [h1] at hstep
      exact hstep
    | ok s1 =>
      rw [h1] at hstep
      obtain ⟨hs1, hext, hdone⟩ := hstep
      have hrest := ih (fun s hs hp hk b hb => hf s hs hp hk b (List.mem_cons_of_mem _ hb)) hs1
        (hext.path.trans hp) (hext.whites.trans hk)
      show Post r n s (b :: bs) (bs.foldlM f s1)
      cases h2 : bs.foldlM f s1 with
      | error cycle =>
        rw [h2] at hrest
        exact hrest
      | ok s2 =>
        rw [h2] at hrest
        obtain ⟨hs2, hext2, hdone2⟩ := hrest
        refine ⟨hs2, hext.trans hext2, fun c hc => ?_⟩
        rcases List.mem_cons.1 hc with rfl | hc
        · exact hext2.color c .black (hdone c (by simp)) (by decide)
        · exact hdone2 c hc

/-- the color of a node -/
theorem Sound.color_getD (h : s.Sound r n) (hv : v < n) :
    s.color[v]? = some (s.color.getD v .black) := by
  rw [← h.size] at hv
  simp [List.getD_eq_getElem?_getD, List.getElem?_eq_getElem hv]

end Dfs

/-! ## the search -/

/-- one step of the loop over the neighbours of a node -/
def follow (adjacency : List (List Nat)) (fuel : Nat) (s : Dfs) (neighbor : Nat) :
    Except (List Nat) Dfs :=
  match s.color.getD neighbor .black with
  | .gray => .error (s.path.drop (s.path.idxOf neighbor) ++ [neighbor])
  | .white => visit adjacency fuel s neighbor
  | .black => .ok s

theorem visit_succ (adjacency : List (List Nat)) (fuel : Nat) (s : Dfs) (v : Nat) :
    visit adjacency (fuel + 1) s v =
      ((adjacency.getD v []).foldlM (follow adjacency fuel) (s.enter v)).map (·.leave v) := by
  rw [visit]
  show ((adjacency.getD v []).foldlM (follow adjacency fuel) (s.enter v) >>= fun s' =>
    pure (s'.leave v)) = _
  cases (adjacency.getD v []).foldlM (follow adjacency fuel) (s.enter v) <;> rfl

variable {edges : List (Nat × Nat)} {n : Nat}

/-- a call of `visit` that is given enough fuel -/
def VisitPost (edges : List (Nat × Nat)) (n fuel : Nat) : Prop :=
  ∀ s v, Dfs.Sound (edgeRel edges) n s → s.whites ≤ fuel → s.color[v]? = some .white →
    (s.path ++ [v]).IsChain (edgeRel edges) →
    Dfs.Post (edgeRel edges) n s [v] (visit (adjacencyOf n edges) fuel s v)

/-- one step of the loop over the neighbours -/
theorem follow_post {fuel : Nat} (hvisit : VisitPost edges n fuel) {s : Dfs} {b : Nat}
    (hs : s.Sound (edgeRel edges) n) (hfuel : s.whites ≤ fuel) (hn : b < n)
    (hchain : (s.path ++ [b]).IsChain (edgeRel edges)) :
    Dfs.Post (edgeRel edges) n s [b] (follow (adjacencyOf n edges) fuel s b) := by
  have hcolor := hs.color_getD hn
  unfold follow
  cases hc : s.color.getD b .black with
  | gray =>
    rw [hc] at hcolor
    exact ClosedWalk.of_path ((hs.gray b).2 hcolor) hchain
  | white =>
    rw [hc] at hcolor
    exact hvisit s b hs hfuel hcolor hchain
  | black =>
    rw [hc] at hcolor
    exact ⟨hs, .refl s, by simpa using hcolor⟩

/-- one call of `visit`, by induction on the fuel -/
theorem visit_post (hedges : ∀ a b, edgeRel edges a b → a < n ∧ b < n) (fuel : Nat) :
    VisitPost edges n fuel := by
  induction fuel with
  | zero =>
    intro s v _ hfuel hv _
    have := Dfs.whites_enter hv
    omega
  | succ fuel ih =>
    intro s v hs hfuel hv hchain
    have hlt : v < n := by
      rw [← hs.size]
      exact (List.getElem?_eq_some_iff.1 hv).1
    have henter := hs.enter hv hchain
    have hwhites := Dfs.whites_enter hv
    have hnb : ∀ b ∈ (adjacencyOf n edges).getD v [], edgeRel edges v b := fun b hb =>
      (mem_adjacencyOf hlt).1 hb
    have hchain' : ∀ b ∈ (adjacencyOf n edges).getD v [],
        ((s.enter v).path ++ [b]).IsChain (edgeRel edges) := fun b hb =>
      henter.chain_enter (hnb b hb)
    have hloop := Dfs.foldlM_post _ fuel
      (fun s1 hs1 hp hk b hb => follow_post ih hs1 hk (hedges v b (hnb b hb)).2
        (hp ▸ hchain' b hb)) henter rfl (by omega)
    rw [visit_succ]
    cases hf : ((adjacencyOf n edges).getD v []).foldlM (follow (adjacencyOf n edges) fuel)
        (s.enter v) with
    | error cycle =>
      rw [hf] at hloop
      exact hloop
    | ok s' =>
      rw [hf] at hloop
      obtain ⟨hs', hext, hdone⟩ := hloop
      obtain ⟨h1, h2⟩ := hs'.leave hs hv hext fun b hb => hdone b ((mem_adjacencyOf hlt).2 hb)
      refine ⟨h1, h2, fun b hb => ?_⟩
      rw [List.mem_singleton.1 hb]
      have hgray : s'.color[v]? = some .gray :=
        hext.color v .gray (by simp [Dfs.enter, getElem?_set_row hv]) (by decide)
      simp [Dfs.leave, getElem?_set_row hgray]

/-- one step of the loop over all nodes; the path is empty between two of them -/
theorem root_post (hedges : ∀ a b, edgeRel edges a b → a < n ∧ b < n) {s : Dfs} {v : Nat}
    (hs : s.Sound (edgeRel edges) n) (hp : s.path = []) (hfuel : s.whites ≤ n) (hv : v < n) :
    Dfs.Post (edgeRel edges) n s [v]
      (if s.color.getD v .black = .white then visit (adjacencyOf n edges) n s v else .ok s) := by
  have hcolor := hs.color_getD hv
  split
  · next hw =>
    rw [hw] at hcolor
    exact visit_post hedges n s v hs hfuel hcolor (by rw [hp]; simp)
  · next hw =>
    cases hc : s.color.getD v .black with
    | white => exact absurd hc hw
    | gray =>
      rw [hc] at hcolor
      have hmem := (hs.gray v).2 hcolor
      rw [hp] at hmem
      exact absurd hmem (by simp)
    | black =>
      rw [hc] at hcolor
      exact ⟨hs, .refl s, by simpa using hcolor⟩

/-- **`_detect_cycle` is exact**: a reported cycle is one, and without a report there is none -/
theorem detectCycle_spec (hedges : ∀ a b, edgeRel edges a b → a < n ∧ b < n) :
    match detectCycle n edges with
    | none => Acyclic (edgeRel edges)
    | some cycle => ClosedWalk (edgeRel edges) cycle := by
  have hpost := Dfs.foldlM_post (List.range n) n
    (fun s hs hp hk v hv => root_post hedges hs hp hk (List.mem_range.1 hv)) Dfs.sound_start rfl
    (by simp [Dfs.whites])
  unfold detectCycle
  dsimp only
  split
  · next h =>
    split at h
    · next s hok =>
      rw [hok] at hpost
      obtain ⟨hs, -, hdone⟩ := hpost
      exact hs.behind.all fun a b hab => hdone a (List.mem_range.2 (hedges a b hab).1)
    · exact absurd h (by simp)
  · next cycle h =>
    split at h
    · exact absurd h (by simp)
    · next cycle' herr =>
      rw [herr] at hpost
      cases h
      exact hpost

theorem acyclic_of_detectCycle (hedges : ∀ a b, edgeRel edges a b → a < n ∧ b < n)
    (h : detectCycle n edges = none) : Acyclic (edgeRel edges) := by
  have := detectCycle_spec hedges
  rwa [h] at this

end LifeAI
