import Mathlib.Data.List.Nodup
import Mathlib.Data.List.Pairwise

/-!
# Breadth-first search under three bounds

A graph is a function `next` from a node to its labelled successors, in order.  The search keeps a
queue of cells.  A cell that is taken from it is found, unless its node was visited before or the
found nodes of its kind are as many as allowed.  A found cell within the depth bound puts its
successors at the end of the queue.

* `Chain`         a chain of edges from the root to a node;
* `State.step`    one round of the search, `none` where it ends;
* `Inv`           what every round keeps (`Inv.steps` for all of them);
* `Inv.shortest`  no chain through found nodes is shorter than the one that the search took.
-/

set_option linter.unusedSectionVars false

namespace Breadth

variable {α ρ τ : Type*} [DecidableEq α] [DecidableEq τ]

/-- an entry of the queue: a node, how far it is, and the chain that leads there -/
structure Cell (α ρ : Type*) where
  node : α
  depth : ℕ
  path : List (α × ρ)

structure Caps where
  depth : ℕ
  total : ℕ
  each : ℕ

structure State (α ρ : Type*) where
  queue : List (Cell α ρ)
  visited : List α := []
  found : List (Cell α ρ) := []

/-- `p` is a chain of edges from the root to the node -/
inductive Chain (next : α → List (α × ρ)) (root : α × ρ) : List (α × ρ) → α → Prop
  | root : Chain next root [root] root.1
  | step {p : List (α × ρ)} {u : α} {e : α × ρ} (h : Chain next root p u) (he : e ∈ next u) :
      Chain next root (p ++ [e]) e.1

namespace Chain

variable {next : α → List (α × ρ)} {root : α × ρ} {p : List (α × ρ)} {v : α}

theorem ends (h : Chain next root p v) : ∃ e ∈ p, e.1 = v := by
  cases h with
  | root => exact ⟨root, List.mem_singleton_self root, rfl⟩
  | @step q u e hq he => exact ⟨e, List.mem_append_right q (List.mem_singleton_self e), rfl⟩

theorem pos (h : Chain next root p v) : 0 < p.length := by
  obtain ⟨e, he, -⟩ := h.ends
  exact List.length_pos_of_mem he

theorem head (h : Chain next root p v) : p.head? = some root := by
  induction h with
  | root => rfl
  | @step p u e hp he ih =>
    rw [List.head?_append, ih]
    rfl

/-- a chain of no edges stays at the root -/
theorem eq_root (h : Chain next root p v) (hlen : p.length = 1) : v = root.1 := by
  cases h with
  | root => rfl
  | @step q u e hq he =>
    have hpos := hq.pos
    rw [List.length_append, List.length_singleton] at hlen
    omega

end Chain

section
variable (next : α → List (α × ρ)) (kind : α → τ) (caps : Caps)

/-- the cells of the successors that were not visited, none at the depth bound -/
def Cell.children (visited : List α) (c : Cell α ρ) : List (Cell α ρ) :=
  if caps.depth ≤ c.depth then []
  else ((next c.node).filter fun e => e.1 ∉ visited).map fun e => ⟨e.1, c.depth + 1, c.path ++ [e]⟩

/-- one round -/
def State.step (s : State α ρ) : Option (State α ρ) :=
  match s.queue with
  | [] => none
  | c :: rest =>
    if caps.total ≤ s.found.length then none
    else if c.node ∈ s.visited then some { s with queue := rest }
    else if caps.each ≤ s.found.countP (fun x => kind x.node = kind c.node) then
      some { s with queue := rest, visited := c.node :: s.visited }
    else
      some { queue := rest ++ c.children next caps (c.node :: s.visited)
             visited := c.node :: s.visited, found := s.found ++ [c] }

/-- the search begins with the root, or with nothing -/
def start (root : Option (α × ρ)) : State α ρ :=
  { queue := (root.map fun r => ⟨r.1, 0, [r]⟩).toList }

/-- a cell is where its chain leads -/
structure Cell.Sound (root : α × ρ) (c : Cell α ρ) : Prop where
  chain : Chain next root c.path c.node
  length : c.path.length = c.depth + 1
  within : c.depth ≤ caps.depth

/-- what every round keeps -/
structure Inv (root : α × ρ) (s : State α ρ) : Prop where
  queued : ∀ c ∈ s.queue, c.Sound next caps root
  sound : ∀ c ∈ s.found, c.Sound next caps root
  nodup : (s.found.map Cell.node).Nodup
  visited : ∀ c ∈ s.found, c.node ∈ s.visited
  total : s.found.length ≤ caps.total
  each : ∀ k, s.found.countP (fun x => kind x.node = k) ≤ caps.each
  /-- the queue is in order of depth, and at most one level deep -/
  sorted : s.queue.Pairwise fun a b => a.depth ≤ b.depth
  level : ∀ a ∈ s.queue, ∀ b ∈ s.queue, b.depth ≤ a.depth + 1
  behind : ∀ a ∈ s.found, ∀ b ∈ s.queue, a.depth ≤ b.depth
  /-- a successor of a found node is at most one level below it, if it is found at all -/
  near : ∀ u ∈ s.found, u.depth < caps.depth → ∀ e ∈ next u.node,
    (∀ w ∈ s.found, w.node = e.1 → w.depth ≤ u.depth + 1) ∧
      (e.1 ∈ s.visited ∨ ∃ q ∈ s.queue, q.node = e.1 ∧ q.depth ≤ u.depth + 1)
  /-- the root comes first -/
  first : s.visited = [] ∧ (∀ q ∈ s.queue, q.depth = 0) ∨
    root.1 ∈ s.visited ∧ ∀ w ∈ s.found, w.node = root.1 → w.depth = 0

end

variable {next : α → List (α × ρ)} {kind : α → τ} {caps : Caps} {root : α × ρ}
  {s t : State α ρ} {c k : Cell α ρ} {rest : List (Cell α ρ)} {visited : List α}

theorem mem_children : k ∈ c.children next caps visited ↔ c.depth < caps.depth ∧
    ∃ e ∈ next c.node, e.1 ∉ visited ∧ k = ⟨e.1, c.depth + 1, c.path ++ [e]⟩ := by
  unfold Cell.children
  split
  · rename_i hle
    exact iff_of_false List.not_mem_nil fun h => Nat.not_lt.2 hle h.1
  · rename_i hlt
    rw [List.mem_map]
    constructor
    · intro h
      obtain ⟨e, he, rfl⟩ := h
      rw [List.mem_filter] at he
      exact ⟨Nat.lt_of_not_le hlt, e, he.1, of_decide_eq_true he.2, rfl⟩
    · intro h
      obtain ⟨-, e, he, hnew, rfl⟩ := h
      exact ⟨e, List.mem_filter.2 ⟨he, decide_eq_true hnew⟩, rfl⟩

theorem depth_children (h : k ∈ c.children next caps visited) : k.depth = c.depth + 1 := by
  obtain ⟨-, e, -, -, rfl⟩ := mem_children.1 h
  rfl

/-- a child of a sound cell is sound -/
theorem Cell.Sound.child (h : c.Sound next caps root) (hk : k ∈ c.children next caps visited) :
    k.Sound next caps root := by
  obtain ⟨hlt, e, he, -, rfl⟩ := mem_children.1 hk
  refine ⟨h.chain.step he, ?_, hlt⟩
  show (c.path ++ [e]).length = c.depth + 1 + 1
  rw [List.length_append, h.length, List.length_singleton]

/-- what a round does: the head of the queue is left out, counted as visited, or found -/
theorem step_cases (h : s.step next kind caps = some t) : ∃ c rest, s.queue = c :: rest ∧
    s.found.length < caps.total ∧
    ((c.node ∈ s.visited ∧ t = { s with queue := rest }) ∨
      (c.node ∉ s.visited ∧ t = { s with queue := rest, visited := c.node :: s.visited }) ∨
      (c.node ∉ s.visited ∧ s.found.countP (fun x => kind x.node = kind c.node) < caps.each ∧
        t = { queue := rest ++ c.children next caps (c.node :: s.visited)
              visited := c.node :: s.visited, found := s.found ++ [c] })) := by
  unfold State.step at h
  split at h
  · cases h
  · rename_i c rest hqueue
    split_ifs at h with htotal hvisited heach
    · cases h
      exact ⟨c, rest, hqueue, Nat.lt_of_not_le htotal, .inl ⟨hvisited, rfl⟩⟩
    · cases h
      exact ⟨c, rest, hqueue, Nat.lt_of_not_le htotal, .inr (.inl ⟨hvisited, rfl⟩)⟩
    · cases h
      exact ⟨c, rest, hqueue, Nat.lt_of_not_le htotal,
        .inr (.inr ⟨hvisited, Nat.lt_of_not_le heach, rfl⟩)⟩

namespace Inv

variable (h : Inv next kind caps root s)
include h

/-- at depth 0 there is the root only -/
theorem head_root (hqueue : s.queue = c :: rest) (hzero : ∀ q ∈ s.queue, q.depth = 0) :
    c.node = root.1 := by
  have hc : c ∈ s.queue := by rw [hqueue]; exact List.mem_cons_self
  have hsound := h.queued c hc
  exact hsound.chain.eq_root (by rw [hsound.length, hzero c hc])

theorem found_nil (hempty : s.visited = []) : s.found = [] := by
  refine List.eq_nil_iff_forall_not_mem.2 fun w hw => ?_
  have hmem := h.visited w hw
  rw [hempty] at hmem
  cases hmem

/-- the head of the queue was visited before -/
theorem skip (hqueue : s.queue = c :: rest) (hvisited : c.node ∈ s.visited) :
    Inv next kind caps root { s with queue := rest } := by
  have hmem : ∀ q ∈ rest, q ∈ s.queue := fun q hq => by
    rw [hqueue]
    exact List.mem_cons_of_mem c hq
  have hsorted := h.sorted
  rw [hqueue] at hsorted
  refine ⟨fun q hq => h.queued q (hmem q hq), h.sound, h.nodup, h.visited, h.total, h.each,
    hsorted.of_cons, fun a ha b hb => h.level a (hmem a ha) b (hmem b hb),
    fun a ha b hb => h.behind a ha b (hmem b hb), fun u hu hlt e he => ?_, ?_⟩
  · obtain ⟨hnear, hseen⟩ := h.near u hu hlt e he
    refine ⟨hnear, ?_⟩
    rcases hseen with hseen | ⟨q, hq, hnode, hdepth⟩
    · exact .inl hseen
    · rw [hqueue, List.mem_cons] at hq
      rcases hq with rfl | hq
      · exact .inl (hnode ▸ hvisited)
      · exact .inr ⟨q, hq, hnode, hdepth⟩
  · rcases h.first with ⟨hempty, -⟩ | hfirst
    · rw [hempty] at hvisited
      cases hvisited
    · exact .inr hfirst

/-- the head of the queue counts as visited -/
theorem visit (hqueue : s.queue = c :: rest) :
    Inv next kind caps root { s with visited := c.node :: s.visited } := by
  refine ⟨h.queued, h.sound, h.nodup, fun w hw => List.mem_cons_of_mem _ (h.visited w hw), h.total,
    h.each, h.sorted, h.level, h.behind, fun u hu hlt e he => ?_, ?_⟩
  · obtain ⟨hnear, hseen⟩ := h.near u hu hlt e he
    exact ⟨hnear, hseen.imp_left (List.mem_cons_of_mem _)⟩
  · refine .inr ?_
    rcases h.first with ⟨hempty, hzero⟩ | ⟨hroot, hfirst⟩
    · rw [← h.head_root hqueue hzero]
      refine ⟨List.mem_cons_self, fun w hw => ?_⟩
      have hw' : w ∈ s.found := hw
      rw [h.found_nil hempty] at hw'
      cases hw'
    · exact ⟨List.mem_cons_of_mem _ hroot, hfirst⟩

/-- the head of the queue is found -/
theorem find (hqueue : s.queue = c :: rest) (hnew : c.node ∉ s.visited)
    (htotal : s.found.length < caps.total)
    (heach : s.found.countP (fun x => kind x.node = kind c.node) < caps.each) :
    Inv next kind caps root
      { queue := rest ++ c.children next caps (c.node :: s.visited)
        visited := c.node :: s.visited, found := s.found ++ [c] } := by
  have hc : c ∈ s.queue := by rw [hqueue]; exact List.mem_cons_self
  have hmem : ∀ q ∈ rest, q ∈ s.queue := fun q hq => by
    rw [hqueue]
    exact List.mem_cons_of_mem c hq
  have hsorted := h.sorted
  rw [hqueue] at hsorted
  have hhead : ∀ q ∈ s.queue, c.depth ≤ q.depth := fun q hq => by
    rw [hqueue, List.mem_cons] at hq
    rcases hq with rfl | hq
    · exact Nat.le_refl _
    · exact List.rel_of_pairwise_cons hsorted hq
  -- the entries of the new queue lie between the head that was taken and one level below it
  have hlow : ∀ q ∈ rest ++ c.children next caps (c.node :: s.visited),
      c.depth ≤ q.depth ∧ q.depth ≤ c.depth + 1 := fun q hq => by
    rcases List.mem_append.1 hq with hq | hq
    · exact ⟨hhead q (hmem q hq), h.level c hc q (hmem q hq)⟩
    · have hdepth := depth_children hq
      omega
  have hfresh : ∀ w ∈ s.found, w.node ≠ c.node := fun w hw heq => hnew (heq ▸ h.visited w hw)
  refine ⟨?_, ?_, ?_, ?_, ?_, ?_, ?_, ?_, ?_, ?_, ?_⟩
  · intro q hq
    rcases List.mem_append.1 hq with hq | hq
    · exact h.queued q (hmem q hq)
    · exact (h.queued c hc).child hq
  · intro w hw
    rcases List.mem_append.1 hw with hw | hw
    · exact h.sound w hw
    · rw [List.mem_singleton.1 hw]
      exact h.queued c hc
  · show ((s.found ++ [c]).map Cell.node).Nodup
    rw [List.map_append, List.nodup_append]
    refine ⟨h.nodup, List.nodup_singleton _, fun a ha b hb => ?_⟩
    obtain ⟨w, hw, rfl⟩ := List.mem_map.1 ha
    rw [List.mem_singleton.1 hb]
    exact hfresh w hw
  · intro w hw
    rcases List.mem_append.1 hw with hw | hw
    · exact List.mem_cons_of_mem _ (h.visited w hw)
    · rw [List.mem_singleton.1 hw]
      exact List.mem_cons_self
  · show (s.found ++ [c]).length ≤ caps.total
    rw [List.length_append, List.length_singleton]
    exact htotal
  · intro k
    show (s.found ++ [c]).countP _ ≤ caps.each
    rw [List.countP_append, List.countP_singleton]
    by_cases hk : kind c.node = k
    · rw [if_pos (decide_eq_true hk), ← hk]
      exact heach
    · rw [if_neg (by simpa using hk)]
      exact h.each k
  · show (rest ++ c.children next caps (c.node :: s.visited)).Pairwise _
    refine List.pairwise_append.2 ⟨hsorted.of_cons, ?_, fun a ha b hb => ?_⟩
    · refine List.pairwise_of_forall_mem_list fun a ha b hb => ?_
      have ha' := depth_children ha
      have hb' := depth_children hb
      omega
    · rw [depth_children hb]
      exact (hlow a (List.mem_append_left _ ha)).2
  · intro a ha b hb
    have ha' := hlow a ha
    have hb' := hlow b hb
    omega
  · intro a ha b hb
    have hb' := (hlow b hb).1
    rcases List.mem_append.1 ha with ha | ha
    · exact Nat.le_trans (h.behind a ha c hc) hb'
    · rw [List.mem_singleton.1 ha]
      exact hb'
  · intro u hu hlt e he
    rcases List.mem_append.1 hu with hu | hu
    · obtain ⟨hnear, hseen⟩ := h.near u hu hlt e he
      refine ⟨fun w hw hnode => ?_, ?_⟩
      · rcases List.mem_append.1 hw with hw | hw
        · exact hnear w hw hnode
        · -- the successor is found now: it was in the queue, no further than where it stood
          rw [List.mem_singleton.1 hw] at hnode ⊢
          rcases hseen with hseen | ⟨q, hq, -, hdepth⟩
          · exact absurd (hnode ▸ hseen) hnew
          · exact Nat.le_trans (hhead q hq) hdepth
      · rcases hseen with hseen | ⟨q, hq, hnode, hdepth⟩
        · exact .inl (List.mem_cons_of_mem _ hseen)
        · rw [hqueue, List.mem_cons] at hq
          rcases hq with rfl | hq
          · exact .inl (hnode ▸ List.mem_cons_self)
          · exact .inr ⟨q, List.mem_append_left _ hq, hnode, hdepth⟩
    · rw [List.mem_singleton.1 hu] at hlt he ⊢
      refine ⟨fun w hw _ => ?_, ?_⟩
      · rcases List.mem_append.1 hw with hw | hw
        · exact Nat.le_succ_of_le (h.behind w hw c hc)
        · rw [List.mem_singleton.1 hw]
          exact Nat.le_succ _
      · by_cases hvisited : e.1 ∈ c.node :: s.visited
        · exact .inl hvisited
        · refine .inr ⟨⟨e.1, c.depth + 1, c.path ++ [e]⟩, ?_, rfl, Nat.le_refl _⟩
          exact List.mem_append_right _ (mem_children.2 ⟨hlt, e, he, hvisited, rfl⟩)
  · refine .inr ?_
    rcases h.first with ⟨hempty, hzero⟩ | ⟨hroot, hfirst⟩
    · rw [← h.head_root hqueue hzero, h.found_nil hempty]
      refine ⟨List.mem_cons_self, fun w hw _ => ?_⟩
      rw [List.mem_singleton.1 hw]
      exact hzero c hc
    · refine ⟨List.mem_cons_of_mem _ hroot, fun w hw hnode => ?_⟩
      rcases List.mem_append.1 hw with hw | hw
      · exact hfirst w hw hnode
      · rw [List.mem_singleton.1 hw] at hnode
        exact absurd (hnode ▸ hroot) hnew

theorem step (hstep : s.step next kind caps = some t) : Inv next kind caps root t := by
  obtain ⟨c, rest, hqueue, htotal, hcase⟩ := step_cases hstep
  rcases hcase with ⟨hvisited, rfl⟩ | ⟨hnew, rfl⟩ | ⟨hnew, heach, rfl⟩
  · exact h.skip hqueue hvisited
  · exact (h.visit hqueue).skip hqueue List.mem_cons_self
  · exact h.find hqueue hnew htotal heach

/-- what every round keeps, the rounds together keep -/
theorem steps
    (hsteps : Relation.ReflTransGen (fun a b => State.step next kind caps a = some b) s t) :
    Inv next kind caps root t := by
  induction hsteps with
  | refl => exact h
  | tail _ hlast ih => exact ih.step hlast

/-- no chain through found nodes is shorter than the one that the search took -/
theorem shortest {p : List (α × ρ)} {v : α} (hchain : Chain next root p v)
    (hfound : ∀ e ∈ p, ∃ w ∈ s.found, w.node = e.1) (hc : c ∈ s.found) (hnode : c.node = v) :
    c.path.length ≤ p.length := by
  rw [(h.sound c hc).length]
  induction hchain generalizing c with
  | root =>
    rcases h.first with ⟨hempty, -⟩ | ⟨-, hfirst⟩
    · rw [h.found_nil hempty] at hc
      cases hc
    · rw [hfirst c hc hnode]
      exact Nat.le_refl _
  | @step p u e hp he ih =>
    obtain ⟨x, hx, hux⟩ := hp.ends
    obtain ⟨w, hw, hwx⟩ := hfound x (List.mem_append_left _ hx)
    have hwu : w.node = u := hwx.trans hux
    have hle := ih (fun y hy => hfound y (List.mem_append_left _ hy)) hw hwu
    rw [List.length_append, List.length_singleton]
    by_cases hlt : w.depth < caps.depth
    · have hnear := ((h.near w hw hlt e (hwu ▸ he)).1 c hc hnode)
      omega
    · have hwithin := (h.sound c hc).within
      omega

end Inv

/-- the search begins with what its rounds keep -/
theorem inv_start (root : α × ρ) : Inv next kind caps root (start (some root)) := by
  have hq : ∀ q ∈ (start (some root)).queue, q = ⟨root.1, 0, [root]⟩ := fun q hq =>
    List.mem_singleton.1 hq
  refine ⟨fun q hq' => ?_, nofun, List.nodup_nil, nofun, Nat.zero_le _, fun _ => Nat.zero_le _,
    List.pairwise_singleton _ _, fun a ha b hb => ?_, nofun, nofun, .inl ⟨rfl, fun q hq' => ?_⟩⟩
  · rw [hq q hq']
    exact ⟨.root, rfl, Nat.zero_le _⟩
  · rw [hq a ha, hq b hb]
    exact Nat.le_succ _
  · rw [hq q hq']

end Breadth
