import LifeAI.Lib.Breadth
import LifeAI.Context.Model

/-!
# What a refresh discovers

The loop of `refresh_context` is the search of `Lib/Breadth` over the edges between the objects that
the owner may see (`Search.step_abs`), so what that search keeps is kept here.

* `next`       the edges to objects that the owner may see;
* `Activates`  a path is a chain of them from the anchor, and none is shorter;
* `Discovers`  the bounds, the owners and the paths of what is discovered (`discovers`).
-/

namespace LifeAI.Context

open Breadth (Chain)

/-! ## the search -/

section
variable (db : Db) (ownerId : OwnerId) (b : Bounds)

/-- the edges from an object to the objects that the owner may see -/
def next (ref : Ref) : List PathStep :=
  match ownedRow db ownerId ref with
  | none => []
  | some row => ((edges db ownerId ref row).filter fun e =>
      (ownedRow db ownerId e.target).isSome).map fun e => (e.target, e.relation)

def Bounds.caps : Breadth.Caps := ⟨b.maxDepth.toNat, b.maxMembers.toNat, b.maxPerType.toNat⟩

def Item.cell (i : Item) : Breadth.Cell Ref Relation := ⟨i.ref, i.depth, i.path⟩

def cellOf (d : Ref × Found) : Breadth.Cell Ref Relation := ⟨d.1, d.2.path.length - 1, d.2.path⟩

/-- the state of the search, without what the source keeps for speed -/
def Search.abs (s : Search) : Breadth.State Ref Relation where
  queue := s.queue.map Item.cell
  visited := s.visited
  found := s.discovered.map cellOf

/-- what the variables of the loop say of each other -/
structure Search.Ok (s : Search) : Prop where
  rows : ∀ i ∈ s.queue, ownedRow db ownerId i.ref = some i.row
  depths : ∀ i ∈ s.queue, i.path.length = i.depth + 1
  counts : ∀ t, s.counts t = s.discovered.countP fun d => d.1.objectType = t
  seen : ∀ d ∈ s.discovered, (ownedRow db ownerId d.1).isSome

end

variable {db : Db} {ownerId : OwnerId} {b : Bounds} {s t : Search} {item : Item}

theorem accepted_iff : b.accepted = true ↔ (0 ≤ b.maxDepth ∧ b.maxDepth ≤ 10) ∧
    (1 ≤ b.maxMembers ∧ b.maxMembers ≤ 500) ∧ (1 ≤ b.maxPerType ∧ b.maxPerType ≤ 200) := by
  unfold Bounds.accepted
  rw [decide_eq_true_iff]

/-- the targets of an item are the children of its cell -/
theorem targets_cell (hrow : ownedRow db ownerId item.ref = some item.row)
    (visited : List Ref) : (item.targets db ownerId b visited).map Item.cell =
      item.cell.children (next db ownerId) b.caps visited := by
  have hdepth : b.maxDepth ≤ item.depth ↔ b.caps.depth ≤ item.cell.depth := by
    show b.maxDepth ≤ item.depth ↔ b.maxDepth.toNat ≤ item.depth
    omega
  unfold Item.targets Breadth.Cell.children
  by_cases hle : b.maxDepth ≤ item.depth
  · rw [if_pos hle, if_pos (hdepth.1 hle)]
    rfl
  · rw [if_neg hle, if_neg fun h => hle (hdepth.2 h)]
    have hnext : next db ownerId item.cell.node = ((edges db ownerId item.ref item.row).filter fun e =>
        (ownedRow db ownerId e.target).isSome).map fun e => (e.target, e.relation) := by
      show next db ownerId item.ref = _
      unfold next
      rw [hrow]
    rw [hnext]
    induction edges db ownerId item.ref item.row with
    | nil => rfl
    | cons e es ih =>
      by_cases hvisited : e.target ∈ visited
      · cases howned : ownedRow db ownerId e.target with
        | none => simpa [hvisited, howned] using ih
        | some row => simpa [hvisited, howned] using ih
      · cases howned : ownedRow db ownerId e.target with
        | none => simpa [hvisited, howned] using ih
        | some row => simpa [hvisited, howned, Item.cell] using ih

theorem mem_targets {visited : List Ref} {i : Item} (h : i ∈ item.targets db ownerId b visited) :
    ownedRow db ownerId i.ref = some i.row ∧ i.depth = item.depth + 1 ∧
      ∃ e, i.path = item.path ++ [e] := by
  unfold Item.targets at h
  split at h
  · cases h
  · obtain ⟨e, -, he⟩ := List.mem_filterMap.1 h
    split at he
    · cases he
    · obtain ⟨row, hrow, rfl⟩ := Option.map_eq_some_iff.1 he
      exact ⟨hrow, rfl, _, rfl⟩

/-- a round keeps the variables in step -/
theorem Search.Ok.step (h : s.Ok db ownerId) (hstep : s.step db ownerId b = some t) :
    t.Ok db ownerId := by
  unfold Search.step at hstep
  split at hstep
  · cases hstep
  · rename_i item queue hqueue
    have hitem : item ∈ s.queue := by rw [hqueue]; exact List.mem_cons_self
    have hmem : ∀ i ∈ queue, i ∈ s.queue := fun i hi => by
      rw [hqueue]
      exact List.mem_cons_of_mem _ hi
    split_ifs at hstep with htotal hvisited heach
    · cases hstep
      exact ⟨fun i hi => h.rows i (hmem i hi), fun i hi => h.depths i (hmem i hi), h.counts, h.seen⟩
    · cases hstep
      exact ⟨fun i hi => h.rows i (hmem i hi), fun i hi => h.depths i (hmem i hi), h.counts, h.seen⟩
    · cases hstep
      refine ⟨fun i hi => ?_, fun i hi => ?_, fun k => ?_, fun d hd => ?_⟩
      · rcases List.mem_append.1 hi with hi | hi
        · exact h.rows i (hmem i hi)
        · exact (mem_targets hi).1
      · rcases List.mem_append.1 hi with hi | hi
        · exact h.depths i (hmem i hi)
        · obtain ⟨-, hdepth, e, hpath⟩ := mem_targets hi
          rw [hpath, hdepth, List.length_append, h.depths item hitem, List.length_singleton]
      · show Function.update s.counts item.ref.objectType _ k = (s.discovered ++ [_]).countP _
        rw [List.countP_append, List.countP_singleton, Function.update_apply, ← h.counts]
        by_cases hk : item.ref.objectType = k
        · rw [if_pos hk.symm, if_pos (decide_eq_true hk), hk]
        · rw [if_neg (Ne.symm hk), if_neg (by simpa using hk)]
          rfl
      · rcases List.mem_append.1 hd with hd | hd
        · exact h.seen d hd
        · rw [List.mem_singleton.1 hd]
          exact Option.isSome_iff_exists.2 ⟨_, h.rows item hitem⟩

/-- a round is a round of the search of the library -/
theorem Search.step_abs (hb : b.accepted) (h : s.Ok db ownerId)
    (hstep : s.step db ownerId b = some t) :
    s.abs.step (next db ownerId) Ref.objectType b.caps = some t.abs := by
  obtain ⟨-, ⟨hmembers, -⟩, htype, -⟩ := accepted_iff.1 hb
  unfold Search.step at hstep
  split at hstep
  · cases hstep
  · rename_i item queue hqueue
    have hitem : item ∈ s.queue := by rw [hqueue]; exact List.mem_cons_self
    have hq : s.abs.queue = item.cell :: queue.map Item.cell := by
      show s.queue.map Item.cell = _
      rw [hqueue]
      rfl
    have htot : b.caps.total ≤ s.abs.found.length ↔ b.maxMembers ≤ s.discovered.length := by
      show b.maxMembers.toNat ≤ (s.discovered.map cellOf).length ↔ _
      rw [List.length_map]
      omega
    have hcount : s.abs.found.countP (fun x => x.node.objectType = item.cell.node.objectType) =
        s.counts item.ref.objectType := by
      show (s.discovered.map cellOf).countP _ = _
      rw [List.countP_map, h.counts]
      rfl
    have heach' : b.caps.each ≤ s.counts item.ref.objectType ↔
        b.maxPerType ≤ s.counts item.ref.objectType := by
      show b.maxPerType.toNat ≤ _ ↔ _
      omega
    unfold Breadth.State.step
    rw [hq]
    dsimp only
    rw [hcount]
    simp only [htot, heach']
    split_ifs at hstep with htotal hvisited heach
    · cases hstep
      rw [if_neg htotal, if_pos (show item.cell.node ∈ s.abs.visited from hvisited)]
      rfl
    · cases hstep
      rw [if_neg htotal, if_neg (show item.cell.node ∉ s.abs.visited from hvisited), if_pos heach]
      rfl
    · cases hstep
      rw [if_neg htotal, if_neg (show item.cell.node ∉ s.abs.visited from hvisited), if_neg heach]
      have hfound : cellOf (item.ref, ⟨s.rank, lastRelation item.path, item.path⟩) = item.cell := by
        show Breadth.Cell.mk item.ref (item.path.length - 1) item.path = item.cell
        rw [h.depths item hitem]
        rfl
      have hchildren := targets_cell (b := b) (h.rows item hitem) (item.ref :: s.visited)
      unfold Search.abs
      rw [List.map_append, List.map_append, hchildren, List.map_singleton, hfound]
      rfl

/-- the loop is a run of the search of the library -/
theorem Search.loop_abs (hb : b.accepted) (h : s.Ok db ownerId) :
    (s.loop db ownerId b).Ok db ownerId ∧
      Relation.ReflTransGen
        (fun x y => Breadth.State.step (next db ownerId) Ref.objectType b.caps x = some y)
        s.abs (s.loop db ownerId b).abs := by
  induction s using Search.loop.induct db ownerId b with
  | case1 s hstop =>
    rw [Search.loop, hstop]
    exact ⟨h, .refl⟩
  | case2 s t hstep ih =>
    rw [Search.loop, hstep]
    obtain ⟨hok, hsteps⟩ := ih (h.step hstep)
    exact ⟨hok, .head (Search.step_abs hb h hstep) hsteps⟩

/-! ## what a refresh discovers -/

/-- the type of an object that belongs to nobody -/
def FounderWide (t : ObjectType) : Prop := t = .engineeringLesson ∨ t = .projectNote

/-- the object is there, and is the owner's or everybody's -/
def Belongs (db : Db) (ownerId : OwnerId) (ref : Ref) : Prop :=
  ∃ row ∈ db.rows, row.ref = ref ∧ (FounderWide ref.objectType ∨ row.owner = some ownerId ∨
    ref.objectType = .message ∧ ∃ conversation ∈ db.rows, conversation.owner = some ownerId ∧
      row.get .conversationId = some conversation.ref.objectId ∧
      conversation.ref.objectType = .conversation)

/-- the object that a context is about; a topic is none -/
def ActiveContextSet.anchor? (c : ActiveContextSet) : Option Ref :=
  match c.anchorType, c.anchorRef with
  | .supported t, .uuid id => some ⟨t, id⟩
  | _, _ => none

/-- `path` is a chain of edges from the anchor to the object, within the bound, and no chain through
discovered objects is shorter -/
structure Activates (db : Db) (ownerId : OwnerId) (b : Bounds) (c : ActiveContextSet)
    (found : List Ref) (path : List PathStep) (ref : Ref) (anchor : Ref) : Prop where
  anchored : c.anchor? = some anchor
  chain : Chain (next db ownerId) (anchor, .anchor) path ref
  within : (path.length : ℤ) ≤ b.maxDepth + 1
  shortest : ∀ p, Chain (next db ownerId) (anchor, .anchor) p ref → (∀ e ∈ p, e.1 ∈ found) →
    path.length ≤ p.length

/-- what the objects that a refresh discovers are -/
structure Discovers (db : Db) (ownerId : OwnerId) (b : Bounds) (c : ActiveContextSet)
    (found : List (Ref × Found)) : Prop where
  total : (found.length : ℤ) ≤ b.maxMembers
  perType : ∀ t, (found.countP (fun d => d.1.objectType = t) : ℤ) ≤ b.maxPerType
  once : (found.map Prod.fst).Nodup
  belongs : ∀ d ∈ found, Belongs db ownerId d.1
  paths : ∀ d ∈ found, ∃ anchor, Activates db ownerId b c (found.map Prod.fst) d.2.path d.1 anchor

theorem row_mem {ref : Ref} {row : Row} (h : db.row ref = some row) :
    row ∈ db.rows ∧ row.ref = ref := by
  unfold Db.row at h
  have href := List.find?_some h
  exact ⟨List.mem_of_find?_eq_some h, of_decide_eq_true href⟩

theorem belongs_of_ownedRow {ref : Ref} {row : Row} (h : ownedRow db ownerId ref = some row) :
    Belongs db ownerId ref := by
  unfold ownedRow at h
  split at h
  · rename_i htype
    obtain ⟨hrow, howned⟩ := Option.filter_eq_some_iff.1 h
    obtain ⟨hmem, href⟩ := row_mem hrow
    cases hc : row.get .conversationId with
    | none =>
      rw [hc] at howned
      cases howned
    | some c =>
      rw [hc] at howned
      change (db.row ⟨.conversation, c⟩).any _ = true at howned
      cases hconversation : db.row ⟨.conversation, c⟩ with
      | none =>
        rw [hconversation] at howned
        cases howned
      | some conversation =>
        rw [hconversation] at howned
        obtain ⟨hmem', href'⟩ := row_mem hconversation
        refine ⟨row, hmem, href, .inr (.inr ⟨htype, conversation, hmem', of_decide_eq_true howned, ?_, ?_⟩)⟩
        · rw [hc, href']
        · rw [href']
  · rename_i htype
    obtain ⟨hmem, href⟩ := row_mem h
    exact ⟨row, hmem, href, .inl (.inl htype)⟩
  · rename_i htype
    obtain ⟨hmem, href⟩ := row_mem h
    exact ⟨row, hmem, href, .inl (.inr htype)⟩
  · obtain ⟨hrow, howned⟩ := Option.filter_eq_some_iff.1 h
    obtain ⟨hmem, href⟩ := row_mem hrow
    exact ⟨row, hmem, href, .inr (.inl (of_decide_eq_true howned))⟩

/-- what the rounds leave, from the anchor -/
theorem discovers_anchor {c : ActiveContextSet} {anchor : Ref} {row : Row} (hb : b.accepted)
    (hanchor : c.anchor? = some anchor) (hrow : ownedRow db ownerId anchor = some row) :
    Discovers db ownerId b c (discoverFrom db ownerId b [(anchor, row)]) := by
  obtain ⟨⟨hdepth, -⟩, ⟨hmembers, -⟩, htype, -⟩ := accepted_iff.1 hb
  have hok : Search.Ok db ownerId { queue := [⟨anchor, row, 0, [(anchor, .anchor)]⟩] } := by
    refine ⟨fun i hi => ?_, fun i hi => ?_, fun _ => rfl, nofun⟩
    · rw [List.mem_singleton.1 hi]
      exact hrow
    · rw [List.mem_singleton.1 hi]
      rfl
  obtain ⟨hokend, hsteps⟩ := Search.loop_abs hb hok
  have hstart : Breadth.Inv (next db ownerId) Ref.objectType b.caps (anchor, Relation.anchor)
      (Breadth.start (some (anchor, Relation.anchor))) := Breadth.inv_start _
  have hinv := hstart.steps hsteps
  have hend : discoverFrom db ownerId b [(anchor, row)] = (Search.loop db ownerId b
      { queue := [⟨anchor, row, 0, [(anchor, .anchor)]⟩] }).discovered := rfl
  rw [hend]
  generalize Search.loop db ownerId b { queue := [⟨anchor, row, 0, [(anchor, .anchor)]⟩] } = last
    at hokend hinv
  have hcell : ∀ d ∈ last.discovered, cellOf d ∈ last.abs.found := fun d hd =>
    List.mem_map_of_mem hd
  refine ⟨?_, fun k => ?_, ?_, fun d hd => ?_, fun d hd => ⟨anchor, hanchor, ?_, ?_, ?_⟩⟩
  · have htotal := hinv.total
    change (last.discovered.map cellOf).length ≤ b.maxMembers.toNat at htotal
    rw [List.length_map] at htotal
    omega
  · have heach := hinv.each k
    change (last.discovered.map cellOf).countP _ ≤ b.maxPerType.toNat at heach
    rw [List.countP_map] at heach
    change last.discovered.countP (fun d => d.1.objectType = k) ≤ _ at heach
    omega
  · have hnodup := hinv.nodup
    change ((last.discovered.map cellOf).map Breadth.Cell.node).Nodup at hnodup
    rw [List.map_map] at hnodup
    exact hnodup
  · obtain ⟨row', hrow'⟩ := Option.isSome_iff_exists.1 (hokend.seen d hd)
    exact belongs_of_ownedRow hrow'
  · exact (hinv.sound _ (hcell d hd)).chain
  · have hlength := (hinv.sound _ (hcell d hd)).length
    have hwithin := (hinv.sound _ (hcell d hd)).within
    change d.2.path.length = _ at hlength
    change (cellOf d).depth ≤ b.maxDepth.toNat at hwithin
    omega
  · intro p hp hall
    refine hinv.shortest hp (fun e he => ?_) (hcell d hd) rfl
    obtain ⟨x, hx, hxe⟩ := List.mem_map.1 (hall e he)
    exact ⟨cellOf x, hcell x hx, hxe⟩

/-- whatever a refresh discovers -/
theorem discovers {c : ActiveContextSet} {found : List (Ref × Found)} (hb : b.accepted)
    (h : discovered db ownerId b c = .ok found) : Discovers db ownerId b c found := by
  unfold discovered at h
  obtain ⟨roots, hroots, hfound⟩ := bind_eq_ok.1 h
  cases hfound
  obtain ⟨-, ⟨hmembers, -⟩, htype, -⟩ := accepted_iff.1 hb
  unfold ActiveContextSet.roots at hroots
  split at hroots
  · cases hroots
    have hnil : discoverFrom db ownerId b [] = [] := by
      unfold discoverFrom
      rw [Search.loop]
      rfl
    rw [hnil]
    refine ⟨?_, fun _ => ?_, List.nodup_nil, nofun, nofun⟩
    · show (0 : ℤ) ≤ _
      omega
    · show (0 : ℤ) ≤ _
      omega
  · obtain ⟨root, hroot, hrest⟩ := bind_eq_ok.1 hroots
    cases hrest
    unfold requireRef at hroot
    obtain ⟨ref, href, hrow⟩ := bind_eq_ok.1 hroot
    have hanchor : c.anchor? = some ref := by
      unfold uuidRef at href
      unfold ActiveContextSet.anchor?
      split at href
      · rename_i t htype
        split at href
        · rename_i id hid
          cases href
          rw [htype, hid]
        · cases href
      · cases href
      · cases href
    split at hrow
    · cases hrow
    · rename_i row howned
      cases hrow
      exact discovers_anchor hb hanchor howned

end LifeAI.Context
