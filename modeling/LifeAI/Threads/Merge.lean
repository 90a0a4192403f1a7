import LifeAI.Lib.Digraph
import LifeAI.Threads.Steps

/-!
# Merging threads

* `Merging`  merges are acyclic, and lead to a thread that is not superseded;
* `Obeys`    a merge loses no active member, and its repetition changes nothing;
* `Orderly`  a merge into a thread that does not lead back to its source, or its repetition once
             its members are where it put them;
* `Inv.merge`, `copyMembers_active`, `mergeThreads_again`   what a merge keeps, and its repetition;
* `threads_merge`   **along every run whose merges are orderly, merges behave**.
-/

namespace LifeAI.Threads

open Keyed

variable {now : Time} {w : World} {s t mid : Tables} {ownerId : OwnerId}
  {source target i : ThreadId} {key : String}

/-! ## what is asked of merges -/

/-- a merge that returned -/
structure Done where
  ownerId : OwnerId
  source : ThreadId
  target : ThreadId
  key : String
  deriving DecidableEq

def answered (s : Tables) (op : Op) : Option Done :=
  match op.call, op.result s with
  | .merge source target key, .ok _ => some ⟨op.ownerId, source, target, key⟩
  | _, _ => none

/-- the step that keeps the merges that returned -/
def merging : Tables × List Done → Op → Tables × List Done := History.recorded exec answered

structure Merging (s : Tables) : Prop where
  acyclic : Digraph.Acyclic (Merged s)
  /-- what was merged leads to a thread that is not superseded -/
  leads : ∀ a b, Merged s a b → ∃ c row, Relation.ReflTransGen (Merged s) a c ∧
    s.threads[c]? = some row ∧ row.state ≠ .superseded

/-- a member but for when it was last seen -/
def MemoryThreadMember.unseen (m : MemoryThreadMember) : MemoryThreadMember := { m with lastSeenAt := 0 }

/-- the law of one call -/
structure Obeys (p : Tables × List Done) (op : Op) : Prop where
  /-- the active members of the source are active in the target -/
  copied : ∀ source target key r t, op.call = .merge source target key →
    op.result p.1 = .ok (r, t) → ∀ m ∈ p.1.members, m.threadId = source → m.state = .active →
      ∃ m' ∈ t.members, m'.ref = (target, m.memberKind, m.memberRefId) ∧ m'.state = .active
  /-- a repeated merge returns its target, and no membership changes and no event is added -/
  replays : ∀ source target key, op.call = .merge source target key →
    ⟨op.ownerId, source, target, key⟩ ∈ p.2 → ∃ t, op.result p.1 = .ok (target, t) ∧
      t.members.map (·.unseen) = p.1.members.map (·.unseen) ∧ t.events = p.1.events

/-- the member of a thread with this reference is active -/
def Tables.activeIn (s : Tables) (t : ThreadId) (kind : String) (ref : RefId) : Bool :=
  (s.memberOf t kind ref).any (·.2.state = .active)

/-- the repetition of a merge finds its members in the target, and its key where it put it -/
structure Kept (s : Tables) (op : Op) (source target : ThreadId) (key : String) : Prop where
  key : key ≠ "" → ∀ i row, s.relationWithKey op.ownerId key = some (i, row) →
    row = (mergedInto source target key).row op.ownerId
  resolves : ∀ m ∈ s.members, m.threadId = source → m.state = .active →
    (requireRef op.world op.ownerId m.memberKind (some m.memberRefId)).isOk = true
  active : ∀ m ∈ s.members, m.threadId = source → m.state = .active →
    s.activeIn target m.memberKind m.memberRefId = true

/-- a merge does not lead back, and is repeated while its members are kept -/
structure Orderly (p : Tables × List Done) (op : Op) : Prop where
  forward : ∀ source target key, op.call = .merge source target key →
    Merged p.1 source target ∨ ¬ Relation.ReflTransGen (Merged p.1) target source
  kept : ∀ source target key, op.call = .merge source target key →
    ⟨op.ownerId, source, target, key⟩ ∈ p.2 → Kept p.1 op source target key

/-! ## what a merge leaves -/

/-- the relationship is there, or new -/
def Linked (s : Tables) (ownerId : OwnerId) (source target : ThreadId) (key : String)
    (linked : Tables) : Prop :=
  (linked = s ∧ ∃ row ∈ s.relations, row.link = (ownerId, source, target, "merged_into")) ∨
    ∃ events, linked = { s with
      relations := s.relations ++ [(mergedInto source target key).row ownerId], events := events }

/-- the active members of a thread, as a merge reads them -/
def Tables.activeMembers (s : Tables) (ownerId : OwnerId) (t : ThreadId) :
    List (MemberId × MemoryThreadMember) :=
  (s.threadMembers ownerId t).filter fun m => m.2.state = .active

theorem mergeThreads_ok {r : ThreadId}
    (h : mergeThreads now w s ownerId source target key = .ok (r, t)) :
    r = target ∧ source ≠ target ∧ (s.thread ownerId source).isOk = true ∧
      (s.thread ownerId target).isOk = true ∧
      ∃ linked copied row events, Linked s ownerId source target key linked ∧
        copyMembers now w linked ownerId target (linked.activeMembers ownerId source)
          "deterministic" (.copied "merged_from" source ·) = .ok copied ∧
        copied.threads[source]? = some row ∧
        t = { copied with
          threads := copied.threads.set source { row with state := .superseded }
          events := events } := by
  unfold mergeThreads at h
  obtain ⟨relation, hrelation, h⟩ := bind_eq_ok.1 h
  obtain ⟨_, -, h⟩ := bind_eq_ok.1 h
  obtain ⟨_, -, h⟩ := bind_eq_ok.1 h
  obtain ⟨copied, hcopied, h⟩ := bind_eq_ok.1 h
  obtain ⟨u, hsuperseded, h⟩ := bind_eq_ok.1 h
  cases h
  obtain ⟨hne, hsource, htarget, hlinked⟩ := addRelationship_ok hrelation
  obtain ⟨row, events, hrow, rfl⟩ := supersedeSource_ok hsuperseded
  exact ⟨rfl, hne, hsource, htarget, relation.2, copied, row, events, hlinked, hcopied, hrow, rfl⟩

theorem Linked.threads {linked : Tables} (h : Linked s ownerId source target key linked) :
    linked.threads = s.threads := by
  rcases h with ⟨rfl, -⟩ | ⟨events, rfl⟩
  · rfl
  · rfl

theorem Linked.members {linked : Tables} (h : Linked s ownerId source target key linked) :
    linked.members = s.members := by
  rcases h with ⟨rfl, -⟩ | ⟨events, rfl⟩
  · rfl
  · rfl

theorem Linked.relations {linked : Tables} (h : Linked s ownerId source target key linked) :
    s.relations <+: linked.relations ∧
      ∃ row ∈ linked.relations, row.link = (ownerId, source, target, "merged_into") := by
  rcases h with ⟨rfl, hrow⟩ | ⟨events, rfl⟩
  · exact ⟨List.prefix_refl _, hrow⟩
  · exact ⟨List.prefix_append _ _, _, List.mem_append_right _ (List.mem_singleton_self _), rfl⟩

theorem merged_of_link {row : MemoryThreadRelationship} (hrow : row ∈ s.relations)
    (hlink : row.link = (ownerId, source, target, "merged_into")) : Merged s source target := by
  obtain ⟨-, hrest⟩ := Prod.mk.inj hlink
  obtain ⟨hsource, hrest⟩ := Prod.mk.inj hrest
  obtain ⟨htarget, htype⟩ := Prod.mk.inj hrest
  exact ⟨row, hrow, htype, hsource, htarget⟩

theorem Linked.merged_iff {linked : Tables} (h : Linked s ownerId source target key linked)
    {a b : ThreadId} :
    Merged linked a b ↔ Merged s a b ∨ (a = source ∧ b = target) := by
  rcases h with ⟨rfl, row, hrow, hlink⟩ | ⟨events, rfl⟩
  · constructor
    · exact .inl
    · rintro (h | ⟨rfl, rfl⟩)
      · exact h
      · exact merged_of_link hrow hlink
  · unfold Merged
    constructor
    · rintro ⟨r, hr, htype, hfrom, hto⟩
      rcases List.mem_append.1 hr with hr | hr
      · exact .inl ⟨r, hr, htype, hfrom, hto⟩
      · rw [List.mem_singleton.1 hr] at hfrom hto
        exact .inr ⟨hfrom.symm, hto.symm⟩
    · rintro (⟨r, hr, hrest⟩ | ⟨rfl, rfl⟩)
      · exact ⟨r, List.mem_append_left _ hr, hrest⟩
      · exact ⟨_, List.mem_append_right _ (List.mem_singleton_self _), rfl, rfl, rfl⟩

/-! ## states and merges -/

/-- a thread is superseded exactly when it was merged, and merges have no cycle -/
structure Inv (s : Tables) : Prop where
  superseded : ∀ (i : ThreadId) (row : MemoryThread), s.threads[i]? = some row →
    (row.state = .superseded ↔ ∃ b, Merged s i b)
  ends : ∀ a b, Merged s a b → a < s.threads.length ∧ b < s.threads.length
  acyclic : Digraph.Acyclic (Merged s)
  members : MembersOwned s

theorem Inv.merging (h : Inv s) : Merging s where
  acyclic := h.acyclic
  leads a b hab := by
    have hfinite : {b | ∃ a, Merged s a b}.Finite :=
      (Set.finite_lt_nat s.threads.length).subset fun c ⟨a, hac⟩ => (h.ends a c hac).2
    obtain ⟨c, hac, hend⟩ := h.acyclic.leads hfinite a
    have hc : c < s.threads.length := by
      rcases Relation.reflTransGen_iff_eq_or_transGen.1 hac with rfl | hac
      · exact (h.ends _ b hab).1
      · obtain ⟨d, -, hdc⟩ := Relation.TransGen.tail'_iff.1 hac
        exact (h.ends d c hdc).2
    have hrow := List.getElem?_eq_getElem hc
    refine ⟨c, _, hac, hrow, fun hstate => ?_⟩
    obtain ⟨d, hcd⟩ := (h.superseded c _ hrow).1 hstate
    exact hend d hcd

theorem Inv.adds (h : Inv s) (hadds : Adds s t) : Inv t where
  superseded i row hrow := by
    by_cases hi : i < s.threads.length
    · obtain ⟨row', hrow', hsame⟩ := hadds.threads i _ (List.getElem?_eq_getElem hi)
      obtain rfl := Option.some.inj (hrow.symm.trans hrow')
      have hstate : row.state = s.threads[i].state := congrArg Prod.snd hsame
      rw [hstate, h.superseded i _ (List.getElem?_eq_getElem hi)]
      exact exists_congr fun b => hadds.merged_iff.symm
    · have hactive := hadds.newThreads i row hrow (Nat.not_lt.1 hi)
      refine iff_of_false (by rw [hactive]; decide) ?_
      rintro ⟨b, hb⟩
      exact hi (h.ends i b (hadds.merged_iff.1 hb)).1
  ends a b hab := by
    obtain ⟨ha, hb⟩ := h.ends a b (hadds.merged_iff.1 hab)
    have hlen : ∀ i < s.threads.length, i < t.threads.length := fun i hi => by
      obtain ⟨row', hrow', -⟩ := hadds.threads i _ (List.getElem?_eq_getElem hi)
      exact (List.getElem?_eq_some_iff.1 hrow').1
    exact ⟨hlen a ha, hlen b hb⟩
  acyclic := h.acyclic.of_map id fun a b hab => hadds.merged_iff.1 hab
  members := hadds.members h.members

theorem isOk_thread (h : (s.thread ownerId i).isOk = true) :
    ∃ row, s.threads[i]? = some row ∧ row.ownerId = ownerId := by
  cases hrow : s.thread ownerId i with
  | error e => rw [hrow] at h; cases h
  | ok row => exact ⟨row, thread_ok.1 hrow⟩

/-- **a merge that does not lead back** keeps the states and the merges in step -/
theorem Inv.merge (h : Inv s) {r : ThreadId}
    (hok : mergeThreads now w s ownerId source target key = .ok (r, t))
    (hforward : Merged s source target ∨ ¬ Relation.ReflTransGen (Merged s) target source) :
    Inv t := by
  obtain ⟨-, -, hsource, htarget, linked, copied, row, events, hlinked, hcopied, hrow, rfl⟩ :=
    mergeThreads_ok hok
  have hadds : Adds linked copied := copyMembers_adds hcopied
  have hmerged : ∀ a b, Merged copied a b ↔ Merged s a b ∨ (a = source ∧ b = target) :=
    fun a b => hadds.merged_iff.trans hlinked.merged_iff
  have hkept : Keyed.Keeps MemoryThread.standing s.threads copied.threads :=
    hlinked.threads ▸ hadds.threads
  have hlen : ∀ i < s.threads.length,
      i < (copied.threads.set source { row with state := .superseded }).length := fun i hi => by
    obtain ⟨row', hrow', -⟩ := hkept i _ (List.getElem?_eq_getElem hi)
    rw [List.length_set]
    exact (List.getElem?_eq_some_iff.1 hrow').1
  refine ⟨fun i x hx => ?_, fun a b hab => ?_, ?_, ?_⟩
  · show x.state = .superseded ↔ ∃ b, Merged copied i b
    rcases eq_or_ne source i with rfl | hne
    · have hself := List.getElem?_set_self (a := { row with state := .superseded })
        (List.getElem?_eq_some_iff.1 hrow).1
      obtain rfl := Option.some.inj (hx.symm.trans hself)
      exact iff_of_true rfl ⟨target, (hmerged _ _).2 (.inr ⟨rfl, rfl⟩)⟩
    · rw [List.getElem?_set_ne hne] at hx
      have hsame : (∃ b, Merged copied i b) ↔ ∃ b, Merged s i b :=
        exists_congr fun b => (hmerged i b).trans
          (or_iff_left fun hnew => hne hnew.1.symm)
      rw [hsame]
      by_cases hi : i < s.threads.length
      · obtain ⟨x', hx', hstanding⟩ := hkept i _ (List.getElem?_eq_getElem hi)
        obtain rfl := Option.some.inj (hx.symm.trans hx')
        have hstate : x.state = s.threads[i].state := congrArg Prod.snd hstanding
        rw [hstate]
        exact h.superseded i _ (List.getElem?_eq_getElem hi)
      · have hactive := hadds.newThreads i x hx (by rw [hlinked.threads]; exact Nat.not_lt.1 hi)
        refine iff_of_false (by rw [hactive]; decide) ?_
        rintro ⟨b, hb⟩
        exact hi (h.ends i b hb).1
  · rcases (hmerged a b).1 hab with hab | ⟨rfl, rfl⟩
    · obtain ⟨ha, hb⟩ := h.ends a b hab
      exact ⟨hlen a ha, hlen b hb⟩
    · obtain ⟨x, hx, -⟩ := isOk_thread hsource
      obtain ⟨y, hy, -⟩ := isOk_thread htarget
      exact ⟨hlen _ (List.getElem?_eq_some_iff.1 hx).1, hlen _ (List.getElem?_eq_some_iff.1 hy).1⟩
  · rcases hforward with hthere | hback
    · refine h.acyclic.of_map id fun a b hab => ?_
      rcases (hmerged a b).1 hab with hab | ⟨rfl, rfl⟩
      · exact hab
      · exact hthere
    · exact h.acyclic.insert hback fun a b hab => (hmerged a b).1 hab
  · have howned : MembersOwned linked := by
      unfold MembersOwned
      rw [hlinked.members, hlinked.threads]
      exact h.members
    intro m hm
    obtain ⟨x, hx, howner⟩ := hadds.members howned m hm
    have hset : Keyed.Keeps (·.ownerId) copied.threads
        (copied.threads.set source { row with state := .superseded }) := .set hrow rfl
    obtain ⟨x', hx', hsame⟩ := hset m.threadId x hx
    exact ⟨x', hx', hsame.trans howner⟩

/-! ## what is copied -/

theorem requireRef_ok {kind : String} {ref : Option RefId} {r : RefId × Option Time}
    (h : requireRef w ownerId kind ref = .ok r) : ref = some r.1 := by
  unfold requireRef at h
  split at h
  · cases h
  split at h
  · cases h
  split at h
  · cases h
  · cases h
    rfl

/-- a member that is added is seen, or new; in both cases it is active -/
theorem addMember_members {a : NewMember} {m : MemberId} (hkey : a.idempotencyKey = none)
    (h : addMember now w s ownerId a = .ok (m, t)) : ∃ ref, a.memberRefId = some ref ∧
      ((∃ x, s.memberOf a.threadId a.memberKind ref = some (m, x) ∧
        t.members = s.members.set m { x with lastSeenAt := now, state := .active }) ∨
      (s.memberOf a.threadId a.memberKind ref = none ∧ ∃ x,
        x.ref = (a.threadId, a.memberKind, ref) ∧ x.state = .active ∧
          t.members = s.members ++ [x])) := by
  unfold addMember at h
  obtain ⟨thread, -, h⟩ := bind_eq_ok.1 h
  obtain ⟨r, hr, h⟩ := bind_eq_ok.1 h
  refine ⟨r.1, requireRef_ok hr, ?_⟩
  rw [hkey] at h
  dsimp only [given, Option.filter_none, Option.bind_none] at h
  split at h
  · next m' existing hfound =>
    unfold seeMember at h
    split at h
    · next hactive =>
      cases h
      refine .inl ⟨existing, hfound, ?_⟩
      rw [← hactive]
      rfl
    · obtain ⟨u, hevent, h⟩ := bind_eq_ok.1 h
      obtain rfl := event_ok hevent
      cases h
      exact .inl ⟨existing, hfound, rfl⟩
  · next hfound =>
    unfold insertMember at h
    obtain ⟨-, -, h⟩ := bind_eq_ok.1 h
    obtain ⟨-, -, h⟩ := bind_eq_ok.1 h
    obtain ⟨-, -, h⟩ := bind_eq_ok.1 h
    obtain ⟨-, -, h⟩ := bind_eq_ok.1 h
    obtain ⟨u, hevent, h⟩ := bind_eq_ok.1 h
    obtain rfl := event_ok hevent
    cases h
    exact .inr ⟨hfound, _, rfl, rfl, rfl⟩

theorem activeIn_iff {kind : String} {ref : RefId} : s.activeIn i kind ref = true ↔
    ∃ m x, s.memberOf i kind ref = some (m, x) ∧ x.state = .active := by
  unfold Tables.activeIn
  cases s.memberOf i kind ref with
  | none => simp
  | some found =>
    constructor
    · intro h
      exact ⟨found.1, found.2, rfl, of_decide_eq_true h⟩
    · rintro ⟨m, x, heq, hstate⟩
      obtain rfl := Option.some.inj heq
      exact decide_eq_true hstate

/-- members keep their reference, and stay active -/
structure Activates (rows rows' : List MemoryThreadMember) : Prop where
  ref : Keyed.Keeps MemoryThreadMember.ref rows rows'
  active : ∀ (m : MemberId) (x : MemoryThreadMember), rows[m]? = some x → x.state = .active →
    ∃ x', rows'[m]? = some x' ∧ x'.state = .active

theorem Activates.activeIn (h : Activates s.members t.members) {kind : String} {ref : RefId}
    (hactive : s.activeIn i kind ref = true) : t.activeIn i kind ref = true := by
  obtain ⟨m, x, hfound, hstate⟩ := activeIn_iff.1 hactive
  obtain ⟨x', hget, hfound'⟩ := lookup_grows hfound h.ref
  obtain ⟨x'', hget', hstate'⟩ := h.active m x (lookup_eq_some.1 hfound).1 hstate
  obtain rfl := Option.some.inj (hget.symm.trans hget')
  exact activeIn_iff.2 ⟨m, x', hfound', hstate'⟩

theorem Activates.see {m : MemberId} {x : MemoryThreadMember} (hx : s.members[m]? = some x) :
    Activates s.members (s.members.set m { x with lastSeenAt := now, state := .active }) where
  ref := .set hx rfl
  active j y hy hstate := by
    rw [getElem?_set_row hx]
    by_cases hj : m = j
    · exact ⟨_, if_pos hj, rfl⟩
    · exact ⟨y, (if_neg hj).trans hy, hstate⟩

theorem Activates.insert (rows : List MemoryThreadMember) (x : MemoryThreadMember) :
    Activates rows (rows ++ [x]) where
  ref := .append _ _ _
  active j y hy hstate := by
    have hlt : j < rows.length := (List.getElem?_eq_some_iff.1 hy).1
    exact ⟨y, (List.getElem?_append_left hlt).trans hy, hstate⟩

/-- what is added is active, and what was active stays active -/
theorem addMember_activates {a : NewMember} {m : MemberId} (hkey : a.idempotencyKey = none)
    (h : addMember now w s ownerId a = .ok (m, t)) : Activates s.members t.members ∧
      ∃ ref, a.memberRefId = some ref ∧ t.activeIn a.threadId a.memberKind ref = true := by
  obtain ⟨ref, href, ⟨x, hfound, hmembers⟩ | ⟨hfound, x, hx, hstate, hmembers⟩⟩ :=
    addMember_members hkey h
  · have hget := (lookup_eq_some.1 hfound).1
    have hactivates : Activates s.members t.members := hmembers ▸ .see hget
    obtain ⟨x', hget', hfound'⟩ := lookup_grows hfound hactivates.ref
    have hself := List.getElem?_set_self (a := { x with lastSeenAt := now, state := .active })
      (List.getElem?_eq_some_iff.1 hget).1
    rw [← hmembers] at hself
    obtain rfl := Option.some.inj (hget'.symm.trans hself)
    exact ⟨hactivates, ref, href, activeIn_iff.2 ⟨m, _, hfound', rfl⟩⟩
  · have hfound' : t.memberOf a.threadId a.memberKind ref = some (s.members.length, x) := by
      unfold Tables.memberOf
      rw [hmembers]
      exact lookup_append_self hfound hx
    exact ⟨hmembers ▸ .insert s.members x, ref, href, activeIn_iff.2 ⟨_, x, hfound', hstate⟩⟩

/-- **what is copied is active** in the thread it is copied to -/
theorem copyMembers_active {ms : List (MemberId × MemoryThreadMember)} {basis : String}
    {provenance : MemberId → Provenance}
    (h : copyMembers now w s ownerId i ms basis provenance = .ok t) :
    ∀ m ∈ ms, t.activeIn i m.2.memberKind m.2.memberRefId = true := by
  induction ms generalizing s with
  | nil => exact fun m hm => absurd hm List.not_mem_nil
  | cons m ms ih =>
    obtain ⟨u, hu, hrest⟩ := bind_eq_ok.1 h
    obtain ⟨r, hadd, hu⟩ := bind_eq_ok.1 hu
    cases hu
    obtain ⟨-, ref, href, hactive⟩ := addMember_activates rfl hadd
    obtain rfl : m.2.memberRefId = ref := Option.some.inj href
    -- the members after it keep it active
    have hkept : t.activeIn i m.2.memberKind m.2.memberRefId = true := by
      refine foldlM_ok (P := fun u => u.activeIn i m.2.memberKind m.2.memberRefId = true)
        (fun u x u' _ hu hstep => ?_) hactive hrest
      obtain ⟨r', hadd', hstep⟩ := bind_eq_ok.1 hstep
      cases hstep
      exact (addMember_activates rfl hadd').1.activeIn hu
    intro x hx
    rcases List.mem_cons.1 hx with rfl | hx
    · exact hkept
    · exact ih hrest x hx

theorem mem_activeMembers {p : MemberId × MemoryThreadMember} :
    p ∈ s.activeMembers ownerId i ↔ s.members[p.1]? = some p.2 ∧ p.2.threadId = i ∧
      p.2.ownerId = ownerId ∧ p.2.state = .active := by
  unfold Tables.activeMembers Tables.threadMembers
  simp only [List.mem_filter, List.mem_insertionSort, List.mem_map, Prod.exists, decide_eq_true_eq]
  constructor
  · rintro ⟨⟨⟨x, m, hm, rfl⟩, hthread, howner⟩, hstate⟩
    exact ⟨List.mem_zipIdx_iff_getElem?.1 hm, hthread, howner, hstate⟩
  · rintro ⟨hget, hthread, howner, hstate⟩
    exact ⟨⟨⟨p.2, p.1, List.mem_zipIdx_iff_getElem?.2 hget, rfl⟩, hthread, howner⟩, hstate⟩

/-- **a merge loses no active member** -/
theorem mergeThreads_copied (hmembers : MembersOwned s) {r : ThreadId}
    (hok : mergeThreads now w s ownerId source target key = .ok (r, t)) {m : MemoryThreadMember}
    (hm : m ∈ s.members) (hthread : m.threadId = source) (hstate : m.state = .active) :
    t.activeIn target m.memberKind m.memberRefId = true := by
  obtain ⟨-, -, hsource, -, linked, copied, row, events, hlinked, hcopied, -, rfl⟩ := mergeThreads_ok hok
  obtain ⟨x, hx, howner⟩ := hmembers m hm
  obtain ⟨x', hx', howner'⟩ := isOk_thread hsource
  rw [hthread, hx'] at hx
  obtain rfl := Option.some.inj hx
  obtain ⟨j, hj⟩ := List.getElem?_of_mem hm
  have hmem : (j, m) ∈ linked.activeMembers ownerId source :=
    mem_activeMembers.2 ⟨hlinked.members ▸ hj, hthread, howner.symm.trans howner', hstate⟩
  exact copyMembers_active hcopied (j, m) hmem

/-! ## a merge that is repeated -/

theorem keeps_of_map_eq {α β : Type} {f : α → β} {rows rows' : List α}
    (h : rows'.map f = rows.map f) : Keyed.Keeps f rows rows' := by
  intro j x hx
  have hmap : (rows'.map f)[j]? = some (f x) := by
    rw [h, List.getElem?_map, hx]
    rfl
  rw [List.getElem?_map] at hmap
  obtain ⟨x', hx', hf⟩ := Option.map_eq_some_iff.1 hmap
  exact ⟨x', hx', hf⟩

/-- only `last_seen_at` of members changes -/
structure Quiet (s t : Tables) : Prop where
  threads : t.threads = s.threads
  relations : t.relations = s.relations
  events : t.events = s.events
  members : t.members.map (·.unseen) = s.members.map (·.unseen)

theorem Quiet.refl (s : Tables) : Quiet s s := ⟨rfl, rfl, rfl, rfl⟩

theorem Quiet.trans {u : Tables} (h : Quiet s t) (h' : Quiet t u) : Quiet s u :=
  ⟨h'.threads.trans h.threads, h'.relations.trans h.relations, h'.events.trans h.events,
    h'.members.trans h.members⟩

theorem Quiet.activates (h : Quiet s t) : Activates s.members t.members where
  ref := (keeps_of_map_eq h.members).comp MemoryThreadMember.ref
  active m x hx hstate := by
    obtain ⟨x', hx', hsame⟩ := keeps_of_map_eq h.members m x hx
    exact ⟨x', hx', (congrArg MemoryThreadMember.state hsame).trans hstate⟩

theorem addMember_quiet {a : NewMember} {thread : MemoryThread} {r : RefId × Option Time}
    (hkey : a.idempotencyKey = none) (hthread : s.thread ownerId a.threadId = .ok thread)
    (hr : requireRef w ownerId a.memberKind a.memberRefId = .ok r)
    (hactive : s.activeIn a.threadId a.memberKind r.1 = true) :
    ∃ m t, addMember now w s ownerId a = .ok (m, t) ∧ Quiet s t := by
  obtain ⟨m, x, hfound, hstate⟩ := activeIn_iff.1 hactive
  refine ⟨m, s.setMember m { x with lastSeenAt := now }, ?_, rfl, rfl, rfl,
    map_set_same (lookup_eq_some.1 hfound).1 rfl⟩
  unfold addMember
  rw [hthread]
  show (requireRef w ownerId a.memberKind a.memberRefId >>= _) = _
  rw [hr]
  dsimp only [bind, Except.bind]
  rw [hkey]
  dsimp only [given, Option.filter_none, Option.bind_none]
  rw [hfound]
  show seeMember now s ownerId a m x = _
  unfold seeMember
  rw [if_pos hstate]

/-- copies of members that are active where they are copied to -/
theorem copyMembers_quiet {ms : List (MemberId × MemoryThreadMember)} {basis : String}
    {provenance : MemberId → Provenance} {thread : MemoryThread}
    (hthread : s.thread ownerId i = .ok thread)
    (hms : ∀ m ∈ ms, (requireRef w ownerId m.2.memberKind (some m.2.memberRefId)).isOk = true ∧
      s.activeIn i m.2.memberKind m.2.memberRefId = true) :
    ∃ t, copyMembers now w s ownerId i ms basis provenance = .ok t ∧ Quiet s t := by
  induction ms generalizing s with
  | nil => exact ⟨s, rfl, .refl s⟩
  | cons m ms ih =>
    obtain ⟨⟨hresolves, hactive⟩, hrest⟩ := List.forall_mem_cons.1 hms
    cases hr : requireRef w ownerId m.2.memberKind (some m.2.memberRefId) with
    | error e => rw [hr] at hresolves; cases hresolves
    | ok r =>
      have href : m.2.memberRefId = r.1 := Option.some.inj (requireRef_ok hr)
      obtain ⟨j, u, hadd, hquiet⟩ : ∃ j u, addMember now w s ownerId
          { threadId := i, memberKind := m.2.memberKind, memberRefId := some m.2.memberRefId
            membershipBasis := "continuation", classificationBasis := basis
            provenance := provenance m.1, actorType := "founder" } = .ok (j, u) ∧ Quiet s u :=
        addMember_quiet rfl hthread hr (href ▸ hactive)
      have hthread' : u.thread ownerId i = .ok thread := by
        rw [thread_ok, hquiet.threads]
        exact thread_ok.1 hthread
      obtain ⟨t, ht, hquiet'⟩ := ih hthread' fun x hx =>
        ⟨(hrest x hx).1, hquiet.activates.activeIn (hrest x hx).2⟩
      refine ⟨t, ?_, hquiet.trans hquiet'⟩
      refine bind_eq_ok.2 ⟨u, bind_eq_ok.2 ⟨(j, u), hadd, rfl⟩, ht⟩

/-- what a merge that returned leaves for its repetition -/
structure Remembered (s : Tables) (d : Done) : Prop where
  distinct : d.source ≠ d.target
  linked : ∃ row ∈ s.relations, row.link = (d.ownerId, d.source, d.target, "merged_into")
  source : ∃ row, s.threads[d.source]? = some row ∧ row.standing = (d.ownerId, .superseded)
  target : ∃ row, s.threads[d.target]? = some row ∧ row.ownerId = d.ownerId

/-- **a repeated merge** changes nothing -/
theorem mergeThreads_again {op : Op}
    (h : Remembered s ⟨op.ownerId, source, target, key⟩) (hkept : Kept s op source target key) :
    ∃ t, mergeThreads op.now op.world s op.ownerId source target key = .ok (target, t) ∧
      Quiet s t := by
  obtain ⟨hne, ⟨link, hlink, hends⟩, ⟨x, hx, hstanding⟩, ⟨y, hy, howner⟩⟩ := h
  obtain ⟨hxowner, hstate⟩ := Prod.mk.inj hstanding
  have hsource : s.thread op.ownerId source = .ok x := thread_ok.2 ⟨hx, hxowner⟩
  have htarget : s.thread op.ownerId target = .ok y := thread_ok.2 ⟨hy, howner⟩
  have hrelation : ∃ r, addRelationship s op.ownerId (mergedInto source target key) = .ok (r, s) := by
    unfold addRelationship
    rw [if_neg (show ¬ (mergedInto source target key).fromThreadId =
      (mergedInto source target key).toThreadId from hne)]
    rw [if_neg (by
      rintro (hno | hno)
      · rw [show s.thread op.ownerId (mergedInto source target key).fromThreadId = .ok x from
          hsource] at hno
        cases hno
      · rw [show s.thread op.ownerId (mergedInto source target key).toThreadId = .ok y from
          htarget] at hno
        cases hno)]
    cases hidem : (given (mergedInto source target key).idempotencyKey).bind
        (s.relationWithKey op.ownerId) with
    | some found =>
      obtain ⟨r, row⟩ := found
      obtain ⟨k, hk, hfound⟩ := Option.bind_eq_some_iff.1 hidem
      obtain ⟨hsome, hgiven⟩ := Option.filter_eq_some_iff.1 hk
      obtain rfl := Option.some.inj hsome
      have hrow := hkept.key (of_decide_eq_true hgiven) r row hfound
      refine ⟨r, ?_⟩
      dsimp only
      rw [if_neg (not_not_intro (by rw [hrow]; rfl))]
    | none =>
      dsimp only
      cases hthere : s.relationOf op.ownerId source target "merged_into" with
      | none => exact absurd hends (lookup_eq_none.1 hthere link hlink)
      | some found =>
        refine ⟨found.1, ?_⟩
        rw [show s.relationOf op.ownerId (mergedInto source target key).fromThreadId
          (mergedInto source target key).toThreadId
          (mergedInto source target key).relationshipType = some found from hthere]
  obtain ⟨r, hrelation⟩ := hrelation
  obtain ⟨t, hcopied, hquiet⟩ : ∃ t, copyMembers op.now op.world s op.ownerId target
      (s.activeMembers op.ownerId source) "deterministic" (.copied "merged_from" source ·) = .ok t ∧
        Quiet s t := by
    refine copyMembers_quiet htarget fun p hp => ?_
    obtain ⟨hget, hthread, -, hactive⟩ := mem_activeMembers.1 hp
    have hmem := List.mem_of_getElem? hget
    exact ⟨hkept.resolves p.2 hmem hthread hactive, hkept.active p.2 hmem hthread hactive⟩
  refine ⟨t, ?_, hquiet⟩
  have hsource' : t.thread op.ownerId source = .ok x := by
    rw [thread_ok, hquiet.threads]
    exact thread_ok.1 hsource
  unfold mergeThreads
  refine bind_eq_ok.2 ⟨(r, s), hrelation, bind_eq_ok.2 ⟨x, hsource, bind_eq_ok.2 ⟨y, htarget,
    bind_eq_ok.2 ⟨t, hcopied, bind_eq_ok.2 ⟨t, ?_, rfl⟩⟩⟩⟩⟩
  unfold supersedeSource
  refine bind_eq_ok.2 ⟨x, hsource', ?_⟩
  rw [if_pos hstate]
  rfl

/-! ## runs -/

/-- what no call takes back -/
structure Grows (s t : Tables) : Prop where
  relations : s.relations <+: t.relations
  threads : ∀ (i : ThreadId) (x : MemoryThread), s.threads[i]? = some x → ∃ x',
    t.threads[i]? = some x' ∧ x'.ownerId = x.ownerId ∧
      (x.state = .superseded → x'.state = .superseded)

theorem Adds.grows (h : Adds s t) : Grows s t where
  relations := by
    obtain ⟨new, hnew, -⟩ := h.relations
    exact ⟨new, hnew.symm⟩
  threads i x hx := by
    obtain ⟨x', hx', hsame⟩ := h.threads i x hx
    obtain ⟨howner, hstate⟩ := Prod.mk.inj hsame
    exact ⟨x', hx', howner, hstate.trans⟩

/-- the source of a merge that returns is superseded -/
theorem mergeThreads_grows {r : ThreadId}
    (hok : mergeThreads now w s ownerId source target key = .ok (r, t)) : Grows s t := by
  obtain ⟨-, -, -, -, linked, copied, row, events, hlinked, hcopied, hrow, rfl⟩ := mergeThreads_ok hok
  have hgrows : Grows linked copied := (copyMembers_adds hcopied).grows
  refine ⟨hlinked.relations.1.trans hgrows.relations, fun i x hx => ?_⟩
  obtain ⟨x', hx', howner, hstate⟩ := hgrows.threads i x (hlinked.threads ▸ hx)
  rw [getElem?_set_row hrow]
  by_cases hi : source = i
  · subst hi
    obtain rfl := Option.some.inj (hrow.symm.trans hx')
    exact ⟨_, if_pos rfl, howner, fun _ => rfl⟩
  · exact ⟨x', (if_neg hi).trans hx', howner, hstate⟩

theorem Remembered.mono {d : Done} (h : Remembered s d) (hgrows : Grows s t) : Remembered t d := by
  obtain ⟨hne, ⟨link, hlink, hends⟩, ⟨x, hx, hstanding⟩, ⟨y, hy, hyowner⟩⟩ := h
  obtain ⟨hxowner, hstate⟩ := Prod.mk.inj hstanding
  obtain ⟨x', hx', hxowner', hstate'⟩ := hgrows.threads _ x hx
  obtain ⟨y', hy', hyowner', -⟩ := hgrows.threads _ y hy
  exact ⟨hne, ⟨link, hgrows.relations.mem hlink, hends⟩,
    ⟨x', hx', Prod.ext (hxowner'.trans hxowner) (hstate' hstate)⟩,
    ⟨y', hy', hyowner'.trans hyowner⟩⟩

theorem mergeThreads_remembered {r : ThreadId}
    (hok : mergeThreads now w s ownerId source target key = .ok (r, t)) :
    Remembered t ⟨ownerId, source, target, key⟩ := by
  obtain ⟨-, hne, hsource, htarget, linked, copied, row, events, hlinked, hcopied, hrow, rfl⟩ :=
    mergeThreads_ok hok
  have hgrows : Grows linked copied := (copyMembers_adds hcopied).grows
  obtain ⟨link, hlink, hends⟩ := hlinked.relations.2
  obtain ⟨x, hx, hxowner⟩ := isOk_thread hsource
  obtain ⟨y, hy, hyowner⟩ := isOk_thread htarget
  obtain ⟨x', hx', hxowner', -⟩ := hgrows.threads source x (hlinked.threads ▸ hx)
  obtain ⟨y', hy', hyowner', -⟩ := hgrows.threads target y (hlinked.threads ▸ hy)
  obtain rfl := Option.some.inj (hrow.symm.trans hx')
  refine ⟨hne, ⟨link, hgrows.relations.mem hlink, hends⟩,
    ⟨_, List.getElem?_set_self (List.getElem?_eq_some_iff.1 hrow).1,
      Prod.ext (hxowner'.trans hxowner) rfl⟩,
    ⟨y', (List.getElem?_set_ne hne).trans hy', hyowner'.trans hyowner⟩⟩

/-- a call adds, or it is a merge that returns -/
theorem exec_cases (s : Tables) (op : Op) : Adds s (exec s op) ∨
    ∃ source target key r, op.call = .merge source target key ∧
      mergeThreads op.now op.world s op.ownerId source target key = .ok (r, exec s op) := by
  unfold exec
  cases hresult : op.result s with
  | error e => exact .inl (.refl s)
  | ok r =>
    unfold Op.result at hresult
    cases hcall : op.call with
    | create key manualLabel systemLabel basis =>
      rw [hcall] at hresult
      exact .inl (createThread_adds hresult)
    | add a =>
      rw [hcall] at hresult
      exact .inl (addMember_adds hresult)
    | deactivate t kind ref reason actorType =>
      rw [hcall] at hresult
      exact .inl (deactivateMember_adds hresult)
    | branch parent key manualLabel memberIds =>
      rw [hcall] at hresult
      exact .inl (branchThread_adds hresult)
    | merge source target key =>
      rw [hcall] at hresult
      exact .inr ⟨source, target, key, r.1, rfl, hresult⟩

theorem result_merge {op : Op} (hcall : op.call = .merge source target key) :
    op.result s = mergeThreads op.now op.world s op.ownerId source target key := by
  unfold Op.result
  rw [hcall]

theorem answered_some {op : Op} {d : Done} (h : answered s op = some d) :
    ∃ r, op.call = .merge d.source d.target d.key ∧ d.ownerId = op.ownerId ∧
      mergeThreads op.now op.world s op.ownerId d.source d.target d.key = .ok (r, exec s op) := by
  unfold answered at h
  split at h
  · next source target key r hcall hresult =>
    obtain rfl := Option.some.inj h
    refine ⟨r.1, hcall, rfl, ?_⟩
    rw [← result_merge hcall, hresult]
    unfold exec
    rw [hresult]
  · cases h

/-- the invariant of a run, with the merges that returned -/
structure Remembers (p : Tables × List Done) : Prop where
  inv : Inv p.1
  done : ∀ d ∈ p.2, Remembered p.1 d

theorem Remembers.step {p : Tables × List Done} (h : Remembers p) {op : Op} (hop : Orderly p op) :
    Remembers (merging p op) := by
  have hgrows : Grows p.1 (exec p.1 op) := by
    rcases exec_cases p.1 op with hadds | ⟨source, target, key, r, -, hok⟩
    · exact hadds.grows
    · exact mergeThreads_grows hok
  constructor
  · rcases exec_cases p.1 op with hadds | ⟨source, target, key, r, hcall, hok⟩
    · exact h.inv.adds hadds
    · exact h.inv.merge hok (hop.forward source target key hcall)
  · intro d hd
    rcases List.mem_append.1 hd with hd | hd
    · exact (h.done d hd).mono hgrows
    · obtain ⟨r, -, howner, hok⟩ := answered_some (Option.mem_toList.1 hd)
      rw [← howner] at hok
      exact mergeThreads_remembered hok

theorem Remembers.obeys {p : Tables × List Done} (h : Remembers p) {op : Op} (hop : Orderly p op) :
    Obeys p op where
  copied source target key r t hcall hok m hm hthread hstate := by
    rw [result_merge hcall] at hok
    have hactive := mergeThreads_copied h.inv.members hok hm hthread hstate
    obtain ⟨j, x, hfound, hx⟩ := activeIn_iff.1 hactive
    obtain ⟨hget, href, -⟩ := lookup_eq_some.1 hfound
    exact ⟨x, List.mem_of_getElem? hget, href, hx⟩
  replays source target key hcall hdone := by
    obtain ⟨t, hok, hquiet⟩ := mergeThreads_again (h.done _ hdone) (hop.kept source target key hcall hdone)
    rw [result_merge hcall]
    exact ⟨t, hok, hquiet.members, hquiet.events⟩

/-- along every run whose merges are orderly, merges are acyclic and lead to a thread that is not
superseded, lose no active member, and are repeated without an effect -/
theorem threads_merge (users : List OwnerId) (ops : List Op)
    (hops : Run.Meets merging Orderly ({ users }, []) ops) :
    Run.Always merging (fun p => Merging p.1) ({ users }, []) ops ∧
      ∀ q ∈ Run.trace merging ({ users }, []) ops, Obeys q.1 q.2 := by
  have hnone : ∀ a b, ¬ Merged { users } a b := by
    rintro a b ⟨r, hr, -⟩
    exact absurd hr List.not_mem_nil
  have hstart : Remembers (({ users }, []) : Tables × List Done) := by
    refine ⟨⟨fun i row hrow => ?_, fun a b hab => absurd hab (hnone a b), fun a ha => ?_,
      fun m hm => absurd hm List.not_mem_nil⟩, fun d hd => absurd hd List.not_mem_nil⟩
    · exact absurd (List.mem_of_getElem? hrow) List.not_mem_nil
    · obtain ⟨b, hab, -⟩ := Relation.TransGen.head'_iff.1 ha
      exact hnone a b hab
  constructor
  · exact Run.always (I := Remembers) (fun p hp => hp.inv.merging) (fun p op hp hop => hp.step hop)
      hstart hops
  · exact Run.trace_all_of_meets (I := Remembers) (fun p op hp hop => ⟨hp.obeys hop, hp.step hop⟩)
      hstart hops

/-! ## threads of one owner -/

/-- a note of the owner, and no other record -/
def noted : World := fun ownerId kind ref =>
  if ownerId = 7 ∧ kind = "project_note" ∧ ref = 5 then some (some 2) else none

def called (call : Call) : Op := { ownerId := 7, now := 3, world := noted, call := call }

/-- two threads, and a note in the first -/
def opened : List Op :=
  [called (.create "a" none none "manual"), called (.create "b" none none "manual"),
    called (.add { threadId := 0, memberKind := "project_note", memberRefId := some 5 })]

def twice : List Op :=
  opened ++ [called (.merge 0 1 "m"), called (.merge 0 1 "m")]

theorem Orderly.of_ne {p : Tables × List Done} {op : Op}
    (h : ∀ source target key, op.call ≠ .merge source target key) : Orderly p op :=
  ⟨fun source target key hcall => absurd hcall (h source target key),
    fun source target key hcall => absurd hcall (h source target key)⟩

/-- a merge that is repeated -/
theorem threads_merge_twice : Run.Always merging (fun p => Merging p.1) ({ users := [7] }, []) twice ∧
    ∀ q ∈ Run.trace merging ({ users := [7] }, []) twice, Obeys q.1 q.2 := by
  refine threads_merge [7] twice ⟨.of_ne nofun, .of_ne nofun, .of_ne nofun, ?_, ?_, trivial⟩
  · refine ⟨fun source target key hcall => .inr ?_, fun source target key hcall hdone => ?_⟩
    · obtain ⟨rfl, rfl, rfl⟩ : source = 0 ∧ target = 1 ∧ key = "m" := by
        cases hcall
        exact ⟨rfl, rfl, rfl⟩
      intro hback
      rcases Relation.reflTransGen_iff_eq_or_transGen.1 hback with heq | hback
      · exact absurd heq (by decide)
      · obtain ⟨b, ⟨r, hr, -⟩, -⟩ := Relation.TransGen.head'_iff.1 hback
        exact List.not_mem_nil hr
    · exact absurd hdone List.not_mem_nil
  · refine ⟨fun source target key hcall => .inl ?_, fun source target key hcall _ => ?_⟩
    · cases hcall
      show ∃ r ∈ _, _
      decide
    · cases hcall
      refine ⟨fun _ i row hrow => ?_, by decide, by decide⟩
      have hfound : (some (i, row) : Option (RelationId × MemoryThreadRelationship)) =
        some (0, (mergedInto 0 1 "m").row 7) := hrow.symm
      cases hfound
      rfl

/-- two threads are merged into each other -/
theorem threads_merged_both_ways : ¬ ∀ users ops,
    Run.Always merging (fun p => Merging p.1) ({ users }, []) ops ∧
      ∀ q ∈ Run.trace merging ({ users }, []) ops, Obeys q.1 q.2 := by
  intro h
  have hmerging := (h [7] (opened ++ [called (.merge 0 1 "m"), called (.merge 1 0 "n")])).1.run
  have hthere : Merged (Run.run merging ({ users := [7] }, [])
      (opened ++ [called (.merge 0 1 "m"), called (.merge 1 0 "n")])).1 0 1 := by
    show ∃ r ∈ _, _
    decide
  have hback : Merged (Run.run merging ({ users := [7] }, [])
      (opened ++ [called (.merge 0 1 "m"), called (.merge 1 0 "n")])).1 1 0 := by
    show ∃ r ∈ _, _
    decide
  exact hmerging.acyclic 0 (.tail (.single hthere) hback)

end LifeAI.Threads
