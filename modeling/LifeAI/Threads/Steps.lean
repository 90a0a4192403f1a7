import LifeAI.Threads.Model

/-!
# What a call does to the threads

* `Merged`  a thread was merged into another;
* `Adds`    what a call that merges nothing does: states stay, and no merge appears;
* `addMember_adds`, `branchThread_adds`, …   the calls that merge nothing;
* `addRelationship_ok`, `supersedeSource_ok`, `mergeThreads_ok`   what a merge does.
-/

namespace LifeAI.Threads

open Keyed

variable {now : Time} {w : World} {s t mid : Tables} {ownerId : OwnerId}

/-- the `merged_into` relationship of two threads -/
def Merged (s : Tables) (a b : ThreadId) : Prop :=
  ∃ r ∈ s.relations, r.relationshipType = "merged_into" ∧ r.fromThreadId = a ∧ r.toThreadId = b

/-- a member belongs to the owner of its thread -/
def MembersOwned (s : Tables) : Prop :=
  ∀ m ∈ s.members, ∃ row, s.threads[m.threadId]? = some row ∧ row.ownerId = m.ownerId

/-- whose a thread is, and its state -/
def MemoryThread.standing (t : MemoryThread) : OwnerId × ThreadState := (t.ownerId, t.state)

/-- states stay, new threads are active, and no merge appears -/
structure Adds (s t : Tables) : Prop where
  threads : Keyed.Keeps MemoryThread.standing s.threads t.threads
  newThreads : ∀ (i : ThreadId) (row : MemoryThread), t.threads[i]? = some row →
    s.threads.length ≤ i → row.state = .active
  relations : ∃ new, t.relations = s.relations ++ new ∧
    ∀ r ∈ new, r.relationshipType ≠ "merged_into"
  members : MembersOwned s → MembersOwned t

namespace Adds

theorem refl (s : Tables) : Adds s s where
  threads := .refl _ _
  newThreads _ _ hrow hlen := absurd (List.getElem?_eq_some_iff.1 hrow).1 (Nat.not_lt.2 hlen)
  relations := ⟨[], (List.append_nil _).symm, fun _ hr => absurd hr List.not_mem_nil⟩
  members h := h

theorem trans {u : Tables} (h : Adds s t) (h' : Adds t u) : Adds s u where
  threads := h.threads.trans h'.threads
  newThreads i row hrow hlen := by
    by_cases hi : i < t.threads.length
    · obtain ⟨row', hrow', hsame⟩ := h'.threads i _ (List.getElem?_eq_getElem hi)
      obtain rfl := Option.some.inj (hrow.symm.trans hrow')
      have hstate : row.state = t.threads[i].state := congrArg Prod.snd hsame
      rw [hstate]
      exact h.newThreads i _ (List.getElem?_eq_getElem hi) hlen
    · exact h'.newThreads i row hrow (Nat.not_lt.1 hi)
  relations := by
    obtain ⟨new, hnew, hother⟩ := h.relations
    obtain ⟨new', hnew', hother'⟩ := h'.relations
    refine ⟨new ++ new', by rw [hnew', hnew, List.append_assoc], fun r hr => ?_⟩
    exact (List.mem_append.1 hr).elim (hother r) (hother' r)
  members hs := h'.members (h.members hs)

theorem merged_iff (h : Adds s t) {a b : ThreadId} : Merged t a b ↔ Merged s a b := by
  obtain ⟨new, hnew, hother⟩ := h.relations
  unfold Merged
  rw [hnew]
  constructor
  · rintro ⟨r, hr, htype, hends⟩
    rcases List.mem_append.1 hr with hr | hr
    · exact ⟨r, hr, htype, hends⟩
    · exact absurd htype (hother r hr)
  · rintro ⟨r, hr, hrest⟩
    exact ⟨r, List.mem_append_left _ hr, hrest⟩

end Adds

theorem thread_ok {i : ThreadId} {row : MemoryThread} :
    s.thread ownerId i = .ok row ↔ s.threads[i]? = some row ∧ row.ownerId = ownerId := by
  unfold Tables.thread
  cases s.threads[i]? with
  | none => simp
  | some x =>
    dsimp only
    by_cases hx : x.ownerId = ownerId
    · rw [if_pos hx]
      constructor
      · intro h
        obtain rfl := Except.ok.inj h
        exact ⟨rfl, hx⟩
      · intro h
        rw [Option.some.inj h.1]
    · rw [if_neg hx]
      constructor
      · intro h
        cases h
      · intro h
        obtain rfl := Option.some.inj h.1
        exact absurd h.2 hx

theorem event_ok {e : MemoryThreadEvent} (h : s.event e = .ok t) :
    t = { s with events := s.events ++ [e] } := by
  unfold Tables.event at h
  split at h
  · exact (Except.ok.inj h).symm
  · cases h

/-! ## calls that merge nothing -/

theorem createThread_adds {key : String} {manualLabel systemLabel : Option String} {basis : String}
    {i : ThreadId} (h : createThread now s ownerId key manualLabel systemLabel basis = .ok (i, t)) :
    Adds s t := by
  unfold createThread at h
  split at h
  · cases h
  split at h
  · split at h
    · cases h
    · cases h
      exact .refl s
  · obtain ⟨-, -, h⟩ := bind_eq_ok.1 h
    obtain ⟨-, -, h⟩ := bind_eq_ok.1 h
    obtain ⟨-, -, h⟩ := bind_eq_ok.1 h
    obtain ⟨u, hevent, h⟩ := bind_eq_ok.1 h
    obtain rfl := event_ok hevent
    cases h
    refine ⟨.append _ _ _, fun i row hrow hlen => ?_, (Adds.refl s).relations, fun hs m hm => ?_⟩
    · rcases getElem?_insert hrow with hold | ⟨-, rfl⟩
      · exact absurd (List.getElem?_eq_some_iff.1 hold).1 (Nat.not_lt.2 hlen)
      · rfl
    · obtain ⟨row, hrow, howner⟩ := hs m hm
      exact ⟨row, (List.getElem?_append_left (List.getElem?_eq_some_iff.1 hrow).1).trans hrow, howner⟩

/-- a member keeps its thread and its owner -/
theorem adds_setMember {m : MemberId} {x x' : MemoryThreadMember} {events : List MemoryThreadEvent}
    (hx : s.members[m]? = some x) (hthread : x'.threadId = x.threadId)
    (howner : x'.ownerId = x.ownerId) :
    Adds s { s.setMember m x' with events := events } := by
  refine { Adds.refl s with members := fun hs y hy => ?_ }
  rcases List.mem_or_eq_of_mem_set hy with hy | rfl
  · exact hs y hy
  · obtain ⟨row, hrow, howner'⟩ := hs x (List.mem_of_getElem? hx)
    rw [hthread, howner]
    exact ⟨row, hrow, howner'⟩

theorem seeMember_adds {a : NewMember} {m i : MemberId} {existing : MemoryThreadMember}
    (hm : s.members[m]? = some existing) (h : seeMember now s ownerId a m existing = .ok (i, t)) :
    Adds s t := by
  unfold seeMember at h
  split at h
  · cases h
    exact adds_setMember hm rfl rfl
  · obtain ⟨u, hevent, h⟩ := bind_eq_ok.1 h
    obtain rfl := event_ok hevent
    cases h
    exact adds_setMember hm rfl rfl

theorem insertMember_adds {a : NewMember} {thread : MemoryThread} {ref : RefId}
    {occurred : Option Time} {i : MemberId} (hthread : s.thread ownerId a.threadId = .ok thread)
    (h : insertMember now s ownerId a thread ref occurred = .ok (i, t)) : Adds s t := by
  obtain ⟨hget, howner⟩ := thread_ok.1 hthread
  unfold insertMember at h
  obtain ⟨-, -, h⟩ := bind_eq_ok.1 h
  obtain ⟨-, -, h⟩ := bind_eq_ok.1 h
  obtain ⟨-, -, h⟩ := bind_eq_ok.1 h
  obtain ⟨-, -, h⟩ := bind_eq_ok.1 h
  obtain ⟨u, hevent, h⟩ := bind_eq_ok.1 h
  obtain rfl := event_ok hevent
  cases h
  have hthreads : Keyed.Keeps MemoryThread.standing s.threads
      (s.threads.set a.threadId { thread with lastActivityAt := now }) := .set hget rfl
  refine ⟨hthreads, fun i row hrow hlen => ?_, (Adds.refl s).relations, fun hs m hm => ?_⟩
  · have hlt : i < (s.threads.set a.threadId { thread with lastActivityAt := now }).length :=
      (List.getElem?_eq_some_iff.1 hrow).1
    rw [List.length_set] at hlt
    exact absurd hlt (Nat.not_lt.2 hlen)
  · have hkept : ∀ x ∈ s.members, ∃ row,
        (s.threads.set a.threadId { thread with lastActivityAt := now })[x.threadId]? = some row ∧
          row.ownerId = x.ownerId := by
      intro x hx
      obtain ⟨row, hrow, howner'⟩ := hs x hx
      obtain ⟨row', hrow', hsame⟩ := hthreads x.threadId row hrow
      exact ⟨row', hrow', (congrArg Prod.fst hsame : row'.ownerId = row.ownerId).trans howner'⟩
    rcases List.mem_append.1 hm with hm | hm
    · exact hkept m hm
    · rw [List.mem_singleton.1 hm]
      obtain ⟨row', hrow', hsame⟩ := hthreads a.threadId thread hget
      exact ⟨row', hrow', (congrArg Prod.fst hsame : row'.ownerId = thread.ownerId).trans howner⟩

theorem addMember_adds {a : NewMember} {i : MemberId}
    (h : addMember now w s ownerId a = .ok (i, t)) : Adds s t := by
  unfold addMember at h
  obtain ⟨thread, hthread, h⟩ := bind_eq_ok.1 h
  obtain ⟨r, -, h⟩ := bind_eq_ok.1 h
  split at h
  · split at h
    · cases h
    · cases h
      exact .refl s
  · split at h
    · next m existing hfound => exact seeMember_adds (lookup_eq_some.1 hfound).1 h
    · exact insertMember_adds hthread h

theorem deactivateMember_adds {i : ThreadId} {kind : String} {ref : Option RefId}
    {reason actorType : String} {m : MemberId}
    (h : deactivateMember s ownerId i kind ref reason actorType = .ok (m, t)) : Adds s t := by
  unfold deactivateMember at h
  split at h
  · cases h
  obtain ⟨thread, -, h⟩ := bind_eq_ok.1 h
  split at h
  · cases h
  split at h
  · cases h
  next m' member hfound =>
  split at h
  · cases h
    exact .refl s
  · obtain ⟨u, hevent, h⟩ := bind_eq_ok.1 h
    obtain rfl := event_ok hevent
    cases h
    exact adds_setMember (lookup_eq_some.1 hfound).1 rfl rfl

/-- a relationship is there, or new -/
theorem addRelationship_ok {a : NewRelation} {r : RelationId}
    (h : addRelationship s ownerId a = .ok (r, t)) :
    a.fromThreadId ≠ a.toThreadId ∧ (s.thread ownerId a.fromThreadId).isOk = true ∧
      (s.thread ownerId a.toThreadId).isOk = true ∧
      ((t = s ∧ ∃ row ∈ s.relations,
        row.link = (ownerId, a.fromThreadId, a.toThreadId, a.relationshipType)) ∨
      ∃ events, t = { s with relations := s.relations ++ [a.row ownerId], events := events }) := by
  unfold addRelationship at h
  split at h
  · cases h
  next hne =>
  split at h
  · cases h
  next hthreads =>
  obtain ⟨hfrom, hto⟩ := not_or.1 hthreads
  refine ⟨hne, Bool.not_eq_false _ ▸ hfrom, Bool.not_eq_false _ ▸ hto, ?_⟩
  split at h
  · next i idem hidem =>
    split at h
    · cases h
    next hsame =>
    cases h
    obtain ⟨key, -, hfound⟩ := Option.bind_eq_some_iff.1 hidem
    have hrow := congrArg MemoryThreadRelationship.link (not_not.1 hsame)
    exact .inl ⟨rfl, idem, List.mem_of_getElem? (lookup_eq_some.1 hfound).1, hrow⟩
  · split at h
    · next i x hfound =>
      cases h
      obtain ⟨hget, hlink, -⟩ := lookup_eq_some.1 hfound
      exact .inl ⟨rfl, x, List.mem_of_getElem? hget, hlink⟩
    · obtain ⟨-, -, h⟩ := bind_eq_ok.1 h
      obtain ⟨-, -, h⟩ := bind_eq_ok.1 h
      obtain ⟨-, -, h⟩ := bind_eq_ok.1 h
      obtain ⟨u, hevent, h⟩ := bind_eq_ok.1 h
      obtain rfl := event_ok hevent
      cases h
      exact .inr ⟨_, rfl⟩

theorem addRelationship_adds {a : NewRelation} {r : RelationId}
    (htype : a.relationshipType ≠ "merged_into")
    (h : addRelationship s ownerId a = .ok (r, t)) : Adds s t := by
  obtain ⟨-, -, -, ⟨rfl, -⟩ | ⟨events, rfl⟩⟩ := addRelationship_ok h
  · exact .refl _
  · refine { Adds.refl s with relations := ⟨[a.row ownerId], rfl, fun r hr => ?_⟩ }
    rw [List.mem_singleton.1 hr]
    exact htype

theorem copyMembers_adds {i : ThreadId} {ms : List (MemberId × MemoryThreadMember)} {basis : String}
    {provenance : MemberId → Provenance}
    (h : copyMembers now w s ownerId i ms basis provenance = .ok t) : Adds s t := by
  refine foldlM_ok (P := Adds s) (fun u m u' _ hu hstep => ?_) (.refl s) h
  obtain ⟨r, hr, hstep⟩ := bind_eq_ok.1 hstep
  cases hstep
  exact hu.trans (addMember_adds hr)

theorem branchThread_adds {parent i : ThreadId} {key : String} {manualLabel : Option String}
    {memberIds : List MemberId}
    (h : branchThread now w s ownerId parent key manualLabel memberIds = .ok (i, t)) : Adds s t := by
  unfold branchThread at h
  obtain ⟨_, -, h⟩ := bind_eq_ok.1 h
  obtain ⟨child, hchild, h⟩ := bind_eq_ok.1 h
  obtain ⟨relation, hrelation, h⟩ := bind_eq_ok.1 h
  obtain ⟨copied, hcopied, h⟩ := bind_eq_ok.1 h
  obtain ⟨u, hevent, h⟩ := bind_eq_ok.1 h
  obtain rfl := event_ok hevent
  cases h
  have hbranch : "branch" ≠ "merged_into" := by decide
  have hrelates : Adds child.2 relation.2 := addRelationship_adds hbranch hrelation
  have hadds := ((createThread_adds hchild).trans hrelates).trans (copyMembers_adds hcopied)
  exact { hadds with }

/-! ## merges -/

/-- the source is superseded; where it already was, nothing changes -/
theorem supersedeSource_ok {source target : ThreadId} {r : RelationId}
    (h : supersedeSource s ownerId source target r = .ok t) :
    ∃ row events, s.threads[source]? = some row ∧
      t = { s with
        threads := s.threads.set source { row with state := .superseded }, events := events } := by
  unfold supersedeSource at h
  obtain ⟨row, hrow, h⟩ := bind_eq_ok.1 h
  obtain ⟨hget, -⟩ := thread_ok.1 hrow
  refine ⟨row, ?_⟩
  split at h
  · next hsuperseded =>
    cases h
    have hset : s.threads.set source { row with state := .superseded } = s.threads := by
      rw [← hsuperseded]
      exact set_same hget
    exact ⟨s.events, hget, by rw [hset]⟩
  · obtain ⟨u, hevent, h⟩ := bind_eq_ok.1 h
    obtain rfl := event_ok hevent
    obtain rfl := event_ok h
    exact ⟨_, hget, rfl⟩

end LifeAI.Threads
