import LifeAI.Context.Discovery

/-!
# What a refresh leaves

The members are followed one by one: `touched` says what the discovered objects do to a member, and
`refreshContext_ok` that a refresh does this to every member and adds those that are new.

* `Refreshed`  what holds after a refresh;
* `refreshed_in_every_history`   it holds after every refresh of every history;
* `suppressed_path_and_row_order`   what a refresh does not promise.
-/

namespace LifeAI.Context

open Breadth (Chain)

/-! ## the members -/

section
variable (now : Time) (setId : SetId)

/-- what the discovered objects do to a member -/
def ActiveContextMember.touched (found : List (Ref × Found)) (m : ActiveContextMember) :
    ActiveContextMember :=
  found.foldl (fun m d => if m.key = (setId, d.1) then m.found now d.2 else m) m

end

variable {now : Time} {db : Db} {ownerId : OwnerId} {setId : SetId} {b : Bounds}
  {c : ActiveContextSet} {found : List (Ref × Found)} {m : ActiveContextMember} {f : Found}
  {s t : Tables} {d : Ref × Found}

namespace ActiveContextMember

@[simp] theorem found_key (f : Found) (m : ActiveContextMember) : (m.found now f).key = m.key := by
  unfold ActiveContextMember.found
  split <;> rfl

@[simp] theorem aged_key (m : ActiveContextMember) : (m.aged setId found).key = m.key := by
  unfold aged
  split <;> rfl

@[simp] theorem new_key (d : Ref × Found) :
    (ActiveContextMember.new now setId d).key = (setId, d.1) := rfl

/-- a member of another object is not touched -/
theorem touched_of_notMem (h : m.contextSetId ≠ setId ∨ m.ref ∉ found.map Prod.fst) :
    m.touched now setId found = m := by
  unfold touched
  induction found with
  | nil => rfl
  | cons d found ih =>
    have hne : m.key ≠ (setId, d.1) := by
      intro heq
      obtain ⟨hset, href⟩ := Prod.mk.inj heq
      rcases h with h | h
      · exact h hset
      · exact h (List.mem_map.2 ⟨d, List.mem_cons_self, href.symm⟩)
    rw [List.foldl_cons, if_neg hne]
    exact ih (h.imp_right fun hnot hmem => hnot (List.mem_cons_of_mem _ hmem))

/-- a member of a discovered object is found once -/
theorem touched_of_mem (honce : (found.map Prod.fst).Nodup) (hd : d ∈ found)
    (hkey : m.key = (setId, d.1)) : m.touched now setId found = m.found now d.2 := by
  unfold touched
  induction found with
  | nil => cases hd
  | cons x found ih =>
    rw [List.map_cons, List.nodup_cons] at honce
    rw [List.foldl_cons]
    rcases List.mem_cons.1 hd with rfl | hd
    · rw [if_pos hkey]
      have hrest : (m.found now d.2).touched now setId found = m.found now d.2 := by
        refine touched_of_notMem (.inr fun hmem => honce.1 ?_)
        have href : (m.found now d.2).ref = d.1 := (Prod.mk.inj ((found_key d.2 m).trans hkey)).2
        rwa [href] at hmem
      exact hrest
    · have hne : m.key ≠ (setId, x.1) := fun heq => honce.1 <| by
        rw [(Prod.mk.inj (heq.symm.trans hkey)).2]
        exact List.mem_map_of_mem hd
      rw [if_neg hne]
      exact ih honce.2 hd

theorem touched_key (m : ActiveContextMember) : (m.touched now setId found).key = m.key := by
  unfold touched
  induction found generalizing m with
  | nil => rfl
  | cons d found ih =>
    rw [List.foldl_cons, ih]
    split
    · exact found_key _ _
    · rfl

end ActiveContextMember

open ActiveContextMember

/-- the discovered objects touch the members that are there, and those that are new follow -/
theorem foldl_discover (honce : (found.map Prod.fst).Nodup) (s : Tables) :
    (found.foldl (Tables.discover now ownerId setId) s).members =
      s.members.map (ActiveContextMember.touched now setId found) ++
        (fresh setId s.members found).map (ActiveContextMember.new now setId) := by
  induction found generalizing s with
  | nil =>
    have hid : (ActiveContextMember.touched now setId []) = id := rfl
    rw [hid, List.map_id]
    exact (List.append_nil _).symm
  | cons d found ih =>
    rw [List.map_cons, List.nodup_cons] at honce
    rw [List.foldl_cons, ih honce.2]
    unfold Tables.discover fresh
    split
    · rename_i hthere
      have hkeys : (s.members.map fun m => if m.key = (setId, d.1) then m.found now d.2 else m).map
          ActiveContextMember.key = s.members.map ActiveContextMember.key := by
        rw [List.map_map]
        refine List.map_congr_left fun m _ => ?_
        show ActiveContextMember.key (if _ then _ else _) = _
        split
        · exact found_key _ _
        · rfl
      dsimp only
      rw [hkeys, List.map_map, List.filter_cons, if_neg (by simpa using hthere)]
      rfl
    · rename_i hnew
      have hlast : (ActiveContextMember.new now setId d).touched now setId found =
          ActiveContextMember.new now setId d := touched_of_notMem (.inr honce.1)
      have hmembers : s.members.map (ActiveContextMember.touched now setId (d :: found)) =
          s.members.map (ActiveContextMember.touched now setId found) := by
        refine List.map_congr_left fun m hm => ?_
        have hne : m.key ≠ (setId, d.1) := fun heq => hnew (heq ▸ List.mem_map_of_mem hm)
        unfold touched
        rw [List.foldl_cons, if_neg hne]
      have hfilter : (found.filter fun x => (setId, x.1) ∉
          (s.members ++ [ActiveContextMember.new now setId d]).map ActiveContextMember.key) =
          found.filter fun x => (setId, x.1) ∉ s.members.map ActiveContextMember.key := by
        refine List.filter_congr fun x hx => ?_
        have hne : x.1 ≠ d.1 := fun heq => honce.1 (heq ▸ List.mem_map_of_mem hx)
        simp [hne]
      dsimp only
      rw [hfilter, hmembers, List.map_append, List.map_singleton, hlast, List.filter_cons,
        if_pos (decide_eq_true hnew), List.map_cons, List.append_assoc, List.singleton_append]

theorem foldl_discover_sets (found : List (Ref × Found)) (s : Tables) :
    (found.foldl (Tables.discover now ownerId setId) s).sets = s.sets := by
  induction found generalizing s with
  | nil => rfl
  | cons d found ih =>
    rw [List.foldl_cons, ih]
    unfold Tables.discover
    split <;> rfl

/-- a refresh that returns -/
theorem refreshContext_ok (h : refreshContext now db ownerId setId b s = .ok t) :
    b.accepted ∧ ∃ c found, s.context ownerId setId = .ok c ∧ discovered db ownerId b c = .ok found ∧
      t.sets = s.sets.set setId { c with refreshedAt := some now } ∧
      t.members = s.members.map (fun m => (m.aged setId found).touched now setId found) ++
        (fresh setId s.members found).map (ActiveContextMember.new now setId) := by
  unfold refreshContext at h
  split at h
  · cases h
  · rename_i hb
    obtain ⟨c, hc, h⟩ := bind_eq_ok.1 h
    obtain ⟨found, hfound, h⟩ := bind_eq_ok.1 h
    have hbounds : b.accepted := by simpa using hb
    refine ⟨hbounds, c, found, hc, hfound, ?_⟩
    cases h
    have honce := (discovers hbounds hfound).once
    refine ⟨?_, ?_⟩
    · show List.set (Tables.sets (List.foldl _ _ found)) setId _ = _
      rw [foldl_discover_sets]
    · show Tables.members (List.foldl _ _ found) = _
      have hkeys : (s.members.map (aged setId found)).map ActiveContextMember.key =
          s.members.map ActiveContextMember.key := by
        rw [List.map_map]
        exact List.map_congr_left fun m _ => aged_key m
      rw [foldl_discover honce]
      unfold fresh
      dsimp only
      rw [hkeys, List.map_map]
      rfl

/-- a refresh with accepted bounds returns where its context is the owner's and its anchor is found -/
theorem refreshContext_returns (hb : b.accepted) (hc : s.context ownerId setId = .ok c)
    (hfound : discovered db ownerId b c = .ok found) (now : Time) :
    ∃ t, refreshContext now db ownerId setId b s = .ok t ∧
      t.sets = s.sets.set setId { c with refreshedAt := some now } ∧
      t.members = s.members.map (fun m => (m.aged setId found).touched now setId found) ++
        (fresh setId s.members found).map (ActiveContextMember.new now setId) := by
  have hok : ∃ t, refreshContext now db ownerId setId b s = .ok t := by
    unfold refreshContext
    rw [if_neg (not_not.2 hb), hc]
    show ∃ t, (discovered db ownerId b c >>= _) = Except.ok t
    rw [hfound]
    exact ⟨_, rfl⟩
  obtain ⟨t, ht⟩ := hok
  obtain ⟨-, c', found', hc', hfound', hafter⟩ := refreshContext_ok ht
  rw [hc] at hc'
  cases hc'
  rw [hfound] at hfound'
  cases hfound'
  exact ⟨t, ht, hafter⟩

/-! ## a member after a refresh -/

/-- the state of a member, and what a refresh gave it -/
def ActiveContextMember.standing (m : ActiveContextMember) :
    (SetId × Ref) × MemberState × ℕ × List PathStep :=
  (m.key, m.state, m.rank, m.activationPath)

/-- a member of the set after a refresh: it was discovered, and has the path unless it is
suppressed, or it was not and is not active -/
def ActiveContextMember.Settled (found : List (Ref × Found)) (m : ActiveContextMember) : Prop :=
  (∃ d ∈ found, d.1 = m.ref ∧ (m.state = .suppressed ∨
    m.state ≠ .stale ∧ m.rank = d.2.rank ∧ m.activationPath = d.2.path)) ∨
    m.ref ∉ found.map Prod.fst ∧ m.state ≠ .active

theorem settled_touched (honce : (found.map Prod.fst).Nodup) (hset : m.contextSetId = setId) :
    ((m.aged setId found).touched now setId found).Settled found := by
  have hkey : (m.aged setId found).key = (setId, m.ref) := by
    rw [aged_key, ← hset]
    rfl
  by_cases hmem : m.ref ∈ found.map Prod.fst
  · obtain ⟨d, hd, href⟩ := List.mem_map.1 hmem
    rw [← href] at hkey
    rw [touched_of_mem honce hd hkey]
    refine .inl ⟨d, hd, ?_, ?_⟩
    · have hfound : ((m.aged setId found).found now d.2).key = (setId, d.1) :=
        (found_key d.2 _).trans hkey
      exact (Prod.mk.inj hfound).2.symm
    · unfold ActiveContextMember.found
      by_cases hsup : (m.aged setId found).state = .suppressed
      · rw [if_pos hsup]
        exact .inl hsup
      · rw [if_neg hsup]
        refine .inr ⟨?_, rfl, rfl⟩
        dsimp only
        split
        · nofun
        · assumption
  · have href : (m.aged setId found).ref = m.ref := (Prod.mk.inj hkey).2
    rw [touched_of_notMem (.inr (href ▸ hmem))]
    refine .inr ⟨href ▸ hmem, ?_⟩
    unfold aged
    split
    · nofun
    · rename_i hno
      exact fun hactive => hno ⟨hset, hactive, hmem⟩

/-- a settled member is settled again as it is -/
theorem standing_touched (honce : (found.map Prod.fst).Nodup)
    (h : m.contextSetId = setId → m.Settled found) :
    ((m.aged setId found).touched now setId found).standing = m.standing := by
  by_cases hset : m.contextSetId = setId
  · rcases h hset with ⟨d, hd, href, hcase⟩ | ⟨hmem, hactive⟩
    · have haged : m.aged setId found = m := by
        unfold aged
        rw [if_neg fun hall => hall.2.2 (href ▸ List.mem_map_of_mem hd)]
      have hkey : m.key = (setId, d.1) := by
        rw [← hset, href]
        rfl
      rw [haged, touched_of_mem honce hd hkey]
      unfold ActiveContextMember.found
      by_cases hsup : m.state = .suppressed
      · rw [if_pos hsup]
      · obtain ⟨hstale, hrank, hpath⟩ := hcase.resolve_left hsup
        rw [if_neg hsup, if_neg hstale]
        show (m.key, m.state, d.2.rank, d.2.path) = m.standing
        rw [← hrank, ← hpath]
        rfl
    · have haged : m.aged setId found = m := by
        unfold aged
        rw [if_neg fun hall => hactive hall.2.1]
      rw [haged, touched_of_notMem (.inr hmem)]
  · have haged : m.aged setId found = m := by
      unfold aged
      rw [if_neg fun hall => hset hall.1]
    rw [haged, touched_of_notMem (.inl hset)]

/-- what a refresh leaves of a decision, and of a member of another set -/
structure Respects (setId : SetId) (m m' : ActiveContextMember) : Prop where
  key : m'.key = m.key
  other : m.contextSetId ≠ setId → m' = m
  suppressed : m.state = .suppressed → m' = m
  superseded : m.state = .superseded → m'.state = .superseded
  pinned : m.state = .pinned → m'.state = .pinned

theorem respects_touched (honce : (found.map Prod.fst).Nodup) (m : ActiveContextMember) :
    Respects setId m ((m.aged setId found).touched now setId found) := by
  have haged : m.contextSetId ≠ setId ∨ m.state ≠ .active → m.aged setId found = m := fun h => by
    unfold aged
    rw [if_neg fun hall => h.elim (fun hne => hne hall.1) fun hne => hne hall.2.1]
  -- a member that a refresh does not age is left alone, or found
  have hcases : m.aged setId found = m →
      ((m.aged setId found).touched now setId found = m ∨
        ∃ f, (m.aged setId found).touched now setId found = m.found now f) := fun hsame => by
    rw [hsame]
    by_cases hset : m.contextSetId = setId
    · by_cases hmem : m.ref ∈ found.map Prod.fst
      · obtain ⟨d, hd, href⟩ := List.mem_map.1 hmem
        have hkey : m.key = (setId, d.1) := by
          rw [← hset, href]
          rfl
        exact .inr ⟨d.2, touched_of_mem honce hd hkey⟩
      · exact .inl (touched_of_notMem (.inr hmem))
    · exact .inl (touched_of_notMem (.inl hset))
  refine ⟨(touched_key _).trans (aged_key m), fun hset => ?_, fun hstate => ?_, fun hstate => ?_,
    fun hstate => ?_⟩
  · rw [haged (.inl hset), touched_of_notMem (.inl hset)]
  · rcases hcases (haged (.inr (by rw [hstate]; nofun))) with hsame | ⟨f, hfound⟩
    · exact hsame
    · rw [hfound]
      unfold ActiveContextMember.found
      rw [if_pos hstate]
  · rcases hcases (haged (.inr (by rw [hstate]; nofun))) with hsame | ⟨f, hfound⟩
    · rw [hsame, hstate]
    · rw [hfound]
      unfold ActiveContextMember.found
      rw [hstate]
      rfl
  · rcases hcases (haged (.inr (by rw [hstate]; nofun))) with hsame | ⟨f, hfound⟩
    · rw [hsame, hstate]
    · rw [hfound]
      unfold ActiveContextMember.found
      rw [hstate]
      rfl

/-! ## a refresh -/

/-- what holds after a refresh of `setId` that discovered `found`, the tables being `s` before and
`t` after it -/
structure Refreshed (db : Db) (ownerId : OwnerId) (setId : SetId) (b : Bounds)
    (c : ActiveContextSet) (found : List (Ref × Found)) (s t : Tables) : Prop where
  discovers : Discovers db ownerId b c found
  /-- one member for an object, and one for every object that was discovered -/
  unique : (t.members.map ActiveContextMember.key).Nodup
  recorded : ∀ d ∈ found, (setId, d.1) ∈ t.members.map ActiveContextMember.key
  /-- the path of a discovered member that is not suppressed -/
  paths : ∀ m ∈ t.members, m.contextSetId = setId → m.ref ∈ found.map Prod.fst →
    m.state ≠ .suppressed →
      ∃ anchor, Activates db ownerId b c (found.map Prod.fst) m.activationPath m.ref anchor
  active : ∀ m ∈ t.members, m.contextSetId = setId → m.state = .active → m.ref ∈ found.map Prod.fst
  respects : ∀ (i : ℕ) (m : ActiveContextMember), s.members[i]? = some m →
    ∃ m', t.members[i]? = some m' ∧ Respects setId m m'
  /-- a second refresh with the same bounds, while the data stays as it was read -/
  again : ∀ now, ∃ t', refreshContext now db ownerId setId b t = .ok t' ∧
    t'.members.map ActiveContextMember.standing = t.members.map ActiveContextMember.standing

theorem nodup_fresh (honce : (found.map Prod.fst).Nodup) {members : List ActiveContextMember}
    (hnodup : (members.map ActiveContextMember.key).Nodup) :
    (members.map ActiveContextMember.key ++
      (fresh setId members found).map fun d => (setId, d.1)).Nodup := by
  refine List.nodup_append.2 ⟨hnodup, ?_, fun a ha x hx => ?_⟩
  · have hsub : ((fresh setId members found).map Prod.fst).Nodup :=
      honce.sublist (List.filter_sublist.map _)
    have hmap := hsub.map (f := fun r => (setId, r)) fun x y h => (Prod.mk.inj h).2
    rw [List.map_map] at hmap
    exact hmap
  · obtain ⟨d, hd, rfl⟩ := List.mem_map.1 hx
    have hnew := of_decide_eq_true (List.mem_filter.1 hd).2
    exact fun heq => hnew (heq ▸ ha)

/-- the keys after a refresh -/
theorem keys_refresh (h : refreshContext now db ownerId setId b s = .ok t)
    (hnodup : (s.members.map ActiveContextMember.key).Nodup) :
    (t.members.map ActiveContextMember.key).Nodup := by
  obtain ⟨hb, c, found, -, hfound, -, hmembers⟩ := refreshContext_ok h
  rw [hmembers, List.map_append, List.map_map, List.map_map]
  have hold : s.members.map (ActiveContextMember.key ∘ fun m =>
      (m.aged setId found).touched now setId found) = s.members.map ActiveContextMember.key :=
    List.map_congr_left fun m _ => (touched_key _).trans (aged_key m)
  rw [hold]
  exact nodup_fresh (discovers hb hfound).once hnodup

/-- every object that was discovered is a member -/
theorem recorded_refresh (hmembers : t.members =
      s.members.map (fun m => (m.aged setId found).touched now setId found) ++
        (fresh setId s.members found).map (ActiveContextMember.new now setId)) (hd : d ∈ found) :
    (setId, d.1) ∈ t.members.map ActiveContextMember.key := by
  rw [hmembers, List.map_append, List.mem_append]
  by_cases hthere : (setId, d.1) ∈ s.members.map ActiveContextMember.key
  · refine .inl ?_
    obtain ⟨m, hm, hkey⟩ := List.mem_map.1 hthere
    rw [List.map_map]
    exact List.mem_map.2 ⟨m, hm, ((touched_key _).trans (aged_key m)).trans hkey⟩
  · refine .inr (List.mem_map.2 ⟨.new now setId d, List.mem_map_of_mem ?_, rfl⟩)
    exact List.mem_filter.2 ⟨hd, decide_eq_true hthere⟩

/-- every member of the set is settled -/
theorem settled_refresh (honce : (found.map Prod.fst).Nodup) (hmembers : t.members =
      s.members.map (fun m => (m.aged setId found).touched now setId found) ++
        (fresh setId s.members found).map (ActiveContextMember.new now setId)) (hm : m ∈ t.members)
    (hset : m.contextSetId = setId) : m.Settled found := by
  rw [hmembers, List.mem_append] at hm
  rcases hm with hm | hm
  · obtain ⟨m', -, rfl⟩ := List.mem_map.1 hm
    have hkey : ((m'.aged setId found).touched now setId found).key = m'.key :=
      (touched_key _).trans (aged_key m')
    exact settled_touched honce ((Prod.mk.inj hkey).1.symm.trans hset)
  · obtain ⟨d, hd, rfl⟩ := List.mem_map.1 hm
    exact .inl ⟨d, (List.mem_filter.1 hd).1, rfl, .inr ⟨nofun, rfl, rfl⟩⟩

theorem again_refresh (h : refreshContext now db ownerId setId b s = .ok t) (now' : Time) :
    ∃ t', refreshContext now' db ownerId setId b t = .ok t' ∧
      t'.members.map ActiveContextMember.standing = t.members.map ActiveContextMember.standing := by
  obtain ⟨hb, c, found, hc, hfound, hsets, hmembers⟩ := refreshContext_ok h
  have honce := (discovers hb hfound).once
  have hcontext : t.context ownerId setId = .ok { c with refreshedAt := some now } := by
    unfold Tables.context at hc ⊢
    split at hc
    · rename_i c' hrow
      split at hc
      · rename_i howner
        cases hc
        rw [hsets, getElem?_set_row hrow, if_pos rfl]
        exact if_pos howner
      · cases hc
    · cases hc
  have hfound' : discovered db ownerId b { c with refreshedAt := some now } = .ok found := hfound
  obtain ⟨t', ht', -, hmembers'⟩ := refreshContext_returns hb hcontext hfound' now'
  refine ⟨t', ht', ?_⟩
  have hnone : fresh setId t.members found = [] := List.filter_eq_nil_iff.2 fun d hd hnew =>
    of_decide_eq_true hnew (recorded_refresh hmembers hd)
  rw [hmembers', hnone, List.map_nil, List.append_nil, List.map_map]
  exact List.map_congr_left fun m hm =>
    standing_touched honce fun hset => settled_refresh honce hmembers hm hset

theorem refreshed (hnodup : (s.members.map ActiveContextMember.key).Nodup)
    (h : refreshContext now db ownerId setId b s = .ok t) : ∃ c found,
      s.context ownerId setId = .ok c ∧ discovered db ownerId b c = .ok found ∧
        Refreshed db ownerId setId b c found s t := by
  obtain ⟨hb, c, found, hc, hfound, -, hmembers⟩ := refreshContext_ok h
  have hdisc := discovers hb hfound
  refine ⟨c, found, hc, hfound, hdisc, keys_refresh h hnodup, fun d hd => recorded_refresh hmembers hd,
    fun m hm hset hmem hsup => ?_, fun m hm hset hactive => ?_, fun i m hm => ?_, again_refresh h⟩
  · rcases settled_refresh hdisc.once hmembers hm hset with ⟨d, hd, href, hcase⟩ | ⟨hnot, -⟩
    · rcases hcase with hstate | ⟨-, -, hpath⟩
      · exact absurd hstate hsup
      · rw [hpath, ← href]
        exact hdisc.paths d hd
    · exact absurd hmem hnot
  · rcases settled_refresh hdisc.once hmembers hm hset with ⟨d, hd, href, -⟩ | ⟨-, hnot⟩
    · rw [← href]
      exact List.mem_map_of_mem hd
    · exact absurd hactive hnot
  · refine ⟨(m.aged setId found).touched now setId found, ?_, respects_touched hdisc.once m⟩
    have hlt : i < s.members.length := (List.getElem?_eq_some_iff.1 hm).1
    rw [hmembers, List.getElem?_append_left (by rwa [List.length_map]), List.getElem?_map, hm]
    rfl

/-! ## histories -/

/-- an object is a member of a set once -/
def OneMember (w : World) : Prop := (w.tables.members.map ActiveContextMember.key).Nodup

theorem put_key (state : MemberState) (m : ActiveContextMember) : (m.put now state).key = m.key := by
  unfold ActiveContextMember.put
  split <;> rfl

theorem keys_manualState {a : Manual} (h : manualState now db ownerId setId a s = .ok t)
    (hnodup : (s.members.map ActiveContextMember.key).Nodup) :
    (t.members.map ActiveContextMember.key).Nodup := by
  unfold manualState at h
  obtain ⟨r, -, h⟩ := bind_eq_ok.1 h
  obtain ⟨-, -, h⟩ := bind_eq_ok.1 h
  rw [guard_eq_ok] at h
  cases h.2
  dsimp only
  split
  · have hkeys : (s.members.map fun m =>
        if m.key = (setId, r.1) then m.put now a.state else m).map ActiveContextMember.key =
          s.members.map ActiveContextMember.key := by
      rw [List.map_map]
      refine List.map_congr_left fun m _ => ?_
      show ActiveContextMember.key (if _ then _ else _) = _
      split
      · exact put_key _ _
      · rfl
    rw [hkeys]
    exact hnodup
  · rename_i hnew
    rw [List.map_append, List.map_singleton]
    refine List.nodup_append.2 ⟨hnodup, List.nodup_singleton _, fun x hx y hy => ?_⟩
    have hkey : y = (setId, r.1) := List.mem_singleton.1 hy
    exact fun heq => hnew (hkey ▸ heq ▸ hx)

theorem keys_call {op : Op} (h : op.call db s = .ok t)
    (hnodup : (s.members.map ActiveContextMember.key).Nodup) :
    (t.members.map ActiveContextMember.key).Nodup := by
  cases op with
  | data db' =>
    cases h
    exact hnodup
  | refresh now ownerId setId b => exact keys_refresh h hnodup
  | pin now ownerId setId objectType ref => exact keys_manualState h hnodup
  | unpin now ownerId setId objectType ref => exact keys_manualState h hnodup
  | suppress now ownerId setId objectType ref => exact keys_manualState h hnodup
  | unsuppress now ownerId setId objectType ref => exact keys_manualState h hnodup
  | noncurrent now ownerId setId objectType ref state reason actorType =>
    have hcall := (guard_eq_ok.1 h).2
    exact keys_manualState hcall hnodup

theorem oneMember_exec (w : World) (op : Op) (h : OneMember w) : OneMember (exec w op) := by
  show ((transact w.tables (op.call w.db w.tables)).members.map ActiveContextMember.key).Nodup
  cases hcall : op.call w.db w.tables with
  | error e => exact h
  | ok t => exact keys_call hcall h

/-- after every history, a refresh that returns leaves what it should -/
theorem refreshed_in_every_history (db : Db) (sets : List ActiveContextSet) (os : List Op)
    (now : Time) (ownerId : OwnerId) (setId : SetId) (b : Bounds) (t : Tables)
    (h : refreshContext now (Run.run exec (start db sets) os).db ownerId setId b
      (Run.run exec (start db sets) os).tables = .ok t) :
    ∃ c found,
      (Run.run exec (start db sets) os).tables.context ownerId setId = .ok c ∧
      discovered (Run.run exec (start db sets) os).db ownerId b c = .ok found ∧
      Refreshed (Run.run exec (start db sets) os).db ownerId setId b c found
        (Run.run exec (start db sets) os).tables t := by
  have hstart : OneMember (start db sets) := List.nodup_nil
  exact refreshed (Run.inv_all oneMember_exec hstart os) h

/-! ## what a refresh does not promise -/

/-- the rounds of the loop, `n` of them at most -/
def Search.rounds (db : Db) (ownerId : OwnerId) (b : Bounds) : ℕ → Search → Search
  | 0, s => s
  | n + 1, s =>
    match s.step db ownerId b with
    | none => s
    | some t => Search.rounds db ownerId b n t

theorem loop_eq_rounds (n : ℕ) {s : Search}
    (h : ((s.rounds db ownerId b n).step db ownerId b).isNone) :
    s.loop db ownerId b = s.rounds db ownerId b n := by
  induction n generalizing s with
  | zero =>
    rw [Search.loop]
    split
    · rfl
    · rename_i t hstep
      change (s.step db ownerId b).isNone = true at h
      rw [hstep] at h
      cases h
  | succ n ih =>
    rw [Search.loop]
    unfold Search.rounds at h ⊢
    cases hstep : s.step db ownerId b with
    | none => rfl
    | some t =>
      rw [hstep] at h
      exact ih h

/-- a message and its conversation -/
def messageDb : Db :=
  { rows := [{ ref := ⟨.conversation, 7⟩, owner := some 1 },
      { ref := ⟨.message, 3⟩, columns := [(.conversationId, 7)] }] }

def messageSet : ActiveContextSet :=
  { ownerId := 1, anchorType := .supported .message, anchorRef := .uuid 3 }

/-- a job with two tasks, as the database gives its rows -/
def jobDb (tasks : List RefId) : Db :=
  { rows := { ref := ⟨.mainaiJob, 5⟩, owner := some 1 } ::
      tasks.map fun id =>
        { ref := ⟨.mainaiTask, id⟩, owner := some 1, columns := [(.mainaiJobId, 5)] } }

def jobSet : ActiveContextSet :=
  { ownerId := 1, anchorType := .supported .mainaiJob, anchorRef := .uuid 5 }

theorem discovered_message : discovered messageDb 1 {} messageSet = .ok
    [(⟨.message, 3⟩, ⟨0, .anchor, [(⟨.message, 3⟩, .anchor)]⟩),
      (⟨.conversation, 7⟩, ⟨1, .sameConversation,
        [(⟨.message, 3⟩, .anchor), (⟨.conversation, 7⟩, .sameConversation)]⟩)] := by
  show Except.ok (discoverFrom messageDb 1 {} [_]) = _
  unfold discoverFrom
  rw [loop_eq_rounds 2 (by decide)]
  decide

/-- the job and one of its tasks -/
def jobAnd (task : RefId) : List (Ref × Found) :=
  [(⟨.mainaiJob, 5⟩, ⟨0, .anchor, [(⟨.mainaiJob, 5⟩, .anchor)]⟩),
    (⟨.mainaiTask, task⟩,
      ⟨1, .sameTask, [(⟨.mainaiJob, 5⟩, .anchor), (⟨.mainaiTask, task⟩, .sameTask)]⟩)]

theorem discovered_job :
    discovered (jobDb [8, 9]) 1 { maxPerType := 1 } jobSet = .ok (jobAnd 8) ∧
      discovered (jobDb [9, 8]) 1 { maxPerType := 1 } jobSet = .ok (jobAnd 9) := by
  refine ⟨?_, ?_⟩
  · show Except.ok (discoverFrom (jobDb [8, 9]) 1 { maxPerType := 1 } [_]) = _
    unfold discoverFrom
    rw [loop_eq_rounds 3 (by decide)]
    decide
  · show Except.ok (discoverFrom (jobDb [9, 8]) 1 { maxPerType := 1 } [_]) = _
    unfold discoverFrom
    rw [loop_eq_rounds 3 (by decide)]
    decide

/-- the tables after a founder suppressed the conversation of the message -/
def suppressedTables : Tables :=
  (Run.run exec (start messageDb [messageSet])
    [.suppress 0 1 0 (.supported .conversation) (.uuid 7)]).tables

theorem context_suppressed : suppressedTables.context 1 0 = .ok messageSet := by decide

theorem refreshed_message : ∃ t, refreshContext 1 messageDb 1 0 {} suppressedTables = .ok t ∧
    ∃ c found, suppressedTables.context 1 0 = .ok c ∧ discovered messageDb 1 {} c = .ok found ∧
      Refreshed messageDb 1 0 {} c found suppressedTables t := by
  obtain ⟨t, ht, -⟩ := refreshContext_returns (by decide) context_suppressed discovered_message 1
  exact ⟨t, ht, refreshed_in_every_history messageDb [messageSet]
    [.suppress 0 1 0 (.supported .conversation) (.uuid 7)] 1 1 0 {} t ht⟩

/-- a discovered member that is suppressed keeps the path it was suppressed with, and a second
refresh on the same rows in another order makes another task active -/
theorem suppressed_path_and_row_order :
    (∃ t found, refreshContext 1 messageDb 1 0 {} suppressedTables = .ok t ∧
      discovered messageDb 1 {} messageSet = .ok found ∧
      ∃ m ∈ t.members, m.contextSetId = 0 ∧ m.ref ∈ found.map Prod.fst ∧
        ¬ ∃ anchor, Activates messageDb 1 {} messageSet (found.map Prod.fst) m.activationPath m.ref
          anchor) ∧
    (∃ t t', refreshContext 1 (jobDb [8, 9]) 1 0 { maxPerType := 1 } { sets := [jobSet] } = .ok t ∧
      refreshContext 2 (jobDb [9, 8]) 1 0 { maxPerType := 1 } t = .ok t' ∧
      (jobDb [8, 9]).rows.Perm (jobDb [9, 8]).rows ∧
      t'.members.map ActiveContextMember.standing ≠ t.members.map ActiveContextMember.standing) := by
  refine ⟨?_, ?_⟩
  · obtain ⟨t, ht, -, hmembers⟩ := refreshContext_returns (by decide) context_suppressed
      discovered_message 1
    refine ⟨t, _, ht, discovered_message,
      Manual.member 0 0
        { objectType := .supported .conversation, objectRef := .uuid 7, state := .suppressed
          action := .suppressed } ⟨.conversation, 7⟩, ?_, rfl, by decide, ?_⟩
    · rw [hmembers]
      decide
    · intro h
      obtain ⟨anchor, hpath⟩ := h
      have hhead := hpath.chain.head
      cases hhead
  · have hfirst : Tables.context { sets := [jobSet] } 1 0 = .ok jobSet := by decide
    obtain ⟨t, ht, hsets, hmembers⟩ := refreshContext_returns (by decide) hfirst discovered_job.1 1
    have hcontext : t.context 1 0 = .ok { jobSet with refreshedAt := some 1 } := by
      unfold Tables.context
      rw [hsets]
      rfl
    have hother : discovered (jobDb [9, 8]) 1 { maxPerType := 1 }
        { jobSet with refreshedAt := some 1 } = .ok (jobAnd 9) := discovered_job.2
    obtain ⟨t', ht', -, hmembers'⟩ := refreshContext_returns (by decide) hcontext hother 2
    refine ⟨t, t', ht, ht', by decide, ?_⟩
    rw [hmembers', hmembers]
    decide

end LifeAI.Context
