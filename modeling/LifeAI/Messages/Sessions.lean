import LifeAI.Messages.System

/-!
# What sessions on the messages keep apart

* `Session.Ok`  what the locks of a session give it, over the rows that are committed;
* `Session.Ok.sublist`  without the lock of a conversation a session takes rows away at most;
* `Sys.Inv`     the invariant; `Sys.Inv.exec` keeps it.
-/

namespace LifeAI.Messages

variable {hashtext : ConversationId → Int} {rows rows' : List Message} {c : ConversationId}
  {x y : Session} {s t : Sys} {i j : SessionId} {nums : List (MessageId × Nat)}

/-- the ordinals of a conversation are in order -/
abbrev Sound (c : ConversationId) (rows : List Message) : Prop :=
  Ordinals.Sound Message.sequenceNumber Message.backfilled (inConversation c rows)

/-- what holds of a session over the rows that are committed -/
def Session.Ok (hashtext : ConversationId → Int) (rows : List Message) : Session → Prop
  | .writer locks inserted _ =>
    (∀ m ∈ inserted, hashtext m.conversationId ∈ locks ∧ m.sequenceNumber.isSome) ∧
      (inserted.map (·.id)).Nodup ∧
      ∀ id ∈ inserted.map (·.id), id ∉ rows.map (·.id)
  | .backfill c (.updating nums) => Fits nums c rows
  | .backfill c (.committing outcome nums) => Fits nums c rows ∧ outcome ≠ .conflict ∧
      ∀ id ∈ nums.map (·.1), id ∈ (inConversation c rows).map (·.id)
  | .backfill _ _ => True

theorem inConversation_sublist (h : rows'.Sublist rows) :
    (inConversation c rows').Sublist (inConversation c rows) := h.filter _

theorem Sound.sublist (h : Sound c rows)
    (hsub : (inConversation c rows').Sublist (inConversation c rows)) : Sound c rows' :=
  Ordinals.Sound.sublist h hsub

namespace Session

/-- a row that a session sees was committed, or it is one that it inserted -/
theorem mem_view {m : Message} (h : m ∈ x.view rows) :
    (∃ m₀ ∈ rows, m₀.id = m.id ∧ m₀.conversationId = m.conversationId) ∨ m.id ∈ x.insertedIds := by
  cases x with
  | writer locks inserted deleted =>
    rcases List.mem_append.1 h with h | h
    · exact .inl ⟨m, (List.mem_filter.1 h).1, rfl, rfl⟩
    · exact .inr (List.mem_map_of_mem h)
  | backfill c stage =>
    cases stage with
    | committing outcome nums =>
      obtain ⟨m₀, hm₀, rfl⟩ := List.mem_map.1 h
      exact .inl ⟨m₀, hm₀, (numberRow_id m₀).symm, (numberRow_conversationId m₀).symm⟩
    | _ => exact .inl ⟨m, h, rfl, rfl⟩

/-- a committed row that no one locks is seen -/
theorem id_mem_view {id : MessageId} (h : id ∈ (inConversation c rows).map (·.id))
    (hfree : id ∉ x.lockedRows) : id ∈ (inConversation c (x.view rows)).map (·.id) := by
  obtain ⟨m, hm, rfl⟩ := List.mem_map.1 h
  obtain ⟨hmem, hc⟩ := mem_inConversation.1 hm
  cases x with
  | writer locks inserted deleted =>
    refine List.mem_map_of_mem (mem_inConversation.2 ⟨List.mem_append_left _ ?_, hc⟩)
    have hnot : m.id ∉ deleted := hfree
    exact List.mem_filter.2 ⟨hmem, decide_eq_true hnot⟩
  | backfill c' stage =>
    cases stage with
    | committing outcome nums =>
      refine List.mem_map.2 ⟨numberRow nums m, ?_, numberRow_id m⟩
      show _ ∈ inConversation c (rows.map (numberRow nums))
      rw [inConversation_number]
      exact List.mem_map_of_mem hm
    | _ => exact h

theorem Ok.rank_eq_none {outcome : Outcome} {c' : ConversationId} (hids : (rows.map (·.id)).Nodup)
    (h : (Session.backfill c' (.committing outcome nums)).Ok hashtext rows) (hne : c ≠ c') {m : Message}
    (hm : m ∈ inConversation c rows) : rank nums m.id = none := by
  by_contra hrank
  obtain ⟨m', hm', hid⟩ := List.mem_map.1 (h.2.2 m.id (rank_ne_none.1 hrank))
  obtain ⟨hmem, hc⟩ := mem_inConversation.1 hm
  obtain ⟨hmem', hc'⟩ := mem_inConversation.1 hm'
  have heq : m' = m := List.inj_on_of_nodup_map hids hmem' hmem hid
  exact hne (hc.symm.trans (heq ▸ hc'))

/-- a backfill leaves the other conversations alone -/
theorem Ok.other {outcome : Outcome} {c' : ConversationId} (hids : (rows.map (·.id)).Nodup)
    (h : (Session.backfill c' (.committing outcome nums)).Ok hashtext rows) (hne : c ≠ c') :
    inConversation c (rows.map (numberRow nums)) = inConversation c rows := by
  rw [inConversation_number, List.map_congr_left (g := id), List.map_id]
  intro m hm
  exact numberRow_of_none (h.rank_eq_none hids hne hm)

/-- without the lock of a conversation a session takes rows away at most -/
theorem Ok.sublist (h : x.Ok hashtext rows) (hids : (rows.map (·.id)).Nodup)
    (hno : ¬ x.holds hashtext (hashtext c)) :
    (inConversation c (x.view rows)).Sublist (inConversation c rows) := by
  cases x with
  | writer locks inserted deleted =>
    have hnone : inConversation c inserted = [] := by
      rw [inConversation, List.filter_eq_nil_iff]
      intro m hm hc
      have hlock := (h.1 m hm).1
      rw [of_decide_eq_true hc] at hlock
      exact hno hlock
    show (inConversation c (rows.filter _ ++ inserted)).Sublist _
    rw [inConversation_append, hnone, List.append_nil]
    exact inConversation_sublist List.filter_sublist
  | backfill c' stage =>
    cases stage with
    | committing outcome nums =>
      have hne : c ≠ c' := fun hcc => hno (congrArg hashtext hcc)
      show (inConversation c (rows.map (numberRow nums))).Sublist _
      rw [h.other hids hne]
    | _ => exact List.Sublist.refl _

/-- what a session sees goes along with the rows that are committed -/
theorem view_sublist (h : (inConversation c rows').Sublist (inConversation c rows)) :
    (inConversation c (x.view rows')).Sublist (inConversation c (x.view rows)) := by
  cases x with
  | writer locks inserted deleted =>
    show (inConversation c (rows'.filter _ ++ inserted)).Sublist
      (inConversation c (rows.filter _ ++ inserted))
    rw [inConversation_append, inConversation_append]
    refine List.Sublist.append ?_ (List.Sublist.refl _)
    have hswap : ∀ rows : List Message, inConversation c (rows.filter (·.id ∉ deleted)) =
        (inConversation c rows).filter (·.id ∉ deleted) := fun rows => List.filter_comm _ _ _
    rw [hswap, hswap]
    exact h.filter _
  | backfill c' stage =>
    cases stage with
    | committing outcome nums =>
      show (inConversation c (rows'.map (numberRow nums))).Sublist
        (inConversation c (rows.map (numberRow nums)))
      rw [inConversation_number, inConversation_number]
      exact h.map _
    | _ => exact h

/-- the ids of the rows that a session leaves -/
theorem Ok.nodup (h : x.Ok hashtext rows) (hids : (rows.map (·.id)).Nodup) :
    ((x.view rows).map (·.id)).Nodup := by
  cases x with
  | writer locks inserted deleted =>
    show ((rows.filter _ ++ inserted).map (·.id)).Nodup
    rw [List.map_append]
    refine List.nodup_append'.2 ⟨hids.sublist (List.filter_sublist.map _), h.2.1, ?_⟩
    intro id hid hid'
    exact h.2.2 id hid' ((List.filter_sublist.map _).mem hid)
  | backfill c' stage =>
    cases stage with
    | committing outcome nums =>
      show ((rows.map (numberRow nums)).map (·.id)).Nodup
      rw [List.map_map]
      have hid : (fun m : Message => m.id) ∘ numberRow nums = (·.id) := by
        funext m
        exact numberRow_id m
      rw [hid]
      exact hids
    | _ => exact hids

/-- another session commits -/
theorem Ok.commit (h : y.Ok hashtext rows) (hx : x.Ok hashtext rows) (hids : (rows.map (·.id)).Nodup)
    (hlocks : ∀ key, x.holds hashtext key → ¬ y.holds hashtext key)
    (hinserted : ∀ id ∈ x.insertedIds, id ∉ y.insertedIds)
    (hrows : ∀ id ∈ x.lockedRows, id ∉ y.lockedRows) : y.Ok hashtext (x.view rows) := by
  have hsub : ∀ c', y.holds hashtext (hashtext c') →
      (inConversation c' (x.view rows)).Sublist (inConversation c' rows) :=
    fun c' hy => hx.sublist hids fun hx' => hlocks _ hx' hy
  cases y with
  | writer locks inserted deleted =>
    refine ⟨h.1, h.2.1, fun id hid hmem => ?_⟩
    obtain ⟨m, hm, rfl⟩ := List.mem_map.1 hmem
    rcases mem_view hm with ⟨m₀, hm₀, hid₀, -⟩ | hins
    · exact h.2.2 m.id hid (hid₀ ▸ List.mem_map_of_mem hm₀)
    · exact hinserted m.id hins hid
  | backfill c' stage =>
    cases stage with
    | updating nums => exact Fits.sublist h (hsub c' rfl)
    | committing outcome nums =>
      refine ⟨h.1.sublist (hsub c' rfl), h.2.1, fun id hid => ?_⟩
      exact id_mem_view (h.2.2 id hid) fun hx' => hrows id hx' hid
    | _ => trivial

end Session

/-! ## the invariant -/

namespace Sys

theorem session_set (h : (s.set i (some y)).session j = some x) :
    j = i ∧ x = y ∨ j ≠ i ∧ s.session j = some x := by
  unfold session set at *
  by_cases hji : j = i
  · subst hji
    refine .inl ⟨rfl, ?_⟩
    rw [List.getElem?_set] at h
    simp only [if_true] at h
    split at h
    · exact (Option.some.inj h).symm
    · cases h
  · rw [List.getElem?_set_ne (Ne.symm hji)] at h
    exact .inr ⟨hji, h⟩

theorem session_unset (h : (s.sessions.set i none)[j]?.join = some x) :
    j ≠ i ∧ s.session j = some x := by
  unfold session
  by_cases hji : j = i
  · subst hji
    rw [List.getElem?_set] at h
    simp only [if_true] at h
    split at h <;> cases h
  · rw [List.getElem?_set_ne (Ne.symm hji)] at h
    exact ⟨hji, h⟩

theorem session_snoc (h : (s.sessions ++ [some y])[j]?.join = some x) :
    j = s.sessions.length ∧ x = y ∨ j ≠ s.sessions.length ∧ s.session j = some x := by
  unfold session
  rw [List.getElem?_append] at h
  split at h
  · next hlt => exact .inr ⟨Nat.ne_of_lt hlt, h⟩
  · next hge =>
    rw [List.getElem?_singleton] at h
    split at h
    · next hzero =>
      have heq : j = s.sessions.length := Nat.le_antisymm (Nat.sub_eq_zero_iff_le.1 hzero) (Nat.not_lt.1 hge)
      exact .inl ⟨heq, (Option.some.inj h).symm⟩
    · cases h

/-- what is not taken, no other session has -/
theorem not_of_not_taken {p : Session → Bool} (h : ¬ s.taken i p) (hj : s.session j = some x)
    (hji : j ≠ i) : ¬ p x := by
  intro hp
  refine h (List.any_eq_true.2 ⟨j, ?_, ?_⟩)
  · have hsome : s.sessions[j]? = some (some x) := Option.join_eq_some_iff.1 hj
    exact List.mem_range.2 (List.getElem?_eq_some_iff.1 hsome).1
  · rw [hj]
    exact decide_eq_true ⟨hji, hp⟩

theorem not_idTaken {id : MessageId} (h : ¬ s.idTaken id) : id ∉ s.messages.map (·.id) ∧
    ∀ j z, s.session j = some z → id ∉ z.insertedIds := by
  unfold idTaken at h
  rw [decide_eq_true_eq, not_or] at h
  refine ⟨h.1, fun j z hj hid => h.2 ?_⟩
  have hz : some z ∈ s.sessions := List.mem_of_getElem? (Option.join_eq_some_iff.1 hj)
  exact List.any_eq_true.2 ⟨some z, hz, decide_eq_true hid⟩

variable (hashtext) in
structure Inv (s : Sys) : Prop where
  ids : (s.messages.map (·.id)).Nodup
  sound : ∀ c, Sound c s.messages
  locks : ∀ i j x y key, s.session i = some x → s.session j = some y →
    x.holds hashtext key → y.holds hashtext key → i = j
  inserted : ∀ i j x y id, s.session i = some x → s.session j = some y →
    id ∈ x.insertedIds → id ∈ y.insertedIds → i = j
  rows : ∀ i j x y id, s.session i = some x → s.session j = some y →
    id ∈ x.lockedRows → id ∈ y.lockedRows → i = j
  views : ∀ i x c, s.session i = some x → Sound c (x.view s.messages)
  ok : ∀ i x, s.session i = some x → x.Ok hashtext s.messages

namespace Inv

/-- the sessions of `t` are sessions of `s` -/
theorem subset (h : s.Inv hashtext) (hmsg : t.messages = s.messages)
    (hsub : ∀ i x, t.session i = some x → s.session i = some x) : t.Inv hashtext := by
  refine ⟨hmsg ▸ h.ids, hmsg ▸ h.sound, ?_, ?_, ?_, ?_, ?_⟩
  · exact fun i j x y key hi hj => h.locks i j x y key (hsub i x hi) (hsub j y hj)
  · exact fun i j x y id hi hj => h.inserted i j x y id (hsub i x hi) (hsub j y hj)
  · exact fun i j x y id hi hj => h.rows i j x y id (hsub i x hi) (hsub j y hj)
  · exact fun i x c hi => hmsg ▸ h.views i x c (hsub i x hi)
  · exact fun i x hi => hmsg ▸ h.ok i x (hsub i x hi)

/-- one session of `t` is new, or changed, and shares nothing with the others -/
theorem change (h : s.Inv hashtext) (hmsg : t.messages = s.messages)
    (hsub : ∀ j x, t.session j = some x → j = i ∧ x = y ∨ j ≠ i ∧ s.session j = some x)
    (hlocks : ∀ j x key, j ≠ i → s.session j = some x → y.holds hashtext key → ¬ x.holds hashtext key)
    (hinserted : ∀ j x id, j ≠ i → s.session j = some x → id ∈ y.insertedIds → id ∉ x.insertedIds)
    (hrows : ∀ j x id, j ≠ i → s.session j = some x → id ∈ y.lockedRows → id ∉ x.lockedRows)
    (hview : ∀ c, Sound c (y.view s.messages)) (hok : y.Ok hashtext s.messages) :
    t.Inv hashtext := by
  have hpair : ∀ {R : Session → Prop}, (∀ j x, j ≠ i → s.session j = some x → R y → ¬ R x) →
      (∀ j k x x', s.session j = some x → s.session k = some x' → R x → R x' → j = k) →
      ∀ j k x x', t.session j = some x → t.session k = some x' → R x → R x' → j = k := by
    intro R hy hold j k x x' hj hk hx hx'
    rcases hsub j x hj with ⟨rfl, rfl⟩ | ⟨hji, hj⟩ <;> rcases hsub k x' hk with ⟨rfl, rfl⟩ | ⟨hki, hk⟩
    · rfl
    · exact absurd hx' (hy k x' hki hk hx)
    · exact absurd hx (hy j x hji hj hx')
    · exact hold j k x x' hj hk hx hx'
  refine ⟨hmsg ▸ h.ids, hmsg ▸ h.sound, ?_, ?_, ?_, ?_, ?_⟩
  · intro j k x x' key hj hk
    exact hpair (R := fun x => x.holds hashtext key) (fun j x hji hj => hlocks j x key hji hj)
      (fun j k x x' => h.locks j k x x' key) j k x x' hj hk
  · intro j k x x' id hj hk
    exact hpair (R := fun x => id ∈ x.insertedIds) (fun j x hji hj => hinserted j x id hji hj)
      (fun j k x x' => h.inserted j k x x' id) j k x x' hj hk
  · intro j k x x' id hj hk
    exact hpair (R := fun x => id ∈ x.lockedRows) (fun j x hji hj => hrows j x id hji hj)
      (fun j k x x' => h.rows j k x x' id) j k x x' hj hk
  · intro j x c hj
    rw [hmsg]
    rcases hsub j x hj with ⟨-, rfl⟩ | ⟨-, hj⟩
    · exact hview c
    · exact h.views j x c hj
  · intro j x hj
    rw [hmsg]
    rcases hsub j x hj with ⟨-, rfl⟩ | ⟨-, hj⟩
    · exact hok
    · exact h.ok j x hj

/-- a commit -/
theorem finish (h : s.Inv hashtext) (hi : s.session i = some x) : (s.finish i x).Inv hashtext := by
  have hsub : ∀ j y, (s.finish i x).session j = some y → j ≠ i ∧ s.session j = some y :=
    fun j y hj => session_unset hj
  have hx := h.ok i x hi
  refine ⟨hx.nodup h.ids, fun c => h.views i x c hi, ?_, ?_, ?_, ?_, ?_⟩
  · exact fun j k y y' key hj hk => h.locks j k y y' key (hsub j y hj).2 (hsub k y' hk).2
  · exact fun j k y y' id hj hk => h.inserted j k y y' id (hsub j y hj).2 (hsub k y' hk).2
  · exact fun j k y y' id hj hk => h.rows j k y y' id (hsub j y hj).2 (hsub k y' hk).2
  · intro j y c hj
    obtain ⟨hji, hj⟩ := hsub j y hj
    show Sound c (y.view (x.view s.messages))
    by_cases hy : y.holds hashtext (hashtext c)
    · have hx' : ¬ x.holds hashtext (hashtext c) := fun hx' => hji (h.locks j i y x _ hj hi hy hx')
      exact (h.views j y c hj).sublist (Session.view_sublist (hx.sublist h.ids hx'))
    · have hok : y.Ok hashtext (x.view s.messages) := (h.ok j y hj).commit hx h.ids
        (fun key hxk hyk => hji (h.locks j i y x key hj hi hyk hxk))
        (fun id hxi hyi => hji (h.inserted j i y x id hj hi hyi hxi))
        fun id hxi hyi => hji (h.rows j i y x id hj hi hyi hxi)
      exact (h.views i x c hi).sublist (hok.sublist (hx.nodup h.ids) hy)
  · intro j y hj
    obtain ⟨hji, hj⟩ := hsub j y hj
    exact (h.ok j y hj).commit hx h.ids
      (fun key hxk hyk => hji (h.locks j i y x key hj hi hyk hxk))
      (fun id hxi hyi => hji (h.inserted j i y x id hj hi hyi hxi))
      fun id hxi hyi => hji (h.rows j i y x id hj hi hyi hxi)

end Inv

end Sys

end LifeAI.Messages
