import LifeAI.Messages.Sessions

/-!
# The ordinals of a conversation

* `Does`      how an operation ends, one case for each statement;
* `Ordered`   what holds of the committed rows;
* `Respects`  what an operation does to them.
-/

namespace LifeAI.Messages

variable {hashtext : ConversationId → Int} {rows : List Message} {c : ConversationId}
  {x : Session} {s t : Sys} {o : Op} {i : SessionId} {nums : List (MessageId × Nat)}

/-- the ordinals are positive, no two messages of a conversation share one, and those of a backfill
come before those of the trigger -/
structure Ordered (rows : List Message) : Prop where
  positive : ∀ m ∈ rows, ∀ n, m.sequenceNumber = some n → 0 < n
  distinct : ∀ m ∈ rows, ∀ m' ∈ rows, m.conversationId = m'.conversationId →
    ∀ n, m.sequenceNumber = some n → m'.sequenceNumber = some n → m = m'
  backfilledFirst : ∀ m ∈ rows, ∀ m' ∈ rows, m.conversationId = m'.conversationId →
    m.backfilled → ¬ m'.backfilled →
    ∀ n n', m.sequenceNumber = some n → m'.sequenceNumber = some n' → n < n'

/-- an ordinal that is assigned does not change -/
def KeepsOrdinals (s t : Sys) : Prop :=
  ∀ m ∈ s.messages, ∀ m' ∈ t.messages, m'.id = m.id → ∀ n, m.sequenceNumber = some n →
    m'.sequenceNumber = some n

/-- Of the messages of a conversation that have no ordinal, all that stay get one, in the order of
`(created_at, id)`, or none does. -/
def AllOrNone (s t : Sys) : Prop :=
  ∀ c, (∀ m ∈ unnumbered s.messages c, ∀ m' ∈ t.messages, m'.id = m.id → m'.sequenceNumber = none) ∨
    (∀ m ∈ unnumbered s.messages c, ∀ m' ∈ t.messages, m'.id = m.id → m'.sequenceNumber ≠ none) ∧
    ∀ m ∈ unnumbered s.messages c, ∀ n ∈ unnumbered s.messages c, before m n → m.id ≠ n.id →
      ∀ m' ∈ t.messages, ∀ n' ∈ t.messages, m'.id = m.id → n'.id = n.id →
      ∀ k l, m'.sequenceNumber = some k → n'.sequenceNumber = some l → k < l

/-- The ordinal of a message that a session inserts exceeds every ordinal that any session sees in
the conversation, rows that the session itself has deleted apart, and the number of messages that
have none. -/
def GivesNext (s t : Sys) : Prop :=
  ∀ i x y, s.session i = some x → t.session i = some y → ∀ m ∈ y.inserted, m ∉ x.inserted →
    ∃ n, m.sequenceNumber = some n ∧
      (∀ j z, s.session j = some z → ∀ m₀ ∈ inConversation m.conversationId (z.view s.messages),
        m₀.id ∉ x.lockedRows → ∀ n₀, m₀.sequenceNumber = some n₀ → n₀ < n) ∧
      (conversationState (x.view s.messages) m.conversationId).1 < n

/-- what a step does to the ordinals -/
structure Respects (s t : Sys) : Prop where
  keeps : KeepsOrdinals s t
  allOrNone : AllOrNone s t
  givesNext : GivesNext s t

/-! ## how an operation ends -/

variable (hashtext) in
inductive Does (s : Sys) : Op → Sys → Prop where
  | stays (o : Op) : Does s o s
  | ends (o : Op) (i : SessionId) : Does s o (s.set i none)
  | begins : Does s .begin { s with sessions := s.sessions ++ [some (.writer [] [] [])] }
  | calls (c : ConversationId) : Does s (.backfillConversation c)
      { s with sessions := s.sessions ++ [some (.backfill c .locking)] }
  | inserts (i : SessionId) (m m' : Message) (locks : List Int) (inserted : List Message)
      (deleted : List MessageId) (hi : s.session i = some (.writer locks inserted deleted))
      (hm : m.sequenceNumber = none ∧ m.backfilled = false)
      (hfree : ¬ s.taken i (·.holds hashtext (hashtext m.conversationId)))
      (hid : ¬ s.idTaken m.id)
      (hm' : assignSequenceNumber ((Session.writer locks inserted deleted).view s.messages) m = some m') :
    Does s (.insert i m.id m.conversationId m.createdAt) (s.set i (some
      (.writer (hashtext m.conversationId :: locks) (inserted ++ [m']) deleted)))
  | deletesOwn (i : SessionId) (id : MessageId) (locks : List Int) (inserted : List Message)
      (deleted : List MessageId) (hi : s.session i = some (.writer locks inserted deleted)) :
    Does s (.delete i id)
      (s.set i (some (.writer locks (inserted.filter (·.id ≠ id)) deleted)))
  | deletes (i : SessionId) (id : MessageId) (locks : List Int) (inserted : List Message)
      (deleted : List MessageId) (hi : s.session i = some (.writer locks inserted deleted))
      (hfree : ¬ s.taken i (id ∈ ·.lockedRows)) :
    Does s (.delete i id) (s.set i (some (.writer locks inserted (id :: deleted))))
  | commits (i : SessionId) (locks : List Int) (inserted : List Message) (deleted : List MessageId)
      (hi : s.session i = some (.writer locks inserted deleted)) :
    Does s (.commit i) (s.finish i (.writer locks inserted deleted))
  | locks (i : SessionId) (c : ConversationId) (hi : s.session i = some (.backfill c .locking))
      (hfree : ¬ s.taken i (·.holds hashtext (hashtext c))) :
    Does s (.step i) (s.set i (some (.backfill c .reading)))
  | findsNone (i : SessionId) (c : ConversationId) (hi : s.session i = some (.backfill c .reading))
      (hn : (conversationState s.messages c).1 = 0) :
    Does s (.step i) (s.set i (some (.backfill c (.committing (.numbered 0) []))))
  | findsConflict (i : SessionId) (c : ConversationId) (hi : s.session i = some (.backfill c .reading))
      (hn : (conversationState s.messages c).1 ≠ 0)
      (hmin : (conversationState s.messages c).2.any (· ≤ (conversationState s.messages c).1)) :
    Does s (.step i) (s.set i (some (.backfill c (.committing .conflict []))))
  | finds (i : SessionId) (c : ConversationId) (hi : s.session i = some (.backfill c .reading)) :
    Does s (.step i) (s.set i (some (.backfill c .ordering)))
  | orders (i : SessionId) (c : ConversationId) (hi : s.session i = some (.backfill c .ordering)) :
    Does s (.step i) (s.set i (some (.backfill c (.updating (ordered s.messages c)))))
  | updates (i : SessionId) (c : ConversationId) (nums left : List (MessageId × Nat))
      (hi : s.session i = some (.backfill c (.updating nums)))
      (hleft : left = nums.filter fun x => x.1 ∈ (inConversation c s.messages).map (·.id))
      (hfree : ¬ s.taken i fun x => left.any (·.1 ∈ x.lockedRows)) :
    Does s (.step i) (s.set i (some (.backfill c (.committing (.numbered left.length) left))))
  | returns (i : SessionId) (c : ConversationId) (outcome : Outcome) (nums : List (MessageId × Nat))
      (hi : s.session i = some (.backfill c (.committing outcome nums))) :
    Does s (.step i) { s.finish i (.backfill c (.committing outcome nums)) with
      returned := s.returned ++ [(c, outcome)] }

theorem does (h : o.exec hashtext s = t) : Does hashtext s o t := by
  subst h
  cases o with
  | begin => exact .begins
  | backfillConversation c => exact .calls c
  | rollback i => exact .ends _ i
  | insert i id c createdAt =>
    unfold Op.exec
    dsimp only
    split
    · next locks inserted deleted hi =>
      unfold insertMessage
      dsimp only
      split
      · exact .stays _
      · next hfree =>
        split
        · exact .ends _ i
        · next hid =>
          split
          · exact .ends _ i
          · next m' hm' => exact .inserts i _ m' locks inserted deleted hi ⟨rfl, rfl⟩ hfree hid hm'
    · exact .stays _
  | delete i id =>
    unfold Op.exec
    dsimp only
    split
    · next locks inserted deleted hi =>
      unfold deleteMessage
      split
      · exact .stays _
      · next hfree =>
        split
        · exact .deletesOwn i id locks inserted deleted hi
        · split
          · exact .deletes i id locks inserted deleted hi hfree
          · exact .stays _
    · exact .stays _
  | commit i =>
    unfold Op.exec
    dsimp only
    split
    · next locks inserted deleted hi => exact .commits i locks inserted deleted hi
    · exact .stays _
  | step i =>
    unfold Op.exec
    dsimp only
    split
    · next c stage hi =>
      cases stage with
      | locking =>
        unfold backfillStep
        dsimp only
        split
        · exact .stays _
        · next hfree => exact .locks i c hi hfree
      | reading =>
        unfold backfillStep
        dsimp only
        split
        · next hn => exact .findsNone i c hi hn
        · next hn =>
          split
          · next hmin => exact .findsConflict i c hi hn hmin
          · exact .finds i c hi
      | ordering => exact .orders i c hi
      | updating nums =>
        unfold backfillStep
        dsimp only
        split
        · exact .stays _
        · next hfree =>
          split
          · exact .ends _ i
          · exact .updates i c nums _ hi rfl hfree
      | committing outcome nums => exact .returns i c outcome nums hi
    · exact .stays _

/-! ## one operation -/

theorem nextSequence_assigned {m m' : Message} (h : assignSequenceNumber rows m = some m') :
    m' = { m with sequenceNumber := some (nextSequence rows m.conversationId) } := by
  unfold assignSequenceNumber at h
  dsimp only at h
  split at h
  · exact (Option.some.inj h).symm
  · cases h

/-- a row with the next ordinal of its conversation -/
theorem snoc_sound {m m' : Message} (h : Sound c rows) (hm : m.backfilled = false)
    (hm' : assignSequenceNumber rows m = some m') : Sound c (rows ++ [m']) := by
  have heq := nextSequence_assigned hm'
  show Ordinals.Sound _ _ (inConversation c (rows ++ [m']))
  rw [inConversation_append]
  by_cases hc : m.conversationId = c
  · have hone : inConversation c [m'] = [m'] := by
      rw [inConversation, List.filter_cons_of_pos, List.filter_nil]
      rw [heq]
      exact decide_eq_true hc
    rw [hone]
    refine Ordinals.Sound.snoc h ?_ ?_
    · rw [heq, ← hc]
      rfl
    · rw [heq]
      simp [hm]
  · have hnone : inConversation c [m'] = [] := by
      rw [inConversation, List.filter_cons_of_neg, List.filter_nil]
      rw [heq]
      simpa using hc
    rw [hnone, List.append_nil]
    exact h

/-- the ranks of the rows that are still there -/
theorem Fits.left {left : List (MessageId × Nat)} (h : Fits nums c rows)
    (hleft : left = nums.filter fun x => x.1 ∈ (inConversation c rows).map (·.id)) :
    Fits left c rows := by
  have hrank : ∀ m ∈ inConversation c rows, rank left m.id = rank nums m.id := by
    intro m hm
    rw [hleft]
    exact rank_filter (fun id => decide (id ∈ (inConversation c rows).map (·.id)))
      (decide_eq_true (List.mem_map_of_mem hm))
  refine ⟨⟨fun m hm hn => ?_, fun m hm hn k hk => ?_, ?_⟩, fun m hm n hn hmn hnn hb hne k l hk hl => ?_,
    fun m hm hk => ?_⟩
  · obtain ⟨k, hk, hpos⟩ := h.ranks.covers m hm hn
    exact ⟨k, (hrank m hm).trans hk, hpos⟩
  · exact h.ranks.fits m hm hn k ((hrank m hm).symm.trans hk)
  · refine h.ranks.apart.imp_of_mem fun {m n} hm hn happ hmn hnn k hk hk' => ?_
    exact happ hmn hnn k ((hrank m hm).symm.trans hk) ((hrank n hn).symm.trans hk')
  · exact h.ordered m hm n hn hmn hnn hb hne k l ((hrank m hm).symm.trans hk) ((hrank n hn).symm.trans hl)
  · exact h.targets m hm (by rwa [hrank m hm] at hk)

theorem Fits.nil (h : (conversationState rows c).1 = 0) : Fits [] c rows := by
  have hno : ∀ m ∈ inConversation c rows, m.sequenceNumber ≠ none := by
    intro m hm hnone
    exact absurd h (Nat.ne_of_gt (Ordinals.missing_pos hm hnone))
  refine ⟨⟨fun m hm hn => absurd hn (hno m hm), fun m hm hn => absurd hn (hno m hm), ?_⟩,
    fun m hm _ _ hn => absurd hn (hno m hm), fun m _ hk => absurd rfl hk⟩
  exact List.pairwise_of_forall_mem_list fun m hm _ _ hn => absurd hn (hno m hm)

/-- the rows of a conversation after its UPDATE -/
theorem Fits.sound (h : Fits nums c rows) (hs : Sound c rows) :
    Sound c (rows.map (numberRow nums)) := by
  show Ordinals.Sound _ _ (inConversation c (rows.map (numberRow nums)))
  rw [inConversation_number]
  refine Ordinals.Sound.rank hs h.ranks (fun m hm hn => ?_) fun m hm hn => ?_
  · refine numberRow_of_none ?_
    by_contra hk
    exact hn (h.targets m hm hk)
  · obtain ⟨k, hk, -⟩ := h.ranks.covers m hm hn
    have hk' : rank nums m.id = some k := hk
    rw [numberRow_of_some hk']
    exact ⟨hk'.symm, rfl⟩

/-- a backfill finds no conflict -/
theorem Sound.noConflict (h : Sound c rows) (hn : (conversationState rows c).1 ≠ 0) :
    ¬ (conversationState rows c).2.any (· ≤ (conversationState rows c).1) := by
  intro hmin
  obtain ⟨k, hk, hle⟩ := Option.any_eq_true _ _ |>.1 hmin
  have hmem : k ∈ Ordinals.given Message.sequenceNumber (inConversation c rows) :=
    List.min?_mem hk
  obtain ⟨m, hm, hmk⟩ := Ordinals.mem_given.1 hmem
  obtain ⟨q, hq, hnone⟩ := List.countP_pos_iff.1 (Nat.pos_of_ne_zero hn)
  have hlt : (conversationState rows c).1 < k :=
    Ordinals.Sound.missing_lt h hq (Option.isNone_iff_eq_none.1 hnone) hm hmk
  exact absurd (of_decide_eq_true hle) (Nat.not_le.2 hlt)

namespace Sys.Inv

theorem exec (h : s.Inv hashtext) : (o.exec hashtext s).Inv hashtext := by
  have hset : ∀ {i : SessionId} {x y : Session}, s.session i = some x →
      (∀ key, y.holds hashtext key → x.holds hashtext key ∨
        ∀ j z, j ≠ i → s.session j = some z → ¬ z.holds hashtext key) →
      (∀ id ∈ y.insertedIds, id ∈ x.insertedIds ∨
        ∀ j z, j ≠ i → s.session j = some z → id ∉ z.insertedIds) →
      (∀ id ∈ y.lockedRows, id ∈ x.lockedRows ∨
        ∀ j z, j ≠ i → s.session j = some z → id ∉ z.lockedRows) →
      (∀ c, Sound c (y.view s.messages)) → y.Ok hashtext s.messages →
      (s.set i (some y)).Inv hashtext := by
    intro i x y hi hlocks hins hrows hview hok
    refine h.change rfl (fun j z hj => Sys.session_set hj) ?_ ?_ ?_ hview hok
    · intro j z key hji hj hy hz
      rcases hlocks key hy with hx | hno
      · exact hji (h.locks j i z x key hj hi hz hx)
      · exact hno j z hji hj hz
    · intro j z id hji hj hy hz
      rcases hins id hy with hx | hno
      · exact hji (h.inserted j i z x id hj hi hz hx)
      · exact hno j z hji hj hz
    · intro j z id hji hj hy hz
      rcases hrows id hy with hx | hno
      · exact hji (h.rows j i z x id hj hi hz hx)
      · exact hno j z hji hj hz
  generalize hexec : o.exec hashtext s = t
  cases does hexec with
  | stays => exact h
  | ends o i => exact h.subset rfl fun j x hj => (Sys.session_unset hj).2
  | begins =>
    refine h.change rfl (fun j z hj => Sys.session_snoc hj) ?_ ?_ ?_ (fun c => ?_) ?_
    · exact fun j x key _ _ hy => absurd hy List.not_mem_nil
    · exact fun j x id _ _ hy => absurd hy List.not_mem_nil
    · exact fun j x id _ _ hy => absurd hy List.not_mem_nil
    · refine (h.sound c).sublist ?_
      show (inConversation c (s.messages.filter _ ++ [])).Sublist _
      rw [List.append_nil]
      exact inConversation_sublist List.filter_sublist
    · exact ⟨fun m hm => absurd hm List.not_mem_nil, List.nodup_nil, fun id hid => absurd hid List.not_mem_nil⟩
  | calls c =>
    refine h.change rfl (fun j z hj => Sys.session_snoc hj) ?_ ?_ ?_ h.sound trivial
    · exact fun j x key _ _ hy => hy.elim
    · exact fun j x id _ _ hy => absurd hy List.not_mem_nil
    · exact fun j x id _ _ hy => absurd hy List.not_mem_nil
  | inserts i m m' locks inserted deleted hi hm hfree hid hm' =>
    obtain ⟨hrow, hsess⟩ := Sys.not_idTaken hid
    obtain ⟨hlock, hnodup, hnew⟩ := h.ok i _ hi
    have heq := nextSequence_assigned hm'
    have hmid : m'.id = m.id := by rw [heq]
    have hids : ∀ id ∈ (inserted ++ [m']).map (·.id), id ∈ inserted.map (·.id) ∨ id = m.id := by
      intro id hid
      rw [List.map_append] at hid
      rcases List.mem_append.1 hid with hid | hid
      · exact .inl hid
      · exact .inr ((List.mem_singleton.1 hid).trans hmid)
    refine hset hi (fun key hy => ?_) (fun id hid => ?_) (fun id hid => .inl hid) (fun c => ?_)
      ⟨fun q hq => ?_, ?_, fun id hid => ?_⟩
    · rcases List.mem_cons.1 hy with rfl | hy
      · exact .inr fun j z hji hj hz => Sys.not_of_not_taken hfree hj hji (decide_eq_true hz)
      · exact .inl hy
    · rcases hids id hid with hid | rfl
      · exact .inl hid
      · exact .inr fun j z _ hj => hsess j z hj
    · show Sound c (s.messages.filter _ ++ (inserted ++ [m']))
      rw [← List.append_assoc]
      exact snoc_sound (h.views i _ c hi) hm.2 hm'
    · rcases List.mem_append.1 hq with hq | hq
      · exact ⟨List.mem_cons_of_mem _ (hlock q hq).1, (hlock q hq).2⟩
      · rw [List.mem_singleton.1 hq, heq]
        exact ⟨List.mem_cons_self, rfl⟩
    · rw [List.map_append]
      refine List.nodup_append'.2 ⟨hnodup, List.nodup_singleton _, fun id hid hid' => ?_⟩
      have hidm : id = m.id := (List.mem_singleton.1 hid').trans hmid
      exact hsess i _ hi (hidm ▸ hid)
    · rcases hids id hid with hid | rfl
      · exact hnew id hid
      · exact hrow
  | deletesOwn i id locks inserted deleted hi =>
    have hok := h.ok i _ hi
    have hids : ∀ id' ∈ (inserted.filter (·.id ≠ id)).map (·.id), id' ∈ inserted.map (·.id) :=
      fun id' hid => (List.filter_sublist.map _).mem hid
    refine hset hi (fun key hy => .inl hy) (fun id' hid => .inl (hids id' hid)) (fun id' hid => .inl hid)
      (fun c => (h.views i _ c hi).sublist ?_) ⟨fun m hm => hok.1 m (List.mem_filter.1 hm).1, ?_, ?_⟩
    · exact inConversation_sublist (List.filter_sublist.append_left _)
    · exact hok.2.1.sublist (List.filter_sublist.map _)
    · exact fun id' hid => hok.2.2 id' (hids id' hid)
  | deletes i id locks inserted deleted hi hfree =>
    have hok : (Session.writer locks inserted deleted).Ok hashtext s.messages := h.ok i _ hi
    refine hset hi (fun key hy => .inl hy) (fun id' hid => .inl hid) (fun id' hid => ?_)
      (fun c => (h.views i _ c hi).sublist ?_) hok
    · rcases List.mem_cons.1 hid with rfl | hid
      · exact .inr fun j z hji hj hz => Sys.not_of_not_taken hfree hj hji (decide_eq_true hz)
      · exact .inl hid
    · refine inConversation_sublist (List.Sublist.append_right ?_ _)
      refine List.monotone_filter_right _ fun m hm => ?_
      have hnot : m.id ∉ id :: deleted := of_decide_eq_true hm
      exact decide_eq_true fun hdel => hnot (List.mem_cons_of_mem _ hdel)
  | commits i locks inserted deleted hi => exact h.finish hi
  | locks i c hi hfree =>
    refine hset hi (fun key hy => .inr fun j z hji hj hz => ?_) (fun id hid => .inl hid)
      (fun id hid => .inl hid) h.sound trivial
    have hkey : key = hashtext c := hy
    rw [hkey] at hz
    exact Sys.not_of_not_taken hfree hj hji (decide_eq_true hz)
  | findsNone i c hi hn =>
    refine hset hi (fun key hy => .inl hy) (fun id hid => .inl hid) (fun id hid => .inl hid)
      (fun c' => ?_) ⟨Fits.nil hn, by simp, fun id hid => absurd hid List.not_mem_nil⟩
    have hmap : s.messages.map (numberRow []) = s.messages := List.map_id'' (fun m => rfl) _
    show Sound c' (s.messages.map (numberRow []))
    rw [hmap]
    exact h.sound c'
  | findsConflict i c hi hn hmin => exact absurd hmin ((h.sound c).noConflict hn)
  | finds i c hi =>
    exact hset hi (fun key hy => .inl hy) (fun id hid => .inl hid) (fun id hid => .inl hid) h.sound trivial
  | orders i c hi =>
    exact hset hi (fun key hy => .inl hy) (fun id hid => .inl hid) (fun id hid => .inl hid) h.sound
      (ordered_fits h.ids (h.sound c))
  | updates i c nums left hi hleft hfree =>
    have hfits : Fits nums c s.messages := h.ok i _ hi
    have hkeys : ∀ id ∈ left.map (·.1), id ∈ (inConversation c s.messages).map (·.id) := by
      intro id hid
      obtain ⟨p, hp, rfl⟩ := List.mem_map.1 hid
      rw [hleft] at hp
      exact of_decide_eq_true (List.mem_filter.1 hp).2
    have hok : (Session.backfill c (.committing (.numbered left.length) left)).Ok hashtext s.messages :=
      ⟨hfits.left hleft, by simp, hkeys⟩
    refine hset hi (fun key hy => .inl hy) (fun id hid => .inl hid) (fun id hid => .inr ?_)
      (fun c' => ?_) hok
    · intro j z hji hj hz
      obtain ⟨p, hp, rfl⟩ := List.mem_map.1 hid
      exact Sys.not_of_not_taken hfree hj hji (List.any_eq_true.2 ⟨p, hp, decide_eq_true hz⟩)
    · show Sound c' (s.messages.map (numberRow left))
      by_cases hc : c' = c
      · rw [hc]
        exact hok.1.sound (h.sound c)
      · rw [Sound, hok.other h.ids hc]
        exact h.sound c'
  | returns i c outcome nums hi =>
    have hfin := h.finish hi
    exact hfin.subset rfl fun j x hj => hj

end Sys.Inv

theorem Sys.Inv.ordered (h : s.Inv hashtext) : Ordered s.messages := by
  have hmem : ∀ m ∈ s.messages, m ∈ inConversation m.conversationId s.messages :=
    fun m hm => mem_inConversation.2 ⟨hm, rfl⟩
  refine ⟨fun m hm n hn => (h.sound _).positive m (hmem m hm) n hn,
    fun m hm m' hm' hc n hn hn' => ?_, fun m hm m' hm' hc he hl n n' hn hn' => ?_⟩
  · have hm'c : m' ∈ inConversation m.conversationId s.messages := hc ▸ hmem m' hm'
    exact Ordinals.Sound.eq_of_num (h.sound m.conversationId) (hmem m hm) hm'c hn hn'
  · have hm'c : m' ∈ inConversation m.conversationId s.messages := hc ▸ hmem m' hm'
    exact (h.sound m.conversationId).below m (hmem m hm) m' hm'c he hl n n' hn hn'

/-! ## what a commit does to the rows -/

namespace Session

/-- a row that a commit leaves, under the id of one that was there before -/
theorem Ok.row (h : x.Ok hashtext rows) (hids : (rows.map (·.id)).Nodup) {m m' : Message}
    (hm : m ∈ rows) (hm' : m' ∈ x.view rows) (hid : m'.id = m.id) : m' = m ∨
      ∃ outcome nums, x = .backfill m.conversationId (.committing outcome nums) ∧
        m' = numberRow nums m ∧ rank nums m.id ≠ none := by
  have heq : ∀ {q : Message}, q ∈ rows → q.id = m.id → q = m := fun hq hqid =>
    List.inj_on_of_nodup_map hids hq hm hqid
  cases x with
  | writer locks inserted deleted =>
    rcases List.mem_append.1 hm' with hm' | hm'
    · exact .inl (heq (List.mem_filter.1 hm').1 hid)
    · exact absurd (hid ▸ List.mem_map_of_mem hm) (h.2.2 m'.id (List.mem_map_of_mem hm'))
  | backfill c stage =>
    cases stage with
    | committing outcome nums =>
      obtain ⟨q, hq, rfl⟩ := List.mem_map.1 hm'
      obtain rfl := heq hq ((numberRow_id q).symm.trans hid)
      by_cases hrank : rank nums q.id = none
      · exact .inl (numberRow_of_none hrank)
      · by_cases hc : q.conversationId = c
        · exact .inr ⟨outcome, nums, by rw [hc], rfl, hrank⟩
        · exact absurd (h.rank_eq_none hids hc (mem_inConversation.2 ⟨hq, rfl⟩)) hrank
    | _ => exact .inl (heq hm' hid)

/-- an ordinal stays -/
theorem Ok.keeps (h : x.Ok hashtext rows) (hids : (rows.map (·.id)).Nodup) {m m' : Message} {n : Nat}
    (hm : m ∈ rows) (hm' : m' ∈ x.view rows) (hid : m'.id = m.id) (hn : m.sequenceNumber = some n) :
    m'.sequenceNumber = some n := by
  rcases h.row hids hm hm' hid with rfl | ⟨outcome, nums, rfl, rfl, hrank⟩
  · exact hn
  · have hnone := h.1.targets m (mem_inConversation.2 ⟨hm, rfl⟩) hrank
    rw [hnone] at hn
    cases hn

end Session

/-- a commit numbers the messages of a conversation that have no ordinal, or leaves them -/
theorem Sys.Inv.allOrNone (h : s.Inv hashtext) (hi : s.session i = some x) :
    AllOrNone s (s.finish i x) := by
  have hok := h.ok i x hi
  intro c
  by_cases hx : ∃ outcome nums, x = .backfill c (.committing outcome nums)
  · obtain ⟨outcome, nums, rfl⟩ := hx
    have hrow : ∀ m ∈ unnumbered s.messages c, ∀ m' ∈ s.messages.map (numberRow nums), m'.id = m.id →
        ∃ k, rank nums m.id = some k ∧ m'.sequenceNumber = some k := by
      intro m hm m' hm' hid
      obtain ⟨hmc, hnone⟩ := mem_unnumbered.1 hm
      obtain ⟨q, hq, rfl⟩ := List.mem_map.1 hm'
      obtain rfl : q = m := List.inj_on_of_nodup_map h.ids hq (mem_inConversation.1 hmc).1
        ((numberRow_id q).symm.trans hid)
      obtain ⟨k, hk, -⟩ := hok.1.ranks.covers q hmc hnone
      have hk' : rank nums q.id = some k := hk
      exact ⟨k, hk', by rw [numberRow_of_some hk']⟩
    refine .inr ⟨fun m hm m' hm' hid => ?_, fun m hm n hn hb hne m' hm' n' hn' hid hid' k l hk hl => ?_⟩
    · obtain ⟨k, -, hk⟩ := hrow m hm m' hm' hid
      rw [hk]
      exact Option.some_ne_none k
    · obtain ⟨k', hrk, hk'⟩ := hrow m hm m' hm' hid
      obtain ⟨l', hrl, hl'⟩ := hrow n hn n' hn' hid'
      obtain rfl : k' = k := Option.some.inj (hk'.symm.trans hk)
      obtain rfl : l' = l := Option.some.inj (hl'.symm.trans hl)
      obtain ⟨hmc, hmnone⟩ := mem_unnumbered.1 hm
      obtain ⟨hnc, hnnone⟩ := mem_unnumbered.1 hn
      exact hok.1.ordered m hmc n hnc hmnone hnnone hb hne k' l' hrk hrl
  · refine .inl fun m hm m' hm' hid => ?_
    obtain ⟨hmc, hnone⟩ := mem_unnumbered.1 hm
    obtain ⟨hmem, rfl⟩ := mem_inConversation.1 hmc
    rcases hok.row h.ids hmem hm' hid with rfl | ⟨outcome, nums, hback, -⟩
    · exact hnone
    · exact absurd ⟨outcome, nums, hback⟩ hx

/-- a message that is inserted -/
theorem Sys.Inv.givesNext (h : s.Inv hashtext) {m m' : Message} {locks : List Int}
    {inserted : List Message} {deleted : List MessageId}
    (hi : s.session i = some (.writer locks inserted deleted))
    (hfree : ¬ s.taken i (·.holds hashtext (hashtext m.conversationId)))
    (hm' : assignSequenceNumber ((Session.writer locks inserted deleted).view s.messages) m = some m') :
    ∃ n, m'.sequenceNumber = some n ∧
      (∀ j z, s.session j = some z → ∀ m₀ ∈ inConversation m'.conversationId (z.view s.messages),
        m₀.id ∉ deleted → ∀ n₀, m₀.sequenceNumber = some n₀ → n₀ < n) ∧
      (conversationState ((Session.writer locks inserted deleted).view s.messages)
        m'.conversationId).1 < n := by
  have heq := nextSequence_assigned hm'
  have hconv : m'.conversationId = m.conversationId := by rw [heq]
  rw [hconv]
  refine ⟨_, congrArg Message.sequenceNumber heq, fun j z hj m₀ hm₀ hdel n₀ hn₀ => ?_, Ordinals.missing_lt_next⟩
  suffices hin : m₀ ∈ inConversation m.conversationId
      ((Session.writer locks inserted deleted).view s.messages) from Ordinals.lt_next hin hn₀
  by_cases hji : j = i
  · subst hji
    obtain rfl : Session.writer locks inserted deleted = z := Option.some.inj (hi.symm.trans hj)
    exact hm₀
  · have hz : ¬ z.holds hashtext (hashtext m.conversationId) := fun hz =>
      Sys.not_of_not_taken hfree hj hji (decide_eq_true hz)
    obtain ⟨hmem, hc⟩ := mem_inConversation.1 (((h.ok j z hj).sublist h.ids hz).mem hm₀)
    refine mem_inConversation.2 ⟨List.mem_append_left _ ?_, hc⟩
    exact List.mem_filter.2 ⟨hmem, decide_eq_true hdel⟩

theorem Sys.Inv.respects (h : s.Inv hashtext) : Respects s (o.exec hashtext s) := by
  have hsame : ∀ {t : Sys}, t.messages = s.messages → KeepsOrdinals s t ∧ AllOrNone s t := by
    intro t hmsg
    have heq : ∀ m ∈ s.messages, ∀ m' ∈ t.messages, m'.id = m.id → m' = m := fun m hm m' hm' hid =>
      List.inj_on_of_nodup_map h.ids (hmsg ▸ hm') hm hid
    refine ⟨fun m hm m' hm' hid n hn => (heq m hm m' hm' hid).symm ▸ hn, fun c => .inl ?_⟩
    intro m hm m' hm' hid
    obtain ⟨hmc, hnone⟩ := mem_unnumbered.1 hm
    rw [heq m (mem_inConversation.1 hmc).1 m' hm' hid]
    exact hnone
  have hcommit : ∀ {i : SessionId} {x : Session}, s.session i = some x → ∀ {t : Sys},
      t.messages = x.view s.messages → KeepsOrdinals s t ∧ AllOrNone s t := by
    intro i x hi t hmsg
    refine ⟨fun m hm m' hm' hid n hn => ?_, fun c => ?_⟩
    · exact (h.ok i x hi).keeps h.ids hm (hmsg ▸ hm') hid hn
    · rw [hmsg]
      exact h.allOrNone hi c
  -- no session has a message that it did not have
  have hquiet : ∀ {t : Sys}, (∀ j x y, s.session j = some x → t.session j = some y →
      ∀ m ∈ y.inserted, m ∈ x.inserted) → GivesNext s t := by
    intro t hsub j x y hx hy m hm hno
    exact absurd (hsub j x y hx hy m hm) hno
  have hset : ∀ {i : SessionId} {x y : Session}, s.session i = some x →
      (∀ m ∈ y.inserted, m ∈ x.inserted) → GivesNext s (s.set i (some y)) := by
    intro i x y hi hsub
    refine hquiet fun j x' y' hx hy m hm => ?_
    rcases Sys.session_set hy with ⟨rfl, rfl⟩ | ⟨-, hy⟩
    · obtain rfl : x = x' := Option.some.inj (hi.symm.trans hx)
      exact hsub m hm
    · obtain rfl : x' = y' := Option.some.inj (hx.symm.trans hy)
      exact hm
  have hunset : ∀ {t : Sys} {i : SessionId}, t.sessions = s.sessions.set i none → GivesNext s t := by
    intro t i ht
    refine hquiet fun j x y hx hy m hm => ?_
    have hy' : (s.sessions.set i none)[j]?.join = some y := by
      rw [← ht]
      exact hy
    obtain rfl : x = y := Option.some.inj (hx.symm.trans (Sys.session_unset hy').2)
    exact hm
  have hsnoc : ∀ {t : Sys} {z : Session}, t.sessions = s.sessions ++ [some z] → GivesNext s t := by
    intro t z ht
    refine hquiet fun j x y hx hy m hm => ?_
    have hy' : (s.sessions ++ [some z])[j]?.join = some y := by
      rw [← ht]
      exact hy
    rcases Sys.session_snoc hy' with ⟨rfl, -⟩ | ⟨-, hy'⟩
    · have hno : s.session s.sessions.length = none := by simp [Sys.session]
      rw [hno] at hx
      cases hx
    · obtain rfl : x = y := Option.some.inj (hx.symm.trans hy')
      exact hm
  generalize hexec : o.exec hashtext s = t
  cases does hexec with
  | stays =>
    refine ⟨(hsame rfl).1, (hsame rfl).2, hquiet fun j x y hx hy m hm => ?_⟩
    obtain rfl : x = y := Option.some.inj (hx.symm.trans hy)
    exact hm
  | ends o i => exact ⟨(hsame rfl).1, (hsame rfl).2, hunset (i := i) rfl⟩
  | begins | calls => exact ⟨(hsame rfl).1, (hsame rfl).2, hsnoc rfl⟩
  | inserts i m m' locks inserted deleted hi hm hfree hid hm' =>
    refine ⟨(hsame rfl).1, (hsame rfl).2, fun j x y hx hy q hq hno => ?_⟩
    rcases Sys.session_set hy with ⟨rfl, rfl⟩ | ⟨-, hy⟩
    · obtain rfl : Session.writer locks inserted deleted = x := Option.some.inj (hi.symm.trans hx)
      rcases List.mem_append.1 hq with hq | hq
      · exact absurd hq hno
      · obtain rfl : q = m' := List.mem_singleton.1 hq
        exact h.givesNext hi hfree hm'
    · obtain rfl : x = y := Option.some.inj (hx.symm.trans hy)
      exact absurd hq hno
  | deletesOwn i id locks inserted deleted hi =>
    exact ⟨(hsame rfl).1, (hsame rfl).2, hset hi fun m hm => (List.mem_filter.1 hm).1⟩
  | deletes i id locks inserted deleted hi =>
    exact ⟨(hsame rfl).1, (hsame rfl).2, hset hi fun m hm => hm⟩
  | commits i locks inserted deleted hi =>
    exact ⟨(hcommit hi rfl).1, (hcommit hi rfl).2, hunset (i := i) rfl⟩
  | locks i c hi | findsNone i c hi | findsConflict i c hi | finds i c hi | orders i c hi
  | updates i c nums left hi =>
    exact ⟨(hsame rfl).1, (hsame rfl).2, hset hi fun m hm => hm⟩
  | returns i c outcome nums hi =>
    exact ⟨(hcommit hi rfl).1, (hcommit hi rfl).2, hunset (i := i) rfl⟩

/-- what the calls returned -/
theorem Sys.Inv.noConflict (h : s.Inv hashtext) (hret : ∀ p ∈ s.returned, p.2 ≠ .conflict) :
    ∀ p ∈ (o.exec hashtext s).returned, p.2 ≠ .conflict := by
  generalize hexec : o.exec hashtext s = t
  cases does hexec with
  | returns i c outcome nums hi =>
    intro p hp
    rcases List.mem_append.1 hp with hp | hp
    · exact hret p hp
    · rw [List.mem_singleton.1 hp]
      exact (h.ok i _ hi).2.1
  | _ => exact hret

/-! ## every run -/

theorem History.start_inv (h : History) : h.start.Inv hashtext := by
  have hno : ∀ i x, h.start.session i ≠ some x := fun i x => by simp [History.start, Sys.session]
  refine ⟨h.ids, fun c => Ordinals.Sound.of_unnumbered fun m hm => ?_, ?_, ?_, ?_, ?_, ?_⟩
  · exact h.unnumbered m (mem_inConversation.1 hm).1
  · exact fun i _ x _ _ hi => absurd hi (hno i x)
  · exact fun i _ x _ _ hi => absurd hi (hno i x)
  · exact fun i _ x _ _ hi => absurd hi (hno i x)
  · exact fun i x _ hi => absurd hi (hno i x)
  · exact fun i x hi => absurd hi (hno i x)

/-- For every run of transactions on the messages, from conversations of messages without ordinals:
in every committed state the ordinals are positive, distinct within a conversation, and those of a
backfill come first; no backfill has returned `conflict`; and every statement and commit `Respects`
the ordinals. -/
theorem message_ordinals (hashtext : ConversationId → Int) (h : History) (ops : List Op) :
    Run.Always (Op.exec hashtext)
        (fun s => Ordered s.messages ∧ ∀ p ∈ s.returned, p.2 ≠ .conflict) h.start ops ∧
      ∀ p ∈ Run.trace (Op.exec hashtext) h.start ops, Respects p.1 (p.2.exec hashtext p.1) := by
  have hinit : h.start.Inv hashtext ∧ ∀ p ∈ h.start.returned, p.2 ≠ .conflict :=
    ⟨h.start_inv, fun p hp => absurd hp List.not_mem_nil⟩
  constructor
  · refine Run.always_of_inv
      (I := fun s : Sys => s.Inv hashtext ∧ ∀ p ∈ s.returned, p.2 ≠ .conflict)
      (fun s hs => ⟨hs.1.ordered, hs.2⟩) (fun s o hs => ?_) hinit ops
    exact ⟨hs.1.exec, hs.1.noConflict hs.2⟩
  · refine Run.trace_all (I := Sys.Inv hashtext) (D := fun s o => Respects s (o.exec hashtext s))
      (fun s o hs => ?_) hinit.1 ops
    exact ⟨hs.respects, hs.exec⟩

end LifeAI.Messages
