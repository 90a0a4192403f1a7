import LifeAI.Base
import LifeAI.Lib.Ordinals

/-!
# The ordinals of messages

`messages` with `sequence_number`, the trigger that numbers new rows (migration 0030), and the
statements of `backfill_conversation`.

* `Message`                       a row;
* `assignSequenceNumber`          the trigger on an INSERT without an ordinal;
* `conversationState`, `ordered`  the reads of a backfill;
* `numberRow`, `denyRewrite`      its UPDATE, and the trigger on it.

The unique index on the ordinals is not modelled: they turn out to be distinct without it.
-/

namespace LifeAI.Messages

abbrev ConversationId := Nat
abbrev MessageId := Nat

structure Message where
  id : MessageId
  conversationId : ConversationId
  createdAt : Nat
  sequenceNumber : Option Nat := none
  /-- no column of the table: the ordinal comes from a backfill -/
  backfilled : Bool := false
  deriving DecidableEq

/-- the rows of a conversation -/
def inConversation (c : ConversationId) (rows : List Message) : List Message :=
  rows.filter (·.conversationId = c)

/-- the largest `integer` -/
def maxInteger : Nat := 2147483647

/-- the value that `messages_assign_sequence_number` computes:
`GREATEST(COALESCE(max(sequence_number), 0), count(*)) + 1` over the conversation -/
def nextSequence (rows : List Message) (c : ConversationId) : Nat :=
  Ordinals.next Message.sequenceNumber (inConversation c rows)

/-- `messages_assign_sequence_number`; `none` is a value out of the range of `integer` -/
def assignSequenceNumber (rows : List Message) (m : Message) : Option Message :=
  let next := nextSequence rows m.conversationId
  if next ≤ maxInteger then some { m with sequenceNumber := some next } else none

/-- `_conversation_state`: the number of rows without an ordinal, and the smallest ordinal -/
def conversationState (rows : List Message) (c : ConversationId) : Nat × Option Nat :=
  (Ordinals.missing Message.sequenceNumber (inConversation c rows),
   (Ordinals.given Message.sequenceNumber (inConversation c rows)).min?)

/-- `ORDER BY created_at ASC, id ASC` -/
def before (m n : Message) : Prop :=
  m.createdAt < n.createdAt ∨ (m.createdAt = n.createdAt ∧ m.id ≤ n.id)

instance : DecidableRel before := fun m n => by
  unfold before
  infer_instance

/-- the rows without an ordinal, in order -/
def unnumbered (rows : List Message) (c : ConversationId) : List Message :=
  ((inConversation c rows).filter (·.sequenceNumber = none)).insertionSort before

/-- the CTE `ordered`: ids with their `row_number()` -/
def ordered (rows : List Message) (c : ConversationId) : List (MessageId × Nat) :=
  ((unnumbered rows c).map (·.id)).zipIdx 1

/-- the `row_number()` of an id -/
def rank (nums : List (MessageId × Nat)) (id : MessageId) : Option Nat :=
  (nums.find? (·.1 = id)).map (·.2)

/-- `SET sequence_number = ordered.rn` -/
def numberRow (nums : List (MessageId × Nat)) (m : Message) : Message :=
  match rank nums m.id with
  | some n => { m with sequenceNumber := some n, backfilled := true }
  | none => m

/-- `messages_deny_sequence_number_rewrite` raises on the UPDATE of the row -/
def denyRewrite (nums : List (MessageId × Nat)) (m : Message) : Bool :=
  m.sequenceNumber.isSome ∧ (numberRow nums m).sequenceNumber ≠ m.sequenceNumber

/-- `ConversationOutcome` -/
inductive Outcome where
  | numbered (assigned : Nat)
  | conflict
  deriving DecidableEq

/-! ## order -/

theorem before_total (m n : Message) : before m n ∨ before n m := by
  rcases Nat.lt_trichotomy m.createdAt n.createdAt with h | h | h
  · exact .inl (.inl h)
  · rcases Nat.le_total m.id n.id with hid | hid
    · exact .inl (.inr ⟨h, hid⟩)
    · exact .inr (.inr ⟨h.symm, hid⟩)
  · exact .inr (.inl h)

theorem before_trans {m n k : Message} (h : before m n) (h' : before n k) : before m k := by
  rcases h with h | ⟨ht, hid⟩ <;> rcases h' with h' | ⟨ht', hid'⟩
  · exact .inl (Nat.lt_trans h h')
  · exact .inl (ht' ▸ h)
  · exact .inl (ht ▸ h')
  · exact .inr ⟨ht.trans ht', Nat.le_trans hid hid'⟩

theorem before_antisymm {m n : Message} (h : before m n) (h' : before n m) : m.id = n.id := by
  rcases h with h | ⟨ht, hid⟩ <;> rcases h' with h' | ⟨ht', hid'⟩
  · exact absurd h' (Nat.lt_asymm h)
  · exact absurd ht' (Nat.ne_of_gt h)
  · exact absurd ht (Nat.ne_of_gt h')
  · exact Nat.le_antisymm hid hid'

instance : Std.Total before := ⟨before_total⟩
instance : IsTrans Message before := ⟨fun _ _ _ => before_trans⟩

theorem mem_inConversation {c : ConversationId} {rows : List Message} {m : Message} :
    m ∈ inConversation c rows ↔ m ∈ rows ∧ m.conversationId = c := by
  simp [inConversation]

theorem mem_unnumbered {rows : List Message} {c : ConversationId} {m : Message} :
    m ∈ unnumbered rows c ↔ m ∈ inConversation c rows ∧ m.sequenceNumber = none := by
  unfold unnumbered
  rw [List.mem_insertionSort]
  simp

/-! ## ranks -/

variable {nums : List (MessageId × Nat)} {id : MessageId} {k : Nat}

theorem mem_of_rank (h : rank nums id = some k) : (id, k) ∈ nums := by
  obtain ⟨⟨id', k'⟩, hfind, rfl⟩ := Option.map_eq_some_iff.1 h
  have hid : id' = id := by simpa using List.find?_some hfind
  subst hid
  exact List.mem_of_find?_eq_some hfind

theorem rank_ne_none : rank nums id ≠ none ↔ id ∈ nums.map (·.1) := by
  unfold rank
  rw [ne_eq, Option.map_eq_none_iff, List.find?_eq_none]
  simp

/-- rows that have gone drop out of the ranking, and the others keep their ranks -/
theorem rank_filter (p : MessageId → Bool) (hp : p id) : rank (nums.filter fun x => p x.1) id = rank nums id := by
  unfold rank
  congr 1
  rw [List.find?_filter]
  congr 1
  funext x
  by_cases hx : x.1 = id
  · simp [hx, hp]
  · simp [hx]

/-! ## what a backfill reads -/

/-- the ranks of a conversation are fit for its rows, and follow the order of its messages -/
structure Fits (nums : List (MessageId × Nat)) (c : ConversationId) (rows : List Message) : Prop where
  ranks : Ordinals.Ranks Message.sequenceNumber (fun m => rank nums m.id) (inConversation c rows)
  ordered : ∀ m ∈ inConversation c rows, ∀ n ∈ inConversation c rows,
    m.sequenceNumber = none → n.sequenceNumber = none → before m n → m.id ≠ n.id →
    ∀ k l, rank nums m.id = some k → rank nums n.id = some l → k < l
  targets : ∀ m ∈ inConversation c rows, rank nums m.id ≠ none → m.sequenceNumber = none

theorem Fits.sublist {c : ConversationId} {rows rows' : List Message} (h : Fits nums c rows)
    (hsub : (inConversation c rows').Sublist (inConversation c rows)) : Fits nums c rows' :=
  ⟨h.ranks.sublist hsub, fun m hm n hn => h.ordered m (hsub.mem hm) n (hsub.mem hn),
    fun m hm => h.targets m (hsub.mem hm)⟩

variable {rows : List Message} {c : ConversationId}

theorem inConversation_append (rows rows' : List Message) :
    inConversation c (rows ++ rows') = inConversation c rows ++ inConversation c rows' :=
  List.filter_append ..

@[simp] theorem numberRow_id (m : Message) : (numberRow nums m).id = m.id := by
  unfold numberRow
  split <;> rfl

@[simp] theorem numberRow_conversationId (m : Message) :
    (numberRow nums m).conversationId = m.conversationId := by
  unfold numberRow
  split <;> rfl

theorem numberRow_of_none {m : Message} (h : rank nums m.id = none) : numberRow nums m = m := by
  unfold numberRow
  rw [h]

theorem numberRow_of_some {m : Message} (h : rank nums m.id = some k) :
    numberRow nums m = { m with sequenceNumber := some k, backfilled := true } := by
  unfold numberRow
  rw [h]

theorem inConversation_number :
    inConversation c (rows.map (numberRow nums)) = (inConversation c rows).map (numberRow nums) := by
  unfold inConversation
  rw [List.filter_map]
  congr 2
  funext m
  show decide ((numberRow nums m).conversationId = c) = _
  rw [numberRow_conversationId]

theorem inConversation_ids (h : (rows.map (·.id)).Nodup) :
    ((inConversation c rows).map (·.id)).Nodup :=
  h.sublist (List.filter_sublist.map _)

theorem unnumbered_ids (h : (rows.map (·.id)).Nodup) : ((unnumbered rows c).map (·.id)).Nodup := by
  have hperm := (List.perm_insertionSort before
    ((inConversation c rows).filter (·.sequenceNumber = none))).map (·.id)
  have hnodup : (((inConversation c rows).filter (·.sequenceNumber = none)).map (·.id)).Nodup :=
    (inConversation_ids h).sublist (List.filter_sublist.map _)
  exact hperm.nodup_iff.2 hnodup

theorem unnumbered_length :
    (unnumbered rows c).length = (conversationState rows c).1 := by
  unfold unnumbered conversationState Ordinals.missing
  rw [List.length_insertionSort, List.countP_eq_length_filter]
  congr 2
  funext m
  cases m.sequenceNumber <;> rfl

theorem mem_ordered : (id, k) ∈ ordered rows c ↔
    0 < k ∧ ((unnumbered rows c).map (·.id))[k - 1]? = some id := by
  unfold ordered
  rw [List.mem_zipIdx_iff_le_and_getElem?_sub]
  rfl

theorem ordered_fst : (ordered rows c).map (·.1) = (unnumbered rows c).map (·.id) :=
  List.zipIdx_map_fst 1 _

/-- the ranks that a backfill reads -/
theorem ordered_fits (hids : (rows.map (·.id)).Nodup)
    (hs : Ordinals.Sound Message.sequenceNumber Message.backfilled (inConversation c rows)) :
    Fits (ordered rows c) c rows := by
  have hnodup : ((unnumbered rows c).map (·.id)).Nodup := unnumbered_ids hids
  have hrank : ∀ {id k}, rank (ordered rows c) id = some k →
      0 < k ∧ ((unnumbered rows c).map (·.id))[k - 1]? = some id :=
    fun h => mem_ordered.1 (mem_of_rank h)
  have hback : ∀ {p q : Message}, p ∈ unnumbered rows c → q ∈ inConversation c rows → p.id = q.id →
      p = q := fun hp hq h =>
    List.inj_on_of_nodup_map (inConversation_ids hids) (mem_unnumbered.1 hp).1 hq h
  refine ⟨⟨fun m hm hnone => ?_, fun m hm hnone k hk q hq n hn => ?_, ?_⟩, ?_, fun m hm hm' => ?_⟩
  · have hmem : m.id ∈ (ordered rows c).map (·.1) := by
      rw [ordered_fst]
      exact List.mem_map_of_mem (mem_unnumbered.2 ⟨hm, hnone⟩)
    obtain ⟨k, hk⟩ := Option.ne_none_iff_exists'.1 (rank_ne_none.2 hmem)
    exact ⟨k, hk, (hrank hk).1⟩
  · obtain ⟨hpos, hget⟩ := hrank hk
    have hlt : k - 1 < ((unnumbered rows c).map (·.id)).length := (List.getElem?_eq_some_iff.1 hget).1
    rw [List.length_map, unnumbered_length] at hlt
    have hmiss : (conversationState rows c).1 < n := hs.missing_lt hm hnone hq hn
    omega
  · have hpair : (inConversation c rows).Pairwise fun m n => m.id ≠ n.id :=
      List.pairwise_map.1 (inConversation_ids hids)
    refine hpair.imp fun {m n} hne _ _ k hk hk' => ?_
    have hget := (hrank hk).2
    rw [(hrank hk').2] at hget
    exact hne (Option.some.inj hget).symm
  · intro m hm n hn hmnone hnnone hbefore hne k l hk hl
    obtain ⟨hkpos, hkget⟩ := hrank hk
    obtain ⟨hlpos, hlget⟩ := hrank hl
    have hsorted : (unnumbered rows c).Pairwise before := List.pairwise_insertionSort before _
    rw [List.getElem?_map] at hkget hlget
    obtain ⟨m', hm', hmid⟩ := Option.map_eq_some_iff.1 hkget
    obtain ⟨n', hn', hnid⟩ := Option.map_eq_some_iff.1 hlget
    obtain rfl := hback (List.mem_of_getElem? hm') hm hmid
    obtain rfl := hback (List.mem_of_getElem? hn') hn hnid
    by_contra hle
    obtain ⟨ha, hka⟩ := List.getElem?_eq_some_iff.1 hm'
    obtain ⟨hb, hlb⟩ := List.getElem?_eq_some_iff.1 hn'
    rcases Nat.lt_or_ge (l - 1) (k - 1) with hlt | hge
    · have hrev := List.pairwise_iff_getElem.1 hsorted (l - 1) (k - 1) hb ha hlt
      rw [hka, hlb] at hrev
      exact hne (before_antisymm hbefore hrev)
    · have heq : k = l := by omega
      subst heq
      exact hne (congrArg Message.id (Option.some.inj (hm'.symm.trans hn')))
  · rw [rank_ne_none, ordered_fst] at hm'
    obtain ⟨n, hn, hid⟩ := List.mem_map.1 hm'
    rw [← hback hn hm hid]
    exact (mem_unnumbered.1 hn).2

end LifeAI.Messages
