import LifeAI.Auth.Steps

/-!
# The rotation of refresh tokens

* `Linear`           no token is exchanged twice, a family has one unrevoked token, and a family
                     whose revoked token was presented is over;
* `Tip`              all the tokens of a family but the last have been rotated, and only the last
                     can be in exchange;
* `Fine`             a step that keeps this so;
* `rotation_linear`  in every run whose steps do, every state is linear.
-/

namespace LifeAI.Auth

variable {env : Env} {db db' : Db} {st st' : Stage} {next : Option Stage} {s s' : Sys} {o : Op}
  {r r' row row' : RefreshToken} {id id' old old' token : TokenId} {old? : Option TokenId}
  {i j : Nat} {f : FamilyId}

structure Linear (db : Db) : Prop where
  exchanged : db.exchanged.Nodup
  unrevoked : ∀ f, (db.unrevoked (·.familyId = f)).length ≤ 1
  killed : ∀ (id : TokenId) (r : RefreshToken), db.refreshTokens[id]? = some r →
    r.familyId ∈ db.killed → db.Over id

/-- the sweep that the step returns from -/
def Stage.returning (db : Db) : Stage → Option Sweep
  | .sweeping f => if db.family f = [] then some { family := f } else none
  | .blocking (some w) id jti rest _ pruned expiresAt =>
    if expiresAt.isSome ∧ db.taken jti pruned then some w
    else if rest = [] then some (w.add id)
    else none
  | _ => none

/-- the sessions of the family that the sweep has not dealt with are over -/
def Sweep.Through (db : Db) (w : Sweep) : Prop :=
  ∀ id < db.refreshTokens.length, ∀ r ∈ db.refreshTokens[id]?,
    r.familyId = w.family → id ∉ w.done → db.Over id

/-- the token has not been rotated, and a session is not for a killed family -/
def Stage.Timely (db : Db) : Stage → Prop
  | .rotating token _ _ => token ∉ db.rotated
  | .inserting row (some _) => row.familyId ∉ db.killed
  | _ => True

/-- No request rotates a token that another has rotated, or issues a session in a family that is
killed, a sweep that returns leaves no session of the family, and no stamp goes back. -/
structure Fine (db : Db) (st : Stage) : Prop where
  timely : st.Timely db
  returns : ∀ w ∈ st.returning db, w.Through db
  forward : st.forward db

instance (w : Sweep) : Decidable (w.Through db) := by
  unfold Sweep.Through
  infer_instance

instance : Decidable (st.Timely db) := by
  unfold Stage.Timely
  split <;> infer_instance

instance : Decidable (Fine db st) :=
  decidable_of_iff (st.Timely db ∧ (∀ w ∈ st.returning db, w.Through db) ∧ st.forward db)
    ⟨fun h => ⟨h.1, h.2.1, h.2.2⟩, fun h => ⟨h.timely, h.returns, h.forward⟩⟩

/-! ## the last token of a family -/

structure Tip (s : Sys) : Prop where
  rotated : ∀ (id id' : TokenId) (r r' : RefreshToken), s.db.refreshTokens[id]? = some r →
    s.db.refreshTokens[id']? = some r' → r.familyId = r'.familyId → id < id' →
      id ∈ s.db.rotated
  revoked : ∀ id ∈ s.db.rotated, ∃ r, s.db.refreshTokens[id]? = some r ∧ r.revokedAt ≠ none
  exchanged : ∀ id ∈ s.db.exchanged, ∃ (id' : TokenId) (r r' : RefreshToken),
    s.db.refreshTokens[id]? = some r ∧ s.db.refreshTokens[id']? = some r' ∧
      r.familyId = r'.familyId ∧ id < id'
  once : s.db.exchanged.Nodup
  pending : ∀ i row old, s.stage i = some (.inserting row (some old)) → old ∈ s.db.rotated ∧
    (∃ r, s.db.refreshTokens[old]? = some r ∧ r.familyId = row.familyId) ∧
      ∀ (id : TokenId) (r : RefreshToken), s.db.refreshTokens[id]? = some r →
        r.familyId = row.familyId → id ≤ old
  fresh : ∀ i row, s.stage i = some (.inserting row none) →
    ∀ (id : TokenId) (r : RefreshToken), s.db.refreshTokens[id]? = some r →
      r.familyId ≠ row.familyId
  apart : ∀ i j row row' old old', s.stage i = some (.inserting row old) →
    s.stage j = some (.inserting row' old') → row.familyId = row'.familyId → i = j
  rows : ∀ (id : TokenId) (r : RefreshToken), s.db.refreshTokens[id]? = some r → r.familyId < s.db.logins.length
  stages : ∀ i row old, s.stage i = some (.inserting row old) →
    row.familyId < s.db.logins.length

theorem start_tip (users : List User) (clock : Nat) : Tip (start users clock) where
  rotated _ _ _ _ h := nomatch h
  revoked _ h := absurd h List.not_mem_nil
  exchanged _ h := absurd h List.not_mem_nil
  once := List.nodup_nil
  pending _ _ _ h := nomatch h
  fresh _ _ h := nomatch h
  apart _ _ _ _ _ _ h := nomatch h
  rows _ _ h := nomatch h
  stages _ _ _ h := nomatch h

/-- the row that a later one comes from -/
theorem Grows.oldRow (g : Grows db db') (hlen : db'.refreshTokens.length = db.refreshTokens.length)
    (h : db'.refreshTokens[id]? = some r') : ∃ r, db.refreshTokens[id]? = some r ∧ Same r r' :=
  g.rows.old h (hlen ▸ (List.getElem?_eq_some_iff.1 h).1)

/-- a step that adds no row, rotates nothing and takes up no issue of a session -/
theorem Tip.frame (h : Tip s) (g : Grows s.db s'.db)
    (hlen : s'.db.refreshTokens.length = s.db.refreshTokens.length)
    (hrot : s'.db.rotated = s.db.rotated) (hex : s'.db.exchanged = s.db.exchanged)
    (hst : ∀ i row old, s'.stage i = some (.inserting row old) →
      s.stage i = some (.inserting row old)) : Tip s' where
  rotated id id' r r' hr hr' hf hlt := by
    obtain ⟨q, hq, hs⟩ := g.oldRow hlen hr
    obtain ⟨q', hq', hs'⟩ := g.oldRow hlen hr'
    rw [hs.familyId, hs'.familyId] at hf
    exact hrot ▸ h.rotated id id' q q' hq hq' hf hlt
  revoked id hid := by
    obtain ⟨r, hr, hrev⟩ := h.revoked id (hrot ▸ hid)
    obtain ⟨r', hr', hs⟩ := g.rows id r hr
    exact ⟨r', hr', hs.revoked hrev⟩
  exchanged id hid := by
    obtain ⟨id', r, r', hr, hr', hf, hlt⟩ := h.exchanged id (hex ▸ hid)
    obtain ⟨q, hq, hs⟩ := g.rows id r hr
    obtain ⟨q', hq', hs'⟩ := g.rows id' r' hr'
    exact ⟨id', q, q', hq, hq', by rw [hs.familyId, hs'.familyId, hf], hlt⟩
  once := hex ▸ h.once
  pending i row old hi := by
    obtain ⟨hold, ⟨r, hr, hf⟩, hmax⟩ := h.pending i row old (hst i row _ hi)
    obtain ⟨r', hr', hs⟩ := g.rows old r hr
    refine ⟨hrot ▸ hold, ⟨r', hr', hs.familyId.trans hf⟩, fun id q hq hqf => ?_⟩
    obtain ⟨q0, hq0, hs0⟩ := g.oldRow hlen hq
    exact hmax id q0 hq0 (hs0.familyId ▸ hqf)
  fresh i row hi id q hq hqf := by
    obtain ⟨q0, hq0, hs0⟩ := g.oldRow hlen hq
    exact h.fresh i row (hst i row _ hi) id q0 hq0 (hs0.familyId ▸ hqf)
  apart i j row row' old old' hi hj := h.apart i j row row' old old' (hst _ _ _ hi) (hst _ _ _ hj)
  rows id q hq := by
    obtain ⟨q0, hq0, hs0⟩ := g.oldRow hlen hq
    rw [hs0.familyId]
    exact Nat.lt_of_lt_of_le (h.rows id q0 hq0) g.logins.length_le
  stages i row old hi := Nat.lt_of_lt_of_le (h.stages i row old (hst _ _ _ hi)) g.logins.length_le

/-- a login takes a family of its own -/
theorem Tip.logIn (h : Tip s) (i : Nat) (u : UserId) : Tip
    ⟨s.db.logIn env u, s.requests.set i
      (some (.inserting (s.db.newRow env u s.db.logins.length) none))⟩ where
  rotated := h.rotated
  revoked := h.revoked
  exchanged := h.exchanged
  once := h.once
  pending j row old hj := by
    rcases stage_set s hj with ⟨-, hst⟩ | ⟨-, hst⟩
    · cases hst
    · exact h.pending j row old hst
  fresh j row hj id r hr hf := by
    rcases stage_set s hj with ⟨-, hst⟩ | ⟨-, hst⟩
    · cases hst
      exact absurd hf (Nat.ne_of_lt (h.rows id r hr))
    · exact h.fresh j row hst id r hr hf
  apart j k row row' old old' hj hk hf := by
    rcases stage_set s hj with ⟨rfl, hst⟩ | ⟨-, hst⟩
    · rcases stage_set s hk with ⟨rfl, hst'⟩ | ⟨-, hst'⟩
      · rfl
      · cases hst
        exact absurd hf.symm (Nat.ne_of_lt (h.stages k row' old' hst'))
    · rcases stage_set s hk with ⟨rfl, hst'⟩ | ⟨-, hst'⟩
      · cases hst'
        exact absurd hf (Nat.ne_of_lt (h.stages j row old hst))
      · exact h.apart j k row row' old old' hst hst' hf
  rows id r hr := by
    show _ < (s.db.logins ++ [_]).length
    rw [List.length_append]
    exact Nat.lt_succ_of_lt (h.rows id r hr)
  stages j row old hj := by
    show _ < (s.db.logins ++ [_]).length
    rw [List.length_append]
    rcases stage_set s hj with ⟨-, hst⟩ | ⟨-, hst⟩
    · cases hst
      exact Nat.lt_succ_self _
    · exact Nat.lt_succ_of_lt (h.stages j row old hst)

/-- the last token is exchanged -/
theorem Tip.rotate (h : Tip s) (i : Nat) (at_ : Nat) (hnew : token ∉ s.db.rotated)
    (hr : s.db.refreshTokens[token]? = some r) (hf : row.familyId = r.familyId) : Tip
    ⟨(Stage.rotate env s.db token row at_).1,
      s.requests.set i (Stage.rotate env s.db token row at_).2⟩ := by
  have g : Grows s.db (Stage.rotate env s.db token row at_).1 :=
    (Goes.rotates token row at_).grows
  have hlen : (Stage.rotate env s.db token row at_).1.refreshTokens.length =
      s.db.refreshTokens.length := List.length_modify ..
  -- nothing of the family comes after the token
  have hmax : ∀ id q, s.db.refreshTokens[id]? = some q → q.familyId = r.familyId → id ≤ token := by
    intro id q hq hqf
    by_contra hlt
    exact hnew (h.rotated token id r q hr hq hqf.symm (Nat.lt_of_not_le hlt))
  -- so it is not in exchange yet
  have hnone : ∀ j row' old, s.stage j = some (.inserting row' old) →
      row'.familyId ≠ r.familyId := by
    intro j row' old hj hjf
    cases old with
    | none => exact h.fresh j row' hj token r hr hjf.symm
    | some old =>
      obtain ⟨hold, ⟨q, hq, hqf⟩, hle⟩ := h.pending j row' old hj
      have heq : token = old :=
        Nat.le_antisymm (hle token r hr hjf.symm) (hmax old q hq (hqf.trans hjf))
      exact hnew (heq ▸ hold)
  refine ⟨?_, ?_, ?_, h.once, ?_, ?_, ?_, ?_, ?_⟩
  · intro id id' q q' hq hq' hqf hlt
    obtain ⟨p, hp, hs⟩ := g.oldRow hlen hq
    obtain ⟨p', hp', hs'⟩ := g.oldRow hlen hq'
    rw [hs.familyId, hs'.familyId] at hqf
    exact List.mem_append_left _ (h.rotated id id' p p' hp hp' hqf hlt)
  · intro id hid
    rcases List.mem_append.1 hid with hid | hid
    · obtain ⟨q, hq, hrev⟩ := h.revoked id hid
      obtain ⟨q', hq', hs⟩ := g.rows id q hq
      exact ⟨q', hq', hs.revoked hrev⟩
    · obtain rfl := List.mem_singleton.1 hid
      exact ⟨_, revoke_self hr, Option.some_ne_none at_⟩
  · intro id hid
    obtain ⟨id', q, q', hq, hq', hqf, hlt⟩ := h.exchanged id hid
    obtain ⟨p, hp, hs⟩ := g.rows id q hq
    obtain ⟨p', hp', hs'⟩ := g.rows id' q' hq'
    exact ⟨id', p, p', hp, hp', by rw [hs.familyId, hs'.familyId, hqf], hlt⟩
  · intro j row' old hj
    rcases stage_set s hj with ⟨-, hst⟩ | ⟨-, hst⟩
    · cases hst
      refine ⟨List.mem_append_right _ List.mem_cons_self, ⟨_, revoke_self hr, hf.symm⟩, ?_⟩
      intro id q hq hqf
      obtain ⟨p, hp, hs⟩ := g.oldRow hlen hq
      exact hmax id p hp ((hs.familyId.symm.trans hqf).trans hf)
    · obtain ⟨hold, ⟨q, hq, hqf⟩, hle⟩ := h.pending j row' old hst
      obtain ⟨q', hq', hs⟩ := g.rows old q hq
      refine ⟨List.mem_append_left _ hold, ⟨q', hq', hs.familyId.trans hqf⟩, fun id p hp hpf => ?_⟩
      obtain ⟨p0, hp0, hs0⟩ := g.oldRow hlen hp
      exact hle id p0 hp0 (hs0.familyId ▸ hpf)
  · intro j row' hj id q hq hqf
    rcases stage_set s hj with ⟨-, hst⟩ | ⟨-, hst⟩
    · cases hst
    · obtain ⟨p, hp, hs⟩ := g.oldRow hlen hq
      exact h.fresh j row' hst id p hp (hs.familyId ▸ hqf)
  · intro j k row1 row2 old1 old2 hj hk hjk
    rcases stage_set s hj with ⟨rfl, hst⟩ | ⟨-, hst⟩
    · rcases stage_set s hk with ⟨rfl, hst'⟩ | ⟨-, hst'⟩
      · rfl
      · cases hst
        exact absurd (hjk.symm.trans hf) (hnone k row2 old2 hst')
    · rcases stage_set s hk with ⟨rfl, hst'⟩ | ⟨-, hst'⟩
      · cases hst'
        exact absurd (hjk.trans hf) (hnone j row1 old1 hst)
      · exact h.apart j k row1 row2 old1 old2 hst hst' hjk
  · intro id q hq
    obtain ⟨p, hp, hs⟩ := g.oldRow hlen hq
    rw [hs.familyId]
    exact h.rows id p hp
  · intro j row' old hj
    rcases stage_set s hj with ⟨-, hst⟩ | ⟨-, hst⟩
    · cases hst
      exact hf ▸ h.rows token r hr
    · exact h.stages j row' old hst

/-- a session is issued: its token is the last of the family -/
theorem Tip.insert (h : Tip s) (hi : s.stage i = some (.inserting row old?)) : Tip
    ⟨(Stage.insert s.db row old?).1, s.requests.set i (Stage.insert s.db row old?).2⟩ := by
  have hother : ∀ j row' old, (⟨(Stage.insert s.db row old?).1,
      s.requests.set i (Stage.insert s.db row old?).2⟩ : Sys).stage j = some (.inserting row' old) →
        j ≠ i ∧ s.stage j = some (.inserting row' old) := by
    intro j row' old hj
    rcases stage_set s hj with ⟨-, hst⟩ | hst
    · obtain ⟨o, -, hlink⟩ := Option.map_eq_some_iff.1 hst
      cases hlink
    · exact hst
  have hlt : ∀ (id : TokenId) (r : RefreshToken), s.db.refreshTokens[id]? = some r →
      id < s.db.refreshTokens.length := fun id r hr => (List.getElem?_eq_some_iff.1 hr).1
  have hnew : (s.db.refreshTokens ++ [row])[s.db.refreshTokens.length]? = some row := by
    rw [List.getElem?_append_right (Nat.le_refl _), Nat.sub_self]
    rfl
  have hkeep := Rows.append s.db.refreshTokens [row]
  -- the tokens of the family that are there have all been rotated
  have hrot : ∀ (id : TokenId) (r : RefreshToken), s.db.refreshTokens[id]? = some r →
      r.familyId = row.familyId → id ∈ s.db.rotated := by
    intro id r hr hf
    cases old? with
    | none => exact absurd hf (h.fresh i row hi id r hr)
    | some old =>
      obtain ⟨hold, ⟨q, hq, hqf⟩, hmax⟩ := h.pending i row old hi
      rcases Nat.lt_or_eq_of_le (hmax id r hr hf) with hid | rfl
      · exact h.rotated id old r q hr hq (hf.trans hqf.symm) hid
      · exact hold
  refine ⟨?_, ?_, ?_, ?_, ?_, ?_, ?_, ?_, ?_⟩
  · intro id id' r r' hr hr' hf hid
    rcases getElem?_insert hr with h1 | ⟨h1, -⟩
    · rcases getElem?_insert hr' with h2 | ⟨-, rfl⟩
      · exact h.rotated id id' r r' h1 h2 hf hid
      · exact hrot id r h1 hf
    · rcases getElem?_insert hr' with h2 | ⟨h2, -⟩
      · exact absurd (hlt id' r' h2) (Nat.not_lt.2 (Nat.le_of_lt (h1 ▸ hid)))
      · exact absurd (h1.trans h2.symm) (Nat.ne_of_lt hid)
  · intro id hid
    obtain ⟨r, hr, hrev⟩ := h.revoked id hid
    obtain ⟨r', hr', hs⟩ := hkeep id r hr
    exact ⟨r', hr', hs.revoked hrev⟩
  · intro id hid
    rcases List.mem_append.1 hid with hid | hid
    · obtain ⟨id', q, q', hq, hq', hqf, hid'⟩ := h.exchanged id hid
      obtain ⟨p, hp, hs⟩ := hkeep id q hq
      obtain ⟨p', hp', hs'⟩ := hkeep id' q' hq'
      exact ⟨id', p, p', hp, hp', by rw [hs.familyId, hs'.familyId, hqf], hid'⟩
    · cases old? with
      | none => exact absurd hid List.not_mem_nil
      | some old =>
        obtain rfl := List.mem_singleton.1 hid
        obtain ⟨-, ⟨q, hq, hqf⟩, -⟩ := h.pending i row id hi
        obtain ⟨p, hp, hs⟩ := hkeep id q hq
        exact ⟨_, p, row, hp, hnew, hs.familyId.trans hqf, hlt id q hq⟩
  · cases old? with
    | none =>
      show (s.db.exchanged ++ []).Nodup
      rw [List.append_nil]
      exact h.once
    | some old =>
      refine List.nodup_append.2 ⟨h.once, List.pairwise_singleton _ old, fun k hk k' hk' hkk => ?_⟩
      obtain rfl := List.mem_singleton.1 hk'
      subst hkk
      obtain ⟨-, ⟨q, hq, hqf⟩, hmax⟩ := h.pending i row k hi
      obtain ⟨id', p, p', hp, hp', hpf, hid'⟩ := h.exchanged k hk
      obtain rfl := Option.some.inj (hq.symm.trans hp)
      exact absurd (hmax id' p' hp' (hpf.symm.trans hqf)) (Nat.not_le.2 hid')
  · intro j row' old hj
    obtain ⟨hji, hst⟩ := hother j row' _ hj
    obtain ⟨hold, ⟨q, hq, hqf⟩, hmax⟩ := h.pending j row' old hst
    obtain ⟨q', hq', hs⟩ := hkeep old q hq
    refine ⟨hold, ⟨q', hq', hs.familyId.trans hqf⟩, fun id p hp hpf => ?_⟩
    rcases getElem?_insert hp with hp | ⟨-, rfl⟩
    · exact hmax id p hp hpf
    · exact absurd (h.apart i j p row' old? _ hi hst hpf).symm hji
  · intro j row' hj id p hp hpf
    obtain ⟨hji, hst⟩ := hother j row' _ hj
    rcases getElem?_insert hp with hp | ⟨-, rfl⟩
    · exact h.fresh j row' hst id p hp hpf
    · exact absurd (h.apart i j p row' old? _ hi hst hpf).symm hji
  · intro j k row1 row2 old1 old2 hj hk
    exact h.apart j k row1 row2 old1 old2 (hother _ _ _ hj).2 (hother _ _ _ hk).2
  · intro id p hp
    rcases getElem?_insert hp with hp | ⟨-, rfl⟩
    · exact h.rows id p hp
    · exact h.stages i p old? hi
  · intro j row' old hj
    exact h.stages j row' old (hother _ _ _ hj).2

/-- one unrevoked token in a family -/
theorem Tip.unrevoked (h : Tip s) (f : FamilyId) :
    (s.db.unrevoked (·.familyId = f)).length ≤ 1 := by
  have hone : ∀ a ∈ s.db.unrevoked (·.familyId = f), ∀ b ∈ s.db.unrevoked (·.familyId = f),
      ¬ a < b := by
    intro a ha b hb hlt
    obtain ⟨r, hr, hnone, hf⟩ := mem_unrevoked.1 ha
    obtain ⟨r', hr', -, hf'⟩ := mem_unrevoked.1 hb
    have hsame : r.familyId = r'.familyId :=
      (of_decide_eq_true hf).trans (of_decide_eq_true hf').symm
    obtain ⟨q, hq, hrev⟩ := h.revoked a (h.rotated a b r r' hr hr' hsame hlt)
    obtain rfl := Option.some.inj (hr.symm.trans hq)
    exact hrev hnone
  have hnodup : (s.db.unrevoked (·.familyId = f)).Nodup := List.nodup_range.filter _
  cases hrows : s.db.unrevoked (·.familyId = f) with
  | nil => exact Nat.zero_le _
  | cons a rest =>
    cases rest with
    | nil => exact Nat.le_refl _
    | cons b rest =>
      rw [hrows] at hone hnodup
      have ha : a ∈ a :: b :: rest := List.mem_cons_self
      have hb : b ∈ a :: b :: rest := List.mem_cons_of_mem _ List.mem_cons_self
      have hab : a = b :=
        Nat.le_antisymm (Nat.le_of_not_lt (hone b hb a ha)) (Nat.le_of_not_lt (hone a ha b hb))
      exact absurd (hab ▸ List.mem_cons_self) (List.nodup_cons.1 hnodup).1

theorem Reads.not_inserting (h : Reads env db st next) : next ≠ some (.inserting row old?) := by
  intro hnext
  cases h with
  | plain st h =>
    cases hnext
    exact absurd h Bool.false_ne_true
  | _ => cases hnext

theorem nextRow_not_inserting (sweep : Option Sweep) (rest : List (TokenId × Jti)) :
    (db.nextRow sweep rest).2 ≠ some (.inserting row old?) := by
  cases rest with
  | nil => exact fun h => nomatch h
  | cons x rest => exact fun h => nomatch h

/-- a commit that issues no session and rotates no token -/
theorem Tip.other (h : Tip s) (g : Grows s.db db')
    (hlen : db'.refreshTokens.length = s.db.refreshTokens.length)
    (hrot : db'.rotated = s.db.rotated) (hex : db'.exchanged = s.db.exchanged)
    (hnext : ∀ row old?, next ≠ some (.inserting row old?)) :
    Tip ⟨db', s.requests.set i next⟩ := by
  refine h.frame g hlen hrot hex fun j row old hj => ?_
  rcases stage_set s hj with ⟨-, hst⟩ | ⟨-, hst⟩
  · exact absurd hst (hnext row old)
  · exact hst

theorem Tip.step (h : Tip s) (hs : st.Sane s.db) (hi : s.stage i = some st) (hf : Fine s.db st)
    (hgo : Goes env s.db st db' next) : Tip ⟨db', s.requests.set i next⟩ := by
  have g := hgo.grows
  cases hgo with
  | reads hr => exact h.other g rfl rfl rfl fun _ _ => hr.not_inserting
  | logsIn email password => exact h.logIn i email
  | inserts row old => exact h.insert hi
  | rotates token row at_ =>
    obtain ⟨r, hr, hsame⟩ := hs
    exact h.rotate i at_ hf.timely hr hsame.familyId.symm
  | aside st failed resets | empty hfam => exact h.other g rfl rfl rfl fun _ _ => (nomatch ·)
  | links id old => exact h.other g (List.length_modify ..) rfl rfl fun _ _ => (nomatch ·)
  | conflicts sweep =>
    cases sweep with
    | none => exact h.other g rfl rfl rfl fun _ _ => (nomatch ·)
    | some w => exact h.other g rfl rfl rfl fun _ _ => (nomatch ·)
  | ends sweep id jti rest at_ pruned =>
    obtain ⟨hrows, hrot, hex⟩ := nextRow_same (s.db.endRow id at_
      (s.db.revokedAccessTokens.filter (· ∉ pruned)) []) (sweep.map (·.add id)) rest
    refine h.other g ?_ hrot hex fun _ _ => nextRow_not_inserting _ _
    rw [hrows]
    exact List.length_modify ..
  | @blocks sweep id jti rest at_ pruned expiresAt ht =>
    obtain ⟨hrows, hrot, hex⟩ := nextRow_same (s.db.endRow id at_
      (s.db.revokedAccessTokens.filter (· ∉ pruned) ++ [⟨jti, expiresAt⟩]) [jti])
      (sweep.map (·.add id)) rest
    refine h.other g ?_ hrot hex fun _ _ => nextRow_not_inserting _ _
    rw [hrows]
    exact List.length_modify ..
  | revokesAll bulk user stamp loaded ids =>
    refine h.other g ?_ ?_ ?_ (fun _ _ => (nomatch ·)) <;> unfold Stage.revokeAll <;>
      rw [revokeIds_eq]
    exact revokeIds_length ids _
  | setsPassword token user password at_ loaded =>
    exact h.other g rfl rfl rfl fun _ _ => (nomatch ·)

/-! ## killed families -/

/-- a killed family has sessions, and they are over -/
structure Killed (db : Db) : Prop where
  dead : ∀ (id : TokenId) (r : RefreshToken), db.refreshTokens[id]? = some r →
    r.familyId ∈ db.killed → db.Over id
  rows : ∀ f ∈ db.killed, ∃ (id : TokenId) (r : RefreshToken),
    db.refreshTokens[id]? = some r ∧ r.familyId = f

/-- the family that a step kills is that of the sweep that returns -/
theorem Goes.kills (h : Goes env db st db' next) (hs : st.Sane db) : ∀ f ∈ db'.killed,
    f ∈ db.killed ∨ ∃ w ∈ st.returning db, w.family = f ∧
      (∃ (id : TokenId) (r : RefreshToken), db.refreshTokens[id]? = some r ∧ r.familyId = f) ∧
      ∀ id ∈ w.done, ∃ r, db'.refreshTokens[id]? = some r ∧ r.revokedAt ≠ none
        ∧ r.accessJti ∈ db'.blocked := by
  intro f hf
  cases h with
  | empty hfam =>
    rcases List.mem_append.1 hf with hf | hf
    · exact .inl hf
    · obtain rfl := List.mem_singleton.1 hf
      exact .inr ⟨_, if_pos hfam, rfl, hs, fun id hid => absurd hid List.not_mem_nil⟩
  | conflicts sweep id rest at_ expiresAt ht =>
    cases sweep with
    | none => exact .inl hf
    | some w =>
      rcases List.mem_append.1 hf with hf | hf
      · exact .inl hf
      · obtain rfl := List.mem_singleton.1 hf
        exact .inr ⟨w, if_pos ⟨rfl, ht⟩, rfl, hs.1.family w rfl, hs.1.done w rfl⟩
  | ends sweep id jti rest at_ pruned =>
    cases sweep with
    | none => cases rest <;> exact .inl hf
    | some w =>
      cases rest with
      | cons x rest => exact .inl hf
      | nil =>
        rcases List.mem_append.1 hf with hf | hf
        · exact .inl hf
        · obtain rfl := List.mem_singleton.1 hf
          have hj : jti ∈ db.blocked ++ [] := List.mem_append_left _ (hs.2.2.1 rfl)
          refine .inr ⟨w.add id, ?_, rfl, hs.1.family w rfl, ?_⟩
          · simp [Stage.returning]
          · exact (hs.1.endRow at_ db.revokedAccessTokens hj).done (w.add id) rfl
  | @blocks sweep id jti rest at_ pruned expiresAt ht =>
    cases sweep with
    | none => cases rest <;> exact .inl hf
    | some w =>
      cases rest with
      | cons x rest => exact .inl hf
      | nil =>
        rcases List.mem_append.1 hf with hf | hf
        · exact .inl hf
        · obtain rfl := List.mem_singleton.1 hf
          have hj : jti ∈ db.blocked ++ [jti] := List.mem_append_right _ List.mem_cons_self
          refine .inr ⟨w.add id, ?_, rfl, hs.1.family w rfl, ?_⟩
          · simp [Stage.returning, ht]
          · exact (hs.1.endRow at_ db.revokedAccessTokens hj).done (w.add id) rfl
  | revokesAll bulk user stamp loaded ids =>
    unfold Stage.revokeAll at hf
    rw [revokeIds_eq] at hf
    exact .inl hf
  | _ => exact .inl hf

theorem Killed.step (h : Killed s.db) (ht : Tip s) (hb : Blocks env s.db) (hs : st.Sane s.db)
    (hi : s.stage i = some st) (hf : Fine s.db st) (hgo : Goes env s.db st db' next) :
    Killed db' := by
  have g := hgo.grows
  have hb' := hgo.keepsBlocks hb hs
  refine ⟨fun id r' hr' hk => ?_, fun f hk => ?_⟩
  · by_cases hid : id < s.db.refreshTokens.length
    · obtain ⟨r, hr, hsame⟩ := g.rows.old hr' hid
      have hmono := Db.Over.mono hb hb' g (hgo.validAfter hf.forward) hr
      rw [hsame.familyId] at hk
      rcases hgo.kills hs _ hk with hk | ⟨w, hw, hwf, -, hdone⟩
      · exact hmono (h.dead id r hr hk)
      · by_cases hin : id ∈ w.done
        · exact over_of_done hb' (hdone id hin)
        · exact hmono (hf.returns w hw id hid r hr hwf.symm hin)
    · rcases hgo.newRow with hlen | ⟨row, old?, rfl, hrows, hkilled⟩
      · exact absurd (hlen ▸ (List.getElem?_eq_some_iff.1 hr').1) hid
      · rw [hrows] at hr'
        rw [hkilled] at hk
        rcases getElem?_insert hr' with hr | ⟨-, rfl⟩
        · exact absurd (List.getElem?_eq_some_iff.1 hr).1 hid
        · cases old? with
          | none =>
            obtain ⟨k, q, hq, hqf⟩ := h.rows _ hk
            exact absurd hqf (ht.fresh i r' hi k q hq)
          | some old => exact absurd hk hf.timely
  · rcases hgo.kills hs f hk with hk | ⟨w, -, -, hrow, -⟩
    · exact g.family (h.rows f hk)
    · exact g.family hrow

/-! ## runs -/

structure Rotating (env : Env) (s : Sys) : Prop where
  sane : s.Sane env
  tip : Tip s
  killed : Killed s.db

theorem start_rotating (users : List User) (clock : Nat) : Rotating env (start users clock) where
  sane := start_sane users clock
  tip := start_tip users clock
  killed := ⟨fun _ _ h => (nomatch h), fun _ h => absurd h List.not_mem_nil⟩

theorem Rotating.linear (h : Rotating env s) : Linear s.db where
  exchanged := h.tip.once
  unrevoked := h.tip.unrevoked
  killed := h.killed.dead

theorem exec_rotating (h : Rotating env s) (ho : o.Ok Fine s) : Rotating env (o.exec env s) := by
  have hsane := exec_sane o h.sane
  cases o with
  | tick micros =>
    have g := tick_grows s.db micros
    have hb := h.sane.blocks
    have ht : Tip ((Op.tick micros).exec env s) := h.tip.frame g rfl rfl rfl fun _ _ _ hi => hi
    refine ⟨hsane, ht, fun id r hr hk => ?_, h.killed.rows⟩
    exact Db.Over.mono hb (hb.tick micros) g (fun u => Nat.le_refl _) hr (h.killed.dead id r hr hk)
  | request q =>
    refine ⟨hsane, h.tip.frame (.refl s.db) rfl rfl rfl fun i row old hi => ?_, h.killed⟩
    rcases stage_append s hi with hp | hp
    · exact absurd hp Bool.false_ne_true
    · exact hp
  | step i =>
    cases hst : s.stage i with
    | none =>
      rw [exec_step_none hst]
      exact h
    | some st =>
      have hf := ho st hst
      have hs := h.sane.stages i st hst
      have hgo := next_goes env s.db st
      rw [exec_step hst] at hsane ⊢
      exact ⟨hsane, h.tip.step hs hst hf hgo,
        h.killed.step h.tip h.sane.blocks hs hst hf hgo⟩
  | crash i => exact ⟨hsane, h.tip.other (.refl s.db) rfl rfl rfl fun _ _ => (nomatch ·), h.killed⟩

/-- Along a run whose steps are fine every state is linear. -/
theorem rotation_linear (env : Env) (users : List User) (clock : Nat) (os : List Op)
    (h : Run.Meets (Op.exec env) (fun s o => o.Ok Fine s) (start users clock) os) :
    Run.Always (Op.exec env) (fun s => Linear s.db) (start users clock) os :=
  Run.always (fun _ hr => hr.linear) (fun _ _ hr ho => exec_rotating hr ho)
    (start_rotating users clock) h

/-! ## an old access token, and two refreshes at once -/

/-- user 0 logs in and refreshes the session -/
def refreshed : List Op :=
  [.request (.login 0 "correct horse battery"), .step 0, .step 0, .step 0,
    .request (.refresh (some 0) (some 0)), .step 1, .step 1, .step 1, .step 1, .step 1]

/-- the first refresh token is presented again -/
def replayed : List Op :=
  [.request (.refresh (some 0) (some 0)), .step 2, .step 2, .step 2, .step 2, .step 2]

/-- two requests with the same refresh token -/
def overlapping : List Op :=
  [.request (.login 0 "correct horse battery"), .step 0, .step 0, .step 0,
    .request (.refresh (some 0) (some 0)), .request (.refresh (some 0) (some 0)),
    .step 1, .step 2, .step 1, .step 2, .step 1, .step 2, .step 1, .step 2]

/-- After the replay the first access token is still accepted; after two refreshes at once the
token has been exchanged twice. -/
theorem replay_and_overlap :
    ¬ Linear (Run.run (Op.exec anyPassword) oneUser (refreshed ++ replayed)).db ∧
      ¬ Linear (Run.run (Op.exec anyPassword) oneUser overlapping).db := by
  constructor
  · intro h
    have hover := h.killed 0 _ (by rfl) (by decide)
    have hacc : (Run.run (Op.exec anyPassword) oneUser (refreshed ++ replayed)).db.accessAccepted 0
        = true := by decide
    exact Bool.false_ne_true ((hover.2 _ rfl).symm.trans hacc)
  · intro h
    have htwice : (Run.run (Op.exec anyPassword) oneUser overlapping).db.exchanged = [0, 0] := by
      decide
    have hnodup := h.exchanged
    rw [htwice] at hnodup
    exact absurd hnodup (by decide)

/-- the first access token has expired when the first refresh token is presented again -/
theorem rotation_linear_late : Run.Always (Op.exec anyPassword) (fun s => Linear s.db) oneUser
    (refreshed ++ [.tick (15 * 60 * second)] ++ replayed) :=
  rotation_linear anyPassword _ _ _ (by decide)

end LifeAI.Auth
