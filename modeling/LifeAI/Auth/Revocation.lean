import LifeAI.Auth.Steps

/-!
# Bulk revocation

* `Final`             a session that came before a bulk revocation is over, a later one works, and
                      what was once on the blocklist is refused;
* `Settled`           the invariant: every session has its login, every stamp its revocation;
* `Clean`             a step that keeps this so;
* `revocation_final`  in every run whose steps do, revocation is final in every state.
-/

namespace LifeAI.Auth

variable {env : Env} {db db' : Db} {st st' : Stage} {next : Option Stage} {s : Sys} {o : Op}
  {r r' row : RefreshToken} {id : TokenId} {u : UserId} {stamp loaded : Nat} {ids : List TokenId}

/-- the session is refused only for a reason of its own -/
def Db.Works (db : Db) (id : TokenId) (r : RefreshToken) : Prop :=
  (id ∉ db.ended → ¬ r.expiresAt < db.clock → db.active r.userId = true →
    db.refreshAccepted id = true) ∧
  ∀ t, db.accessTokens[r.accessJti]? = some t → ¬ t.exp * second ≤ db.clock →
    r.accessJti ∉ db.blocked → db.active t.sub = true → db.accessAccepted r.accessJti = true

structure Final (db : Db) : Prop where
  before : ∀ c ∈ db.cuts, ∀ (id : TokenId) (r : RefreshToken), db.refreshTokens[id]? = some r →
    r.userId = c.userId → r.familyId < c.families → db.Over id
  blocked : ∀ j ∈ db.blocked, db.accessAccepted j = false
  later : ∀ (id : TokenId) (r : RefreshToken) (l : Login), db.refreshTokens[id]? = some r →
    db.logins[r.familyId]? = some l →
      (∀ c ∈ db.cuts, c.userId = r.userId → c.second < l.second) → db.Works id r

/-- What a commit does about the sessions of before: none is issued once they are over, a new
password finds none, and those that a logout everywhere does not reach are over.  The UPDATE of a
reset reaches no session of a later second. -/
def Stage.Reaches (db : Db) : Stage → Prop
  | .inserting row _ => ∀ c ∈ db.cuts, c.userId = row.userId → c.families ≤ row.familyId
  | .settingPassword _ user _ _ _ => ∀ id < db.refreshTokens.length,
    ∀ r ∈ db.refreshTokens[id]?, r.userId = user → db.Over id
  | .committing .logoutAll user stamp loaded ids => ∀ id < db.refreshTokens.length,
    ∀ r ∈ db.refreshTokens[id]?, r.userId = user →
      (id ∈ ids ∨ db.refreshAccepted id = false) ∧
      (db.accessAccepted r.accessJti = false ∨ ∀ t ∈ db.accessTokens[r.accessJti]?,
        t.iat ≤ dirty loaded stamp (db.validAfter user))
  | .committing .resetPassword _ stamp _ ids => ∀ id ∈ ids, id ∈ db.ended ∨
    ∀ r ∈ db.refreshTokens[id]?, ∀ l ∈ db.logins[r.familyId]?, l.second ≤ stamp
  | _ => True

structure Clean (db : Db) (st : Stage) : Prop where
  reaches : st.Reaches db
  forward : st.forward db

instance : Decidable (st.Reaches db) := by
  unfold Stage.Reaches
  split <;> infer_instance

instance : Decidable (Clean db st) :=
  decidable_of_iff (st.Reaches db ∧ st.forward db)
    ⟨fun h => ⟨h.1, h.2⟩, fun h => ⟨h.reaches, h.forward⟩⟩

/-! ## the invariant -/

/-- the login of a session, and an access token of the same user, not older -/
def Minted (db : Db) (r : RefreshToken) : Prop :=
  ∃ t l, db.accessTokens[r.accessJti]? = some t ∧ db.logins[r.familyId]? = some l ∧
    t.sub = r.userId ∧ l.userId = r.userId ∧ l.second ≤ t.iat

/-- a stamp is not later than its revocation -/
def Bulk.Stamps (db : Db) (user : UserId) (stamp : Nat) : Bulk → Prop
  | .logoutAll => stamp ≤ db.now
  | .resetPassword => ∃ c ∈ db.cuts, c.userId = user ∧ stamp ≤ c.second

def Stage.Stamped (db : Db) : Stage → Prop
  | .inserting row _ => Minted db row ∧ row.revokedAt = none
  | .updating bulk user stamp _ => bulk.Stamps db user stamp
  | .committing bulk user stamp _ ids => bulk.Stamps db user stamp ∧
    ∀ id ∈ ids, ∃ r, db.refreshTokens[id]? = some r ∧ r.userId = user
  | _ => True

structure Settled (env : Env) (db : Db) : Prop where
  blocks : Blocks env db
  minted : ∀ (id : TokenId) (r : RefreshToken), db.refreshTokens[id]? = some r → Minted db r
  logins : ∀ l ∈ db.logins, l.second ≤ db.now
  validAfter : ∀ u < db.users.length, ∃ c ∈ db.cuts, c.userId = u ∧ db.validAfter u ≤ c.second
  revoked : ∀ (id : TokenId) (r : RefreshToken), db.refreshTokens[id]? = some r →
    r.revokedAt ≠ none → id ∈ db.ended ∨ ∃ c ∈ db.cuts, c.userId = r.userId ∧
      ∀ l ∈ db.logins[r.familyId]?, l.second ≤ c.second
  before : ∀ c ∈ db.cuts, ∀ (id : TokenId) (r : RefreshToken), db.refreshTokens[id]? = some r →
    r.userId = c.userId → r.familyId < c.families → db.Over id

theorem active_lt (h : db.active u = true) : u < db.users.length := by
  obtain ⟨x, hx, -⟩ := (Option.any_eq_true ..).1 h
  exact (List.getElem?_eq_some_iff.1 hx).1

theorem Settled.final (h : Settled env db) : Final db where
  before := h.before
  blocked j hj := blocked_refused h.blocks hj
  later id r l hr hl hlater := by
    refine ⟨fun hend hexp hact => ?_, fun t ht hexp hblocked hact => ?_⟩
    · refine refreshAccepted_iff.2 ⟨r, hr, ?_, hexp, hact⟩
      by_contra hrev
      rcases h.revoked id r hr hrev with hin | ⟨c, hc, hcu, hle⟩
      · exact hend hin
      · exact absurd (hlater c hc hcu) (Nat.not_lt.2 (hle l hl))
    · obtain ⟨t', l', ht', hl', hsub, -, hle⟩ := h.minted id r hr
      obtain rfl := Option.some.inj (ht.symm.trans ht')
      obtain rfl := Option.some.inj (hl.symm.trans hl')
      refine accessAccepted_iff.2 ⟨t, ht, hexp, eq_false_of_ne_true fun hin => ?_, hact, ?_⟩
      · obtain ⟨e, he, hej⟩ := List.any_eq_true.1 hin
        exact hblocked (of_decide_eq_true hej ▸ (h.blocks.entry e he).1)
      · obtain ⟨c, hc, hcu, hva⟩ := h.validAfter t.sub (active_lt hact)
        have hlt := hlater c hc (hcu.trans hsub)
        exact Nat.not_le.2 (Nat.lt_of_le_of_lt hva (Nat.lt_of_lt_of_le hlt hle))

theorem Grows.now (g : Grows db db') : db.now ≤ db'.now := Nat.div_le_div_right g.clock

theorem Grows.login (g : Grows db db') {f : FamilyId} {l : Login} (h : db.logins[f]? = some l) :
    db'.logins[f]? = some l := by
  obtain ⟨more, hmore⟩ := g.logins
  have hlt : f < db.logins.length := (List.getElem?_eq_some_iff.1 h).1
  rw [← hmore, List.getElem?_append_left hlt, h]

theorem Minted.grows (g : Grows db db') (h : Minted db r) : Minted db' r := by
  obtain ⟨t, l, ht, hl, hrest⟩ := h
  exact ⟨t, l, g.mint ht, g.login hl, hrest⟩

theorem Minted.same (hs : Same r r') (h : Minted db r) : Minted db r' := by
  unfold Minted at h ⊢
  rw [hs.accessJti, hs.familyId, hs.userId]
  exact h

theorem Bulk.Stamps.grows (g : Grows db db') {bulk : Bulk} {stamp : Nat}
    (h : bulk.Stamps db u stamp) : bulk.Stamps db' u stamp := by
  cases bulk with
  | logoutAll => exact Nat.le_trans h g.now
  | resetPassword =>
    obtain ⟨c, hc, hrest⟩ := h
    exact ⟨c, g.cuts.subset hc, hrest⟩

theorem Stage.Stamped.grows (g : Grows db db') (h : st.Stamped db) : st.Stamped db' := by
  cases st with
  | inserting row old => exact ⟨h.1.grows g, h.2⟩
  | updating bulk user stamp loaded => exact Bulk.Stamps.grows g h
  | committing bulk user stamp loaded ids =>
    refine ⟨Bulk.Stamps.grows g h.1, fun id hid => ?_⟩
    obtain ⟨r, hr, hu⟩ := h.2 id hid
    obtain ⟨r', hr', hs⟩ := g.rows id r hr
    exact ⟨r', hr', hs.userId.trans hu⟩
  | _ => trivial

/-! ## steps -/

theorem getElem?_snoc {α : Type} (rows : List α) (a : α) : (rows ++ [a])[rows.length]? = some a := by
  rw [List.getElem?_append_right (Nat.le_refl _), Nat.sub_self]
  rfl

/-- the session of a new access token for the user of a login -/
theorem minted_newRow {f : FamilyId} {l : Login} (hl : db.logins[f]? = some l) (hu : l.userId = u)
    (hle : l.second ≤ db.now) : Minted (db.createAccessToken env u) (db.newRow env u f) := by
  have ht := getElem?_snoc db.accessTokens
    { sub := u, iat := db.now, exp := (db.clock + env.accessTokenExpire) / second }
  exact ⟨_, l, ht, hl, rfl, hu, hle⟩

theorem Goes.stamped (h : Settled env db) (hs : st.Sane db) (hq : st.Stamped db)
    (hgo : Goes env db st db' next) : ∀ st' ∈ next, st'.Stamped db' := by
  intro st' hst
  cases hgo with
  | reads hr =>
    cases hr with
    | plain st hp =>
      cases hst
      cases st' with
      | inserting | updating | committing => exact absurd hp Bool.false_ne_true
      | _ => trivial
    | stamps jti csrf user loaded =>
      cases hst
      exact Nat.le_refl _
    | updates bulk user stamp loaded =>
      cases hst
      refine ⟨hq, fun id hid => ?_⟩
      obtain ⟨r, hr, -, hu⟩ := mem_unrevoked.1 hid
      exact ⟨r, hr, of_decide_eq_true hu⟩
    | ends => cases hst
    | _ =>
      cases hst
      trivial
  | logsIn email password =>
    cases hst
    refine ⟨?_, rfl⟩
    have ht := getElem?_snoc db.accessTokens
      { sub := email, iat := db.now, exp := (db.clock + env.accessTokenExpire) / second }
    have hl := getElem?_snoc db.logins { userId := email, second := db.now }
    exact ⟨_, _, ht, hl, rfl, rfl, Nat.le_refl _⟩
  | inserts row old =>
    obtain ⟨o, -, rfl⟩ := Option.map_eq_some_iff.1 hst
    trivial
  | rotates token row at_ =>
    cases hst
    obtain ⟨r, hr, hsame⟩ := hs
    obtain ⟨t, l, -, hl, -, hu, -⟩ := h.minted token r hr
    rw [hsame.familyId] at hl
    rw [hsame.userId] at hu
    exact ⟨minted_newRow hl hu (h.logins l (List.mem_of_getElem? hl)), rfl⟩
  | ends sweep id jti rest at_ pruned | blocks sweep id rest at_ expiresAt =>
    cases rest with
    | nil => cases hst
    | cons x rest =>
      cases hst
      trivial
  | setsPassword token user password at_ loaded =>
    cases hst
    exact ⟨_, List.mem_append_right _ List.mem_cons_self, rfl, Nat.le_refl _⟩
  | aside | links | empty | conflicts | revokesAll => cases hst

theorem Goes.now (h : Goes env db st db' next) : db'.clock = db.clock := by
  cases h with
  | conflicts sweep => cases sweep <;> rfl
  | ends sweep id jti rest => cases rest <;> cases sweep <;> rfl
  | blocks sweep id rest => cases rest <;> cases sweep <;> rfl
  | revokesAll bulk user stamp loaded ids =>
    unfold Stage.revokeAll
    rw [revokeIds_eq]
  | _ => rfl

theorem Goes.newLogin (h : Goes env db st db' next) : db'.logins = db.logins ∨
    ∃ u, db'.logins = db.logins ++ [{ userId := u, second := db.now }] := by
  cases h with
  | logsIn email password => exact .inr ⟨email, rfl⟩
  | conflicts sweep => cases sweep <;> exact .inl rfl
  | ends sweep id jti rest | blocks sweep id rest => cases rest <;> cases sweep <;> exact .inl rfl
  | revokesAll bulk user stamp loaded ids =>
    unfold Stage.revokeAll
    rw [revokeIds_eq]
    exact .inl rfl
  | _ => exact .inl rfl

/-- the revocations of a step -/
theorem Goes.newCut (h : Goes env db st db' next) : ∀ c ∈ db'.cuts, c ∈ db.cuts ∨
    c.families = db.logins.length ∧ ((∃ token password at_ loaded,
      st = .settingPassword token c.userId password at_ loaded) ∨
        ∃ stamp loaded ids, st = .committing .logoutAll c.userId stamp loaded ids ∧
          db' = Stage.revokeAll db .logoutAll c.userId stamp loaded ids) := by
  intro c hc
  cases h with
  | conflicts sweep => cases sweep <;> exact .inl hc
  | ends sweep id jti rest | blocks sweep id rest => cases rest <;> cases sweep <;> exact .inl hc
  | revokesAll bulk user stamp loaded ids =>
    cases bulk with
    | resetPassword => exact .inl hc
    | logoutAll =>
      rcases List.mem_append.1 hc with hc | hc
      · exact .inl hc
      · obtain rfl := List.mem_singleton.1 hc
        exact .inr ⟨rfl, .inr ⟨stamp, loaded, ids, rfl, rfl⟩⟩
  | setsPassword token user password at_ loaded =>
    rcases List.mem_append.1 hc with hc | hc
    · exact .inl hc
    · obtain rfl := List.mem_singleton.1 hc
      exact .inr ⟨rfl, .inl ⟨token, password, at_, loaded, rfl⟩⟩
  | _ => exact .inl hc

theorem revokeIds_row {ids : List TokenId} {at_ : Nat} (hid : id ∉ ids) :
    (ids.foldl (fun db id => db.revoke id at_) db).refreshTokens[id]? = db.refreshTokens[id]? := by
  induction ids generalizing db with
  | nil => rfl
  | cons k ids ih =>
    obtain ⟨hk, hids⟩ := List.ne_and_not_mem_of_not_mem_cons hid
    rw [List.foldl_cons, ih hids]
    show (db.refreshTokens.modify k _)[id]? = _
    rw [List.getElem?_modify_ne _ _ (Ne.symm hk)]

theorem revokeIds_mem {ids : List TokenId} (at_ : Nat) (hid : id ∈ ids)
    (hr : db.refreshTokens[id]? = some r) : ∃ r',
      (ids.foldl (fun db id => db.revoke id at_) db).refreshTokens[id]? = some r'
        ∧ r'.revokedAt ≠ none := by
  induction ids generalizing db r with
  | nil => exact absurd hid List.not_mem_nil
  | cons k ids ih =>
    by_cases hin : id ∈ ids
    · obtain ⟨q, hq, -⟩ := revoke_rows db k at_ id r hr
      exact ih hin hq
    · obtain rfl := (List.mem_cons.1 hid).resolve_right hin
      refine ⟨{ r with revokedAt := some at_ }, ?_, Option.some_ne_none at_⟩
      rw [List.foldl_cons, revokeIds_row hin]
      exact revoke_self hr

/-- the rows that a step revokes -/
theorem Goes.newlyRevoked (h : Goes env db st db' next) (hq : st.Stamped db)
    (hr' : db'.refreshTokens[id]? = some r') (hrev : r'.revokedAt ≠ none) :
    (∃ r, db.refreshTokens[id]? = some r ∧ r.revokedAt ≠ none) ∨ id ∈ db'.ended ∨
      ∃ bulk user stamp loaded ids, st = .committing bulk user stamp loaded ids ∧
        db' = Stage.revokeAll db bulk user stamp loaded ids ∧ id ∈ ids := by
  have hmod : ∀ {k : TokenId} {at_ : Nat}, (db.revoke k at_).refreshTokens[id]? = some r' →
      (∃ r, db.refreshTokens[id]? = some r ∧ r.revokedAt ≠ none) ∨ id ∈ db.ended ++ [k] := by
    intro k at_ hk
    by_cases hki : k = id
    · exact .inr (List.mem_append_right _ (List.mem_singleton.2 hki.symm))
    · have hk' : (db.refreshTokens.modify k _)[id]? = some r' := hk
      rw [List.getElem?_modify_ne _ _ hki] at hk'
      exact .inl ⟨r', hk', hrev⟩
  cases h with
  | inserts row old =>
    rcases getElem?_insert hr' with hr | ⟨-, rfl⟩
    · exact .inl ⟨r', hr, hrev⟩
    · exact absurd hq.2 hrev
  | links k old =>
    have hk : (db.refreshTokens.modify k _)[id]? = some r' := hr'
    rw [List.getElem?_modify] at hk
    obtain ⟨r, hr, rfl⟩ := Option.map_eq_some_iff.1 hk
    refine .inl ⟨r, hr, ?_⟩
    split at hrev <;> exact hrev
  | rotates token row at_ => exact (hmod hr').imp_right .inl
  | conflicts sweep => cases sweep <;> exact .inl ⟨r', hr', hrev⟩
  | ends sweep k jti rest at_ pruned | blocks sweep k rest at_ expiresAt =>
    rw [(nextRow_same ..).1] at hr'
    have hend := hmod hr'
    cases rest <;> cases sweep <;> exact hend.imp_right .inl
  | revokesAll bulk user stamp loaded ids =>
    by_cases hid : id ∈ ids
    · exact .inr (.inr ⟨bulk, user, stamp, loaded, ids, rfl, rfl, hid⟩)
    · have hk : (ids.foldl (fun db id => db.revoke id (stamp * second)) db).refreshTokens[id]?
          = some r' := hr'
      rw [revokeIds_row hid] at hk
      exact .inl ⟨r', hk, hrev⟩
  | _ => exact .inl ⟨r', hr', hrev⟩

theorem dirty_or (loaded stamp x : Nat) : dirty loaded stamp x = x ∨ dirty loaded stamp x = stamp := by
  unfold dirty
  split
  · exact .inl rfl
  · exact .inr rfl

/-- the stamps stay behind the revocations -/
theorem Settled.validAfter_step (h : Settled env db) (hq : st.Stamped db)
    (hgo : Goes env db st db' next) : ∀ u < db'.users.length,
      ∃ c ∈ db'.cuts, c.userId = u ∧ db'.validAfter u ≤ c.second := by
  intro u hu
  have g := hgo.grows
  -- the others leave the stamps alone
  have hkeep : u < db.users.length → db'.validAfter u = db.validAfter u →
      ∃ c ∈ db'.cuts, c.userId = u ∧ db'.validAfter u ≤ c.second := by
    intro hlt heq
    obtain ⟨c, hc, hcu, hle⟩ := h.validAfter u hlt
    exact ⟨c, g.cuts.subset hc, hcu, heq ▸ hle⟩
  cases hgo with
  | conflicts sweep => cases sweep <;> exact hkeep hu rfl
  | ends sweep id jti rest | blocks sweep id rest =>
    cases rest <;> cases sweep <;> exact hkeep hu rfl
  | setsPassword token user password at_ loaded =>
    have hlen : u < db.users.length := (List.length_modify ..) ▸ hu
    exact hkeep hlen (setPassword_validAfter token user password at_ u)
  | revokesAll bulk user stamp loaded ids =>
    have hlen : u < db.users.length := (List.length_modify ..) ▸ hu
    have hva := revokeAll_validAfter db bulk user stamp loaded ids u
    by_cases hmine : user = u
    · rw [if_pos ⟨hmine, hlen⟩] at hva
      subst hmine
      rcases dirty_or loaded stamp (db.validAfter user) with hd | hd
      · exact hkeep hlen (hva.trans hd)
      · rw [hva, hd]
        cases bulk with
        | logoutAll => exact ⟨_, List.mem_append_right _ List.mem_cons_self, rfl, hq.1⟩
        | resetPassword => exact hq.1
    · rw [if_neg fun hx => hmine hx.1] at hva
      exact hkeep hlen hva
  | _ => exact hkeep hu rfl

theorem Settled.revoked_step (h : Settled env db) (hq : st.Stamped db) (hc : Clean db st)
    (hgo : Goes env db st db' next) (hr' : db'.refreshTokens[id]? = some r')
    (hrev : r'.revokedAt ≠ none) : id ∈ db'.ended ∨ ∃ c ∈ db'.cuts, c.userId = r'.userId ∧
      ∀ l ∈ db'.logins[r'.familyId]?, l.second ≤ c.second := by
  have g := hgo.grows
  -- the login of the row, which is there already
  have hlogin : ∀ r l l', db.refreshTokens[id]? = some r → Same r r' →
      db.logins[r.familyId]? = some l → db'.logins[r'.familyId]? = some l' → l' = l := by
    intro r l l' hr hs hl hl'
    rw [hs.familyId, g.login hl] at hl'
    exact (Option.some.inj hl').symm
  rcases hgo.newlyRevoked hq hr' hrev with
    ⟨r, hr, hrev0⟩ | hend | ⟨bulk, user, stamp, loaded, ids, rfl, rfl, hid⟩
  · obtain ⟨q, hq', hs⟩ := g.rows id r hr
    obtain rfl := Option.some.inj (hr'.symm.trans hq')
    rcases h.revoked id r hr hrev0 with hend | ⟨c, hcc, hcu, hle⟩
    · exact .inl (g.ended.subset hend)
    · obtain ⟨t, l, -, hl, -⟩ := h.minted id r hr
      refine .inr ⟨c, g.cuts.subset hcc, hcu.trans hs.userId.symm, fun l' hl' => ?_⟩
      exact hlogin r l l' hr hs hl hl' ▸ hle l hl
  · exact .inl hend
  · obtain ⟨r, hr, hu⟩ := hq.2 id hid
    obtain ⟨q, hq', hs⟩ := g.rows id r hr
    obtain rfl := Option.some.inj (hr'.symm.trans hq')
    obtain ⟨t, l, -, hl, -⟩ := h.minted id r hr
    cases bulk with
    | logoutAll =>
      refine .inr ⟨_, List.mem_append_right _ List.mem_cons_self, (hs.userId.trans hu).symm, ?_⟩
      intro l' hl'
      rw [hlogin r l l' hr hs hl hl']
      exact h.logins l (List.mem_of_getElem? hl)
    | resetPassword =>
      rcases hc.reaches id hid with hend | hle
      · exact .inl (g.ended.subset hend)
      · obtain ⟨c, hcc, hcu, hst⟩ := hq.1
        refine .inr ⟨c, hcc, hcu.trans (hs.userId.trans hu).symm, fun l' hl' => ?_⟩
        rw [hlogin r l l' hr hs hl hl']
        exact Nat.le_trans (hle r hr l hl) hst

/-- a session that a bulk revocation reaches, or that is over -/
theorem over_revokeAll (h : Settled env db) (hb : Blocks env (Stage.revokeAll db .logoutAll u stamp
    loaded ids)) (hc : Clean db (.committing .logoutAll u stamp loaded ids))
    (hr : db.refreshTokens[id]? = some r) (hu : r.userId = u) :
    (Stage.revokeAll db .logoutAll u stamp loaded ids).Over id := by
  have g := revokeAll_grows db .logoutAll u stamp loaded ids
  have hid : id < db.refreshTokens.length := (List.getElem?_eq_some_iff.1 hr).1
  obtain ⟨hrefresh, haccess⟩ := hc.reaches id hid r hr hu
  refine ⟨eq_false_of_ne_true fun hacc => ?_, fun r' hr' => eq_false_of_ne_true fun hacc => ?_⟩
  · rcases hrefresh with hin | hrefresh
    · obtain ⟨q, hq, hrev⟩ := revokeIds_mem (stamp * second) hin hr
      obtain ⟨q', hq', hnone, -⟩ := refreshAccepted_iff.1 hacc
      obtain rfl := Option.some.inj (hq.symm.trans hq')
      exact hrev hnone
    · exact Bool.false_ne_true (hrefresh.symm.trans (refresh_mono g hid hacc))
  · obtain ⟨q, hq, hs⟩ := g.rows.old hr' hid
    obtain rfl := Option.some.inj (hr.symm.trans hq)
    rw [hs.accessJti] at hacc
    rcases haccess with haccess | hiat
    · have hgo : Goes env db _ _ _ := .revokesAll .logoutAll u stamp loaded ids
      have hj := h.blocks.rows r (List.mem_of_getElem? hr)
      have hold := access_mono h.blocks hb g (hgo.validAfter hc.forward) hj hacc
      exact Bool.false_ne_true (haccess.symm.trans hold)
    · obtain ⟨t, ht, -, -, hact, hlate⟩ := accessAccepted_iff.1 hacc
      obtain ⟨t', l, ht', -, hsub, -, -⟩ := h.minted id r hr
      obtain rfl := Option.some.inj (ht.symm.trans (g.mint ht'))
      rw [g.active, hsub, hu] at hact
      rw [revokeAll_validAfter, hsub, hu, if_pos ⟨rfl, active_lt hact⟩] at hlate
      exact hlate (hiat t ht')

theorem Settled.before_step (h : Settled env db) (hb : Blocks env db') (hc : Clean db st)
    (hq : st.Stamped db) (hgo : Goes env db st db' next) {c : Cut} (hcut : c ∈ db'.cuts)
    (hr' : db'.refreshTokens[id]? = some r') (hu : r'.userId = c.userId)
    (hf : r'.familyId < c.families) : db'.Over id := by
  have g := hgo.grows
  have hmono : ∀ r, db.refreshTokens[id]? = some r → db.Over id → db'.Over id :=
    fun r hr => Db.Over.mono h.blocks hb g (hgo.validAfter hc.forward) hr
  by_cases hid : id < db.refreshTokens.length
  · obtain ⟨r, hr, hs⟩ := g.rows.old hr' hid
    rw [hs.userId] at hu
    rw [hs.familyId] at hf
    rcases hgo.newCut c hcut with hold | ⟨-, ⟨token, password, at_, loaded, rfl⟩ |
        ⟨stamp, loaded, ids, rfl, rfl⟩⟩
    · exact hmono r hr (h.before c hold id r hr hu hf)
    · exact hmono r hr (hc.reaches id hid r hr hu)
    · exact over_revokeAll h hb hc hr hu
  · rcases hgo.newRow with hlen | ⟨row, old?, rfl, hrows, -⟩
    · exact absurd (hlen ▸ (List.getElem?_eq_some_iff.1 hr').1) hid
    · rw [hrows] at hr'
      rcases getElem?_insert hr' with hr | ⟨-, rfl⟩
      · exact absurd (List.getElem?_eq_some_iff.1 hr).1 hid
      · rcases hgo.newCut c hcut with hold | ⟨-, ⟨_, _, _, _, hst⟩ | ⟨_, _, _, hst, -⟩⟩
        · exact absurd hf (Nat.not_lt.2 (hc.reaches c hold hu.symm))
        · cases hst
        · cases hst

theorem Settled.step (h : Settled env db) (hs : st.Sane db) (hq : st.Stamped db) (hc : Clean db st)
    (hgo : Goes env db st db' next) : Settled env db' where
  blocks := hgo.keepsBlocks h.blocks hs
  minted id r' hr' := by
    have g := hgo.grows
    by_cases hid : id < db.refreshTokens.length
    · obtain ⟨r, hr, hsame⟩ := g.rows.old hr' hid
      exact ((h.minted id r hr).grows g).same hsame
    · rcases hgo.newRow with hlen | ⟨row, old?, rfl, hrows, -⟩
      · exact absurd (hlen ▸ (List.getElem?_eq_some_iff.1 hr').1) hid
      · rw [hrows] at hr'
        rcases getElem?_insert hr' with hr | ⟨-, rfl⟩
        · exact absurd (List.getElem?_eq_some_iff.1 hr).1 hid
        · exact hq.1.grows g
  logins l hl := by
    have hnow : db'.now = db.now := congrArg (· / second) hgo.now
    rw [hnow]
    rcases hgo.newLogin with heq | ⟨u, heq⟩
    · exact h.logins l (heq ▸ hl)
    · rw [heq] at hl
      rcases List.mem_append.1 hl with hl | hl
      · exact h.logins l hl
      · obtain rfl := List.mem_singleton.1 hl
        exact Nat.le_refl _
  validAfter := h.validAfter_step hq hgo
  revoked _ _ hr' hrev := h.revoked_step hq hc hgo hr' hrev
  before _ hcut _ _ hr' hu hf := h.before_step (hgo.keepsBlocks h.blocks hs) hc hq hgo hcut hr' hu hf

theorem Settled.tick (h : Settled env db) (micros : Nat) : Settled env (db.tick micros) := by
  have g := tick_grows db micros
  refine ⟨h.blocks.tick micros, fun id r hr => (h.minted id r hr).grows g, fun l hl => ?_,
    h.validAfter, h.revoked, fun c hc id r hr hu hf => ?_⟩
  · exact Nat.le_trans (h.logins l hl) g.now
  · exact Db.Over.mono h.blocks (h.blocks.tick micros) g (fun u => Nat.le_refl _) hr
      (h.before c hc id r hr hu hf)

/-! ## runs -/

structure Revoking (env : Env) (s : Sys) : Prop where
  settled : Settled env s.db
  stages : ∀ i st, s.stage i = some st → st.Sane s.db ∧ st.Stamped s.db

theorem start_revoking (users : List User) (clock : Nat) : Revoking env (start users clock) where
  settled := by
    refine ⟨(start_sane users clock).blocks, fun _ _ h => (nomatch h),
      fun l h => absurd h List.not_mem_nil, fun u hu => ?_, fun _ _ h => (nomatch h),
      fun _ _ _ _ h => (nomatch h)⟩
    have hu : u < users.length := hu
    refine ⟨_, List.mem_map.2 ⟨(users[u], u), ?_, rfl⟩, rfl, ?_⟩
    · exact List.mem_zipIdx_iff_getElem?.2 (List.getElem?_eq_getElem hu)
    · show (users[u]?.elim 0 (·.sessionsValidAfter)) ≤ users[u].sessionsValidAfter
      rw [List.getElem?_eq_getElem hu]
      exact Nat.le_refl _
  stages _ _ h := nomatch h

theorem Stage.plain_stamped (h : st.plain) : st.Stamped db := by
  cases st with
  | inserting | updating | committing => exact absurd h Bool.false_ne_true
  | _ => trivial

theorem exec_revoking (h : Revoking env s) (ho : o.Ok Clean s) : Revoking env (o.exec env s) := by
  have hkeep := exec_keeps (P := Settled env) (Q := fun db st => st.Sane db ∧ st.Stamped db)
    (C := Clean) (fun db micros hb => hb.tick micros)
    (fun db micros st hst => ⟨hst.1.grows (tick_grows db micros), hst.2.grows (tick_grows db micros)⟩)
    (fun db st hp => ⟨Stage.plain_sane hp, Stage.plain_stamped hp⟩)
    (fun db st db' next hb hst hc hgo => ⟨hb.step hst.1 hst.2 hc hgo,
      fun st' hst' => ⟨hgo.sane hb.blocks hst.1 st' hst', hgo.stamped hb hst.1 hst.2 st' hst'⟩,
      fun st' hst' => ⟨hst'.1.grows hgo.grows, hst'.2.grows hgo.grows⟩⟩) ⟨h.settled, h.stages⟩ ho
  exact ⟨hkeep.1, hkeep.2⟩

/-- Along a run whose steps are clean, revocation is final in every state. -/
theorem revocation_final (env : Env) (users : List User) (clock : Nat) (os : List Op)
    (h : Run.Meets (Op.exec env) (fun s o => o.Ok Clean s) (start users clock) os) :
    Run.Always (Op.exec env) (fun s => Final s.db) (start users clock) os :=
  Run.always (fun _ hr => hr.settled.final) (fun _ _ hr ho => exec_revoking hr ho)
    (start_revoking users clock) h

/-! ## a reset that dies, and a refresh past its checks -/

def loggedIn : List Op := [.request (.login 0 "correct horse battery"), .step 0, .step 0, .step 0]

/-- a reset dies after its first commit -/
def diedInReset : List Op :=
  loggedIn ++ [.request (.forgotPassword 0), .step 1, .step 1, .step 1,
    .request (.resetPassword 0 "staple battery horse 1"), .step 2, .step 2, .step 2, .crash 2]

/-- a logout everywhere between the checks of a refresh and its commits -/
def loggedOutInRefresh : List Op :=
  loggedIn ++ [.request (.refresh (some 0) (some 0)), .step 1, .step 1,
    .request (.logoutAll (some 0) (some 0)), .step 2, .step 2, .step 2, .step 2, .step 2,
    .step 1, .step 1]

/-- The session of before survives the reset, and the refresh issues one after the logout. -/
theorem reset_and_refresh :
    ¬ Final (Run.run (Op.exec anyPassword) oneUser diedInReset).db ∧
      ¬ Final (Run.run (Op.exec anyPassword) oneUser loggedOutInRefresh).db := by
  constructor
  · intro h
    have hover := h.before ⟨0, 1, 1⟩ (by decide) 0 _ (by rfl) (by decide +kernel)
      (by decide)
    have hacc : (Run.run (Op.exec anyPassword) oneUser diedInReset).db.refreshAccepted 0 = true := by
      decide
    exact Bool.false_ne_true (hover.1.symm.trans hacc)
  · intro h
    have hover := h.before ⟨0, 1, 1⟩ (by decide) 1 _ (by rfl) (by decide +kernel)
      (by decide)
    have hacc : (Run.run (Op.exec anyPassword) oneUser loggedOutInRefresh).db.refreshAccepted 1
        = true := by decide
    exact Bool.false_ne_true (hover.1.symm.trans hacc)

/-- a logout everywhere, a reset that finds no session, and a login in a later second -/
theorem revocation_final_reset : Run.Always (Op.exec anyPassword) (fun s => Final s.db) oneUser
    (loggedIn ++ [.request (.logoutAll (some 0) (some 0)), .step 1, .step 1, .step 1, .step 1,
      .step 1, .request (.forgotPassword 0), .step 2, .step 2, .step 2,
      .request (.resetPassword 0 "staple battery horse 1"), .step 3, .step 3, .step 3, .step 3,
      .step 3, .tick second, .request (.login 0 "staple battery horse 1"), .step 4, .step 4,
      .step 4]) :=
  revocation_final anyPassword _ _ _ (by decide)

/-! ## what is refused once -/

/-- the refresh token is there, and is refused -/
def Refused (id : TokenId) (db : Db) : Prop :=
  id < db.refreshTokens.length ∧ db.refreshAccepted id = false

theorem Refused.grows (h : Refused id db) (g : Grows db db') : Refused id db' := by
  refine ⟨?_, eq_false_of_ne_true fun hacc => ?_⟩
  · obtain ⟨r, hr, -⟩ := g.rows id _ (List.getElem?_eq_getElem h.1)
    exact (List.getElem?_eq_some_iff.1 hr).1
  · exact Bool.false_ne_true (h.2.symm.trans (refresh_mono g h.1 hacc))

/-- A refresh token that is refused once is refused ever after, in every run. -/
theorem refusal_final (h : Refused id s.db) (os : List Op) :
    Run.Always (Op.exec env) (fun s => Refused id s.db) s os := by
  refine Run.always_of_inv (I := fun s : Sys => Refused id s.db) (fun _ hs => hs) ?_ h os
  intro s o hs
  exact (exec_keeps (P := Refused id) (Q := fun _ _ => True) (C := fun _ _ => True)
    (fun _ _ hP => hP.grows (tick_grows _ _)) (fun _ _ _ _ => trivial) (fun _ _ _ => trivial)
    (fun _ _ _ _ hP _ _ hgo => ⟨hP.grows hgo.grows, fun _ _ => trivial, fun _ _ => trivial⟩)
    ⟨hs, fun _ _ _ => trivial⟩ (.of_all (fun _ _ => trivial) o)).1

theorem refusal_final_loggedOut : Run.Always (Op.exec anyPassword) (fun s => Refused 0 s.db)
    (Run.run (Op.exec anyPassword) oneUser (loggedIn ++
      [.request (.logoutAll (some 0) (some 0)), .step 1, .step 1, .step 1, .step 1, .step 1]))
    [.request (.refresh (some 0) (some 0)), .step 2, .request (.login 0 "x"), .step 3] :=
  refusal_final ⟨by decide, by decide⟩ _

end LifeAI.Auth
