import LifeAI.Auth.Model

/-!
# What a step can do

`Reads` has one case for each statement that a request goes on from, `Goes` one for each commit;
the invariants are proved by cases on them.

* `Grows`   what every step leaves: rows, tokens and what was once recorded;
* `Blocks`  an entry of the blocklist outlives the access token that it blocks;
* `refresh_mono`, `access_mono`   what is refused stays refused.
-/

namespace LifeAI.Auth

variable {env : Env} {db db' db'' : Db} {st st' : Stage} {next : Option Stage}
  {r r' r'' : RefreshToken} {rows rows' rows'' : List RefreshToken} {id : TokenId} {jti : Jti}

/-! ## cases -/

/-- the stage holds nothing that was read about sessions -/
def Stage.plain : Stage → Bool
  | .inserting .. | .loadingUser .. | .rotating .. | .sweeping .. | .pruning .. | .lookingUp ..
  | .blocking .. | .updating .. | .committing .. => false
  | _ => true

/-- the rows that a sweep finds -/
def Db.family (db : Db) (f : FamilyId) : List (TokenId × Jti) :=
  (db.unrevoked (·.familyId = f)).filterMap db.withJti

inductive Reads (env : Env) (db : Db) : Stage → Option Stage → Prop
  | ends (st : Stage) : Reads env db st none
  | plain (st : Stage) {st' : Stage} (h : st'.plain) : Reads env db st (some st')
  | loads {token : TokenId} {row : RefreshToken} (csrf : Option Nat)
      (h : db.refreshTokens[token]? = some row) (hr : row.revokedAt = none) :
      Reads env db (.refreshing token csrf) (some (.loadingUser token row))
  | reuse {token : TokenId} {row : RefreshToken} (csrf : Option Nat)
      (h : db.refreshTokens[token]? = some row) (hr : row.revokedAt ≠ none) :
      Reads env db (.refreshing token csrf) (some (.sweeping row.familyId))
  | rotates (token : TokenId) (row : RefreshToken) :
      Reads env db (.loadingUser token row) (some (.rotating token row db.clock))
  | sweeps {f : FamilyId} {id : TokenId} {jti : Jti} {rest : List (TokenId × Jti)}
      (h : db.family f = (id, jti) :: rest) :
      Reads env db (.sweeping f) (some (.pruning (some { family := f }) id jti rest db.clock))
  | logsOut {token : TokenId} {row : RefreshToken} (csrf : Option Nat)
      (h : db.refreshTokens[token]? = some row) :
      Reads env db (.loggingOut token csrf)
        (some (.pruning none token row.accessJti [] db.clock))
  | prunes (sweep : Option Sweep) (id : TokenId) (jti : Jti) (rest : List (TokenId × Jti))
      (at_ : Nat) : Reads env db (.pruning sweep id jti rest at_)
        (some (.lookingUp sweep id jti rest at_
          (db.revokedAccessTokens.filter (·.expiresAt < at_))))
  | finds (sweep : Option Sweep) (id : TokenId) {jti : Jti} (rest : List (TokenId × Jti))
      (at_ : Nat) (pruned : List RevokedAccessToken)
      (h : ∃ e ∈ db.revokedAccessTokens, e.jti = jti) :
      Reads env db (.lookingUp sweep id jti rest at_ pruned)
        (some (.blocking sweep id jti rest at_ pruned none))
  | adds (sweep : Option Sweep) (id : TokenId) (jti : Jti) (rest : List (TokenId × Jti))
      (at_ : Nat) (pruned : List RevokedAccessToken) :
      Reads env db (.lookingUp sweep id jti rest at_ pruned)
        (some (.blocking sweep id jti rest at_ pruned (some (db.clock + env.accessTokenExpire))))
  | stamps (jti : Jti) (csrf : Option Nat) (user : UserId) (loaded : Nat) :
      Reads env db (.verifyingCsrf jti csrf user loaded)
        (some (.updating .logoutAll user db.now loaded))
  | updates (bulk : Bulk) (user : UserId) (stamp loaded : Nat) :
      Reads env db (.updating bulk user stamp loaded)
        (some (.committing bulk user stamp loaded (db.unrevoked (·.userId = user))))

/-- an access token, and the login it is for -/
def Db.logIn (env : Env) (db : Db) (u : UserId) : Db :=
  { db.createAccessToken env u with logins := db.logins ++ [{ userId := u, second := db.now }] }

/-- the pointer of a rotation -/
def Db.link (db : Db) (id old : TokenId) : Db :=
  { db with refreshTokens := db.refreshTokens.modify id ({ · with replacesId := some old }) }

/-- a row that is dealt with, under the blocklist that its commit leaves -/
def Db.endRow (db : Db) (id : TokenId) (at_ : Nat) (list : List RevokedAccessToken)
    (blocked : List Jti) : Db :=
  { db.revoke id at_ with
    ended := db.ended ++ [id]
    revokedAccessTokens := list
    blocked := db.blocked ++ blocked }

/-- the key of a new entry is there when the commit comes to it -/
def Db.taken (db : Db) (jti : Jti) (pruned : List RevokedAccessToken) : Bool :=
  (db.revokedAccessTokens.filter (· ∉ pruned)).any (·.jti = jti)

inductive Goes (env : Env) (db : Db) : Stage → Db → Option Stage → Prop
  | reads {st : Stage} {next : Option Stage} (h : Reads env db st next) : Goes env db st db next
  /-- the tables that no session depends on -/
  | aside (st : Stage) (failed : List (UserId × Nat)) (resets : List PasswordResetToken) :
      Goes env db st { db with failedLogins := failed, passwordResetTokens := resets } none
  | logsIn (email : UserId) (password : String) :
      Goes env db (.checkingPassword email password) (db.logIn env email)
        (some (.inserting (db.newRow env email db.logins.length) none))
  | inserts (row : RefreshToken) (old : Option TokenId) :
      Goes env db (.inserting row old) (Stage.insert db row old).1 (Stage.insert db row old).2
  | links (id old : TokenId) : Goes env db (.linking id old) (db.link id old) none
  | rotates (token : TokenId) (row : RefreshToken) (at_ : Nat) :
      Goes env db (.rotating token row at_) (Stage.rotate env db token row at_).1
        (Stage.rotate env db token row at_).2
  | empty {f : FamilyId} (h : db.family f = []) :
      Goes env db (.sweeping f) (db.swept (some { family := f })) none
  | conflicts (sweep : Option Sweep) (id : TokenId) {jti : Jti} (rest : List (TokenId × Jti))
      (at_ : Nat) {pruned : List RevokedAccessToken} (expiresAt : Nat) (h : db.taken jti pruned) :
      Goes env db (.blocking sweep id jti rest at_ pruned (some expiresAt)) (db.swept sweep) none
  | ends (sweep : Option Sweep) (id : TokenId) (jti : Jti) (rest : List (TokenId × Jti))
      (at_ : Nat) (pruned : List RevokedAccessToken) :
      Goes env db (.blocking sweep id jti rest at_ pruned none)
        ((db.endRow id at_ (db.revokedAccessTokens.filter (· ∉ pruned)) []).nextRow
          (sweep.map (·.add id)) rest).1
        ((db.endRow id at_ (db.revokedAccessTokens.filter (· ∉ pruned)) []).nextRow
          (sweep.map (·.add id)) rest).2
  | blocks (sweep : Option Sweep) (id : TokenId) {jti : Jti} (rest : List (TokenId × Jti))
      (at_ : Nat) {pruned : List RevokedAccessToken} (expiresAt : Nat)
      (h : db.taken jti pruned = false) :
      Goes env db (.blocking sweep id jti rest at_ pruned (some expiresAt))
        ((db.endRow id at_ (db.revokedAccessTokens.filter (· ∉ pruned) ++ [⟨jti, expiresAt⟩])
          [jti]).nextRow (sweep.map (·.add id)) rest).1
        ((db.endRow id at_ (db.revokedAccessTokens.filter (· ∉ pruned) ++ [⟨jti, expiresAt⟩])
          [jti]).nextRow (sweep.map (·.add id)) rest).2
  | revokesAll (bulk : Bulk) (user : UserId) (stamp loaded : Nat) (ids : List TokenId) :
      Goes env db (.committing bulk user stamp loaded ids)
        (Stage.revokeAll db bulk user stamp loaded ids) none
  | setsPassword (token : ResetId) (user : UserId) (password : String) (at_ loaded : Nat) :
      Goes env db (.settingPassword token user password at_ loaded)
        (Stage.setPassword db token user password at_)
        (some (.updating .resetPassword user db.now loaded))

theorem goes_option {o : Option Stage} (hread : ∀ st', o = some st' → Reads env db st (some st')) :
    Goes env db st db o := by
  cases o with
  | none => exact .reads (.ends st)
  | some st' => exact .reads (hread st' rfl)

theorem refresh_reads {token : TokenId} {csrf : Option Nat}
    (h : Stage.refresh db token csrf = some st') : Reads env db (.refreshing token csrf) (some st') := by
  unfold Stage.refresh at h
  split at h
  · cases h
  · next row hrow =>
    split at h
    · cases h
    · split at h
      · next hr =>
        cases h
        exact .reuse csrf hrow (Option.isSome_iff_ne_none.1 hr)
      · next hr =>
        split at h
        · cases h
        · cases h
          exact .loads csrf hrow (Option.not_isSome_iff_eq_none.1 hr)

theorem logout_reads {token : TokenId} {csrf : Option Nat}
    (h : Stage.logout db token csrf = some st') : Reads env db (.loggingOut token csrf) (some st') := by
  unfold Stage.logout at h
  split at h
  · cases h
  · next row hrow =>
    split at h
    · cases h
    · cases h
      exact .logsOut csrf hrow

theorem goes_checkPassword {email : UserId} {password : String} :
    Goes env db (.checkingPassword email password) (Stage.checkPassword env db email password).1
      (Stage.checkPassword env db email password).2 := by
  unfold Stage.checkPassword
  split
  · exact .reads (.plain _ rfl)
  · split
    · exact .reads (.plain _ rfl)
    · split
      · exact .reads (.ends _)
      · exact .logsIn email password

theorem goes_block {sweep : Option Sweep} {rest : List (TokenId × Jti)} {at_ : Nat}
    {pruned : List RevokedAccessToken} {expiresAt : Option Nat} :
    Goes env db (.blocking sweep id jti rest at_ pruned expiresAt)
      (Stage.block db sweep id jti rest at_ pruned expiresAt).1
      (Stage.block db sweep id jti rest at_ pruned expiresAt).2 := by
  cases expiresAt with
  | none =>
    have h : Goes env db _ _ _ := .ends sweep id jti rest at_ pruned
    unfold Db.endRow at h
    rw [List.append_nil] at h
    exact h
  | some expiresAt =>
    unfold Stage.block
    dsimp only
    split
    · next h => exact .conflicts sweep id rest at_ expiresAt h
    · next h => exact .blocks sweep id rest at_ expiresAt (eq_false_of_ne_true h)

theorem next_goes (env : Env) (db : Db) (st : Stage) : Goes env db st (st.next env db).1 (st.next env db).2 := by
  cases st with
  | counting email password =>
    show Goes env db _ (ite _ _ _ : Db × Option Stage).1 (ite _ _ _ : Db × Option Stage).2
    split
    · exact .reads (.ends _)
    · exact .reads (.plain _ rfl)
  | checkingPassword email password => exact goes_checkPassword
  | failingLogin email => exact .aside _ _ db.passwordResetTokens
  | inserting row old => exact .inserts row old
  | linking id old => exact .links id old
  | refreshing token csrf => exact goes_option fun st' h => refresh_reads h
  | loadingUser token row =>
    refine goes_option fun st' h => ?_
    obtain ⟨-, rfl⟩ := Option.ite_some_none_eq_some.1 h
    exact .rotates token row
  | rotating token row at_ => exact .rotates token row at_
  | sweeping f =>
    show Goes env db _ (db.nextRow _ (db.family f)).1 (db.nextRow _ (db.family f)).2
    cases h : db.family f with
    | nil => exact .empty h
    | cons x rest => exact .reads (.sweeps h)
  | pruning sweep id jti rest at_ => exact .reads (.prunes sweep id jti rest at_)
  | lookingUp sweep id jti rest at_ pruned =>
    show Goes env db _ db (some (.blocking sweep id jti rest at_ pruned (ite _ _ _)))
    split
    · next h =>
      obtain ⟨e, he, hp⟩ := List.any_eq_true.1 h
      exact .reads (.finds sweep id rest at_ pruned ⟨e, he, (of_decide_eq_true hp).1⟩)
    · exact .reads (.adds sweep id jti rest at_ pruned)
  | blocking sweep id jti rest at_ pruned expiresAt => exact goes_block
  | loggingOut token csrf => exact goes_option fun st' h => logout_reads h
  | authenticating jti csrf =>
    refine goes_option fun st' h => ?_
    replace h : Stage.authenticate db jti csrf = some st' := h
    unfold Stage.authenticate at h
    split at h
    · cases h
    · split at h
      · cases h
      · cases h
        exact .plain _ rfl
  | authorizing jti csrf sub iat =>
    refine goes_option fun st' h => ?_
    replace h : Stage.authorize db jti csrf sub iat = some st' := h
    unfold Stage.authorize at h
    split at h
    · cases h
    · split at h
      · cases h
      · cases h
        exact .plain _ rfl
  | verifyingCsrf jti csrf user loaded =>
    refine goes_option fun st' h => ?_
    replace h : Stage.verifyCsrf db jti csrf user loaded = some st' := h
    unfold Stage.verifyCsrf at h
    split at h
    · cases h
    · split at h
      · cases h
      · cases h
        exact .stamps jti csrf user loaded
  | updating bulk user stamp loaded => exact .reads (.updates bulk user stamp loaded)
  | committing bulk user stamp loaded ids => exact .revokesAll bulk user stamp loaded ids
  | forgetting email =>
    refine goes_option fun st' h => ?_
    obtain ⟨-, rfl⟩ := Option.ite_some_none_eq_some.1 h
    exact .plain _ rfl
  | supersedingLinks user usedAt => exact .reads (.plain _ rfl)
  | sendingLink user usedAt superseded expiresAt => exact .aside _ db.failedLogins _
  | resetting token password =>
    refine goes_option fun st' h => ?_
    replace h : Stage.reset db token password = some st' := h
    unfold Stage.reset at h
    split at h
    · cases h
    · split at h
      · cases h
      · cases h
        exact .plain _ rfl
  | loadingReset token user password =>
    refine goes_option fun st' h => ?_
    replace h : Stage.loadReset env db token user password = some st' := h
    unfold Stage.loadReset at h
    split at h
    · cases h
    · split at h
      · cases h
      · cases h
        exact .plain _ rfl
  | settingPassword token user password at_ loaded =>
    exact .setsPassword token user password at_ loaded

/-! ## what stays -/

/-- a row later on: it may have been revoked -/
structure Same (r r' : RefreshToken) : Prop where
  userId : r'.userId = r.userId
  familyId : r'.familyId = r.familyId
  accessJti : r'.accessJti = r.accessJti
  expiresAt : r'.expiresAt = r.expiresAt
  revoked : r.revokedAt ≠ none → r'.revokedAt ≠ none

theorem Same.refl (r : RefreshToken) : Same r r := ⟨rfl, rfl, rfl, rfl, id⟩

theorem Same.trans (h : Same r r') (h' : Same r' r'') : Same r r'' where
  userId := h'.userId.trans h.userId
  familyId := h'.familyId.trans h.familyId
  accessJti := h'.accessJti.trans h.accessJti
  expiresAt := h'.expiresAt.trans h.expiresAt
  revoked hr := h'.revoked (h.revoked hr)

def Rows (rows rows' : List RefreshToken) : Prop :=
  ∀ (id : TokenId) (r : RefreshToken), rows[id]? = some r → ∃ r', rows'[id]? = some r' ∧ Same r r'

theorem Rows.refl (rows : List RefreshToken) : Rows rows rows := fun _ r h => ⟨r, h, .refl r⟩

theorem Rows.trans (h : Rows rows rows') (h' : Rows rows' rows'') : Rows rows rows'' := by
  intro id r hr
  obtain ⟨r', hr', hs⟩ := h id r hr
  obtain ⟨r'', hr'', hs'⟩ := h' id r' hr'
  exact ⟨r'', hr'', hs.trans hs'⟩

theorem Rows.modify {f : RefreshToken → RefreshToken} (hf : ∀ r, Same r (f r)) (k : TokenId) :
    Rows rows (rows.modify k f) := by
  intro id r hr
  rw [List.getElem?_modify, hr]
  by_cases h : k = id
  · exact ⟨f r, by simp [h], hf r⟩
  · exact ⟨r, by simp [h], .refl r⟩

theorem Rows.append (rows new : List RefreshToken) : Rows rows (rows ++ new) := by
  intro id r hr
  have hid : id < rows.length := (List.getElem?_eq_some_iff.1 hr).1
  exact ⟨r, by rw [List.getElem?_append_left hid, hr], .refl r⟩

theorem Rows.old (h : Rows rows rows') (hr : rows'[id]? = some r') (hid : id < rows.length) :
    ∃ r, rows[id]? = some r ∧ Same r r' := by
  obtain ⟨r'', hr'', hs⟩ := h id _ (List.getElem?_eq_getElem hid)
  obtain rfl := Option.some.inj (hr''.symm.trans hr)
  exact ⟨_, List.getElem?_eq_getElem hid, hs⟩

theorem revoke_rows (db : Db) (id : TokenId) (at_ : Nat) :
    Rows db.refreshTokens (db.revoke id at_).refreshTokens := by
  apply Rows.modify
  intro r
  exact ⟨rfl, rfl, rfl, rfl, fun _ => Option.some_ne_none at_⟩

theorem link_rows (db : Db) (id old : TokenId) :
    Rows db.refreshTokens (db.link id old).refreshTokens := by
  apply Rows.modify
  intro r
  exact ⟨rfl, rfl, rfl, rfl, fun h => h⟩

/-- the row that is revoked -/
theorem revoke_self {at_ : Nat} (h : db.refreshTokens[id]? = some r) :
    (db.revoke id at_).refreshTokens[id]? = some { r with revokedAt := some at_ } := by
  show (db.refreshTokens.modify id _)[id]? = _
  rw [List.getElem?_modify, h]
  simp

/-- what a step leaves -/
structure Grows (db db' : Db) : Prop where
  clock : db.clock ≤ db'.clock
  rows : Rows db.refreshTokens db'.refreshTokens
  access : db.accessTokens <+: db'.accessTokens
  logins : db.logins <+: db'.logins
  active : ∀ u, db'.active u = db.active u
  rotated : db.rotated <+: db'.rotated
  exchanged : db.exchanged <+: db'.exchanged
  ended : db.ended <+: db'.ended
  killed : db.killed <+: db'.killed
  blocked : db.blocked <+: db'.blocked
  cuts : db.cuts <+: db'.cuts

theorem Grows.refl (db : Db) : Grows db db where
  clock := Nat.le_refl _
  rows := .refl _
  access := List.prefix_refl _
  logins := List.prefix_refl _
  active _ := rfl
  rotated := List.prefix_refl _
  exchanged := List.prefix_refl _
  ended := List.prefix_refl _
  killed := List.prefix_refl _
  blocked := List.prefix_refl _
  cuts := List.prefix_refl _

theorem swept_grows (db : Db) (sweep : Option Sweep) : Grows db (db.swept sweep) := by
  cases sweep with
  | none => exact .refl db
  | some w => exact { Grows.refl db with killed := List.prefix_append _ _ }

theorem Grows.nextRow (h : Grows db db') (sweep : Option Sweep) (rest : List (TokenId × Jti)) :
    Grows db (db'.nextRow sweep rest).1 := by
  cases rest with
  | nil =>
    cases sweep with
    | none => exact h
    | some w => exact { h with killed := h.killed.trans (List.prefix_append _ _) }
  | cons x rest => exact h

theorem endRow_grows (db : Db) (id : TokenId) (at_ : Nat) (list : List RevokedAccessToken)
    (blocked : List Jti) : Grows db (db.endRow id at_ list blocked) :=
  { Grows.refl db with
    rows := revoke_rows db id at_
    ended := List.prefix_append _ _
    blocked := List.prefix_append _ _ }

theorem active_modify {f : User → User} {k : UserId} (h : db'.users = db.users.modify k f)
    (hf : ∀ u, (f u).isActive = u.isActive) (u : UserId) : db'.active u = db.active u := by
  unfold Db.active
  rw [h, List.getElem?_modify]
  cases db.users[u]? with
  | none => rfl
  | some x =>
    by_cases h : k = u
    · simp [h, hf]
    · simp [h]

theorem revokeIds_rows (ids : List TokenId) (at_ : Nat) :
    Rows db.refreshTokens (ids.foldl (fun db id => db.revoke id at_) db).refreshTokens := by
  induction ids generalizing db with
  | nil => exact .refl _
  | cons id ids ih => exact (revoke_rows db id at_).trans ih

theorem revokeIds_length (ids : List TokenId) (at_ : Nat) :
    (ids.foldl (fun db id => db.revoke id at_) db).refreshTokens.length
      = db.refreshTokens.length := by
  induction ids generalizing db with
  | nil => rfl
  | cons id ids ih => exact ih.trans (List.length_modify ..)

/-- bulk revocation leaves the rest of the database alone -/
theorem revokeIds_eq (ids : List TokenId) (at_ : Nat) :
    ids.foldl (fun db id => db.revoke id at_) db = { db with
      refreshTokens := (ids.foldl (fun db id => db.revoke id at_) db).refreshTokens } := by
  induction ids generalizing db with
  | nil => rfl
  | cons id ids ih =>
    rw [List.foldl_cons, ih]
    rfl

theorem revokeAll_grows (db : Db) (bulk : Bulk) (user : UserId) (stamp loaded : Nat)
    (ids : List TokenId) : Grows db (Stage.revokeAll db bulk user stamp loaded ids) := by
  unfold Stage.revokeAll
  rw [revokeIds_eq]
  exact { Grows.refl db with
    rows := revokeIds_rows ids _
    active := fun u => active_modify (f := fun x =>
      { x with sessionsValidAfter := dirty loaded stamp x.sessionsValidAfter }) rfl (fun _ => rfl) u
    cuts := by
      cases bulk
      · exact List.prefix_append _ _
      · exact List.prefix_refl _ }

theorem Goes.grows (h : Goes env db st db' next) : Grows db db' := by
  cases h with
  | reads => exact .refl db
  | aside st failed resets => exact { Grows.refl db with }
  | logsIn email password =>
    exact { Grows.refl db with
      access := List.prefix_append _ _
      logins := List.prefix_append _ _ }
  | inserts row old =>
    exact { Grows.refl db with
      rows := .append _ _
      exchanged := List.prefix_append _ _ }
  | links id old =>
    exact { Grows.refl db with rows := link_rows db id old }
  | rotates token row at_ =>
    exact { Grows.refl db with
      rows := revoke_rows db token at_
      access := List.prefix_append _ _
      rotated := List.prefix_append _ _
      ended := List.prefix_append _ _ }
  | empty => exact swept_grows db _
  | conflicts sweep => exact swept_grows db sweep
  | ends sweep id jti rest at_ pruned => exact (endRow_grows db id at_ _ []).nextRow _ rest
  | @blocks sweep id jti rest at_ pruned expiresAt h =>
    exact (endRow_grows db id at_ _ [jti]).nextRow _ rest
  | revokesAll bulk user stamp loaded ids => exact revokeAll_grows db bulk user stamp loaded ids
  | setsPassword token user password at_ loaded =>
    exact { Grows.refl db with
      active := fun u => active_modify (f := ({ · with password })) rfl (fun _ => rfl) u
      cuts := List.prefix_append _ _ }

/-- the stamp that a bulk revocation is about to write does not go back -/
def Stage.forward (db : Db) : Stage → Prop
  | .committing _ user stamp loaded _ =>
    db.validAfter user ≤ dirty loaded stamp (db.validAfter user)
  | _ => True

instance : Decidable (st.forward db) := by
  unfold Stage.forward
  split <;> infer_instance

theorem validAfter_modify {f : User → User} {k : UserId} (h : db'.users = db.users.modify k f)
    (u : UserId) : db'.validAfter u = db.users[u]?.elim 0 fun x =>
      if k = u then (f x).sessionsValidAfter else x.sessionsValidAfter := by
  unfold Db.validAfter
  rw [h, List.getElem?_modify]
  cases db.users[u]? with
  | none => rfl
  | some x =>
    by_cases h : k = u
    · simp [h]
    · simp [h]

theorem revokeAll_validAfter (db : Db) (bulk : Bulk) (user : UserId) (stamp loaded : Nat)
    (ids : List TokenId) (u : UserId) :
    (Stage.revokeAll db bulk user stamp loaded ids).validAfter u =
      if user = u ∧ u < db.users.length then dirty loaded stamp (db.validAfter u)
      else db.validAfter u := by
  rw [validAfter_modify (k := user) (f := fun x =>
    { x with sessionsValidAfter := dirty loaded stamp x.sessionsValidAfter }) rfl u]
  unfold Db.validAfter
  cases hu : db.users[u]? with
  | none =>
    have hlen := List.getElem?_eq_none_iff.1 hu
    rw [if_neg fun h => absurd h.2 (Nat.not_lt.2 hlen)]
    rfl
  | some x =>
    have hlen := (List.getElem?_eq_some_iff.1 hu).1
    simp only [Option.elim_some, hlen, and_true]

theorem setPassword_validAfter (token : ResetId) (user : UserId) (password : String) (at_ : Nat)
    (u : UserId) : (Stage.setPassword db token user password at_).validAfter u = db.validAfter u := by
  rw [validAfter_modify (k := user) (f := ({ · with password })) rfl u]
  simp only [ite_self]
  rfl

theorem Goes.validAfter (h : Goes env db st db' next) (hf : st.forward db) (u : UserId) :
    db.validAfter u ≤ db'.validAfter u := by
  have hnext : ∀ (x : Db) (sweep : Option Sweep) (rest : List (TokenId × Jti)),
      (x.nextRow sweep rest).1.validAfter u = x.validAfter u := by
    intro x sweep rest
    cases rest with
    | nil => cases sweep <;> rfl
    | cons y rest => rfl
  cases h with
  | reads => exact Nat.le_refl _
  | aside st failed resets => exact Nat.le_refl _
  | logsIn email password => exact Nat.le_refl _
  | inserts row old => exact Nat.le_refl _
  | links id old => exact Nat.le_refl _
  | rotates token row at_ => exact Nat.le_refl _
  | empty => exact Nat.le_refl _
  | conflicts sweep => cases sweep <;> exact Nat.le_refl _
  | ends sweep id jti rest at_ pruned =>
    rw [hnext]
    exact Nat.le_refl _
  | @blocks sweep id jti rest at_ pruned expiresAt h =>
    rw [hnext]
    exact Nat.le_refl _
  | revokesAll bulk user stamp loaded ids =>
    rw [revokeAll_validAfter]
    split
    · next hu => exact hu.1 ▸ hf
    · exact Nat.le_refl _
  | setsPassword token user password at_ loaded =>
    exact Nat.le_of_eq (setPassword_validAfter token user password at_ u).symm

/-! ## the blocklist -/

/-- the access token of `jti` is over by `time` -/
def Db.ExpiresBy (db : Db) (jti : Jti) (time : Nat) : Prop :=
  ∃ t, db.accessTokens[jti]? = some t ∧ t.exp * second ≤ time

/-- an entry outlives the token that it blocks -/
structure Blocks (env : Env) (db : Db) : Prop where
  exp : ∀ t ∈ db.accessTokens, t.exp * second ≤ db.clock + env.accessTokenExpire
  rows : ∀ r ∈ db.refreshTokens, r.accessJti < db.accessTokens.length
  entry : ∀ e ∈ db.revokedAccessTokens, e.jti ∈ db.blocked ∧ db.ExpiresBy e.jti e.expiresAt
  blocked : ∀ j ∈ db.blocked,
    (∃ e ∈ db.revokedAccessTokens, e.jti = j) ∨ db.ExpiresBy j db.clock

/-- the rows that a sweep or a logout has before it, and those that it has dealt with -/
structure Handles (db : Db) (sweep : Option Sweep) (rows : List (TokenId × Jti)) : Prop where
  names : ∀ x ∈ rows, ∃ r, db.refreshTokens[x.1]? = some r ∧ r.accessJti = x.2
  done : ∀ w ∈ sweep, ∀ id ∈ w.done, ∃ r, db.refreshTokens[id]? = some r ∧ r.revokedAt ≠ none
    ∧ r.accessJti ∈ db.blocked
  family : ∀ w ∈ sweep, ∃ (id : TokenId) (r : RefreshToken), db.refreshTokens[id]? = some r
    ∧ r.familyId = w.family

/-- what a request has read is so -/
def Stage.Sane (db : Db) : Stage → Prop
  | .inserting row _ => row.accessJti < db.accessTokens.length
  | .loadingUser token row | .rotating token row _ =>
    ∃ r, db.refreshTokens[token]? = some r ∧ Same row r
  | .sweeping f =>
    ∃ (id : TokenId) (r : RefreshToken), db.refreshTokens[id]? = some r ∧ r.familyId = f
  | .pruning sweep id jti rest at_ => Handles db sweep ((id, jti) :: rest) ∧ at_ ≤ db.clock
  | .lookingUp sweep id jti rest _ pruned =>
    Handles db sweep ((id, jti) :: rest) ∧ ∀ e ∈ pruned, e.expiresAt < db.clock
  | .blocking sweep id jti rest _ pruned expiresAt =>
    Handles db sweep ((id, jti) :: rest) ∧ (∀ e ∈ pruned, e.expiresAt < db.clock) ∧
      (expiresAt = none → jti ∈ db.blocked) ∧ ∀ x ∈ expiresAt, db.ExpiresBy jti x
  | _ => True

theorem Db.ExpiresBy.mono {time time' : Nat} (h : db.ExpiresBy jti time)
    (hle : time ≤ time') : db.ExpiresBy jti time' := by
  obtain ⟨t, ht, hexp⟩ := h
  exact ⟨t, ht, Nat.le_trans hexp hle⟩

theorem Grows.mint (g : Grows db db') {t : AccessToken} (h : db.accessTokens[jti]? = some t) :
    db'.accessTokens[jti]? = some t := by
  obtain ⟨more, hmore⟩ := g.access
  have hlt : jti < db.accessTokens.length := (List.getElem?_eq_some_iff.1 h).1
  rw [← hmore, List.getElem?_append_left hlt, h]

theorem Grows.expiresBy (g : Grows db db') {time : Nat} (h : db.ExpiresBy jti time) :
    db'.ExpiresBy jti time := by
  obtain ⟨t, ht, hexp⟩ := h
  exact ⟨t, g.mint ht, hexp⟩

theorem Grows.family (g : Grows db db') {f : FamilyId}
    (h : ∃ (id : TokenId) (r : RefreshToken), db.refreshTokens[id]? = some r ∧ r.familyId = f) :
    ∃ (id : TokenId) (r : RefreshToken), db'.refreshTokens[id]? = some r ∧ r.familyId = f := by
  obtain ⟨id, r, hr, hf⟩ := h
  obtain ⟨r', hr', hs⟩ := g.rows id r hr
  exact ⟨id, r', hr', hs.familyId.trans hf⟩

theorem Handles.grows (g : Grows db db') {sweep : Option Sweep} {rows : List (TokenId × Jti)}
    (h : Handles db sweep rows) : Handles db' sweep rows where
  names x hx := by
    obtain ⟨r, hr, hj⟩ := h.names x hx
    obtain ⟨r', hr', hs⟩ := g.rows _ r hr
    exact ⟨r', hr', hs.accessJti.trans hj⟩
  done w hw id hid := by
    obtain ⟨r, hr, hrev, hj⟩ := h.done w hw id hid
    obtain ⟨r', hr', hs⟩ := g.rows _ r hr
    exact ⟨r', hr', hs.revoked hrev, hs.accessJti ▸ g.blocked.subset hj⟩
  family w hw := g.family (h.family w hw)

theorem Stage.Sane.grows (g : Grows db db') (h : st.Sane db) : st.Sane db' := by
  have hrow : ∀ {token : TokenId} {row : RefreshToken},
      (∃ r, db.refreshTokens[token]? = some r ∧ Same row r) →
        ∃ r, db'.refreshTokens[token]? = some r ∧ Same row r := by
    rintro token row ⟨r, hr, hs⟩
    obtain ⟨r', hr', hs'⟩ := g.rows _ r hr
    exact ⟨r', hr', hs.trans hs'⟩
  have hold : ∀ {pruned : List RevokedAccessToken}, (∀ e ∈ pruned, e.expiresAt < db.clock) →
      ∀ e ∈ pruned, e.expiresAt < db'.clock :=
    fun h e he => Nat.lt_of_lt_of_le (h e he) g.clock
  cases st with
  | inserting row old => exact Nat.lt_of_lt_of_le h g.access.length_le
  | loadingUser token row => exact hrow h
  | rotating token row at_ => exact hrow h
  | sweeping f => exact g.family h
  | pruning sweep id jti rest at_ => exact ⟨h.1.grows g, Nat.le_trans h.2 g.clock⟩
  | lookingUp sweep id jti rest at_ pruned => exact ⟨h.1.grows g, hold h.2⟩
  | blocking sweep id jti rest at_ pruned expiresAt =>
    obtain ⟨hh, hp, hfound, hnew⟩ := h
    exact ⟨hh.grows g, hold hp, fun hx => g.blocked.subset (hfound hx),
      fun x hx => g.expiresBy (hnew x hx)⟩
  | _ => trivial

/-- the blocklist of a database that grew by rows and tokens only -/
theorem Blocks.carry (hb : Blocks env db) (g : Grows db db')
    (hacc : ∀ t ∈ db'.accessTokens, t ∈ db.accessTokens ∨
      t.exp * second ≤ db'.clock + env.accessTokenExpire)
    (hrows : ∀ r ∈ db'.refreshTokens, r.accessJti < db'.accessTokens.length)
    (hlist : db'.revokedAccessTokens = db.revokedAccessTokens) (hblocked : db'.blocked = db.blocked) :
    Blocks env db' where
  exp t ht := by
    rcases hacc t ht with hold | hnew
    · exact Nat.le_trans (hb.exp t hold) (Nat.add_le_add_right g.clock _)
    · exact hnew
  rows := hrows
  entry e he := by
    rw [hlist] at he
    obtain ⟨hj, hexp⟩ := hb.entry e he
    exact ⟨hblocked ▸ hj, g.expiresBy hexp⟩
  blocked j hj := by
    rw [hblocked] at hj
    rcases hb.blocked j hj with ⟨e, he, hej⟩ | hexp
    · exact .inl ⟨e, hlist ▸ he, hej⟩
    · exact .inr ((g.expiresBy hexp).mono g.clock)

/-- the rows of a database that got no new ones -/
theorem Blocks.oldRows (hb : Blocks env db) (g : Grows db db')
    (hlen : db'.refreshTokens.length = db.refreshTokens.length) :
    ∀ r ∈ db'.refreshTokens, r.accessJti < db'.accessTokens.length := by
  intro r' hr'
  obtain ⟨id, hid⟩ := List.mem_iff_getElem?.1 hr'
  have hlt : id < db.refreshTokens.length := hlen ▸ (List.getElem?_eq_some_iff.1 hid).1
  obtain ⟨r, hr, hs⟩ := g.rows.old hid hlt
  rw [hs.accessJti]
  exact Nat.lt_of_lt_of_le (hb.rows r (List.mem_of_getElem? hr)) g.access.length_le

/-- the commit of `revoke_access_token`: what it prunes is over, and what it adds outlives its
token -/
theorem Blocks.endRow (hb : Blocks env db) (id : TokenId) (at_ : Nat)
    {pruned new : List RevokedAccessToken}
    (hp : ∀ e ∈ pruned, e.expiresAt < db.clock)
    (hnew : ∀ e ∈ new, db.ExpiresBy e.jti e.expiresAt) :
    Blocks env (db.endRow id at_ (db.revokedAccessTokens.filter (· ∉ pruned) ++ new)
      (new.map (·.jti))) := by
  have g := endRow_grows db id at_ (db.revokedAccessTokens.filter (· ∉ pruned) ++ new)
    (new.map (·.jti))
  refine ⟨hb.exp, hb.oldRows g (List.length_modify ..), ?_, ?_⟩
  · intro e he
    rcases List.mem_append.1 he with he | he
    · obtain ⟨hj, hexp⟩ := hb.entry e (List.mem_filter.1 he).1
      exact ⟨List.mem_append_left _ hj, hexp⟩
    · exact ⟨List.mem_append_right _ (List.mem_map.2 ⟨e, he, rfl⟩), hnew e he⟩
  · intro j hj
    rcases List.mem_append.1 hj with hj | hj
    · rcases hb.blocked j hj with ⟨e, he, rfl⟩ | hexp
      · by_cases hep : e ∈ pruned
        · exact .inr ((hb.entry e he).2.mono (Nat.le_of_lt (hp e hep)))
        · refine .inl ⟨e, List.mem_append_left _ (List.mem_filter.2 ⟨he, ?_⟩), rfl⟩
          exact decide_eq_true hep
      · exact .inr hexp
    · obtain ⟨e, he, rfl⟩ := List.mem_map.1 hj
      exact .inl ⟨e, List.mem_append_right _ he, rfl⟩

theorem Blocks.swept (hb : Blocks env db) (sweep : Option Sweep) : Blocks env (db.swept sweep) := by
  cases sweep with
  | none => exact hb
  | some w => exact ⟨hb.exp, hb.rows, hb.entry, hb.blocked⟩

theorem Blocks.nextRow (hb : Blocks env db) (sweep : Option Sweep) (rest : List (TokenId × Jti)) :
    Blocks env (db.nextRow sweep rest).1 := by
  cases rest with
  | nil => exact hb.swept sweep
  | cons x rest => exact hb

theorem Blocks.mint (hb : Blocks env db) (u : UserId) : Blocks env (db.createAccessToken env u) := by
  have g : Grows db (db.createAccessToken env u) :=
    { Grows.refl db with access := List.prefix_append _ _ }
  refine hb.carry g (fun t ht => ?_) (hb.oldRows g rfl) rfl rfl
  rcases List.mem_append.1 ht with ht | ht
  · exact .inl ht
  · obtain rfl := List.mem_singleton.1 ht
    exact .inr (Nat.div_mul_le_self _ _)

theorem Goes.keepsBlocks (hb : Blocks env db) (hs : st.Sane db) (h : Goes env db st db' next) :
    Blocks env db' := by
  have g := h.grows
  cases h with
  | reads => exact hb
  | aside st failed resets | setsPassword token user password at_ loaded =>
    exact ⟨hb.exp, hb.rows, hb.entry, hb.blocked⟩
  | logsIn email password =>
    have hm := hb.mint email
    exact ⟨hm.exp, hm.rows, hm.entry, hm.blocked⟩
  | inserts row old =>
    refine hb.carry g (fun t ht => .inl ht) (fun r hr => ?_) rfl rfl
    rcases List.mem_append.1 hr with hr | hr
    · exact hb.rows r hr
    · exact List.mem_singleton.1 hr ▸ hs
  | links id old => exact hb.carry g (fun t ht => .inl ht) (hb.oldRows g (List.length_modify ..)) rfl rfl
  | rotates token row at_ =>
    have hr : Blocks env (db.revoke token at_) := by
      have g' : Grows db (db.revoke token at_) :=
        { Grows.refl db with rows := revoke_rows db token at_ }
      exact hb.carry g' (fun t ht => .inl ht) (hb.oldRows g' (List.length_modify ..)) rfl rfl
    have hm := hr.mint row.userId
    exact ⟨hm.exp, hm.rows, hm.entry, hm.blocked⟩
  | empty => exact hb.swept _
  | conflicts sweep => exact hb.swept sweep
  | ends sweep id jti rest at_ pruned =>
    have hnone : ∀ e ∈ ([] : List RevokedAccessToken), db.ExpiresBy e.jti e.expiresAt :=
      fun e he => absurd he List.not_mem_nil
    have he := hb.endRow id at_ hs.2.1 hnone
    rw [List.append_nil] at he
    exact he.nextRow _ rest
  | @blocks sweep id jti rest at_ pruned expiresAt h =>
    have hone : ∀ e ∈ [RevokedAccessToken.mk jti expiresAt], db.ExpiresBy e.jti e.expiresAt := by
      intro e he
      obtain rfl := List.mem_singleton.1 he
      exact hs.2.2.2 expiresAt rfl
    exact (hb.endRow id at_ hs.2.1 hone).nextRow _ rest
  | revokesAll bulk user stamp loaded ids =>
    refine hb.carry g ?_ (hb.oldRows g ?_) ?_ ?_ <;> unfold Stage.revokeAll <;> rw [revokeIds_eq]
    · exact fun t ht => .inl ht
    · exact revokeIds_length ids _

/-! ## what a request has read -/

theorem mem_unrevoked {p : RefreshToken → Bool} : id ∈ db.unrevoked p ↔
    ∃ r, db.refreshTokens[id]? = some r ∧ r.revokedAt = none ∧ p r := by
  unfold Db.unrevoked
  rw [List.mem_filter, Option.any_eq_true]
  simp only [decide_eq_true_eq]
  constructor
  · exact fun h => h.2
  · rintro ⟨r, hr, h⟩
    exact ⟨List.mem_range.2 (List.getElem?_eq_some_iff.1 hr).1, r, hr, h⟩

theorem mem_family {f : FamilyId} : (id, jti) ∈ db.family f ↔
    ∃ r, db.refreshTokens[id]? = some r ∧ r.revokedAt = none ∧ r.familyId = f
      ∧ r.accessJti = jti := by
  unfold Db.family
  rw [List.mem_filterMap]
  constructor
  · rintro ⟨k, hk, hx⟩
    obtain ⟨r, hr, hnone, hf⟩ := mem_unrevoked.1 hk
    obtain ⟨r', hr', heq⟩ := Option.map_eq_some_iff.1 hx
    obtain ⟨rfl, rfl⟩ := Prod.mk.inj heq
    obtain rfl := Option.some.inj (hr.symm.trans hr')
    exact ⟨r, hr, hnone, of_decide_eq_true hf, rfl⟩
  · rintro ⟨r, hr, hnone, hf, rfl⟩
    refine ⟨id, mem_unrevoked.2 ⟨r, hr, hnone, decide_eq_true hf⟩, ?_⟩
    show db.refreshTokens[id]?.map _ = _
    rw [hr]
    rfl

theorem Handles.endRow {sweep : Option Sweep} {rest : List (TokenId × Jti)} {new : List Jti}
    (h : Handles db sweep ((id, jti) :: rest)) (at_ : Nat) (list : List RevokedAccessToken)
    (hj : jti ∈ db.blocked ++ new) :
    Handles (db.endRow id at_ list new) (sweep.map (·.add id)) rest := by
  have hg := h.grows (endRow_grows db id at_ list new)
  refine ⟨fun x hx => hg.names x (List.mem_cons_of_mem _ hx), fun w hw k hk => ?_, fun w hw => ?_⟩
  · obtain ⟨w', hw', rfl⟩ := Option.map_eq_some_iff.1 hw
    rcases List.mem_append.1 hk with hk | hk
    · exact hg.done w' hw' k hk
    · obtain rfl := List.mem_singleton.1 hk
      obtain ⟨r, hr, rfl⟩ := h.names _ List.mem_cons_self
      exact ⟨_, revoke_self hr, Option.some_ne_none at_, hj⟩
  · obtain ⟨w', hw', rfl⟩ := Option.map_eq_some_iff.1 hw
    exact hg.family w' hw'

theorem nextRow_sane {sweep : Option Sweep} {rest : List (TokenId × Jti)}
    (h : Handles db sweep rest) :
    ∀ st' ∈ (db.nextRow sweep rest).2, st'.Sane (db.nextRow sweep rest).1 := by
  intro st' hst
  cases rest with
  | nil => cases hst
  | cons x rest =>
    cases hst
    exact ⟨h, Nat.le_refl _⟩

theorem Reads.sane (hb : Blocks env db) (hs : st.Sane db) (h : Reads env db st next) :
    ∀ st' ∈ next, st'.Sane db := by
  intro st' hst
  cases h with
  | ends st => cases hst
  | plain st h =>
    cases hst
    cases st' with
    | inserting | loadingUser | rotating | sweeping | pruning | lookingUp | blocking =>
      exact absurd h Bool.false_ne_true
    | _ => trivial
  | loads csrf h hr =>
    cases hst
    exact ⟨_, h, .refl _⟩
  | reuse csrf h hr =>
    cases hst
    exact ⟨_, _, h, rfl⟩
  | rotates token row =>
    cases hst
    exact hs
  | sweeps h =>
    cases hst
    refine ⟨⟨fun x hx => ?_, fun w hw k hk => ?_, fun w hw => ?_⟩, Nat.le_refl _⟩
    · rw [← h] at hx
      obtain ⟨r, hr, -, -, hj⟩ := mem_family.1 hx
      exact ⟨r, hr, hj⟩
    · obtain rfl := Option.some.inj hw
      exact absurd hk List.not_mem_nil
    · obtain rfl := Option.some.inj hw
      exact hs
  | logsOut csrf h =>
    cases hst
    refine ⟨⟨fun x hx => ?_, (fun w hw => nomatch hw), (fun w hw => nomatch hw)⟩, Nat.le_refl _⟩
    obtain rfl := List.mem_singleton.1 hx
    exact ⟨_, h, rfl⟩
  | prunes sweep id jti rest at_ =>
    cases hst
    refine ⟨hs.1, fun e he => ?_⟩
    exact Nat.lt_of_lt_of_le (of_decide_eq_true (List.mem_filter.1 he).2) hs.2
  | finds sweep id rest at_ pruned h =>
    cases hst
    obtain ⟨e, he, rfl⟩ := h
    exact ⟨hs.1, hs.2, fun _ => (hb.entry e he).1, fun x hx => nomatch hx⟩
  | adds sweep id jti rest at_ pruned =>
    cases hst
    refine ⟨hs.1, hs.2, (nomatch ·), fun x hx => ?_⟩
    obtain rfl := Option.some.inj hx
    obtain ⟨r, hr, rfl⟩ := hs.1.names _ List.mem_cons_self
    have hlt := hb.rows r (List.mem_of_getElem? hr)
    exact ⟨_, List.getElem?_eq_getElem hlt, hb.exp _ (List.getElem_mem hlt)⟩
  | stamps jti csrf user loaded =>
    cases hst
    trivial
  | updates bulk user stamp loaded =>
    cases hst
    trivial

theorem Goes.sane (hb : Blocks env db) (hs : st.Sane db) (h : Goes env db st db' next) :
    ∀ st' ∈ next, st'.Sane db' := by
  intro st' hst
  cases h with
  | reads h => exact h.sane hb hs st' hst
  | logsIn email password | rotates token row at_ =>
    cases hst
    show db.accessTokens.length < (db.accessTokens ++ [_]).length
    rw [List.length_append]
    exact Nat.lt_succ_self _
  | inserts row old =>
    obtain ⟨old, -, rfl⟩ := Option.map_eq_some_iff.1 hst
    trivial
  | ends sweep id jti rest at_ pruned =>
    have hj : jti ∈ db.blocked ++ [] := List.mem_append_left _ (hs.2.2.1 rfl)
    exact nextRow_sane (hs.1.endRow at_ _ hj) st' hst
  | @blocks sweep id jti rest at_ pruned expiresAt h =>
    have hj : jti ∈ db.blocked ++ [jti] := List.mem_append_right _ List.mem_cons_self
    exact nextRow_sane (hs.1.endRow at_ _ hj) st' hst
  | setsPassword token user password at_ loaded =>
    cases hst
    trivial
  | aside | links | empty | conflicts | revokesAll => cases hst

/-! ## the system -/

variable {s : Sys} {o : Op} {i j : Nat}

def Db.tick (db : Db) (micros : Nat) : Db := { db with clock := db.clock + micros }

theorem tick_grows (db : Db) (micros : Nat) : Grows db (db.tick micros) :=
  { Grows.refl db with clock := Nat.le_add_right _ _ }

theorem Blocks.tick (hb : Blocks env db) (micros : Nat) : Blocks env (db.tick micros) :=
  hb.carry (tick_grows db micros) (fun _ ht => .inl ht) (hb.oldRows (tick_grows db micros) rfl) rfl
    rfl

/-- the step of a request meets `C` in the database that it finds -/
def Op.Ok (C : Db → Stage → Prop) (s : Sys) : Op → Prop
  | .step i => ∀ st ∈ s.stage i, C s.db st
  | _ => True

instance {C : Db → Stage → Prop} [∀ db st, Decidable (C db st)] : Decidable (o.Ok C s) := by
  unfold Op.Ok
  split <;> infer_instance

/-- where a request stands after a step of one -/
theorem stage_set (s : Sys) (h : (⟨db', s.requests.set i next⟩ : Sys).stage j = some st) :
    (j = i ∧ next = some st) ∨ (j ≠ i ∧ s.stage j = some st) := by
  unfold Sys.stage at h ⊢
  rw [List.getElem?_set] at h
  split at h
  · next hij =>
    split at h
    · exact .inl ⟨hij.symm, h⟩
    · exact absurd h (Option.some_ne_none st).symm
  · next hij => exact .inr ⟨fun h => hij h.symm, h⟩

theorem request_first (r : Request) : ∀ st ∈ r.first, st.plain := by
  intro st hst
  cases r with
  | login | forgotPassword | resetPassword =>
    cases hst
    rfl
  | refresh token | logout token | logoutAll token =>
    cases token with
    | none => cases hst
    | some token =>
      cases hst
      rfl

/-- where a request stands after one has arrived -/
theorem stage_append (s : Sys) {r : Request}
    (h : (⟨db', s.requests ++ [r.first]⟩ : Sys).stage j = some st) :
    st.plain ∨ s.stage j = some st := by
  unfold Sys.stage at h ⊢
  rcases getElem?_insert (Option.join_eq_some_iff.1 h) with h | ⟨-, h⟩
  · exact .inr (Option.join_eq_some_iff.2 h)
  · exact .inl (request_first r st h.symm)

theorem exec_step (h : s.stage i = some st) : (Op.step i).exec env s =
    ⟨(st.next env s.db).1, s.requests.set i (st.next env s.db).2⟩ := by
  simp only [Op.exec, h]

theorem exec_step_none (h : s.stage i = none) : (Op.step i).exec env s = s := by
  simp only [Op.exec, h]

theorem Op.Ok.of_all {C : Db → Stage → Prop} (h : ∀ db st, C db st) (o : Op) : o.Ok C s := by
  cases o with
  | step i => exact fun st _ => h _ st
  | _ => trivial

/-- The database and the requests on it satisfy what every step keeps. -/
theorem exec_keeps {P : Db → Prop} {Q C : Db → Stage → Prop}
    (htick : ∀ db micros, P db → P (db.tick micros))
    (htickQ : ∀ db micros st, Q db st → Q (db.tick micros) st)
    (hplain : ∀ db st, st.plain → Q db st)
    (hstep : ∀ db st db' next, P db → Q db st → C db st → Goes env db st db' next →
      P db' ∧ (∀ st' ∈ next, Q db' st') ∧ ∀ st', Q db st' → Q db' st')
    (h : P s.db ∧ ∀ i st, s.stage i = some st → Q s.db st) (ho : o.Ok C s) :
    P (o.exec env s).db ∧ ∀ i st, (o.exec env s).stage i = some st → Q (o.exec env s).db st := by
  obtain ⟨hP, hQ⟩ := h
  cases o with
  | tick micros => exact ⟨htick _ _ hP, fun i st hst => htickQ _ _ _ (hQ i st hst)⟩
  | request r =>
    refine ⟨hP, fun i st hst => ?_⟩
    rcases stage_append s hst with h | h
    · exact hplain _ _ h
    · exact hQ i st h
  | step i =>
    cases hst : s.stage i with
    | none =>
      rw [exec_step_none hst]
      exact ⟨hP, hQ⟩
    | some st =>
      rw [exec_step hst]
      obtain ⟨hP', hnext, hrest⟩ := hstep _ _ _ _ hP (hQ i st hst) (ho st hst) (next_goes env s.db st)
      refine ⟨hP', fun j st' hst' => ?_⟩
      rcases stage_set s hst' with ⟨-, h⟩ | ⟨-, h⟩
      · exact hnext st' h
      · exact hrest st' (hQ j st' h)
  | crash i =>
    refine ⟨hP, fun j st hst => ?_⟩
    rcases stage_set s hst with ⟨-, h⟩ | ⟨-, h⟩
    · cases h
    · exact hQ j st h

theorem Stage.plain_sane (h : st.plain) : st.Sane db := by
  cases st with
  | inserting | loadingUser | rotating | sweeping | pruning | lookingUp | blocking =>
    exact absurd h Bool.false_ne_true
  | _ => trivial

structure Sys.Sane (env : Env) (s : Sys) : Prop where
  blocks : Blocks env s.db
  stages : ∀ i st, s.stage i = some st → st.Sane s.db

theorem start_sane (users : List User) (clock : Nat) : (start users clock).Sane env where
  blocks := by
    refine ⟨?_, ?_, ?_, ?_⟩ <;> exact fun x hx => absurd hx List.not_mem_nil
  stages i st h := nomatch h

theorem exec_sane (o : Op) (h : s.Sane env) : (o.exec env s).Sane env := by
  have hok : o.Ok (fun _ _ => True) s := .of_all (fun _ _ => trivial) o
  have hkeep := exec_keeps (P := Blocks env) (Q := fun db st => st.Sane db)
    (fun db micros hb => hb.tick micros) (fun db micros st hs => hs.grows (tick_grows db micros))
    (fun db st hp => Stage.plain_sane hp)
    (fun db st db' next hb hs _ hgo => ⟨hgo.keepsBlocks hb hs, hgo.sane hb hs,
      fun st' hs' => hs'.grows hgo.grows⟩) ⟨h.blocks, h.stages⟩ hok
  exact ⟨hkeep.1, hkeep.2⟩

/-! ## what is refused -/

theorem refreshAccepted_iff : db.refreshAccepted id = true ↔
    ∃ r, db.refreshTokens[id]? = some r ∧ r.revokedAt = none ∧ ¬ r.expiresAt < db.clock
      ∧ db.active r.userId = true := by
  unfold Db.refreshAccepted
  rw [Option.any_eq_true]
  simp only [decide_eq_true_eq]

theorem accessAccepted_iff : db.accessAccepted jti = true ↔
    ∃ t, db.accessTokens[jti]? = some t ∧ ¬ t.exp * second ≤ db.clock
      ∧ db.isAccessTokenRevoked jti = false ∧ db.active t.sub = true
      ∧ ¬ t.iat ≤ db.validAfter t.sub := by
  unfold Db.accessAccepted
  rw [Option.any_eq_true]
  simp only [decide_eq_true_eq, Bool.not_eq_true]

theorem blocked_refused (hb : Blocks env db) (h : jti ∈ db.blocked) :
    db.accessAccepted jti = false := by
  by_contra hne
  have hacc : db.accessAccepted jti = true := eq_true_of_ne_false hne
  obtain ⟨t, ht, hexp, hlist, -, -⟩ := accessAccepted_iff.1 hacc
  rcases hb.blocked jti h with ⟨e, he, rfl⟩ | ⟨t', ht', hexp'⟩
  · have hin : db.isAccessTokenRevoked e.jti = true :=
      List.any_eq_true.2 ⟨e, he, decide_eq_true rfl⟩
    exact absurd (hin.symm.trans hlist) Bool.false_ne_true.symm
  · obtain rfl := Option.some.inj (ht.symm.trans ht')
    exact hexp hexp'

/-- a refresh token that is refused stays so -/
theorem refresh_mono (g : Grows db db') (hid : id < db.refreshTokens.length)
    (h : db'.refreshAccepted id = true) : db.refreshAccepted id = true := by
  obtain ⟨r', hr', hnone, hexp, hact⟩ := refreshAccepted_iff.1 h
  obtain ⟨r, hr, hs⟩ := g.rows.old hr' hid
  rw [hs.expiresAt] at hexp
  rw [hs.userId, g.active] at hact
  refine refreshAccepted_iff.2 ⟨r, hr, ?_, fun hlt => hexp (Nat.lt_of_lt_of_le hlt g.clock), hact⟩
  by_contra hne
  exact hs.revoked hne hnone

/-- an access token that is refused stays so, while no stamp goes back -/
theorem access_mono (hb : Blocks env db) (hb' : Blocks env db') (g : Grows db db')
    (hva : ∀ u, db.validAfter u ≤ db'.validAfter u) (hj : jti < db.accessTokens.length)
    (h : db'.accessAccepted jti = true) : db.accessAccepted jti = true := by
  obtain ⟨t, ht, hexp, hlist, hact, hiat⟩ := accessAccepted_iff.1 h
  have hold := g.mint (List.getElem?_eq_getElem hj)
  obtain rfl := Option.some.inj (hold.symm.trans ht)
  rw [g.active] at hact
  refine accessAccepted_iff.2 ⟨_, List.getElem?_eq_getElem hj,
    fun hle => hexp (Nat.le_trans hle g.clock), ?_, hact,
    fun hle => hiat (Nat.le_trans hle (hva _))⟩
  by_contra hne
  obtain ⟨e, he, hej⟩ := List.any_eq_true.1 (eq_true_of_ne_false hne)
  have hej : e.jti = jti := of_decide_eq_true hej
  subst hej
  have hblocked := g.blocked.subset (hb.entry e he).1
  exact absurd (h.symm.trans (blocked_refused hb' hblocked)) Bool.false_ne_true.symm

/-- neither the refresh token nor the access token beside it is accepted -/
def Db.Over (db : Db) (id : TokenId) : Prop :=
  db.refreshAccepted id = false ∧
    ∀ r ∈ db.refreshTokens[id]?, db.accessAccepted r.accessJti = false

instance : DecidablePred db.Over := fun id => by
  unfold Db.Over
  infer_instance

theorem Db.Over.mono (hb : Blocks env db) (hb' : Blocks env db') (g : Grows db db')
    (hva : ∀ u, db.validAfter u ≤ db'.validAfter u) (hr : db.refreshTokens[id]? = some r)
    (h : db.Over id) : db'.Over id := by
  obtain ⟨hrefresh, haccess⟩ := h
  have hid : id < db.refreshTokens.length := (List.getElem?_eq_some_iff.1 hr).1
  refine ⟨eq_false_of_ne_true fun hacc => ?_, fun r' hr' => eq_false_of_ne_true fun hacc => ?_⟩
  · exact Bool.false_ne_true (hrefresh.symm.trans (refresh_mono g hid hacc))
  · obtain ⟨q, hq, hs⟩ := g.rows.old hr' hid
    rw [hs.accessJti] at hacc
    have hold := access_mono hb hb' g hva (hb.rows q (List.mem_of_getElem? hq)) hacc
    exact Bool.false_ne_true ((haccess q hq).symm.trans hold)

/-- a session that was dealt with -/
theorem over_of_done (hb : Blocks env db)
    (h : ∃ r, db.refreshTokens[id]? = some r ∧ r.revokedAt ≠ none ∧ r.accessJti ∈ db.blocked) :
    db.Over id := by
  obtain ⟨r, hr, hrev, hj⟩ := h
  refine ⟨eq_false_of_ne_true fun hacc => ?_, fun r' hr' => ?_⟩
  · obtain ⟨q, hq, hnone, -⟩ := refreshAccepted_iff.1 hacc
    obtain rfl := Option.some.inj (hr.symm.trans hq)
    exact hrev hnone
  · obtain rfl := Option.some.inj (hr.symm.trans hr')
    exact blocked_refused hb hj

theorem nextRow_same (db : Db) (sweep : Option Sweep) (rest : List (TokenId × Jti)) :
    (db.nextRow sweep rest).1.refreshTokens = db.refreshTokens ∧
      (db.nextRow sweep rest).1.rotated = db.rotated ∧
        (db.nextRow sweep rest).1.exchanged = db.exchanged := by
  cases rest with
  | nil => cases sweep <;> exact ⟨rfl, rfl, rfl⟩
  | cons x rest => exact ⟨rfl, rfl, rfl⟩

theorem Goes.newRow (h : Goes env db st db' next) :
    db'.refreshTokens.length = db.refreshTokens.length ∨ ∃ row old?, st = .inserting row old? ∧
      db'.refreshTokens = db.refreshTokens ++ [row] ∧ db'.killed = db.killed := by
  cases h with
  | inserts row old => exact .inr ⟨row, old, rfl, rfl, rfl⟩
  | conflicts sweep => cases sweep <;> exact .inl rfl
  | links id old => exact .inl (List.length_modify ..)
  | rotates token row at_ => exact .inl (List.length_modify ..)
  | ends sweep id jti rest at_ pruned | blocks sweep id rest at_ expiresAt ht =>
    rw [(nextRow_same ..).1]
    exact .inl (List.length_modify ..)
  | revokesAll bulk user stamp loaded ids =>
    unfold Stage.revokeAll
    rw [revokeIds_eq]
    exact .inl (revokeIds_length ids _)
  | _ => exact .inl rfl

/-! ## one user -/

def anyPassword : Env := { validatePassword := fun _ _ => true }

def oneUser : Sys := start [{ password := "correct horse battery", sessionsValidAfter := 0 }] second

end LifeAI.Auth
