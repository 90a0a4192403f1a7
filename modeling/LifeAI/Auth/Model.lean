import LifeAI.Base

/-!
# Sessions of users

`routers/auth.py` (`login`, `refresh`, `logout`, `logout_all`, `forgot_password`,
`reset_password`), `token_revocation.py`, and the checks of `get_current_user`.

* `Db`          the tables, the access tokens minted so far, and what the properties speak about;
* `Request`     what a client sends;
* `Stage`       where a request stands, one constructor for each statement or commit to come;
* `Stage.next`  that statement or commit, and the code up to the next one;
* `Op.exec`     a request that arrives, the next step of one, the death of one, or time.

A statement sees the committed rows (READ COMMITTED), a commit is one step.  A row lock only delays
a step, which any order of steps allows for.  Secrets are ids: whoever has an id has the token.
Of the audit log there are only the failed logins.
-/

namespace LifeAI.Auth

abbrev UserId := Nat
abbrev FamilyId := Nat
abbrev TokenId := Nat
abbrev Jti := Nat
abbrev ResetId := Nat

/-- microseconds; the clock runs in these, a JWT in seconds -/
def second : Nat := 1000000

structure Env where
  accessTokenExpire : Nat := 15 * 60 * second
  refreshTokenExpire : Nat := 14 * 24 * 60 * 60 * second
  passwordResetTokenExpire : Nat := 60 * 60 * second
  failedLoginWindow : Nat := 15 * 60 * second
  failedLoginThreshold : Nat := 10
  /-- `password_policy.validate_password` raises nothing -/
  validatePassword : UserId → String → Bool

/-- The email of a user is the id. -/
structure User where
  password : String
  isActive : Bool := true
  emailVerified : Bool := true
  /-- whole seconds -/
  sessionsValidAfter : Nat
  deriving DecidableEq

/-- the claims of a JWT, whose `jti` is the position -/
structure AccessToken where
  sub : UserId
  iat : Nat
  exp : Nat
  deriving DecidableEq

structure RefreshToken where
  userId : UserId
  familyId : FamilyId
  accessJti : Jti
  csrfToken : Nat
  replacesId : Option TokenId := none
  expiresAt : Nat
  revokedAt : Option Nat := none
  deriving DecidableEq

structure RevokedAccessToken where
  jti : Jti
  expiresAt : Nat
  deriving DecidableEq

structure PasswordResetToken where
  userId : UserId
  expiresAt : Nat
  usedAt : Option Nat := none
  deriving DecidableEq

/-- a login past its checks; its position is the `family_id` -/
structure Login where
  userId : UserId
  second : Nat
  deriving DecidableEq

/-- a bulk revocation: from then on the sessions of the first `families` logins are over -/
structure Cut where
  userId : UserId
  families : Nat
  second : Nat
  deriving DecidableEq

structure Db where
  clock : Nat
  users : List User
  refreshTokens : List RefreshToken := []
  accessTokens : List AccessToken := []
  revokedAccessTokens : List RevokedAccessToken := []
  passwordResetTokens : List PasswordResetToken := []
  /-- `login_failed` in the audit log -/
  failedLogins : List (UserId × Nat) := []
  logins : List Login := []
  /-- no table, here and below: the refresh tokens that a rotation revoked -/
  rotated : List TokenId := []
  /-- those for which a new session was issued -/
  exchanged : List TokenId := []
  /-- those that a rotation, a logout or a sweep revoked -/
  ended : List TokenId := []
  /-- the families for which a request that presented a revoked token has returned -/
  killed : List FamilyId := []
  /-- every `jti` ever put on the blocklist -/
  blocked : List Jti := []
  cuts : List Cut := []

namespace Db

variable (env : Env) (db : Db)

def now : Nat := db.clock / second

def active (u : UserId) : Bool := db.users[u]?.any (·.isActive)

def validAfter (u : UserId) : Nat := db.users[u]?.elim 0 (·.sessionsValidAfter)

/-- `is_access_token_revoked` -/
def isAccessTokenRevoked (jti : Jti) : Bool := db.revokedAccessTokens.any (·.jti = jti)

/-- `refresh` would take the token, with its CSRF value -/
def refreshAccepted (id : TokenId) : Bool := db.refreshTokens[id]?.any fun row =>
  row.revokedAt = none ∧ ¬ row.expiresAt < db.clock ∧ db.active row.userId

/-- `get_current_user` would take the token -/
def accessAccepted (jti : Jti) : Bool := db.accessTokens[jti]?.any fun t =>
  ¬ t.exp * second ≤ db.clock ∧ ¬ db.isAccessTokenRevoked jti ∧ db.active t.sub
    ∧ ¬ t.iat ≤ db.validAfter t.sub

/-- `create_access_token` -/
def createAccessToken (u : UserId) : Db :=
  { db with
    accessTokens := db.accessTokens ++
      [{ sub := u, iat := db.now, exp := (db.clock + env.accessTokenExpire) / second }] }

/-- the row that `_issue_session` adds, with the access token minted just before -/
def newRow (u : UserId) (f : FamilyId) : RefreshToken :=
  { userId := u
    familyId := f
    accessJti := db.accessTokens.length
    csrfToken := db.accessTokens.length
    expiresAt := db.clock + env.refreshTokenExpire }

/-- `revoked_at` of one row -/
def revoke (id : TokenId) (at_ : Nat) : Db :=
  { db with refreshTokens := db.refreshTokens.modify id ({ · with revokedAt := some at_ }) }

/-- the ids of the unrevoked rows that satisfy `p` -/
def unrevoked (p : RefreshToken → Bool) : List TokenId :=
  (List.range db.refreshTokens.length).filter fun id =>
    db.refreshTokens[id]?.any fun row => row.revokedAt = none ∧ p row

end Db

inductive Request where
  | login (email : UserId) (password : String)
  | refresh (token : Option TokenId) (csrf : Option Nat)
  | logout (token : Option TokenId) (csrf : Option Nat)
  | logoutAll (access : Option Jti) (csrf : Option Nat)
  | forgotPassword (email : UserId)
  | resetPassword (token : ResetId) (password : String)

/-- the answer to a revoked refresh token: the family, and its rows that are dealt with -/
structure Sweep where
  family : FamilyId
  done : List TokenId := []
  deriving DecidableEq

/-- who calls `revoke_all_sessions_for_user` -/
inductive Bulk where
  | logoutAll
  | resetPassword
  deriving DecidableEq

/-- The rows in the hands of a request are ids, in a sweep or a logout with their `access_jti`. -/
inductive Stage where
  /-- `_recent_failed_logins` -/
  | counting (email : UserId) (password : String)
  | checkingPassword (email : UserId) (password : String)
  | failingLogin (email : UserId)
  /-- `_issue_session`, for a login or in exchange for `old` -/
  | inserting (row : RefreshToken) (old : Option TokenId)
  | linking (id old : TokenId)
  | refreshing (token : TokenId) (csrf : Option Nat)
  | loadingUser (token : TokenId) (row : RefreshToken)
  | rotating (token : TokenId) (row : RefreshToken) (revokedAt : Nat)
  | sweeping (family : FamilyId)
  /-- `revoke_access_token` for a row of a sweep, or of a logout -/
  | pruning (sweep : Option Sweep) (id : TokenId) (jti : Jti) (rest : List (TokenId × Jti))
      (revokedAt : Nat)
  | lookingUp (sweep : Option Sweep) (id : TokenId) (jti : Jti) (rest : List (TokenId × Jti))
      (revokedAt : Nat) (pruned : List RevokedAccessToken)
  /-- its commit, with the `expires_at` of a new entry -/
  | blocking (sweep : Option Sweep) (id : TokenId) (jti : Jti) (rest : List (TokenId × Jti))
      (revokedAt : Nat) (pruned : List RevokedAccessToken) (expiresAt : Option Nat)
  | loggingOut (token : TokenId) (csrf : Option Nat)
  /-- `get_current_user` -/
  | authenticating (jti : Jti) (csrf : Option Nat)
  | authorizing (jti : Jti) (csrf : Option Nat) (sub : UserId) (iat : Nat)
  | verifyingCsrf (jti : Jti) (csrf : Option Nat) (user : UserId) (loaded : Nat)
  /-- `revoke_all_sessions_for_user`; `loaded` is the `sessions_valid_after` that the session read -/
  | updating (bulk : Bulk) (user : UserId) (stamp loaded : Nat)
  | committing (bulk : Bulk) (user : UserId) (stamp loaded : Nat) (ids : List TokenId)
  | forgetting (email : UserId)
  | supersedingLinks (user : UserId) (usedAt : Nat)
  | sendingLink (user : UserId) (usedAt : Nat) (superseded : List ResetId) (expiresAt : Nat)
  | resetting (token : ResetId) (password : String)
  | loadingReset (token : ResetId) (user : UserId) (password : String)
  | settingPassword (token : ResetId) (user : UserId) (password : String) (usedAt loaded : Nat)

/-- what happens before the first statement -/
def Request.first : Request → Option Stage
  | .login email password => some (.counting email password)
  | .refresh none _ => none
  | .refresh (some token) csrf => some (.refreshing token csrf)
  | .logout none _ => none
  | .logout (some token) csrf => some (.loggingOut token csrf)
  | .logoutAll none _ => none
  | .logoutAll (some jti) csrf => some (.authenticating jti csrf)
  | .forgotPassword email => some (.forgetting email)
  | .resetPassword token password => some (.resetting token password)

namespace Db

/-- a sweep returns -/
def swept (db : Db) : Option Sweep → Db
  | none => db
  | some sweep => { db with killed := db.killed ++ [sweep.family] }

/-- the loop over the rows of the family -/
def nextRow (db : Db) (sweep : Option Sweep) : List (TokenId × Jti) → Db × Option Stage
  | [] => (db.swept sweep, none)
  | (id, jti) :: rest => (db, some (.pruning sweep id jti rest db.clock))

/-- a row with its `access_jti` -/
def withJti (db : Db) (id : TokenId) : Option (TokenId × Jti) :=
  db.refreshTokens[id]?.map fun row => (id, row.accessJti)

end Db

/-- another row is dealt with -/
def Sweep.add (sweep : Sweep) (id : TokenId) : Sweep := { sweep with done := sweep.done ++ [id] }

variable (env : Env) (db : Db)

namespace Stage

/-- `login` up to its commit -/
def checkPassword (email : UserId) (password : String) : Db × Option Stage :=
  match db.users[email]? with
  | none => (db, some (.failingLogin email))
  | some user =>
    if ¬ user.isActive ∨ user.password ≠ password then (db, some (.failingLogin email))
    else if ¬ user.emailVerified then (db, none)
    else
      ({ db.createAccessToken env email with
          logins := db.logins ++ [{ userId := email, second := db.now }] },
        some (.inserting (db.newRow env email db.logins.length) none))

/-- the commit that inserts the row of `_issue_session` -/
def insert (row : RefreshToken) (old : Option TokenId) : Db × Option Stage :=
  ({ db with
      refreshTokens := db.refreshTokens ++ [row]
      exchanged := db.exchanged ++ old.toList },
    old.map fun old => .linking db.refreshTokens.length old)

/-- the checks of `refresh` -/
def refresh (token : TokenId) (csrf : Option Nat) : Option Stage :=
  match db.refreshTokens[token]? with
  | none => none
  | some row =>
    if csrf ≠ some row.csrfToken then none
    else if row.revokedAt.isSome then some (.sweeping row.familyId)
    else if row.expiresAt < db.clock then none
    else some (.loadingUser token row)

/-- the commit of the rotation, and the new access token -/
def rotate (token : TokenId) (row : RefreshToken) (revokedAt : Nat) : Db × Option Stage :=
  let db' := { db.revoke token revokedAt with
    rotated := db.rotated ++ [token]
    ended := db.ended ++ [token] }
  (db'.createAccessToken env row.userId,
    some (.inserting (db'.newRow env row.userId row.familyId) (some token)))

/-- The commit of `revoke_access_token`.  A key that is there by now raises, which rolls back and
ends the request. -/
def block (sweep : Option Sweep) (id : TokenId) (jti : Jti) (rest : List (TokenId × Jti))
    (revokedAt : Nat) (pruned : List RevokedAccessToken) (expiresAt : Option Nat) :
    Db × Option Stage :=
  let kept := db.revokedAccessTokens.filter (· ∉ pruned)
  let db' := { db.revoke id revokedAt with ended := db.ended ++ [id] }
  match expiresAt with
  | none =>
    Db.nextRow { db' with revokedAccessTokens := kept } (sweep.map (·.add id)) rest
  | some expiresAt =>
    if kept.any (·.jti = jti) then (db.swept sweep, none)
    else
      let db' : Db := { db' with
        revokedAccessTokens := kept ++ [{ jti := jti, expiresAt }]
        blocked := db.blocked ++ [jti] }
      db'.nextRow (sweep.map (·.add id)) rest

/-- the checks of `logout` -/
def logout (token : TokenId) (csrf : Option Nat) : Option Stage :=
  match db.refreshTokens[token]? with
  | none => none
  | some row =>
    if csrf ≠ some row.csrfToken ∨ row.revokedAt.isSome then none
    else some (.pruning none token row.accessJti [] db.clock)

/-- `decode_access_token` and the blocklist -/
def authenticate (jti : Jti) (csrf : Option Nat) : Option Stage :=
  match db.accessTokens[jti]? with
  | none => none
  | some t =>
    if t.exp * second ≤ db.clock ∨ db.isAccessTokenRevoked jti then none
    else some (.authorizing jti csrf t.sub t.iat)

/-- the user and `sessions_valid_after` -/
def authorize (jti : Jti) (csrf : Option Nat) (sub : UserId) (iat : Nat) : Option Stage :=
  match db.users[sub]? with
  | none => none
  | some user =>
    if ¬ user.isActive ∨ iat ≤ user.sessionsValidAfter then none
    else some (.verifyingCsrf jti csrf sub user.sessionsValidAfter)

/-- the CSRF value, and the stamp of `revoke_all_sessions_for_user` -/
def verifyCsrf (jti : Jti) (csrf : Option Nat) (user : UserId) (loaded : Nat) : Option Stage :=
  match db.refreshTokens.find? (·.accessJti = jti) with
  | none => none
  | some row =>
    if csrf ≠ some row.csrfToken then none
    else some (.updating .logoutAll user db.now loaded)

/-- the commit of `revoke_all_sessions_for_user` -/
def revokeAll (bulk : Bulk) (user : UserId) (stamp loaded : Nat) (ids : List TokenId) : Db :=
  let revoked := ids.foldl (fun db id => db.revoke id (stamp * second)) db
  { revoked with
    users := db.users.modify user fun u =>
      { u with sessionsValidAfter := dirty loaded stamp u.sessionsValidAfter }
    cuts := match bulk with
      | .logoutAll => db.cuts ++ [{ userId := user, families := db.logins.length, second := db.now }]
      | .resetPassword => db.cuts }

/-- the checks of `reset_password` -/
def reset (token : ResetId) (password : String) : Option Stage :=
  match db.passwordResetTokens[token]? with
  | none => none
  | some row =>
    if row.usedAt.isSome ∨ row.expiresAt < db.clock then none
    else some (.loadingReset token row.userId password)

def loadReset (token : ResetId) (user : UserId) (password : String) : Option Stage :=
  match db.users[user]? with
  | none => none
  | some row =>
    if ¬ row.isActive ∨ ¬ env.validatePassword user password then none
    else some (.settingPassword token user password db.clock row.sessionsValidAfter)

/-- the first commit of `reset_password`, and the stamp of `revoke_all_sessions_for_user` -/
def setPassword (token : ResetId) (user : UserId) (password : String) (usedAt : Nat) : Db :=
  { db with
    passwordResetTokens := db.passwordResetTokens.modify token ({ · with usedAt := some usedAt })
    users := db.users.modify user ({ · with password := password })
    cuts := db.cuts ++ [{ userId := user, families := db.logins.length, second := db.now }] }

def next : Stage → Db × Option Stage
  | .counting email password =>
    let cutoff := db.clock - env.failedLoginWindow
    if env.failedLoginThreshold ≤ db.failedLogins.countP fun f => f.1 = email ∧ cutoff ≤ f.2 then
      (db, none)
    else (db, some (.checkingPassword email password))
  | .checkingPassword email password => checkPassword env db email password
  | .failingLogin email => ({ db with failedLogins := db.failedLogins ++ [(email, db.clock)] }, none)
  | .inserting row old => insert db row old
  | .linking id old =>
    ({ db with refreshTokens := db.refreshTokens.modify id ({ · with replacesId := some old }) },
      none)
  | .refreshing token csrf => (db, refresh db token csrf)
  | .loadingUser token row =>
    (db, if db.active row.userId then some (.rotating token row db.clock) else none)
  | .rotating token row revokedAt => rotate env db token row revokedAt
  | .sweeping family =>
    db.nextRow (some { family }) ((db.unrevoked (·.familyId = family)).filterMap db.withJti)
  | .pruning sweep id jti rest revokedAt =>
    (db, some (.lookingUp sweep id jti rest revokedAt
      (db.revokedAccessTokens.filter (·.expiresAt < revokedAt))))
  | .lookingUp sweep id jti rest revokedAt pruned =>
    (db, some (.blocking sweep id jti rest revokedAt pruned
      (if db.revokedAccessTokens.any fun e => e.jti = jti ∧ e ∉ pruned then none
        else some (db.clock + env.accessTokenExpire))))
  | .blocking sweep id jti rest revokedAt pruned expiresAt =>
    block db sweep id jti rest revokedAt pruned expiresAt
  | .loggingOut token csrf => (db, logout db token csrf)
  | .authenticating jti csrf => (db, authenticate db jti csrf)
  | .authorizing jti csrf sub iat => (db, authorize db jti csrf sub iat)
  | .verifyingCsrf jti csrf user loaded => (db, verifyCsrf db jti csrf user loaded)
  | .updating bulk user stamp loaded =>
    (db, some (.committing bulk user stamp loaded (db.unrevoked (·.userId = user))))
  | .committing bulk user stamp loaded ids => (revokeAll db bulk user stamp loaded ids, none)
  | .forgetting email => (db, if db.active email then some (.supersedingLinks email db.clock) else none)
  | .supersedingLinks user usedAt =>
    (db, some (.sendingLink user usedAt
      ((List.range db.passwordResetTokens.length).filter fun id =>
        db.passwordResetTokens[id]?.any fun row => row.userId = user ∧ row.usedAt = none)
      (db.clock + env.passwordResetTokenExpire)))
  | .sendingLink user usedAt superseded expiresAt =>
    ({ db with
        passwordResetTokens := (db.passwordResetTokens.mapIdx fun id row =>
          if id ∈ superseded then { row with usedAt := some usedAt } else row)
            ++ [{ userId := user, expiresAt }] }, none)
  | .resetting token password => (db, reset db token password)
  | .loadingReset token user password => (db, loadReset env db token user password)
  | .settingPassword token user password usedAt loaded =>
    (setPassword db token user password usedAt, some (.updating .resetPassword user db.now loaded))

end Stage

structure Sys where
  db : Db
  requests : List (Option Stage) := []

inductive Op where
  | tick (micros : Nat)
  | request (r : Request)
  | step (i : Nat)
  /-- the process dies, or the database ends the transaction -/
  | crash (i : Nat)

def Sys.stage (s : Sys) (i : Nat) : Option Stage := s.requests[i]?.join

def Op.exec (s : Sys) : Op → Sys
  | .tick micros => { s with db := { s.db with clock := s.db.clock + micros } }
  | .request r => { s with requests := s.requests ++ [r.first] }
  | .step i =>
    match s.stage i with
    | none => s
    | some st => { db := (st.next env s.db).1, requests := s.requests.set i (st.next env s.db).2 }
  | .crash i => { s with requests := s.requests.set i none }

/-- users without sessions; the stamps they start with count as revocations of nothing -/
def start (users : List User) (clock : Nat) : Sys :=
  { db :=
    { clock, users
      cuts := users.zipIdx.map fun x =>
        { userId := x.2, families := 0, second := x.1.sessionsValidAfter } } }

end LifeAI.Auth
