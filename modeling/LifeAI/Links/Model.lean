import LifeAI.Base
import LifeAI.Lib.Locks

/-!
# One-time links

`routers/auth.py`: `register`, `resend_verification`, `verify_email`, `forgot_password` and
`reset_password`, as far as they use the rows of `email_verification_tokens` and
`password_reset_tokens`.

* `Db`          the committed rows of both tables, told apart by a kind, and the users;
* `Stage`       where a request stands, one constructor for each statement or commit to come;
* `Stage.next`  that statement or commit, and the code up to the next one;
* `Op.exec`     a request that arrives, the next step of one, the death of one, or time.

A statement sees what was committed when it began (READ COMMITTED); the UPDATE that supersedes the
old links waits for the rows that it found, and looks at these again.  Secrets are ids: whoever has
an id has the link.  The mails and the audit log are left out.
-/

namespace LifeAI.Links

abbrev UserId := Nat
abbrev LinkId := Nat

inductive Kind where
  | verification | reset
  deriving DecidableEq

structure Settings where
  emailVerificationTokenExpire : Nat
  passwordResetTokenExpire : Nat
  production : Bool := false
  /-- `validate_password` raises nothing for a password of the account with an email -/
  validatePassword : String → String → Bool

def Settings.expire (settings : Settings) : Kind → Nat
  | .verification => settings.emailVerificationTokenExpire
  | .reset => settings.passwordResetTokenExpire

structure User where
  email : String
  password : String
  isActive : Bool := true
  emailVerified : Bool := false
  emailVerifiedAt : Option Time := none
  deriving DecidableEq

/-- a row of the table of its kind -/
structure Link where
  kind : Kind
  userId : UserId
  expiresAt : Time
  usedAt : Option Time := none
  deriving DecidableEq

/-- no row: a commit that changed the links of an account -/
inductive Commit where
  | issued (kind : Kind) (user : UserId) (link : LinkId)
  | used (kind : Kind) (user : UserId) (link : LinkId)
  deriving DecidableEq

/-- it is about the links of the kind and the account -/
def Commit.about (kind : Kind) (user : UserId) : Commit → Prop
  | .issued k u _ | .used k u _ => k = kind ∧ u = user

/-- the link that has been used -/
def Commit.link? : Commit → Option LinkId
  | .issued .. => none
  | .used _ _ t => some t

structure Db where
  users : List User
  links : List Link := []
  clock : Time
  /-- no table: what has been committed -/
  log : List Commit := []
  deriving DecidableEq

/-- an unused link of the kind and the account -/
def Db.unused (db : Db) (kind : Kind) (user : UserId) (t : LinkId) : Bool :=
  db.links[t]?.any fun l => l.kind = kind ∧ l.userId = user ∧ l.usedAt = none

inductive Request where
  | register (email password : String) (website : Bool)
  | resendVerification (email : String)
  | verifyEmail (token : LinkId)
  | forgotPassword (email : String)
  | resetPassword (token : LinkId) (newPassword : String)
  deriving DecidableEq

/-- Where a request stands.  `since` is no variable: the number of commits when the link was read,
or when the UPDATE began. -/
inductive Stage where
  /-- SELECT of the user by the email -/
  | registering (email password : String)
  | resending (email : String)
  | forgetting (email : String)
  /-- INSERT of the user, commit -/
  | creating (email password : String)
  /-- the UPDATE of the unused links begins -/
  | superseding (kind : Kind) (user : UserId)
  /-- it has found `rows` and takes their locks -/
  | locking (kind : Kind) (user : UserId) (usedAt : Time) (rows : List LinkId) (since : Nat)
  /-- it has set `rows`; INSERT of the new link, commit -/
  | issuing (kind : Kind) (user : UserId) (usedAt : Time) (rows : List LinkId) (since : Nat)
      (expiresAt : Time)
  /-- SELECT of the link -/
  | reading (kind : Kind) (token : LinkId) (password : String)
  /-- SELECT of its user -/
  | loading (kind : Kind) (token : LinkId) (password : String) (user : UserId) (since : Nat)
  /-- UPDATE of both, commit -/
  | taking (kind : Kind) (token : LinkId) (password : String) (user : UserId) (since : Nat)
  deriving DecidableEq

def Request.first (settings : Settings) : Request → Option Stage
  | .register email password website =>
    if settings.production ∨ website ∨ ¬ settings.validatePassword password email then none
    else some (.registering email password)
  | .resendVerification email => some (.resending email)
  | .verifyEmail token => some (.reading .verification token "")
  | .forgotPassword email => some (.forgetting email)
  | .resetPassword token newPassword => some (.reading .reset token newPassword)

namespace Stage

variable (settings : Settings) (db : Db)

/-- the check of the row that was selected -/
def check (kind : Kind) (token : LinkId) (password : String) : Option Stage :=
  match db.links[token]? with
  | none => none
  | some row =>
    if row.kind ≠ kind ∨ row.usedAt ≠ none ∨ row.expiresAt < db.clock then none
    else some (.loading kind token password row.userId db.log.length)

/-- the check of its user -/
def checkUser (kind : Kind) (token : LinkId) (password : String) (user : UserId) (since : Nat) :
    Option Stage :=
  match db.users[user]? with
  | none => none
  | some row =>
    match kind with
    | .verification => some (.taking kind token password user since)
    | .reset =>
      if ¬ row.isActive ∨ ¬ settings.validatePassword password row.email then none
      else some (.taking kind token password user since)

/-- what the use of a link does to its user -/
def act (kind : Kind) (password : String) (row : User) : User :=
  match kind with
  | .verification => { row with emailVerified := true, emailVerifiedAt := some db.clock }
  | .reset => { row with password }

def next : Stage → Db × Option Stage
  | .registering email password =>
    match db.users.findIdx? (·.email = email) with
    | none => (db, some (.creating email password))
    | some user =>
      if db.users[user]?.any (·.emailVerified) then (db, none)
      else (db, some (.superseding .verification user))
  | .resending email =>
    match db.users.findIdx? (·.email = email) with
    | none => (db, none)
    | some user =>
      if db.users[user]?.any (·.emailVerified) then (db, none)
      else (db, some (.superseding .verification user))
  | .forgetting email =>
    match db.users.findIdx? (·.email = email) with
    | none => (db, none)
    | some user =>
      if db.users[user]?.any (·.isActive) then (db, some (.superseding .reset user)) else (db, none)
  | .creating email password =>
    -- the emails are unique
    if db.users.any (·.email = email) then (db, none)
    else ({ db with users := db.users ++ [{ email, password }] },
      some (.superseding .verification db.users.length))
  | .superseding kind user =>
    (db, some (.locking kind user db.clock
      ((List.range db.links.length).filter (db.unused kind user)) db.log.length))
  | .locking kind user usedAt rows since =>
    (db, some (.issuing kind user usedAt (rows.filter (db.unused kind user)) since
      (db.clock + settings.expire kind)))
  | .issuing kind user usedAt rows _ expiresAt =>
    ({ db with
      links := (db.links.mapIdx fun t l => if t ∈ rows then { l with usedAt := some usedAt } else l)
        ++ [{ kind, userId := user, expiresAt }]
      log := db.log ++ [.issued kind user db.links.length] }, none)
  | .reading kind token password => (db, check db kind token password)
  | .loading kind token password user since =>
    (db, checkUser settings db kind token password user since)
  | .taking kind token password user _ =>
    ({ db with
      users := db.users.modify user (act db kind password)
      links := db.links.modify token fun l => { l with usedAt := some db.clock }
      log := db.log ++ [.used kind user token] }, none)

/-- the rows whose lock the open transaction holds -/
def holds : Stage → LinkId → Bool
  | .issuing _ _ _ rows _ _, t => t ∈ rows
  | _, _ => false

/-- the rows whose lock the next step needs -/
def needs : Stage → List LinkId
  | .locking _ _ _ rows _ => rows
  | .taking _ token _ _ _ => [token]
  | _ => []

end Stage

structure Sys where
  db : Db
  requests : List (Option Stage) := []
  deriving DecidableEq

inductive Op where
  | request (r : Request)
  | step (i : Nat)
  /-- the process of a request dies; its transaction is rolled back -/
  | crash (i : Nat)
  | tick (time : Time)
  deriving DecidableEq

def Sys.stage (s : Sys) (i : Nat) : Option Stage := s.requests[i]?.join

/-- a request waits for a row that another one has locked -/
def Sys.waits (s : Sys) (i : Nat) (st : Stage) : Bool :=
  st.needs.any fun t => Locks.heldByOther (fun (q : Option Stage) t => q.any (·.holds t))
    s.requests i t

def Op.exec (settings : Settings) (s : Sys) : Op → Sys
  | .request r => { s with requests := s.requests ++ [r.first settings] }
  | .step i =>
    match s.stage i with
    | none => s
    | some st =>
      if s.waits i st then s
      else
        { db := (st.next settings s.db).1, requests := s.requests.set i (st.next settings s.db).2 }
  | .crash i => { s with requests := s.requests.set i none }
  | .tick time => { s with db := { s.db with clock := s.db.clock + time } }

def start (users : List User) (clock : Time) : Sys := { db := { users, clock } }

end LifeAI.Links
