import Microservices.Http
import Microservices.Lib.Effects
import Microservices.Lib.Expiring
import Microservices.Users.Model

/-!
# Opaque tokens

Refresh, email-verification and password-reset tokens are random strings stored in
Redis under a prefix, with the user's id as the value. The three handlers that
take one begin by `GETDEL`; everything that can fail comes after it.

A handler runs against the `Server`: Redis, and the committed `users` table. The
session of `get_db` is what `withDb` adds, a flush of the changed rows and a
commit after the handler's body, and nothing if the body raised.
-/

namespace Microservices.Users

open Effects

structure Server where
  now : Time
  redis : ExpiringStore String String Time
  users : List User

/-- Which awaits of one request fail. -/
structure Faults where
  /-- `get_redis` finds no server and returns `None`. -/
  redisDown : Bool := false
  getdel : Fault := .none
  query : Fault := .none
  hash : Fault := .none
  setex : Fault := .none
  commit : Fault := .none

/-- How a handler ends when it does not return. -/
inductive Failure where
  | http (error : HTTPException)
  /-- `uuid.UUID` raises outside any `try`. -/
  | valueError
  /-- The exception of an await. -/
  | infrastructure
  deriving DecidableEq, Repr

abbrev Handler := EStateM Failure Server

structure UserResponse where
  id : UUID
  email : String
  username : String
  fullName : Option String
  isActive : Bool
  lastLoginAt : Option Time
  deriving DecidableEq, Repr

/-- `UserResponse.model_validate(user)`. -/
def UserResponse.ofUser (u : User) : UserResponse :=
  ⟨u.id, u.email, u.username, u.fullName, u.isActive, u.lastLoginAt⟩

structure TokenResponse where
  accessToken : String
  tokenType : String := "bearer"
  expiresIn : Int
  user : UserResponse
  refreshToken : Option String
  deriving DecidableEq, Repr

/-! ## Redis -/

/-- `REFRESH_TOKEN_TTL`, in milliseconds. -/
def refreshTokenTtl : Time := 60 * 60 * 24 * 30 * 1000

def refreshKey (token : String) : String := "refresh:" ++ token

def verifyKey (token : String) : String := "verify:" ++ token

def resetKey (token : String) : String := "reset:" ++ token

/-- `GETDEL`, under the connection and the command's fault. -/
def consumeToken (f : Faults) (key : String) : Handler (Option String) :=
  if f.redisDown then pure none
  else await .infrastructure f.getdel do
    let s ← get
    set { s with redis := s.redis.del key }
    return s.redis.get s.now key

/-- `consume_refresh_token`. -/
def consumeRefreshToken (f : Faults) (token : String) : Handler (Option String) :=
  consumeToken f (refreshKey token)

/-- `consume_email_verification_token`. -/
def consumeEmailVerificationToken (f : Faults) (token : String) : Handler (Option String) :=
  consumeToken f (verifyKey token)

/-- `consume_password_reset_token`. -/
def consumePasswordResetToken (f : Faults) (token : String) : Handler (Option String) :=
  consumeToken f (resetKey token)

/-- `store_refresh_token`. -/
def storeRefreshToken (f : Faults) (token userId : String) : Handler Bool :=
  if f.redisDown then pure false
  else do
    await .infrastructure f.setex <| modify fun s =>
      { s with redis := s.redis.put (refreshKey token) userId (some (s.now + refreshTokenTtl)) }
    return true

/-! ## The database session -/

/-- `select(User).where(User.id == uid)`. -/
def selectUser (f : Faults) (uid : UUID) : Handler (Option User) :=
  await .infrastructure f.query do
    let s ← get
    return s.users.find? fun u => u.id = uid

/-- What the commit writes for a changed row. -/
def updateUser (uid : UUID) (change : User → User) (users : List User) : List User :=
  users.map fun u => if u.id = uid then change u else u

/-- What a session will write to the table. -/
abbrev Flush := List User → List User

/-- `get_db` around a handler. -/
def withDb {α : Type} (f : Faults) (body : Handler (α × Flush)) : Handler α := do
  let (a, flush) ← body
  await .infrastructure f.commit (modify fun s => { s with users := flush s.users })
  return a

/-! ## The handlers -/

/-- A token that is missing, expired or empty. -/
def presented (userId : Option String) (error : HTTPException) : Handler String :=
  match userId with
  | none => throw (.http error)
  | some userId => if userId = "" then throw (.http error) else pure userId

def accountUnavailable : HTTPException :=
  { statusCode := 401, detail := "User account is unavailable" }

section

variable (mint : User → String × Int) (hashpw : String → String)

/-- `_issue_token_response`; `fresh` is the `uuid4` it draws, `mint` the signed JWT. -/
def issueTokenResponse (f : Faults) (fresh : String) (user : User) : Handler TokenResponse := do
  let (accessToken, expiresIn) := mint user
  let stored ← storeRefreshToken f fresh user.id.text
  return { accessToken, expiresIn, user := .ofUser user,
           refreshToken := if stored then some fresh else none }

/-- `refresh_token`. -/
def refreshToken (f : Faults) (fresh token : String) : Handler (TokenResponse × Flush) := do
  let found ← consumeRefreshToken f token
  let userId ← presented found
    { statusCode := 401, detail := "Refresh token is invalid, expired, or already used" }
  match UUID.ofText? userId with
  | none => throw .valueError
  | some uid =>
      match ← selectUser f uid with
      | none => throw (.http accountUnavailable)
      | some user =>
          if user.isActive then
            let response ← issueTokenResponse mint f fresh user
            return (response, id)
          else throw (.http accountUnavailable)

def invalidToken : HTTPException := { statusCode := 400, detail := "Invalid token" }

/-- The row a verification or reset token stands for. -/
def tokenOwner (f : Faults) (userId : String) : Handler User :=
  match UUID.ofText? userId with
  | none => throw (.http invalidToken)
  | some uid => do
      match ← selectUser f uid with
      | none => throw (.http invalidToken)
      | some user => return user

/-- `verify_email`. -/
def verifyEmail (f : Faults) (token : String) : Handler Flush := do
  let found ← consumeEmailVerificationToken f token
  let userId ← presented found
    { statusCode := 400, detail := "Verification token is invalid, expired, or already used" }
  let user ← tokenOwner f userId
  let s ← get
  return if user.emailVerified then id
    else updateUser user.id fun u =>
      { u with emailVerified := true, emailVerifiedAt := some s.now }

/-- `_hash_password`, on a worker thread. -/
def hashPassword (f : Faults) (plain : String) : Handler String :=
  await .infrastructure f.hash (pure (hashpw plain))

/-- `reset_password`. -/
def resetPassword (f : Faults) (token newPassword : String) : Handler Flush := do
  let found ← consumePasswordResetToken f token
  let userId ← presented found
    { statusCode := 400, detail := "Reset token is invalid, expired, or already used" }
  let user ← tokenOwner f userId
  let hashed ← hashPassword hashpw f newPassword
  return updateUser user.id fun u => { u with hashedPassword := hashed }

/-- A request that presents a token, after validation. -/
inductive TokenRequest where
  /-- `fresh` is the replacement that will be drawn. -/
  | refresh (token fresh : String)
  | verifyEmail (token : String)
  | resetPassword (token newPassword : String)

/-- Where the presented token is stored. -/
def TokenRequest.key : TokenRequest → String
  | .refresh token _ => refreshKey token
  | .verifyEmail token => verifyKey token
  | .resetPassword token _ => resetKey token

/-- The handler of a request, and what it returns: only a refresh has something to return. -/
def body (f : Faults) : TokenRequest → Handler (Option TokenResponse × Flush)
  | .refresh token fresh => do
      let (response, flush) ← refreshToken mint f fresh token
      return (some response, flush)
  | .verifyEmail token => do
      let flush ← verifyEmail f token
      return (none, flush)
  | .resetPassword token newPassword => do
      let flush ← resetPassword hashpw f token newPassword
      return (none, flush)

/-- One request. -/
def handle (f : Faults) (req : TokenRequest) : Handler (Option TokenResponse) :=
  withDb f (body mint hashpw f req)

end

end Microservices.Users
