import Microservices.Lib.Counting
import Microservices.Users.Lockout
import Microservices.Users.Tokens

/-!
# Logging in

`login` calls on Redis in up to three places: it reads the lockout, it records the
failure or clears the counter, and it stores the refresh token. Each call goes
through `get_redis`, which connects when no client is cached; once one is, a call
can only fail by its command.

The database answers here.
-/

namespace Microservices.Users

open Effects

/-- A process of the service, with its client for Redis. -/
structure Worker extends Server where
  /-- `_client is not None`. -/
  client : Bool

abbrev Action := EStateM Failure Worker

/-- What becomes of one call on Redis. -/
structure RedisFault where
  /-- The `ping` of a new connection raises. -/
  refused : Bool := false
  command : Fault := .none

/-- What becomes of the calls of one login. -/
structure LoginFaults where
  readLock : RedisFault := {}
  record : RedisFault := {}
  reset : RedisFault := {}
  store : RedisFault := {}

/-- A handler of the server, run in a process. -/
def onServer {α : Type} (h : Handler α) : Action α :=
  onPart Worker.toServer (fun s w => { w with toServer := s }) h

/-- `get_redis`, as whether there is a client. -/
def getRedis (f : RedisFault) : Action Bool := do
  let w ← get
  if w.client then return true
  else if f.refused then return false
  else do
    set { w with client := true }
    return true

/-! ## The lockout -/

namespace Worker

/-- What `is_account_locked` makes of the count it reads. -/
def lockedBy : Option String → Action Bool
  | none => return false
  | some raw =>
      match Decimal.int? raw with
      | none => throw .valueError
      | some n => return decide ((lockoutThreshold : Int) ≤ n)

/-- `is_account_locked`. -/
def isAccountLocked (f : RedisFault) (email : String) : Action Bool := do
  if ← getRedis f then
    orReturn (do
      let raw ← await .infrastructure f.command do
        let w ← get
        return w.redis.get w.now (loginFailKey email)
      lockedBy raw) false
  else return false

/-- `record_login_failure`. -/
def recordLoginFailure (f : RedisFault) (email : String) : Action Int := do
  if ← getRedis f then
    orReturn (do
      let count ← await .infrastructure f.command do
        let w ← get
        let (count, redis) :=
          w.redis.incrExpireNxText w.now (loginFailKey email) (w.now + lockoutWindow)
        set { w with redis }
        return count
      match count with
      | none => throw .infrastructure
      | some count => return count) 0
  else return 0

/-- `reset_login_failures`. -/
def resetLoginFailures (f : RedisFault) (email : String) : Action Unit := do
  if ← getRedis f then
    orReturn (await .infrastructure f.command <| modify fun w =>
      { w with redis := w.redis.del (loginFailKey email) }) ()
  else return ()

/-- `get_db` around a handler. -/
def withDb {α : Type} (body : Action (α × Flush)) : Action α := do
  let (a, flush) ← body
  modify fun w => { w with users := flush w.users }
  return a

end Worker

/-! ## The handler -/

/-- `select(User).where(User.email == email)`. -/
def userByEmail (users : List User) (email : String) : Option User :=
  users.find? fun u => u.email = email

/-- The 401 of step 3: the failure is recorded for an account that exists and is not locked. -/
def turnAway {α : Type} (f : LoginFaults) (email : String) (user : Option User)
    (accountIsLocked : Bool) : Action α :=
  if user.isSome && !accountIsLocked then do
    let _ ← Worker.recordLoginFailure f.record email
    throw (.http invalidCredentials)
  else throw (.http invalidCredentials)

section

variable (mint : User → String × Int) (checkpw : String → String → Bool) (dummyHash : String)

/-- Step 4, for an account whose password was right; `fresh` is the `uuid4` it draws. -/
def completeLogin (f : LoginFaults) (fresh email : String) (user : User) :
    Action (TokenResponse × Flush) := do
  let w ← get
  let touch := fun u : User => { u with lastLoginAt := some w.now }
  Worker.resetLoginFailures f.reset email
  let client ← getRedis f.store
  let response ← onServer <|
    issueTokenResponse mint { redisDown := !client, setex := f.store.command } fresh (touch user)
  return (response, updateUser user.id touch)

/-- `login`, once the lockout has been read. -/
def evaluateLogin (f : LoginFaults) (fresh email password : String) (accountIsLocked : Bool) :
    Action (TokenResponse × Flush) := do
  let w ← get
  let user := userByEmail w.users email
  let candidateHash := (user.map User.hashedPassword).getD dummyHash
  let passwordOk := checkpw password candidateHash
  match user with
  | none => turnAway f email none accountIsLocked
  | some user =>
      if accountIsLocked || !passwordOk then turnAway f email (some user) accountIsLocked
      else if !user.isActive then throw (.http accountDeactivated)
      else completeLogin mint f fresh email user

/-- `login`. -/
def login (f : LoginFaults) (fresh email password : String) : Action (TokenResponse × Flush) := do
  let accountIsLocked ← Worker.isAccountLocked f.readLock email
  evaluateLogin mint checkpw dummyHash f fresh email password accountIsLocked

/-- One login. -/
def handleLogin (f : LoginFaults) (fresh email password : String) : Action TokenResponse :=
  Worker.withDb (login mint checkpw dummyHash f fresh email password)

end

end Microservices.Users
