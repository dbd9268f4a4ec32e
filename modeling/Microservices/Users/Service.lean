import Microservices.Lib.History
import Microservices.Users.ChosenPassword
import Microservices.Users.Enumeration
import Microservices.Users.Revocation
import Microservices.Users.SingleUse

/-!
# The user service

Everything a process of the service does to its table and to Redis: the requests of
both routers, and the start, where the account of `INITIAL_ADMIN_EMAIL` is promoted. A
request that fails on the way has its own faults for that, at each await.

What a request can write is said twice, once for the table and once for the keys of
Redis. The rest follows from these.
-/

namespace Microservices.Users

open Effects Schedule OpaqueTokens

/-! ## The routes that are left -/

/-- `revoke_refresh_token`. -/
def revokeRefreshToken (f : RedisFault) (token : String) : Action Unit := do
  if ← getRedis f then
    await .infrastructure f.command <| modify fun w =>
      { w with redis := w.redis.del (refreshKey token) }
  else return ()

/-- What becomes of the awaits of a request for a mail. -/
structure AskFaults where
  query : Fault := .none
  commit : Fault := .none
  mail : MailFaults := {}

/-- A row is looked up, and its background task runs once the session is committed. -/
def askForMail (f : AskFaults) (find : List User → Option User) (send : User → MailAction Unit) :
    MailAction Unit := do
  let found ← MailService.withDb f.commit do
    let found ← await .infrastructure f.query do
      let s ← get
      return find s.users
    return (found, id)
  match found with
  | none => return ()
  | some user => send user

/-- One `resend_verification`. -/
def handleResendVerification (settings : MailSettings) (f : AskFaults) (fresh email : String) :
    MailAction Unit :=
  askForMail f (fun users => resendVerification users email)
    (sendVerificationEmail settings f.mail fresh)

/-- One `forgot_password`. -/
def handleForgotPassword (settings : MailSettings) (f : AskFaults) (fresh email : String) :
    MailAction Unit :=
  askForMail f (fun users => forgotPassword users email)
    (sendPasswordResetEmail settings f.mail fresh)

/-! ## The routes of `users.py` -/

inductive ProfileRequest where
  | getMe
  | getUser (userId : UUID)
  | adminGetUser (userId : UUID)
  deriving DecidableEq, Repr

/-- `get_me`. -/
def getMe (caller : CallerHeaders) (users : List User) : RouteResult := do
  let callerId ← parseCallerId caller
  let user ← getUserOr404 callerId users
  return (.profile (.ofUser user), id)

/-- `get_user`. -/
def getUser (userId : UUID) (caller : CallerHeaders) (users : List User) : RouteResult := do
  let _ ← parseCallerId caller
  let user ← getUserOr404 userId users
  return (.profile (.ofUser user), id)

/-- `admin_get_user`. -/
def adminGetUser (userId : UUID) (caller : CallerHeaders) (users : List User) : RouteResult := do
  requireAdmin caller
  let _ ← parseCallerId caller
  let user ← getUserOr404 userId users
  return (.adminProfile (.ofUser user), id)

def profileRoute : ProfileRequest → CallerHeaders → List User → RouteResult
  | .getMe => getMe
  | .getUser userId => getUser userId
  | .adminGetUser userId => adminGetUser userId

/-- What a route checks before its query. -/
def AccountRequest.admitCaller (caller : CallerHeaders) : AccountRequest → Except HTTPException Unit
  | .updateMe _ | .deactivateMe | .hardDeleteMe => do
      let _ ← parseCallerId caller
  | .adminPromoteUser _ => do
      requireAdmin caller
      let _ ← parseCallerId caller
  | .adminDemoteUser userId => do
      requireAdmin caller
      let callerId ← parseCallerId caller
      if userId = callerId then
        throw { statusCode := 400, detail := "Admins cannot demote themselves" }
  | .adminDeleteUser userId => do
      requireAdmin caller
      let callerId ← parseCallerId caller
      if userId = callerId then
        throw { statusCode := 400
                detail := "Admins cannot delete their own account via admin endpoint" }

def ProfileRequest.admitCaller (caller : CallerHeaders) : ProfileRequest → Except HTTPException Unit
  | .getMe | .getUser _ => do
      let _ ← parseCallerId caller
  | .adminGetUser _ => do
      requireAdmin caller
      let _ ← parseCallerId caller

/-- What becomes of the awaits of one of these requests. -/
structure AccountFaults where
  query : Fault := .none
  /-- What is raised after the row is there: by the hashing, the flush, the refresh or the response. -/
  work : Fault := .none
  commit : Fault := .none

/-- An exception of FastAPI's, raised. -/
def raising {α : Type} : Except HTTPException α → MailAction α
  | .error e => throw (.http e)
  | .ok a => return a

/-- One request to a route. -/
def handleRoute (f : AccountFaults) (admitted : Except HTTPException Unit)
    (result : List User → RouteResult) : MailAction AccountResponse :=
  MailService.withDb f.commit do
    raising admitted
    await .infrastructure f.query (return ())
    let s ← get
    let answer ← raising (result s.users)
    await .infrastructure f.work (return ())
    return answer

/-! ## The start -/

/-- What becomes of the awaits of a start. -/
structure StartFaults where
  query : Fault := .none
  commit : Fault := .none
  redis : RedisFault := {}

/-- The `try` of `_bootstrap_initial_admin`. -/
def promoteInitialAdmin (f : StartFaults) (email : String) : MailAction Unit := do
  let user ← await .infrastructure f.query do
    let s ← get
    return userByEmail s.users email
  match user with
  | none => return ()
  | some user =>
      if user.isAdmin then return ()
      else await .infrastructure f.commit <| modify fun s =>
        { s with users := updateUser user.id (fun u => { u with isAdmin := true }) s.users }

/-- `_bootstrap_initial_admin`. -/
def bootstrapInitialAdmin (f : StartFaults) (initialAdminEmail : Option String) :
    MailAction Unit :=
  match initialAdminEmail with
  | none => return ()
  | some email => if email = "" then return () else orReturn (promoteInitialAdmin f email) ()

/-- `lifespan`, in a new process. -/
def startUp (f : StartFaults) (initialAdminEmail : Option String) : MailAction Unit := do
  modify fun s => { s with client := false }
  bootstrapInitialAdmin f initialAdminEmail
  let _ ← onWorker (getRedis f.redis)

/-! ## One process -/

/-- A request, its faults, and what is drawn for it: ids, tokens and salts. -/
inductive UserRequest where
  | register (f : RegisterFaults) (uid : UUID) (token salt : String) (payload : UserCreate)
  | login (f : LoginFaults) (fresh email password : String)
  /-- `refresh_token`, `verify_email` or `reset_password`. -/
  | token (f : Faults) (salt : String) (req : TokenRequest)
  | logout (f : RedisFault) (token : String)
  | resendVerification (f : AskFaults) (fresh email : String)
  | forgotPassword (f : AskFaults) (fresh email : String)
  | account (f : AccountFaults) (caller : CallerHeaders) (salt : String) (r : AccountRequest)
  | profile (f : AccountFaults) (caller : CallerHeaders) (r : ProfileRequest)

inductive UserAnswer where
  | registered (user : UserResponse)
  | tokens (response : TokenResponse)
  | account (response : AccountResponse)
  /-- 204. -/
  | noContent
  deriving DecidableEq, Repr

/-- The access token it contains. -/
def UserAnswer.accessToken : UserAnswer → Option String
  | .tokens response => some response.accessToken
  | _ => none

inductive Refusal where
  /-- 422. -/
  | unprocessable (error : FieldError)
  | failure (e : Failure)
  deriving DecidableEq, Repr

section

variable (settings : MailSettings) (classes : CharClasses) (bcrypt : Bcrypt)
  (mint : Time → User → String × Int) (dummyHash : String)

/-- The validation of the body, less emails and user names. -/
def UserRequest.validate : UserRequest → Except FieldError Unit
  | .register _ _ _ _ payload => payload.validate classes
  | .token _ _ (.verifyEmail t) => (boundedString 16 128 t).map fun _ => ()
  | .token _ _ (.resetPassword t newPassword) => do
      let _ ← boundedString 16 128 t
      (ResetPasswordRequest.newPasswordField classes newPassword).map fun _ => ()
  | .account _ _ _ (.updateMe payload) => payload.validate classes
  | _ => .ok ()

/-- A request that presents a token, in a process that sends mails. -/
def onTokens {α : Type} (h : Handler α) : MailAction α := onWorker (onServer h)

/-- The handler of a request. -/
def perform : UserRequest → MailAction UserAnswer
  | .register f uid token salt payload => do
      let user ← handleRegister settings (bcrypt.hashText salt) f uid token payload
      return .registered user
  | .login f fresh email password => do
      let s ← get
      let response ←
        onWorker (handleLogin (mint s.now) bcrypt.verifyText dummyHash f fresh email password)
      return .tokens response
  | .token f salt req => do
      let s ← get
      let response ← onTokens (handle (mint s.now) (bcrypt.hashText salt) f req)
      return (response.map UserAnswer.tokens).getD .noContent
  | .logout f token => do
      onWorker (revokeRefreshToken f token)
      return .noContent
  | .resendVerification f fresh email => do
      handleResendVerification settings f fresh email
      return .noContent
  | .forgotPassword f fresh email => do
      handleForgotPassword settings f fresh email
      return .noContent
  | .account f caller salt r => do
      let response ← handleRoute f (r.admitCaller caller) (route (bcrypt.hashText salt) r caller)
      return .account response
  | .profile f caller r => do
      let response ← handleRoute f (r.admitCaller caller) (profileRoute r caller)
      return .account response

/-- One request: what its client gets, and the service after it. -/
def serve (s : MailService) (r : UserRequest) : Except Refusal UserAnswer × MailService :=
  match r.validate classes with
  | .error e => (.error (.unprocessable e), s)
  | .ok () =>
      let result := (perform settings bcrypt mint dummyHash r).run s
      ((answer result).mapError .failure, final result)

end

/-- The service, and the access tokens that have left it. -/
structure ServiceWorld extends MailService where
  /-- Ghost. -/
  minted : List MintedToken := []

inductive ServiceEvent where
  | tick (t : Time)
  | request (r : UserRequest)
  | restart (f : StartFaults) (initialAdminEmail : Option String)

/-- The world after a request, with the access token of its answer if there is one. -/
def ServiceWorld.after (w : ServiceWorld) (served : Except Refusal UserAnswer × MailService) :
    ServiceWorld where
  toMailService := served.2
  minted := (match served.1 with
    | .ok a => a.accessToken.toList.map fun token => ⟨token, w.now, w.users⟩
    | .error _ => []) ++ w.minted

/-- A request, a start of a new process, or time that goes by. -/
def serviceStep (settings : MailSettings) (classes : CharClasses) (bcrypt : Bcrypt)
    (mint : Time → User → String × Int) (dummyHash : String) (w : ServiceWorld) :
    ServiceEvent → Option ServiceWorld
  | .tick t => if w.now ≤ t then some { w with now := t } else none
  | .request r => some (w.after (serve settings classes bcrypt mint dummyHash w.toMailService r))
  | .restart f initialAdminEmail =>
      some { w with toMailService := final ((startUp f initialAdminEmail).run w.toMailService) }

end Microservices.Users
