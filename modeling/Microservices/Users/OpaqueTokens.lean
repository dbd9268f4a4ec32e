import Microservices.Users.Login

/-!
# Opaque tokens under every interleaving

Seven routes hand out, take or revoke tokens, and any number of their requests run
at once over one Redis and one table. A request is where it last awaited; each
step of it is one Redis command, or the read of a row and what follows from it up
to the next await. The lockout counters are in the same store, under keys that end
in the client's email.

Four ghosts state the property: the strings clients have presented, the tokens
issued, what each `GETDEL` that found one yielded, and the tokens of the logouts
that have completed.
-/

namespace Microservices.Users.OpaqueTokens

inductive TokenKind where
  | refresh
  | verify
  | reset
  deriving DecidableEq, Repr

/-- Where a token of a kind is stored. -/
def TokenKind.key : TokenKind → String → String
  | .refresh => refreshKey
  | .verify => verifyKey
  | .reset => resetKey

/-- `email_verification_token_ttl_seconds` and `password_reset_token_ttl_seconds`, in
milliseconds. -/
structure TokenSettings where
  verificationTtl : Time
  resetTtl : Time

def TokenSettings.ttl (settings : TokenSettings) : TokenKind → Time
  | .refresh => refreshTokenTtl
  | .verify => settings.verificationTtl
  | .reset => settings.resetTtl

/-- A request, after validation. -/
inductive TokenCall where
  | login (email password : String)
  | refresh (token : String)
  | logout (token : String)
  | verifyEmail (token : String)
  | resetPassword (token newPassword : String)
  | resendVerification (email : String)
  | forgotPassword (email : String)
  deriving DecidableEq, Repr

/-- The token a request presents. -/
def TokenCall.presented : TokenCall → Option String
  | .refresh token | .logout token | .verifyEmail token | .resetPassword token _ => some token
  | .login _ _ | .resendVerification _ | .forgotPassword _ => none

inductive CallPhase where
  | received
  /-- `login` has read the lockout. -/
  | lockRead (locked : Bool)
  /-- `login` is about to record a failure. -/
  | failing
  /-- `login` is about to reset the counter. -/
  | succeeding (user : UUID)
  /-- The `GETDEL` has yielded this. -/
  | consumed (userId : String)
  /-- About to store a token; a mail's request has been answered by then. -/
  | storing (kind : TokenKind) (user : UUID)
  | answered (answer : Except HTTPException Unit)
  /-- `uuid.UUID` has raised outside any `try`. -/
  | raised

/-- Whose row the rest of the call is about. -/
def CallPhase.actsOn : CallPhase → Option UUID
  | .consumed userId => UUID.ofText? userId
  | .succeeding user | .storing _ user => some user
  | .received | .lockRead _ | .failing | .answered _ | .raised => none

structure Call where
  request : TokenCall
  phase : CallPhase := .received
  /-- Ghost: when it came, a logout of the token it presents had completed. -/
  afterLogout : Bool := false

/-- A token that has been stored. -/
structure Issue where
  kind : TokenKind
  token : String
  user : UUID
  deriving DecidableEq, Repr

/-- A `GETDEL` that found a token: by which endpoint, and what it yielded. -/
structure Consumption where
  endpoint : TokenKind
  token : String
  userId : String
  deriving DecidableEq, Repr

structure World where
  now : Time
  redis : ExpiringStore String String Time
  users : List User
  calls : List Call := []
  /-- Ghost. -/
  presented : List String := []
  /-- Ghost. -/
  issued : List Issue := []
  /-- Ghost. -/
  consumed : List Consumption := []
  /-- Ghost. -/
  loggedOut : List String := []

inductive TokenEvent where
  | tick (t : Time)
  /-- Another request has changed the table. -/
  | write (users : List User)
  | arrive (request : TokenCall)
  /-- The call's next step; `fresh` is the token it draws if it stores one. -/
  | advance (call : Nat) (fresh : String)

namespace World

def setCall (w : World) (i : Nat) (c : Call) : World := { w with calls := w.calls.set i c }

/-- A drawn token is a string that nobody has seen: not presented, issued or stored before. -/
def Fresh (w : World) (token : String) : Prop :=
  token ∉ w.presented ∧ (∀ e ∈ w.issued, e.token ≠ token)
    ∧ ∀ kind ∈ [TokenKind.refresh, .verify, .reset], w.redis (kind.key token) = none

instance (w : World) (token : String) : Decidable (w.Fresh token) :=
  inferInstanceAs (Decidable (_ ∧ _ ∧ _))

/-- `GETDEL`, and the handler's test of what it yields. -/
def consume (w : World) (i : Nat) (c : Call) (kind : TokenKind) (token : String)
    (error : HTTPException) : World :=
  let redis := w.redis.del (kind.key token)
  match w.redis.get w.now (kind.key token) with
  | none => { w.setCall i { c with phase := .answered (.error error) } with redis }
  | some userId =>
      if userId = "" then { w.setCall i { c with phase := .answered (.error error) } with redis }
      else
        { w.setCall i { c with phase := .consumed userId } with
          redis
          consumed := ⟨kind, token, userId⟩ :: w.consumed }

/-- `SETEX` of a fresh token. -/
def store (settings : TokenSettings) (w : World) (i : Nat) (c : Call) (kind : TokenKind)
    (user : UUID) (fresh : String) : World :=
  { w.setCall i { c with phase := .answered (.ok ()) } with
    redis := w.redis.put (kind.key fresh) user.text (some (w.now + settings.ttl kind))
    issued := ⟨kind, fresh, user⟩ :: w.issued }

end World

def invalidRefreshToken : HTTPException :=
  { statusCode := 401, detail := "Refresh token is invalid, expired, or already used" }

def invalidVerificationToken : HTTPException :=
  { statusCode := 400, detail := "Verification token is invalid, expired, or already used" }

def invalidResetToken : HTTPException :=
  { statusCode := 400, detail := "Reset token is invalid, expired, or already used" }

/-- What a request takes from Redis: the kind and the token, and the error if it is not there. -/
def TokenCall.takes : TokenCall → Option (TokenKind × String × HTTPException)
  | .refresh token => some (.refresh, token, invalidRefreshToken)
  | .verifyEmail token => some (.verify, token, invalidVerificationToken)
  | .resetPassword token _ => some (.reset, token, invalidResetToken)
  | .login _ _ | .logout _ | .resendVerification _ | .forgotPassword _ => none

/-- `login`, from its lockout read to its next await. -/
def afterCheck (checkpw : String → String → Bool) (users : List User) (email password : String)
    (locked : Bool) : CallPhase :=
  match userByEmail users email with
  | none => .answered (.error invalidCredentials)
  | some user =>
      if locked then .answered (.error invalidCredentials)
      else if !checkpw password user.hashedPassword then .failing
      else if !user.isActive then .answered (.error accountDeactivated)
      else .succeeding user.id

/-- `refresh_token`, from its `GETDEL` to its next await. -/
def afterRefresh (users : List User) (userId : String) : CallPhase :=
  match UUID.ofText? userId with
  | none => .raised
  | some uid =>
      match users.find? fun u => u.id = uid with
      | none => .answered (.error accountUnavailable)
      | some user =>
          if user.isActive then .storing .refresh user.id
          else .answered (.error accountUnavailable)

/-- The row a verification or reset token stands for. -/
def owner (users : List User) (userId : String) : Option User :=
  (UUID.ofText? userId).bind fun uid => users.find? fun u => u.id = uid

/-- `verify_email` and `reset_password`, from their `GETDEL` on: the answer, and the row that
changes. -/
def afterConsume (users : List User) (userId : String) (change : User → User) :
    CallPhase × List User :=
  match owner users userId with
  | none => (.answered (.error invalidToken), users)
  | some user => (.answered (.ok ()), updateUser user.id change users)

/-- The next step of a call. -/
def advance (checkpw : String → String → Bool) (hashpw : String → String)
    (settings : TokenSettings) (w : World) (i : Nat) (c : Call) (fresh : String) : Option World :=
  match c.phase with
  | .received =>
      match c.request with
      | .login email _ =>
          some (w.setCall i
            { c with phase := .lockRead (isAccountLocked w.redis.counts w.now email) })
      | .refresh token => some (w.consume i c .refresh token invalidRefreshToken)
      | .verifyEmail token => some (w.consume i c .verify token invalidVerificationToken)
      | .resetPassword token _ => some (w.consume i c .reset token invalidResetToken)
      | .logout token =>
          some { w.setCall i { c with phase := .answered (.ok ()) } with
            redis := w.redis.del (refreshKey token)
            loggedOut := token :: w.loggedOut }
      | .resendVerification email =>
          some (w.setCall i { c with
            phase := match userByEmail w.users email with
              | some user =>
                  if !user.emailVerified then .storing .verify user.id else .answered (.ok ())
              | none => .answered (.ok ()) })
      | .forgotPassword email =>
          some (w.setCall i { c with
            phase := match userByEmail w.users email with
              | some user =>
                  if user.isActive then .storing .reset user.id else .answered (.ok ())
              | none => .answered (.ok ()) })
  | .lockRead locked =>
      match c.request with
      | .login email password =>
          some (w.setCall i { c with phase := afterCheck checkpw w.users email password locked })
      | _ => none
  | .failing =>
      match c.request with
      | .login email _ =>
          some { w.setCall i { c with phase := .answered (.error invalidCredentials) } with
            redis := (w.redis.incrExpireNxText w.now (loginFailKey email)
              (w.now + lockoutWindow)).2 }
      | _ => none
  | .succeeding user =>
      match c.request with
      | .login email _ =>
          some { w.setCall i { c with phase := .storing .refresh user } with
            redis := w.redis.del (loginFailKey email) }
      | _ => none
  | .consumed userId =>
      match c.request with
      | .refresh _ => some (w.setCall i { c with phase := afterRefresh w.users userId })
      | .verifyEmail _ =>
          let (phase, users) := afterConsume w.users userId fun u =>
            if u.emailVerified then u
            else { u with emailVerified := true, emailVerifiedAt := some w.now }
          some { w.setCall i { c with phase } with users }
      | .resetPassword _ newPassword =>
          let (phase, users) := afterConsume w.users userId fun u =>
            { u with hashedPassword := hashpw newPassword }
          some { w.setCall i { c with phase } with users }
      | _ => none
  | .storing kind user =>
      if w.Fresh fresh then some (w.store settings i c kind user fresh) else none
  | .answered _ | .raised => none

/-- One step of one call, of the clock, or of the table. -/
def step (checkpw : String → String → Bool) (hashpw : String → String) (settings : TokenSettings)
    (w : World) : TokenEvent → Option World
  | .tick t => if w.now ≤ t then some { w with now := t } else none
  | .write users => some { w with users }
  | .arrive request =>
      some { w with
        presented := request.presented.toList ++ w.presented
        calls := w.calls ++ [{
          request
          afterLogout := decide (∃ token ∈ request.presented, token ∈ w.loggedOut) }] }
  | .advance i fresh =>
      match w.calls[i]? with
      | none => none
      | some c => advance checkpw hashpw settings w i c fresh

/-- Redis and the table as the run finds them. -/
def World.init (now : Time) (redis : ExpiringStore String String Time) (users : List User) : World
    where
  now := now
  redis := redis
  users := users

/--
**Tokens are used once, for what and whom they were issued.**

Of each issued token: at most one `GETDEL` has found it, at the endpoint of its
kind, and it yielded its user, on whose row the request goes on to act. And a
refresh that came after a logout of its token had completed does not succeed.
-/
structure SingleUse (w : World) : Prop where
  once : ∀ e ∈ w.issued, (w.consumed.countP fun c => c.token = e.token) ≤ 1
  rightly : ∀ e ∈ w.issued, ∀ c ∈ w.consumed, c.token = e.token →
    c.endpoint = e.kind ∧ UUID.ofText? c.userId = some e.user
  actsRightly : ∀ e ∈ w.issued, ∀ c ∈ w.calls, ∀ kind error,
    c.request.takes = some (kind, e.token, error) →
      ∀ user, c.phase.actsOn = some user → user = e.user
  revoked : ∀ c ∈ w.calls, ∀ token, c.request = .refresh token → c.afterLogout = true →
    ∀ answer, c.phase = .answered answer → answer = .error invalidRefreshToken

end Microservices.Users.OpaqueTokens
