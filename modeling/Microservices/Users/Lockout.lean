import Mathlib.Tactic.Linarith
import Microservices.Http
import Microservices.Lib.Expiring
import Microservices.Lib.Schedule
import Microservices.Users.Model

/-!
# The login lockout

`login` asks Redis whether the account is locked, then spends a quarter of a
second in bcrypt, then records the failure. Any number of logins for one account
run at once, and each goes by what it read before its own check.

The world below is one account, its failure counter and the logins for it. Two
ghosts state the property: `wrongChecks` counts the wrong passwords checked so
far, and `Login.seen` is what that count was when a login's own check ran. `seen`
is taken only within the first `LOCKOUT_WINDOW_SECONDS` and before any login has
got through.

`checkpw` is the parameter for bcrypt: a password and a hash.
-/

namespace Microservices.Users

open Schedule

/-- `LOCKOUT_THRESHOLD`. -/
def lockoutThreshold : Nat := 10

/-- `LOCKOUT_WINDOW_SECONDS`, in milliseconds. -/
def lockoutWindow : Time := 900 * 1000

/-- The `login_fail:*` keys. -/
abbrev FailureStore := ExpiringStore String Nat Time

/-- `f"{_LOGIN_FAIL_PREFIX}{email}"`. -/
def loginFailKey (email : String) : String := "login_fail:" ++ email

/-- `is_account_locked`, with Redis available. -/
def isAccountLocked (redis : FailureStore) (now : Time) (email : String) : Bool :=
  match redis.get now (loginFailKey email) with
  | none => false
  | some n => decide (lockoutThreshold ≤ n)

/-- `record_login_failure`, with Redis available. -/
def recordLoginFailure (redis : FailureStore) (now : Time) (email : String) : FailureStore :=
  redis.incrExpireNx now (loginFailKey email) (now + lockoutWindow)

/-- `reset_login_failures`, with Redis available. -/
def resetLoginFailures (redis : FailureStore) (email : String) : FailureStore :=
  redis.del (loginFailKey email)

def invalidCredentials : HTTPException :=
  { statusCode := 401, detail := "Invalid email or password" }

def accountDeactivated : HTTPException := { statusCode := 403, detail := "Account deactivated" }

/-- Where a login is, at the points where it awaits Redis or bcrypt. -/
inductive LoginPhase where
  | received
  /-- The lockout has been read; the password is about to be checked. -/
  | lockRead (locked : Bool)
  /-- About to record a failure. -/
  | failing
  /-- About to reset the counter. -/
  | succeeding
  | answered (answer : Except HTTPException Unit)

/-- Step 3 of `login`, up to its next `await`. -/
def evaluate (locked : Bool) (user : Option User) (passwordOk : Bool) : LoginPhase :=
  match user with
  | none => .answered (.error invalidCredentials)
  | some u =>
      if locked then .answered (.error invalidCredentials)
      else if !passwordOk then .failing
      else if !u.isActive then .answered (.error accountDeactivated)
      else .succeeding

structure Login where
  password : String
  phase : LoginPhase := .received
  /-- How many wrong passwords had been checked when this login's was. -/
  seen : Option Nat := none

namespace Login

/-- Read the account as open and not checked yet. -/
def waiting (l : Login) : Bool :=
  match l.phase with
  | .lockRead false => true
  | _ => false

/-- Checked wrong and not recorded yet. -/
def unrecorded (l : Login) : Bool :=
  match l.phase with
  | .failing => true
  | _ => false

end Login

/-- One account and everything that happens to its lockout. -/
structure World where
  now : Time
  /-- Ghost: when the run began. -/
  start : Time
  email : String
  user : Option User
  redis : FailureStore
  logins : List Login
  /-- Ghost: wrong passwords checked so far. -/
  wrongChecks : Nat
  /-- Ghost: a login has got through. -/
  succeeded : Bool

def World.init (email : String) (user : Option User) (now : Time) : World where
  now := now
  start := now
  email := email
  user := user
  redis := ExpiringStore.empty
  logins := []
  wrongChecks := 0
  succeeded := false

inductive LoginEvent where
  | tick (t : Time)
  | arrive (password : String)
  /-- `is_account_locked` is answered. -/
  | readLock (login : Nat)
  /-- The account row is read and bcrypt finishes. -/
  | check (login : Nat)
  /-- The `INCR`/`EXPIRE` transaction runs. -/
  | record (login : Nat)
  /-- The `DEL` runs, and the login is answered. -/
  | reset (login : Nat)

namespace World

def setLogin (w : World) (i : Nat) (l : Login) : World := { w with logins := w.logins.set i l }

/-- The run is still within one window and no login has got through. -/
def Claimed (w : World) : Prop := w.succeeded = false ∧ w.now < w.start + lockoutWindow

instance (w : World) : Decidable w.Claimed := inferInstanceAs (Decidable (_ ∧ _))

/-- A login's password check: the row, bcrypt, and the evaluation. -/
def check (checkpw : String → String → Bool) (w : World) (i : Nat) (l : Login) (locked : Bool) :
    World :=
  -- without a row the dummy hash is checked, and the result does not matter
  let passwordOk := w.user.elim false fun u => checkpw l.password u.hashedPassword
  let next := { l with
    phase := evaluate locked w.user passwordOk
    seen := if w.Claimed then some w.wrongChecks else none }
  { w.setLogin i next with
    wrongChecks := if w.user.isSome ∧ passwordOk = false then w.wrongChecks + 1 else w.wrongChecks
    succeeded := match next.phase with
      | .succeeding => true
      | _ => w.succeeded }

end World

/-- One step of one login, or of the clock. -/
def step (checkpw : String → String → Bool) (w : World) : LoginEvent → Option World
  | .tick t => if w.now ≤ t then some { w with now := t } else none
  | .arrive password => some { w with logins := w.logins ++ [{ password := password }] }
  | .readLock i =>
      match w.logins[i]? with
      | some ⟨password, .received, seen⟩ =>
          some (w.setLogin i
            ⟨password, .lockRead (isAccountLocked w.redis w.now w.email), seen⟩)
      | _ => none
  | .check i =>
      match w.logins[i]? with
      | some ⟨password, .lockRead locked, seen⟩ =>
          some (w.check checkpw i ⟨password, .lockRead locked, seen⟩ locked)
      | _ => none
  | .record i =>
      match w.logins[i]? with
      | some ⟨password, .failing, seen⟩ =>
          some { w.setLogin i ⟨password, .answered (.error invalidCredentials), seen⟩ with
            redis := recordLoginFailure w.redis w.now w.email }
      | _ => none
  | .reset i =>
      match w.logins[i]? with
      | some ⟨password, .succeeding, seen⟩ =>
          some { w.setLogin i ⟨password, .answered (.ok ()), seen⟩ with
            redis := resetLoginFailures w.redis w.email }
      | _ => none

/--
**After `LOCKOUT_THRESHOLD` wrong checks every answer is 401**, whatever the
password.
-/
def LockoutHolds (w : World) : Prop :=
  ∀ l ∈ w.logins, ∀ k, l.seen = some k → lockoutThreshold ≤ k →
    ∀ a, l.phase = .answered a → a = .error invalidCredentials

/-- The recorded failures. -/
def World.recorded (w : World) : Nat := (w.redis.get w.now (loginFailKey w.email)).getD 0

/-- Logins that went past the lockout and have not recorded their outcome. -/
def World.inFlight (w : World) : Nat := w.logins.countP Login.waiting + w.logins.countP Login.unrecorded

/--
A lockout read that finds the account open finds room for one more failure beside
those already under way.
-/
def RoomForRead (w : World) : LoginEvent → Prop
  | .readLock _ => w.recorded < lockoutThreshold → w.recorded + w.inFlight < lockoutThreshold
  | _ => True

instance (w : World) : ∀ e, Decidable (RoomForRead w e)
  | .readLock _ =>
      inferInstanceAs (Decidable (w.recorded < lockoutThreshold →
        w.recorded + w.inFlight < lockoutThreshold))
  | .tick _ | .arrive _ | .check _ | .record _ | .reset _ => isTrue trivial

end Microservices.Users
