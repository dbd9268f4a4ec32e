import Microservices.Users.LockoutBound
import Microservices.Users.LockoutWindow

/-!
# Login without Redis

The reads and writes of the lockout catch what their commands raise. The store of
the refresh token does not: if its command raises, so does the login, and the
client gets a 500 for the right password.

Where the server answers, a login that runs alone is a run of the machine of the
lockout (`login_as_machine`).
-/

namespace Microservices.Users

open Effects

variable {f : RedisFault} {w : Worker}

/-! ## The calls on Redis -/

/-- After a call there is a client if there was one or the connection was not refused. -/
def Worker.connect (w : Worker) (f : RedisFault) : Worker :=
  { w with client := w.client || !f.refused }

@[simp] theorem Worker.connect_client (w : Worker) (f : RedisFault) :
    (w.connect f).client = (w.client || !f.refused) := rfl

theorem getRedis_run (f : RedisFault) (w : Worker) :
    (getRedis f).run w = .ok (w.connect f).client (w.connect f) := by
  unfold getRedis Worker.connect
  obtain ⟨s, client⟩ := w
  cases client with
  | true => rfl
  | false => cases hf : f.refused <;> rfl

/-- The lockout as the login can read it: an account whose state it cannot read is not locked. -/
def Worker.lockRead (w : Worker) (f : RedisFault) (email : String) : Bool :=
  (w.connect f).client && decide (f.command = .none)
    && Users.isAccountLocked w.redis.counts w.now email

theorem isAccountLocked_run (f : RedisFault) (email : String) (w : Worker) :
    (Worker.isAccountLocked f email).run w = .ok (w.lockRead f email) (w.connect f) := by
  unfold Worker.isAccountLocked
  rw [run_bind_ok (getRedis_run f w)]
  unfold Worker.lockRead
  cases hc : (w.connect f).client with
  | false => rfl
  | true =>
      rw [if_pos rfl]
      cases hf : f.command with
      | before => exact run_orReturn_error rfl _
      | after => exact run_orReturn_error rfl _
      | none =>
          rw [Users.isAccountLocked, ExpiringStore.get_counts]
          have hread : ∀ raw, w.redis.get w.now (loginFailKey email) = raw →
              (await .infrastructure Fault.none (do
                let w ← get
                return w.redis.get w.now (loginFailKey email)) >>= Worker.lockedBy).run
                  (w.connect f)
                = (Worker.lockedBy raw).run (w.connect f) := by
            rintro _ rfl
            rfl
          cases hr : w.redis.get w.now (loginFailKey email) with
          | none => exact run_orReturn_ok (hread _ hr) _
          | some raw =>
              cases hn : Decimal.int? raw with
              | none =>
                  have hraise : (Worker.lockedBy (some raw)).run (w.connect f)
                      = .error .valueError (w.connect f) := by
                    rw [Worker.lockedBy, hn]
                    rfl
                  rw [Option.bind_some, hn]
                  exact run_orReturn_error ((hread _ hr).trans hraise) _
              | some n =>
                  have hdecide : (Worker.lockedBy (some raw)).run (w.connect f)
                      = .ok (decide ((lockoutThreshold : Int) ≤ n)) (w.connect f) := by
                    rw [Worker.lockedBy, hn]
                    rfl
                  rw [Option.bind_some, hn]
                  have hsame : decide ((lockoutThreshold : Int) ≤ n)
                      = decide (lockoutThreshold ≤ n.toNat) := by
                    unfold lockoutThreshold
                    exact decide_eq_decide.mpr (by omega)
                  rw [hsame] at hdecide
                  exact run_orReturn_ok ((hread _ hr).trans hdecide) _

/-- What the record raises is caught. -/
theorem recordLoginFailure_returns (f : RedisFault) (email : String) (w : Worker) :
    ∃ n w', (Worker.recordLoginFailure f email).run w = .ok n w' := by
  unfold Worker.recordLoginFailure
  rw [run_bind_ok (getRedis_run f w)]
  cases (w.connect f).client with
  | false => exact ⟨0, _, rfl⟩
  | true =>
      rw [if_pos rfl]
      obtain ⟨n, hn⟩ := orReturn_returns _ _ _
      exact ⟨n, _, hn⟩

/-- So is what the reset raises, and it leaves the clock and the table alone. -/
theorem resetLoginFailures_returns (f : RedisFault) (email : String) (w : Worker) :
    ∃ w', (Worker.resetLoginFailures f email).run w = .ok () w'
      ∧ w'.client = (w.connect f).client := by
  unfold Worker.resetLoginFailures
  rw [run_bind_ok (getRedis_run f w)]
  cases hc : (w.connect f).client with
  | false => exact ⟨_, rfl, hc⟩
  | true =>
      rw [if_pos rfl]
      obtain ⟨_, hn⟩ := orReturn_returns _ _ _
      refine ⟨_, hn, ?_⟩
      cases hf : f.command with
      | none => exact hc
      | before => exact hc
      | after => exact hc

/-! ## The lockout on a server that answers -/

/-- Without failures the text in Redis goes as `record_login_failure` does on counts. -/
theorem recordLoginFailure_counts (email : String) (w : Worker)
    (h : w.redis.CountAt (loginFailKey email)) :
    ∃ n w', (Worker.recordLoginFailure {} email).run w = .ok n w'
      ∧ w'.redis.counts = Users.recordLoginFailure w.redis.counts w.now email := by
  obtain ⟨n, hn⟩ := ExpiringStore.incrExpireNxText_count h w.now (w.now + lockoutWindow)
  have hc : (w.connect {}).client = true := by simp
  unfold Worker.recordLoginFailure
  rw [run_bind_ok (getRedis_run {} w), hc, if_pos rfl]
  refine ⟨n, { w.connect {} with redis := (w.redis.incrExpireNxText w.now (loginFailKey email)
    (w.now + lockoutWindow)).2 }, run_orReturn_ok ?_ 0, ?_⟩
  · refine (run_bind_ok (a := some n) ?_ _).trans rfl
    rw [← hn]
    rfl
  · exact ExpiringStore.counts_incrExpireNxText h w.now (w.now + lockoutWindow)

theorem resetLoginFailures_counts (email : String) (w : Worker) :
    ∃ w', (Worker.resetLoginFailures {} email).run w = .ok () w'
      ∧ w'.redis.counts = Users.resetLoginFailures w.redis.counts email := by
  have hc : (w.connect {}).client = true := by simp
  unfold Worker.resetLoginFailures
  rw [run_bind_ok (getRedis_run {} w), hc, if_pos rfl]
  exact ⟨_, run_orReturn_ok rfl (), ExpiringStore.counts_del w.redis (loginFailKey email)⟩

/-! ## What a login comes to -/

section

variable (mint : User → String × Int) (checkpw : String → String → Bool) (dummyHash : String)

/-- What the credentials and the lockout determine: a 401, a 403, or the account. -/
def judged (locked : Bool) (users : List User) (email password : String) :
    Except HTTPException User :=
  match userByEmail users email with
  | none => .error invalidCredentials
  | some user =>
      if locked = true ∨ checkpw password user.hashedPassword = false then
        .error invalidCredentials
      else if user.isActive then .ok user
      else .error accountDeactivated

/-- There is a client when the login gets to store its refresh token. -/
def LoginFaults.connected (f : LoginFaults) (w : Worker) : Bool :=
  (((w.connect f.readLock).connect f.reset).connect f.store).client

/-- The refresh token can be stored. -/
def LoginFaults.canStore (f : LoginFaults) (w : Worker) : Bool :=
  f.connected w && decide (f.store.command = .none)

/-- The answer to an account that got in. -/
def welcome (now : Time) (user : User) (refreshToken : Option String) : TokenResponse :=
  let user := { user with lastLoginAt := some now }
  { accessToken := (mint user).1, expiresIn := (mint user).2, user := .ofUser user, refreshToken }

/--
**The login comes to what the credentials and the lockout determine**, with the
refresh token null where it cannot be stored.
-/
def SurvivesRedis (f : LoginFaults) (fresh email password : String) (w : Worker) : Prop :=
  match judged checkpw (w.lockRead f.readLock email) w.users email password with
  | .error e => ∃ w', (handleLogin mint checkpw dummyHash f fresh email password).run w
      = .error (.http e) w'
  | .ok user => ∃ w', (handleLogin mint checkpw dummyHash f fresh email password).run w
      = .ok (welcome mint w.now user (if f.canStore w then some fresh else none)) w'

/-- The three ways a login goes on from its lockout read. -/
theorem evaluateLogin_run (f : LoginFaults) (fresh email password : String) (locked : Bool)
    (w : Worker) :
    (evaluateLogin mint checkpw dummyHash f fresh email password locked).run w
      = match judged checkpw locked w.users email password with
        | .ok user => (completeLogin mint f fresh email user).run w
        | .error e =>
            if e = accountDeactivated then .error (.http e) w
            else (turnAway f email (userByEmail w.users email) locked).run w := by
  show EStateM.run (match userByEmail w.users email with
    | none => turnAway f email none locked
    | some user => if (locked || !(checkpw password
        (((userByEmail w.users email).map User.hashedPassword).getD dummyHash))) = true
      then turnAway f email (some user) locked
      else if (!user.isActive) = true then throw (Failure.http accountDeactivated)
      else completeLogin mint f fresh email user) w = _
  unfold judged
  cases hu : userByEmail w.users email with
  | none => rfl
  | some user =>
      dsimp only
      rw [Option.map_some, Option.getD_some]
      by_cases hw : locked = true ∨ checkpw password user.hashedPassword = false
      · rw [if_pos hw, if_pos (by grind)]
        rfl
      · rw [if_neg hw, if_neg (by grind)]
        cases ha : user.isActive with
        | true => rfl
        | false => rfl

/-- Who does not get in gets one of two answers. -/
theorem judged_error {locked : Bool} {users : List User} {email password : String}
    {e : HTTPException} (h : judged checkpw locked users email password = .error e) :
    e = invalidCredentials ∨ e = accountDeactivated := by
  unfold judged at h
  split at h
  · cases h
    exact Or.inl rfl
  · split at h
    · cases h
      exact Or.inl rfl
    · split at h
      · cases h
      · cases h
        exact Or.inr rfl

theorem turnAway_run {α : Type} (f : LoginFaults) (email : String) (user : Option User)
    (locked : Bool) (w : Worker) :
    ∃ w', (turnAway f email user locked : Action α).run w
      = .error (.http invalidCredentials) w' := by
  unfold turnAway
  cases user.isSome && !locked with
  | false => exact ⟨w, rfl⟩
  | true =>
      obtain ⟨n, w', hrun⟩ := recordLoginFailure_returns f.record email w
      rw [if_pos rfl, run_bind_ok hrun]
      exact ⟨w', rfl⟩

/-- The store of the refresh token decides how a login ends that got in. -/
theorem completeLogin_run (f : LoginFaults) (fresh email : String) (user : User) (w : Worker) :
    ∃ w', (completeLogin mint f fresh email user).run w
      = if ((w.connect f.reset).connect f.store).client = true ∧ f.store.command ≠ .none then
          .error .infrastructure w'
        else
          .ok (welcome mint w.now user
            (if ((w.connect f.reset).connect f.store).client then some fresh else none),
              updateUser user.id fun u => { u with lastLoginAt := some w.now }) w' := by
  obtain ⟨w₁, hreset, hclient⟩ := resetLoginFailures_returns f.reset email w
  have hc : (w₁.connect f.store).client = ((w.connect f.reset).connect f.store).client := by
    rw [Worker.connect_client, Worker.connect_client, hclient]
  unfold completeLogin
  show ∃ w', EStateM.run (Worker.resetLoginFailures f.reset email >>= fun _ => _) w = _
  rw [run_bind_ok hreset, run_bind_ok (getRedis_run f.store w₁), hc]
  cases ((w.connect f.reset).connect f.store).client with
  | false => exact ⟨_, rfl⟩
  | true =>
      cases hf : f.store.command with
      | none => exact ⟨_, rfl⟩
      | before => exact ⟨_, rfl⟩
      | after => exact ⟨_, rfl⟩

theorem withDb_run_error {α : Type} {body : Action (α × Flush)} {w w' : Worker} {e : Failure}
    (h : body.run w = .error e w') : (Worker.withDb body).run w = .error e w' :=
  run_bind_error h _

theorem withDb_run_ok {α : Type} {body : Action (α × Flush)} {w w' : Worker} {a : α}
    {flush : Flush} (h : body.run w = .ok (a, flush) w') :
    ∃ w'', (Worker.withDb body).run w = .ok a w'' :=
  ⟨_, run_bind_ok h _⟩

/-- A login goes as it is judged on the table and the lockout that it found. -/
theorem login_judged (f : LoginFaults) (fresh email password : String) (w : Worker) :
    (login mint checkpw dummyHash f fresh email password).run w
      = match judged checkpw (w.lockRead f.readLock email) w.users email password with
        | .ok user => (completeLogin mint f fresh email user).run (w.connect f.readLock)
        | .error e =>
            if e = accountDeactivated then .error (.http e) (w.connect f.readLock)
            else (turnAway f email (userByEmail w.users email) (w.lockRead f.readLock email)).run
              (w.connect f.readLock) :=
  (run_bind_ok (isAccountLocked_run f.readLock email w) _).trans (evaluateLogin_run ..)

/-- What a login writes to the table is the time of it. -/
theorem login_flush {f : LoginFaults} {fresh email password : String} {w w' : Worker}
    {response : TokenResponse} {flush : Flush}
    (h : (login mint checkpw dummyHash f fresh email password).run w
      = .ok (response, flush) w') :
    ∃ uid, flush = updateUser uid fun u => { u with lastLoginAt := some w.now } := by
  rw [login_judged] at h
  split at h
  · rename_i user _
    obtain ⟨w₁, hrun⟩ := completeLogin_run mint f fresh email user (w.connect f.readLock)
    rw [hrun] at h
    split at h
    · cases h
    · cases h
      exact ⟨user.id, rfl⟩
  · split at h
    · cases h
    · obtain ⟨w₁, hrun⟩ := turnAway_run (α := TokenResponse × Flush) f email
        (userByEmail w.users email) (w.lockRead f.readLock email) (w.connect f.readLock)
      rw [hrun] at h
      cases h

/-- Who gives no password of the account is not let in, -/
theorem judged_refused {locked : Bool} {users : List User} {email password : String}
    (hno : ∀ user ∈ userByEmail users email, checkpw password user.hashedPassword = false) :
    judged checkpw locked users email password = .error invalidCredentials := by
  unfold judged
  cases hu : userByEmail users email with
  | none => rfl
  | some user =>
      dsimp only
      rw [if_pos (Or.inr (hno user hu))]

/-- and is told so, whatever fails. -/
theorem handleLogin_refused {f : LoginFaults} {email password : String} {w : Worker}
    (hj : judged checkpw (w.lockRead f.readLock email) w.users email password
      = .error invalidCredentials) (fresh : String) :
    ∃ w', (handleLogin mint checkpw dummyHash f fresh email password).run w
      = .error (.http invalidCredentials) w' := by
  obtain ⟨w', haway⟩ := turnAway_run (α := TokenResponse × Flush) f email
    (userByEmail w.users email) (w.lockRead f.readLock email) (w.connect f.readLock)
  have hrun := login_judged mint checkpw dummyHash f fresh email password w
  rw [hj] at hrun
  exact ⟨w', withDb_run_error (hrun.trans haway)⟩

/-- Who is let in gets a token, unless its store raises. -/
theorem handleLogin_welcomes {f : LoginFaults} {email password : String} {w : Worker}
    {user : User} (hj : judged checkpw (w.lockRead f.readLock email) w.users email password
      = .ok user) (hstore : f.store.command = .none) (fresh : String) :
    ∃ response w', (handleLogin mint checkpw dummyHash f fresh email password).run w
      = .ok response w' := by
  obtain ⟨w', hcomplete⟩ := completeLogin_run mint f fresh email user (w.connect f.readLock)
  rw [if_neg fun h => h.2 hstore] at hcomplete
  have hrun := login_judged mint checkpw dummyHash f fresh email password w
  rw [hj] at hrun
  obtain ⟨w'', hok⟩ := withDb_run_ok (hrun.trans hcomplete)
  exact ⟨_, w'', hok⟩

/-! ## A login that runs alone -/

theorem turnAway_counts {α : Type} (email : String) (user : Option User) (locked : Bool)
    (w : Worker) (h : w.redis.CountAt (loginFailKey email)) :
    ∃ w', (turnAway {} email user locked : Action α).run w = .error (.http invalidCredentials) w'
      ∧ w'.redis.counts = if user.isSome && !locked then
          Users.recordLoginFailure w.redis.counts w.now email else w.redis.counts := by
  unfold turnAway
  cases user.isSome && !locked with
  | false => exact ⟨w, rfl, rfl⟩
  | true =>
      obtain ⟨n, w', hrun, hcounts⟩ := recordLoginFailure_counts email w h
      rw [if_pos rfl, if_pos rfl, run_bind_ok hrun]
      exact ⟨w', rfl, hcounts⟩

theorem loginFailKey_ne_refreshKey (email token : String) :
    loginFailKey email ≠ refreshKey token := by
  intro h
  have hlist := congrArg String.toList h
  rw [loginFailKey, refreshKey, String.toList_append, String.toList_append] at hlist
  simp at hlist

/-- The counter is cleared, and the refresh token is stored under a key that is none's. -/
theorem completeLogin_counts (fresh email : String) (user : User) (w : Worker) :
    ∃ response flush w', (completeLogin mint {} fresh email user).run w = .ok (response, flush) w'
      ∧ ∀ email', w'.redis.counts (loginFailKey email')
        = Users.resetLoginFailures w.redis.counts email (loginFailKey email') := by
  obtain ⟨w₁, hreset, hcounts⟩ := resetLoginFailures_counts email w
  have hclient : (w₁.connect {}).client = true := by simp
  unfold completeLogin
  show ∃ response flush w', EStateM.run (Worker.resetLoginFailures {} email >>= fun _ => _) w = _
    ∧ _
  rw [run_bind_ok hreset, run_bind_ok (getRedis_run {} w₁), hclient]
  refine ⟨_, _, _, rfl, fun email' => ?_⟩
  rw [← hcounts]
  have hkept := ExpiringStore.put_of_ne w₁.redis (loginFailKey_ne_refreshKey email' fresh)
    user.id.text (some (w₁.now + refreshTokenTtl))
  exact congrArg (Option.bind · ExpiringStore.countOf) hkept

/-- What the credentials and the lockout determine is what the machine of the lockout goes on to. -/
theorem evaluate_judged (locked : Bool) (users : List User) (email password : String) :
    evaluate locked (userByEmail users email)
        (checkpw password (((userByEmail users email).map User.hashedPassword).getD dummyHash))
      = match judged checkpw locked users email password with
        | .ok _ => .succeeding
        | .error e =>
            if e = accountDeactivated then .answered (.error e)
            else if (userByEmail users email).isSome && !locked then .failing
            else .answered (.error invalidCredentials) := by
  have hne : invalidCredentials ≠ accountDeactivated := by decide
  unfold judged evaluate
  cases userByEmail users email with
  | none => rfl
  | some user =>
      cases locked with
      | true => rfl
      | false =>
          dsimp only
          rw [Option.map_some, Option.getD_some]
          cases checkpw password user.hashedPassword with
          | false => rfl
          | true => cases user.isActive <;> rfl

/-- The one login of this process, over the counters that the text in Redis says. -/
def loginAlone (email password : String) (w : Worker) (phase : LoginPhase) :
    LockoutWindow.World where
  now := w.now
  users := w.users
  redis := w.redis.counts
  attempts := [{ email, password, phase }]

/--
**A login that runs alone on a server that answers is a run of the machine of the
lockout**: it ends with the same answer, and leaves every counter alike.
-/
theorem login_as_machine (fresh email password : String) (w : Worker)
    (h : w.redis.CountAt (loginFailKey email)) :
    ∃ es world answer w',
      Schedule.exec (LockoutWindow.step checkpw dummyHash) (loginAlone email password w .received) es
          = some world
        ∧ world.attempts = [⟨email, password, .answered answer⟩]
        ∧ (match answer with
          | .error e => (handleLogin mint checkpw dummyHash {} fresh email password).run w
              = .error (.http e) w'
          | .ok () => ∃ response,
              (handleLogin mint checkpw dummyHash {} fresh email password).run w = .ok response w')
        ∧ ∀ email', w'.redis.counts (loginFailKey email') = world.redis (loginFailKey email') := by
  have hlock : w.lockRead {} email = Users.isAccountLocked w.redis.counts w.now email := by
    simp [Worker.lockRead]
  have hrun := login_judged mint checkpw dummyHash {} fresh email password w
  have hmachine := evaluate_judged checkpw dummyHash (w.lockRead {} email) w.users email password
  -- both begin with the read of the lockout and the check of the password
  have hbegin : ∀ es, Schedule.exec (LockoutWindow.step checkpw dummyHash)
        (loginAlone email password w .received) (.readLock 0 :: .check 0 :: es)
      = Schedule.exec (LockoutWindow.step checkpw dummyHash)
        (loginAlone email password w
          (evaluate (w.lockRead {} email) (userByEmail w.users email) (checkpw password
            (((userByEmail w.users email).map User.hashedPassword).getD dummyHash)))) es := by
    intro es
    rw [hlock]
    rfl
  cases hj : judged checkpw (w.lockRead {} email) w.users email password with
  | ok user =>
      rw [hj] at hrun hmachine
      obtain ⟨response, flush, w', hok, hcounts⟩ :=
        completeLogin_counts mint fresh email user (w.connect {})
      refine ⟨[.readLock 0, .check 0, .reset 0],
        { loginAlone email password w (.answered (.ok ())) with
          redis := Users.resetLoginFailures w.redis.counts email },
        .ok (), { w' with users := flush w'.users }, ?_, rfl, ⟨response, ?_⟩, hcounts⟩
      · rw [hbegin, hmachine]
        rfl
      · exact run_bind_ok (hrun.trans hok) _
  | error e =>
      rw [hj] at hrun hmachine
      dsimp only at hrun hmachine
      by_cases he : e = accountDeactivated
      · rw [if_pos he] at hrun hmachine
        refine ⟨[.readLock 0, .check 0], loginAlone email password w (.answered (.error e)),
          .error e, w.connect {}, ?_, rfl, withDb_run_error hrun, fun _ => rfl⟩
        rw [hbegin, hmachine]
        rfl
      · rw [if_neg he] at hrun hmachine
        obtain rfl : e = invalidCredentials := (judged_error checkpw hj).resolve_right he
        obtain ⟨w', haway, hcounts⟩ := turnAway_counts (α := TokenResponse × Flush) email
          (userByEmail w.users email) (w.lockRead {} email) (w.connect {}) h
        have hfails := withDb_run_error (hrun.trans haway)
        cases hfailing : (userByEmail w.users email).isSome && !(w.lockRead {} email) with
        | true =>
            rw [hfailing, if_pos rfl] at hmachine hcounts
            refine ⟨[.readLock 0, .check 0, .record 0],
              { loginAlone email password w (.answered (.error invalidCredentials)) with
                redis := Users.recordLoginFailure w.redis.counts w.now email
                recorded := [(email, w.now)] },
              .error invalidCredentials, w', ?_, rfl, hfails, fun _ => congrFun hcounts _⟩
            rw [hbegin, hmachine]
            rfl
        | false =>
            rw [hfailing, if_neg Bool.false_ne_true] at hmachine hcounts
            refine ⟨[.readLock 0, .check 0],
              loginAlone email password w (.answered (.error invalidCredentials)),
              .error invalidCredentials, w', ?_, rfl, hfails, fun _ => congrFun hcounts _⟩
            rw [hbegin, hmachine]
            rfl

/--
**Login survives Redis except at the store of its refresh token.**

For every table, credentials, lockout and pattern of failures: the login comes to
what it should unless it got in, there was a client by then, and the `SETEX`
raised.
-/
theorem survivesRedis_iff (mint : User → String × Int) (checkpw : String → String → Bool)
    (dummyHash : String) (f : LoginFaults) (fresh email password : String) (w : Worker) :
    SurvivesRedis mint checkpw dummyHash f fresh email password w ↔
      ((∃ user, judged checkpw (w.lockRead f.readLock email) w.users email password = .ok user) →
        f.connected w = true → f.store.command = .none) := by
  have hrun := login_judged mint checkpw dummyHash f fresh email password w
  unfold SurvivesRedis
  cases hj : judged checkpw (w.lockRead f.readLock email) w.users email password with
  | error e =>
      rw [hj] at hrun
      dsimp only at hrun ⊢
      refine iff_of_true ?_ (fun ⟨_, h⟩ => by cases h)
      by_cases he : e = accountDeactivated
      · rw [if_pos he] at hrun
        exact ⟨_, withDb_run_error hrun⟩
      · have hi : e = invalidCredentials := (judged_error checkpw hj).resolve_right he
        rw [hi] at hj ⊢
        exact handleLogin_refused mint checkpw dummyHash hj fresh
  | ok user =>
      rw [hj] at hrun
      obtain ⟨w', hcomplete⟩ := completeLogin_run mint f fresh email user (w.connect f.readLock)
      dsimp only at hrun ⊢
      rw [hcomplete] at hrun
      unfold LoginFaults.canStore
      have hc : (((w.connect f.readLock).connect f.reset).connect f.store).client = f.connected w :=
        rfl
      rw [hc] at hrun
      by_cases hraise : f.connected w = true ∧ f.store.command ≠ .none
      · rw [if_pos hraise] at hrun
        refine iff_of_false ?_ fun h => hraise.2 (h ⟨user, rfl⟩ hraise.1)
        rintro ⟨w'', hok⟩
        rw [handleLogin, withDb_run_error hrun] at hok
        cases hok
      · rw [if_neg hraise] at hrun
        refine iff_of_true ?_ fun _ hconn => by_contra fun hne => hraise ⟨hconn, hne⟩
        obtain ⟨w'', hok⟩ := withDb_run_ok hrun
        have hstore : (f.connected w && decide (f.store.command = .none)) = f.connected w := by
          cases hconn : f.connected w with
          | false => rfl
          | true =>
              rw [Bool.true_and, decide_eq_true_iff]
              exact by_contra fun hne => hraise ⟨hconn, hne⟩
        rw [hstore]
        exact ⟨w'', hok⟩

end

/-- Ann's process, connected, while the writes of Redis fail. -/
def annsWorker : Worker where
  now := 0
  redis := ExpiringStore.empty
  users := [ann]
  client := true

/-- **The right password gets a 500** when the store of the refresh token raises. -/
theorem login_fails_at_store :
    judged (fun p hash => p == hash) (annsWorker.lockRead {} "ann@example.com") annsWorker.users
        "ann@example.com" "Correct-1" = .ok ann
      ∧ (∃ w', (handleLogin (fun _ => ("jwt", 3600)) (fun p hash => p == hash) ""
          { store := { command := .before } } "t0" "ann@example.com" "Correct-1").run annsWorker
            = .error .infrastructure w')
      ∧ ¬ SurvivesRedis (fun _ => ("jwt", 3600)) (fun p hash => p == hash) ""
          { store := { command := .before } } "t0" "ann@example.com" "Correct-1" annsWorker := by
  refine ⟨by decide +kernel, ⟨_, rfl⟩, ?_⟩
  rintro ⟨w', h⟩
  cases h

end Microservices.Users
