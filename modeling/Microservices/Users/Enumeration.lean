import Microservices.Users.LockoutWindow
import Microservices.Users.LoginFaults
import Microservices.Users.Mail

/-!
# What the public routes tell of an account

Login, forgot-password and resend-verification answer anybody who names an email.
Two services are alike but for one email if they hold the same rows of the other
emails and the same counters. Requests cannot tell them apart as long as no login
for that email gives a password that one of them takes.
-/

namespace Microservices.Users

open Effects

/-! ## The requests -/

/-- A request of somebody who is not logged in; `fresh` is the token it draws, if it draws one. -/
inductive Probe where
  | login (email password fresh : String)
  | forgotPassword (email fresh : String)
  | resendVerification (email fresh : String)
  deriving DecidableEq, Repr

section

variable (mint : Time → User → String × Int) (checkpw : String → String → Bool)
  (dummyHash : String) (settings : MailSettings)

/-- One request, with the background task it leaves; only a login has something to return. -/
def handleProbe : Probe → MailAction (Option TokenResponse)
  | .login email password fresh => do
      let s ← get
      let response ← onWorker (handleLogin (mint s.now) checkpw dummyHash {} fresh email password)
      return some response
  | .forgotPassword email fresh => do
      let s ← get
      match forgotPassword s.users email with
      | none => return none
      | some user => do
          sendPasswordResetEmail settings {} fresh user
          return none
  | .resendVerification email fresh => do
      let s ← get
      match resendVerification s.users email with
      | none => return none
      | some user => do
          sendVerificationEmail settings {} fresh user
          return none

/-- The answers to a sequence of requests, each at its time. -/
def answers : MailService → List (Time × Probe) → List (Except Failure (Option TokenResponse))
  | _, [] => []
  | s, (now, probe) :: rest =>
      let result := (handleProbe mint checkpw dummyHash settings probe).run { s with now }
      answer result :: answers (final result) rest

end

/-! ## Alike but for one account -/

/-- The servers hold the same of every account but that of `email`. -/
structure AlikeBut (email : String) (s s' : Server) : Prop where
  now : s.now = s'.now
  users : ∀ e, e ≠ email → userByEmail s.users e = userByEmail s'.users e
  counters : ∀ e, e ≠ email → s.redis (loginFailKey e) = s'.redis (loginFailKey e)

/-- The hash of the account, if there is one. -/
def hashOf (users : List User) (email : String) : Option String :=
  (userByEmail users email).map User.hashedPassword

/-- No login for `email` gives a password that goes with the hash. -/
def NoneMatches (checkpw : String → String → Bool) (email : String) (hash : Option String)
    (probes : List (Time × Probe)) : Prop :=
  ∀ now password fresh, (now, Probe.login email password fresh) ∈ probes →
    ∀ stored ∈ hash, checkpw password stored = false

variable {email : String} {s s' : Server}

/-- A write beside the counters changes nothing of this. -/
theorem AlikeBut.put (h : AlikeBut email s s') {key key' : String} {v v' : String}
    {t t' : Option Time} (hkey : ∀ e, loginFailKey e ≠ key) (hkey' : ∀ e, loginFailKey e ≠ key') :
    AlikeBut email { s with redis := s.redis.put key v t }
      { s' with redis := s'.redis.put key' v' t' } :=
  ⟨h.now, h.users, fun e he => (ExpiringStore.put_of_ne s.redis (hkey e) v t).trans
    ((h.counters e he).trans (ExpiringStore.put_of_ne s'.redis (hkey' e) v' t').symm)⟩

/-- What one account's counter is read as is the same in both. -/
theorem AlikeBut.get (h : AlikeBut email s s') {e : String} (he : e ≠ email) :
    s.redis.get s.now (loginFailKey e) = s'.redis.get s'.now (loginFailKey e) := by
  unfold ExpiringStore.get ExpiringStore.live
  rw [h.counters e he, h.now]

/-- Counting a failure of another account is the same in both. -/
theorem AlikeBut.count (h : AlikeBut email s s') {e : String} (he : e ≠ email) :
    (s.redis.incrExpireNxText s.now (loginFailKey e) (s.now + lockoutWindow)).1
        = (s'.redis.incrExpireNxText s'.now (loginFailKey e) (s'.now + lockoutWindow)).1
      ∧ AlikeBut email
        { s with redis := (s.redis.incrExpireNxText s.now (loginFailKey e)
          (s.now + lockoutWindow)).2 }
        { s' with redis := (s'.redis.incrExpireNxText s'.now (loginFailKey e)
          (s'.now + lockoutWindow)).2 } := by
  obtain ⟨now, redis, users⟩ := s
  obtain ⟨now', redis', users'⟩ := s'
  obtain rfl : now = now' := h.now
  obtain ⟨hcount, hentry⟩ := ExpiringStore.incrExpireNxText_congr (h.counters e he) now
    (now + lockoutWindow)
  refine ⟨hcount, rfl, h.users, fun e' he' => ?_⟩
  by_cases heq : e' = e
  · rw [heq]
    exact hentry
  · have hne : loginFailKey e' ≠ loginFailKey e := fun hk => heq (LockoutWindow.loginFailKey_inj hk)
    -- the counters of the others are not touched in either
    exact (ExpiringStore.incrExpireNxText_of_ne redis hne _ _).trans
      ((h.counters e' he').trans (ExpiringStore.incrExpireNxText_of_ne redis' hne _ _).symm)

/-- And so is clearing its counter. -/
theorem AlikeBut.clear (h : AlikeBut email s s') (e : String) :
    AlikeBut email { s with redis := s.redis.del (loginFailKey e) }
      { s' with redis := s'.redis.del (loginFailKey e) } := by
  refine ⟨h.now, h.users, fun e' he' => ?_⟩
  unfold ExpiringStore.del
  dsimp only
  by_cases hk : loginFailKey e' = loginFailKey e
  · rw [hk, Function.update_self, Function.update_self]
  · rw [Function.update_of_ne hk, Function.update_of_ne hk]
    exact h.counters e' he'

/-- Changing a row leaves its email, and what is found under another. -/
theorem userByEmail_updateUser {change : User → User} (hemail : ∀ u, (change u).email = u.email)
    (uid : UUID) (users : List User) (e : String) :
    userByEmail (updateUser uid change users) e
      = (userByEmail users e).map fun u => if u.id = uid then change u else u := by
  have hcomp : ((fun u : User => decide (u.email = e)) ∘
      fun u => if u.id = uid then change u else u) = fun u => decide (u.email = e) := by
    funext u
    dsimp only [Function.comp_apply]
    split
    · rw [hemail]
    · rfl
  unfold userByEmail updateUser
  rw [List.find?_map, hcomp]

theorem hashOf_updateUser {change : User → User} (hemail : ∀ u, (change u).email = u.email)
    (hhash : ∀ u, (change u).hashedPassword = u.hashedPassword) (uid : UUID) (users : List User)
    (e : String) : hashOf (updateUser uid change users) e = hashOf users e := by
  unfold hashOf
  rw [userByEmail_updateUser hemail, Option.map_map]
  congr 1
  funext u
  dsimp only [Function.comp_apply]
  split
  · exact hhash u
  · rfl

/-! ## A login for another account -/

/-- Two servers on which the requests so far went the same; the hashes are those of `email`. -/
structure InStep (email : String) (hash hash' : Option String) (s s' : Server) : Prop where
  alike : AlikeBut email s s'
  hash : hashOf s.users email = hash
  hash' : hashOf s'.users email = hash'

/-- Both write down when an account logged in. -/
theorem InStep.update {hash hash' : Option String} (h : InStep email hash hash' s s')
    {change : User → User} (hemail : ∀ u, (change u).email = u.email)
    (hhash : ∀ u, (change u).hashedPassword = u.hashedPassword) (uid : UUID) :
    InStep email hash hash' { s with users := updateUser uid change s.users }
      { s' with users := updateUser uid change s'.users } := by
  refine ⟨⟨h.alike.now, fun e he => ?_, h.alike.counters⟩, ?_, ?_⟩
  · rw [userByEmail_updateUser hemail, userByEmail_updateUser hemail, h.alike.users e he]
  · exact (hashOf_updateUser hemail hhash uid s.users email).trans h.hash
  · exact (hashOf_updateUser hemail hhash uid s'.users email).trans h.hash'

/-- Two processes, by their servers. -/
def ProcessesInStep (email : String) (hash hash' : Option String) (w w' : Worker) : Prop :=
  InStep email hash hash' w.toServer w'.toServer

variable {hash hash' : Option String}

theorem twin_getRedis : Twin (ProcessesInStep email hash hash') (getRedis {}) (getRedis {}) := by
  intro w w' h
  rw [getRedis_run, getRedis_run, Worker.connect_client, Worker.connect_client]
  refine ⟨?_, h⟩
  simp [answer]

theorem twin_isAccountLocked {e : String} (he : e ≠ email) :
    Twin (ProcessesInStep email hash hash') (Worker.isAccountLocked {} e)
      (Worker.isAccountLocked {} e) := by
  refine twin_bind twin_getRedis fun client => ?_
  cases client with
  | false => exact twin_pure false
  | true =>
      refine twin_orReturn (twin_bind (twin_get_bind fun w w' h => ?_) fun raw => ?_) false
      · rw [h.alike.get he]
        exact twin_pure _
      · unfold Worker.lockedBy
        split
        · exact twin_pure false
        · split
          · exact twin_throw _
          · exact twin_pure _

theorem twin_recordLoginFailure {e : String} (he : e ≠ email) :
    Twin (ProcessesInStep email hash hash') (Worker.recordLoginFailure {} e)
      (Worker.recordLoginFailure {} e) := by
  refine twin_bind twin_getRedis fun client => ?_
  cases client with
  | false => exact twin_pure 0
  | true =>
      refine twin_orReturn (twin_bind ?_ fun count => ?_) 0
      · intro w w' h
        obtain ⟨hcount, halike⟩ := h.alike.count he
        exact ⟨congrArg Except.ok hcount, halike, h.hash, h.hash'⟩
      · cases count with
        | none => exact twin_throw _
        | some count => exact twin_pure count

theorem twin_turnAway {e : String} (he : e ≠ email) (user : Option User) (locked : Bool) :
    Twin (ProcessesInStep email hash hash')
      (turnAway {} e user locked : Action (TokenResponse × Flush))
      (turnAway {} e user locked) := by
  unfold turnAway
  split
  · exact twin_bind (twin_recordLoginFailure he) fun _ => twin_throw _
  · exact twin_throw _

theorem twin_resetLoginFailures (e : String) :
    Twin (ProcessesInStep email hash hash') (Worker.resetLoginFailures {} e)
      (Worker.resetLoginFailures {} e) := by
  refine twin_bind twin_getRedis fun client => ?_
  cases client with
  | false => exact twin_pure ()
  | true =>
      exact twin_orReturn (twin_modify fun w w' h => ⟨h.alike.clear e, h.hash, h.hash'⟩) ()

section

variable (mint : User → String × Int) (checkpw : String → String → Bool) (dummyHash : String)

theorem twin_issueTokenResponse (f : Faults) (hf : f.setex = .none) (fresh : String)
    (user : User) :
    Twin (InStep email hash hash') (issueTokenResponse mint f fresh user)
      (issueTokenResponse mint f fresh user) := by
  refine twin_bind ?_ fun stored => twin_pure _
  unfold storeRefreshToken
  rw [hf]
  split
  · exact twin_pure false
  · refine twin_bind (twin_modify fun s s' h => ?_) fun _ => twin_pure true
    exact ⟨h.alike.put (fun e => loginFailKey_ne_refreshKey e fresh)
      (fun e => loginFailKey_ne_refreshKey e fresh), h.hash, h.hash'⟩

theorem twin_completeLogin (fresh e : String) (user : User) :
    Twin (ProcessesInStep email hash hash') (completeLogin mint {} fresh e user)
      (completeLogin mint {} fresh e user) := by
  refine twin_get_bind fun w w' h => ?_
  rw [h.alike.now]
  refine twin_bind (twin_resetLoginFailures e) fun _ => twin_bind twin_getRedis fun client => ?_
  refine twin_bind ?_ fun response => twin_pure _
  exact twin_onPart (twin_issueTokenResponse mint _ rfl fresh _) (fun _ _ h => h)
    fun _ _ _ _ _ h => h

theorem twin_login {e : String} (he : e ≠ email) (fresh password : String) :
    Twin (ProcessesInStep email hash hash') (login mint checkpw dummyHash {} fresh e password)
      (login mint checkpw dummyHash {} fresh e password) := by
  refine twin_bind (twin_isAccountLocked he) fun locked => twin_get_bind fun w w' h => ?_
  rw [h.alike.users e he]
  cases userByEmail w'.users e with
  | none => exact twin_turnAway he none locked
  | some user =>
      dsimp only
      split
      · exact twin_turnAway he (some user) locked
      · split
        · exact twin_throw _
        · exact twin_completeLogin mint fresh e user

theorem twin_handleLogin {e : String} (he : e ≠ email) (fresh password : String) :
    Twin (ProcessesInStep email hash hash') (handleLogin mint checkpw dummyHash {} fresh e password)
      (handleLogin mint checkpw dummyHash {} fresh e password) := by
  refine twin_bind_returning (Q := fun r => ∃ uid t, r.2
    = updateUser uid fun u => { u with lastLoginAt := some t })
    (twin_login mint checkpw dummyHash he fresh password) ?_ ?_
  · rintro w ⟨response, flush⟩ w' h
    obtain ⟨uid, hflush⟩ := login_flush mint checkpw dummyHash h
    exact ⟨uid, w.now, hflush⟩
  · rintro ⟨response, flush⟩ ⟨uid, t, hflush⟩
    have hemail : ∀ u : User, ({ u with lastLoginAt := some t } : User).email = u.email :=
      fun _ => rfl
    have hhash : ∀ u : User,
        ({ u with lastLoginAt := some t } : User).hashedPassword = u.hashedPassword := fun _ => rfl
    refine twin_bind (twin_modify fun w w' h => ?_) fun _ => twin_pure response
    dsimp only at hflush
    rw [hflush]
    exact h.update hemail hhash uid

end

/-! ## The requests for the account itself -/

/-- All that became of a server lies with the counter of `email`, or is no counter. -/
structure Aside (email : String) (s s' : Server) : Prop where
  now : s'.now = s.now
  users : s'.users = s.users
  counters : ∀ e, e ≠ email → s'.redis (loginFailKey e) = s.redis (loginFailKey e)

theorem Aside.refl (email : String) (s : Server) : Aside email s s := ⟨rfl, rfl, fun _ _ => rfl⟩

/-- What happens aside keeps two servers in step, also if it is not the same on both. -/
theorem InStep.aside {t t' : Server} (h : InStep email hash hash' s s') (ht : Aside email s t)
    (ht' : Aside email s' t') : InStep email hash hash' t t' := by
  refine ⟨⟨?_, fun e he => ?_, fun e he => ?_⟩, ?_, ?_⟩
  · rw [ht.now, ht'.now, h.alike.now]
  · rw [ht.users, ht'.users, h.alike.users e he]
  · rw [ht.counters e he, ht'.counters e he, h.alike.counters e he]
  · rw [ht.users, h.hash]
  · rw [ht'.users, h.hash']

theorem recordLoginFailure_aside (email : String) (s : Server) :
    Keeps (fun w : Worker => Aside email s w.toServer) (Worker.recordLoginFailure {} email) := by
  refine keeps_bind ?_ fun client => ?_
  · intro w h
    rw [getRedis_run]
    exact h
  · cases client with
    | false => exact keeps_pure 0
    | true =>
        refine keeps_orReturn (keeps_bind (fun w h => ?_) fun count => ?_) 0
        · refine ⟨h.now, h.users, fun e he => ?_⟩
          have hne : loginFailKey e ≠ loginFailKey email :=
            fun hk => he (LockoutWindow.loginFailKey_inj hk)
          exact (ExpiringStore.incrExpireNxText_of_ne w.redis hne _ _).trans (h.counters e he)
        · cases count with
          | none => exact keeps_throw _
          | some count => exact keeps_pure count

theorem turnAway_aside (email : String) (user : Option User) (locked : Bool) (s : Server) :
    Keeps (fun w : Worker => Aside email s w.toServer)
      (turnAway {} email user locked : Action (TokenResponse × Flush)) := by
  unfold turnAway
  split
  · exact keeps_bind (recordLoginFailure_aside email s) fun _ => keeps_throw _
  · exact keeps_throw _

section

variable (mint : User → String × Int) (checkpw : String → String → Bool) (dummyHash : String)

/-- Whatever is there under `email`, a login that gives no password of it is answered the same. -/
theorem handleLogin_refused_aside {password : String} {w : Worker}
    (hno : ∀ stored ∈ hashOf w.users email, checkpw password stored = false) (fresh : String) :
    ∃ w', (handleLogin mint checkpw dummyHash {} fresh email password).run w
        = .error (.http invalidCredentials) w'
      ∧ Aside email w.toServer w'.toServer := by
  have hjudged : judged checkpw (w.lockRead {} email) w.users email password
      = .error invalidCredentials :=
    judged_refused checkpw fun user huser => hno _ (Option.mem_map_of_mem _ huser)
  have hrun := login_judged mint checkpw dummyHash {} fresh email password w
  rw [hjudged] at hrun
  obtain ⟨w', haway⟩ := turnAway_run (α := TokenResponse × Flush) {} email
    (userByEmail w.users email) (w.lockRead {} email) (w.connect {})
  have haside := turnAway_aside email (userByEmail w.users email)
    (w.lockRead {} email) w.toServer (w.connect {}) (Aside.refl email w.toServer)
  dsimp only at hrun
  rw [haway] at haside hrun
  exact ⟨w', withDb_run_error hrun, haside⟩

theorem twin_handleLogin_refused {password : String}
    (hno : ∀ stored ∈ hash, checkpw password stored = false)
    (hno' : ∀ stored ∈ hash', checkpw password stored = false) (fresh : String) :
    Twin (ProcessesInStep email hash hash')
      (handleLogin mint checkpw dummyHash {} fresh email password)
      (handleLogin mint checkpw dummyHash {} fresh email password) := by
  intro w w' h
  rw [← h.hash] at hno
  rw [← h.hash'] at hno'
  obtain ⟨w₁, hrun, haside⟩ := handleLogin_refused_aside mint checkpw dummyHash hno fresh
  obtain ⟨w₁', hrun', haside'⟩ := handleLogin_refused_aside mint checkpw dummyHash hno' fresh
  rw [hrun, hrun']
  exact ⟨rfl, h.aside haside haside'⟩

end

/-! ## The requests for a mail -/

theorem sendToken_aside (email : String) {key : String} (hkey : ∀ e, loginFailKey e ≠ key)
    (ttl : Time) (user : User) (mail : Mail) (m : MailService) :
    ∃ m', (sendToken {} key ttl user mail).run m = .ok () m'
      ∧ Aside email m.toServer m'.toServer := by
  obtain ⟨m', hrun, hnow, husers, heffect⟩ := sendToken_mailed {} key ttl user mail m
  refine ⟨m', hrun, hnow, husers, fun e _ => ?_⟩
  rcases heffect with ⟨-, hput⟩ | ⟨-, hsame, -⟩
  · rw [hput]
    exact ExpiringStore.put_of_ne m.redis (hkey e) _ _
  · rw [hsame]

theorem loginFailKey_ne_verifyKey (e token : String) : loginFailKey e ≠ verifyKey token := by
  intro h
  have hlist := congrArg String.toList h
  simp [loginFailKey, verifyKey] at hlist

theorem loginFailKey_ne_resetKey (e token : String) : loginFailKey e ≠ resetKey token := by
  intro h
  have hlist := congrArg String.toList h
  simp [loginFailKey, resetKey] at hlist

/-- Two services, by their servers. -/
def ServicesInStep (email : String) (hash hash' : Option String) (m m' : MailService) : Prop :=
  InStep email hash hash' m.toServer m'.toServer

/-- A mail for whichever account is found: the answer is the same if there is none. -/
theorem twin_mailed {send : User → MailAction Unit} (found found' : Option User)
    (hsend : ∀ user m, ∃ m', (send user).run m = .ok () m' ∧ Aside email m.toServer m'.toServer) :
    Twin (ServicesInStep email hash hash')
      (match found with
        | none => return none
        | some user => do
            send user
            return none : MailAction (Option TokenResponse))
      (match found' with
        | none => return none
        | some user => do
            send user
            return none) := by
  have hone : ∀ (found : Option User) (m : MailService), ∃ m',
      EStateM.run (match found with
        | none => return none
        | some user => do
            send user
            return none : MailAction (Option TokenResponse)) m = .ok none m'
        ∧ Aside email m.toServer m'.toServer := by
    intro found m
    cases found with
    | none => exact ⟨m, rfl, Aside.refl email m.toServer⟩
    | some user =>
        obtain ⟨m', hrun, haside⟩ := hsend user m
        exact ⟨m', run_bind_ok hrun _, haside⟩
  intro m m' h
  obtain ⟨t, hrun, haside⟩ := hone found m
  obtain ⟨t', hrun', haside'⟩ := hone found' m'
  rw [hrun, hrun']
  exact ⟨rfl, h.aside haside haside'⟩

/-! ## Sequences of requests -/

section

variable (mint : Time → User → String × Int) (checkpw : String → String → Bool)
  (dummyHash : String) (settings : MailSettings)

/-- One request is answered the same on two services in step, and leaves them in step. -/
theorem twin_handleProbe (probe : Probe)
    (hno : ∀ password fresh, probe = .login email password fresh →
      (∀ stored ∈ hash, checkpw password stored = false)
        ∧ ∀ stored ∈ hash', checkpw password stored = false) :
    Twin (ServicesInStep email hash hash') (handleProbe mint checkpw dummyHash settings probe)
      (handleProbe mint checkpw dummyHash settings probe) := by
  cases probe with
  | login e password fresh =>
      refine twin_get_bind fun m m' h => twin_bind ?_ fun response => twin_pure _
      rw [h.alike.now]
      refine twin_onPart (R := ProcessesInStep email hash hash') ?_ (fun _ _ h => h)
        fun _ _ _ _ _ h => h
      by_cases he : e = email
      · obtain ⟨hmiss, hmiss'⟩ := hno password fresh (by rw [he])
        rw [he]
        exact twin_handleLogin_refused _ checkpw dummyHash hmiss hmiss' fresh
      · exact twin_handleLogin _ checkpw dummyHash he fresh password
  | forgotPassword e fresh =>
      refine twin_get_bind fun m m' h => twin_mailed _ _ fun user m => ?_
      exact sendToken_aside email (fun e => loginFailKey_ne_resetKey e fresh) _ user _ m
  | resendVerification e fresh =>
      refine twin_get_bind fun m m' h => twin_mailed _ _ fun user m => ?_
      exact sendToken_aside email (fun e => loginFailKey_ne_verifyKey e fresh) _ user _ m

theorem answers_inStep (probes : List (Time × Probe)) {m m' : MailService}
    (h : ServicesInStep email hash hash' m m') (hno : NoneMatches checkpw email hash probes)
    (hno' : NoneMatches checkpw email hash' probes) :
    answers mint checkpw dummyHash settings m probes
      = answers mint checkpw dummyHash settings m' probes := by
  induction probes generalizing m m' with
  | nil => rfl
  | cons head rest ih =>
      obtain ⟨now, probe⟩ := head
      have hnow : ServicesInStep email hash hash' { m with now } { m' with now } :=
        ⟨⟨rfl, h.alike.users, h.alike.counters⟩, h.hash, h.hash'⟩
      have htwin := twin_handleProbe mint checkpw dummyHash settings probe
        (fun password fresh hp => by
          rw [hp] at hno hno'
          exact ⟨hno now password fresh (List.mem_cons_self ..),
            hno' now password fresh (List.mem_cons_self ..)⟩)
      obtain ⟨hanswer, hstep⟩ := htwin _ _ hnow
      rw [answers, answers, hanswer, ih hstep
        (fun t password fresh hmem => hno t password fresh (List.mem_cons_of_mem _ hmem))
        (fun t password fresh hmem => hno' t password fresh (List.mem_cons_of_mem _ hmem))]

/--
**No account enumeration.**

Take two services that are alike but for one email, and any sequence of requests
in which no login for that email gives a password that goes with the hash on either:
the answers are the same, whatever the account is on one and on the other.
-/
theorem answers_alike (email : String) {m m' : MailService}
    (halike : AlikeBut email m.toServer m'.toServer) {probes : List (Time × Probe)}
    (hno : NoneMatches checkpw email (hashOf m.users email) probes)
    (hno' : NoneMatches checkpw email (hashOf m'.users email) probes) :
    answers mint checkpw dummyHash settings m probes
      = answers mint checkpw dummyHash settings m' probes :=
  answers_inStep mint checkpw dummyHash settings probes ⟨halike, rfl, rfl⟩ hno hno'

end

/-- Ann's service, and the same without her. -/
def withAnn : MailService := { toWorker := annsWorker }

def withoutAnn : MailService := { toWorker := { annsWorker with users := [] } }

def probesForAnn : List (Time × Probe) :=
  [(0, .login "ann@example.com" "Wrong-1" "t0"), (1, .forgotPassword "ann@example.com" "t1"),
    (2, .resendVerification "ann@example.com" "t2")]

theorem ann_unseen :
    answers (fun _ _ => ("jwt", 3600)) (fun p hash => p == hash) "" ⟨1, 1, "https://example.com"⟩
        withAnn probesForAnn
      = answers (fun _ _ => ("jwt", 3600)) (fun p hash => p == hash) "" ⟨1, 1, "https://example.com"⟩
        withoutAnn probesForAnn := by
  have halike : AlikeBut "ann@example.com" withAnn.toServer withoutAnn.toServer := by
    refine ⟨rfl, fun e he => ?_, fun _ _ => rfl⟩
    have hann : ann.email ≠ e := fun h => he h.symm
    simp [withAnn, withoutAnn, annsWorker, userByEmail, hann]
  refine answers_alike _ _ _ _ "ann@example.com" halike ?_ ?_
  · intro now password fresh hmem stored hstored
    have hpassword : password = "Wrong-1" := by simp_all [probesForAnn]
    cases hstored
    rw [hpassword]
    decide
  · intro now password fresh hmem stored hstored
    cases hstored

end Microservices.Users
