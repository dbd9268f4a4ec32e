import Microservices.Lib.Schedule
import Microservices.Users.Accounts
import Microservices.Users.Minting
import Microservices.Users.Passwords

/-!
# Only the chosen password opens the account

A run is a list of requests to one service. Whichever of the three requests sets a
password, the rows of its account hold a hash of it until the next one sets another:
no request but these writes the column, and these write the row of one account.

So a login is turned away exactly if what it gives is hashed to something else, and
of two long passwords that may be the same part.
-/

namespace Microservices.Users

open Effects Identity Schedule

/-- Which request sets a password. -/
inductive Setter where
  | register
  | updateMe
  | resetPassword
  deriving DecidableEq, Repr

/-- A request as it comes in; `salt` is what `gensalt` draws for it. -/
inductive PasswordEvent where
  | tick (t : Time)
  | register (f : RegisterFaults) (uid : UUID) (token salt : String) (payload : UserCreate)
  | login (f : LoginFaults) (fresh email password : String)
  /-- A refresh, a verification or a password reset. -/
  | token (f : Faults) (salt : String) (req : TokenRequest)
  | account (caller : CallerHeaders) (salt : String) (r : AccountRequest)
  /-- Another request has changed Redis. -/
  | redis (redis : ExpiringStore String String Time)

inductive Reply where
  | success
  /-- 422. -/
  | unprocessable (error : FieldError)
  | failure (e : Failure)

/-- How a request ended, as its client sees it. -/
def Reply.of {σ α : Type} : EStateM.Result Failure σ α → Reply
  | .ok _ _ => .success
  | .error e _ => .failure e

section

variable (settings : MailSettings) (classes : CharClasses) (bcrypt : Bcrypt)
  (mint : Time → User → String × Int) (dummyHash : String)

/-- The validation of the body, less emails, user names and tokens. -/
def PasswordEvent.validate : PasswordEvent → Except FieldError Unit
  | .register _ _ _ _ payload => payload.validate classes
  | .token _ _ (.resetPassword _ newPassword) =>
      (ResetPasswordRequest.newPasswordField classes newPassword).map fun _ => ()
  | .account _ _ (.updateMe payload) => payload.validate classes
  | _ => .ok ()

/-- What the handler makes of a request. -/
def respond (s : MailService) : PasswordEvent → Reply × MailService
  | .tick t => (.success, { s with now := max s.now t })
  | .register f uid token salt payload =>
      let r := (handleRegister settings (bcrypt.hashText salt) f uid token payload).run s
      (.of r, final r)
  | .login f fresh email password =>
      let r := (handleLogin (mint s.now) bcrypt.verifyText dummyHash f fresh email password).run
        s.toWorker
      (.of r, { s with toWorker := final r })
  | .token f salt req =>
      let r := (handle (mint s.now) (bcrypt.hashText salt) f req).run s.toServer
      (.of r, { s with toServer := final r })
  | .account caller salt r =>
      let result := route (bcrypt.hashText salt) r caller s.users
      (match result with
        | .ok _ => .success
        | .error e => .failure (.http e),
        { s with users := committed result s.users })
  | .redis redis => (.success, { s with redis })

/-- A body that is refused does not reach the handler. -/
def receive (s : MailService) (e : PasswordEvent) : Reply × MailService :=
  match e.validate classes with
  | .error error => (.unprocessable error, s)
  | .ok () => respond settings bcrypt mint dummyHash s e

def passwordStep (s : MailService) (e : PasswordEvent) : Option MailService :=
  some (receive settings classes bcrypt mint dummyHash s e).2

/-- The request sets the password of the account, if it succeeds. -/
inductive Sets (s : MailService) : PasswordEvent → Setter → UUID → String → Prop where
  | register (f : RegisterFaults) (uid : UUID) (token salt : String) (payload : UserCreate) :
      Sets s (.register f uid token salt payload) .register uid payload.password
  | updateMe {caller : CallerHeaders} {uid : UUID} (hcaller : parseCallerId caller = .ok uid)
      (salt : String) (fullName : Option String) (password : String) :
      Sets s (.account caller salt (.updateMe ⟨fullName, some password⟩)) .updateMe uid password
  | resetPassword {token : String} {uid : UUID} (howner : s.resetOwner token = some uid)
      (f : Faults) (salt newPassword : String) :
      Sets s (.token f salt (.resetPassword token newPassword)) .resetPassword uid newPassword

/-- The commit of the request goes through, and its answer gets lost. -/
def PasswordEvent.CommitLost : PasswordEvent → Prop
  | .register f _ _ _ _ => f.commit = .after
  | .token f _ _ => f.commit = .after
  | _ => False

/-- The request sets a password of the account, whether or not its client learns of it. -/
def Replaces (uid : UUID) (s : MailService) (e : PasswordEvent) : Prop :=
  (∃ k p, Sets s e k uid p)
    ∧ ((receive settings classes bcrypt mint dummyHash s e).1 = .success ∨ e.CommitLost)

/--
**Only the chosen password opens the account.**

Once a request has set `p`, a login to the account with `q` is turned away, after
whatever requests that set no other password of it.
-/
def OnlyChosenOpens (k : Setter) (p q : String) : Prop :=
  ∀ s e uid, Sets s e k uid p →
    (receive settings classes bcrypt mint dummyHash s e).1 = .success →
    ∀ es t, exec (passwordStep settings classes bcrypt mint dummyHash)
        (receive settings classes bcrypt mint dummyHash s e).2 es = some t →
      Meets (passwordStep settings classes bcrypt mint dummyHash)
        (fun s e => ¬ Replaces settings classes bcrypt mint dummyHash uid s e)
        (receive settings classes bcrypt mint dummyHash s e).2 es →
      ∀ f fresh email, (∀ user ∈ userByEmail t.users email, user.id = uid) →
        (receive settings classes bcrypt mint dummyHash t (.login f fresh email q)).1
          = .failure (.http invalidCredentials)

end

/-! ## What a request leaves of the passwords -/

/-- The account has only hashes that it had. -/
def HashesKept (uid : UUID) (users users' : List User) : Prop :=
  ∀ u' ∈ users', u'.id = uid → ∃ u ∈ users, u.id = uid ∧ u.hashedPassword = u'.hashedPassword

section

variable {uid userId : UUID} {users : List User}

theorem hashesKept_refl (uid : UUID) (users : List User) : HashesKept uid users users :=
  fun u hu hid => ⟨u, hu, hid, rfl⟩

theorem hashesKept_updateUser {change : User → User} (hid : ∀ u, (change u).id = u.id)
    (hhash : userId = uid → ∀ u, (change u).hashedPassword = u.hashedPassword) :
    HashesKept uid users (updateUser userId change users) := by
  intro u' hu' huid
  obtain ⟨u, hu, hsame, heq⟩ := row_of_updateUser hu' hid
  refine ⟨u, hu, hsame.trans huid, ?_⟩
  rw [heq]
  split
  · rename_i hrow
    exact (hhash (hrow.symm.trans huid) u).symm
  · rfl

theorem hashesKept_deleteUser : HashesKept uid users (deleteUser userId users) :=
  fun u hu hid => ⟨u, List.mem_of_mem_filter hu, hid, rfl⟩

theorem hashesKept_append {user : User} (hne : user.id ≠ uid) :
    HashesKept uid users (users ++ [user]) := by
  intro u hu hid
  rcases List.mem_append.mp hu with hold | hnew
  · exact ⟨u, hold, hid, rfl⟩
  · rw [List.mem_singleton.mp hnew] at hid
    exact absurd hid hne

/-- An account request writes hashes only where a password is given, and then the caller's. -/
theorem hashesKept_of_effect {hashpw : String → String} {caller : CallerHeaders}
    {r : AccountRequest} {flush : Flush} (heffect : AccountEffect hashpw caller r flush)
    (hother : ∀ fullName password, r = .updateMe ⟨fullName, some password⟩ →
      parseCallerId caller ≠ .ok uid) :
    HashesKept uid users (flush users) := by
  cases heffect with
  | refused => exact hashesKept_refl uid users
  | update payload hcaller =>
      refine hashesKept_updateUser (fun _ => rfl) fun huid u => ?_
      obtain ⟨fullName, password⟩ := payload
      cases password with
      | none => rfl
      | some password => exact absurd (huid ▸ hcaller) (hother fullName password rfl)
  | deactivate => exact hashesKept_updateUser (fun _ => rfl) fun _ _ => rfl
  | hardDelete => exact hashesKept_deleteUser
  | promote => exact hashesKept_updateUser (fun _ => rfl) fun _ _ => rfl
  | demote => exact hashesKept_updateUser (fun _ => rfl) fun _ _ => rfl
  | delete => exact hashesKept_deleteUser

/-- A request under a token writes one hash, that of its account. -/
theorem hashesKept_of_tokenEffect {hashpw : String → String} {s : Server} {req : TokenRequest}
    {flush : Flush} (heffect : TokenEffect hashpw s req flush)
    (hother : ∀ token newPassword, req = .resetPassword token newPassword →
      s.resetOwner token ≠ some uid) : HashesKept uid users (flush users) := by
  cases heffect with
  | refresh => exact hashesKept_refl uid users
  | verified => exact hashesKept_refl uid users
  | verify => exact hashesKept_updateUser (fun _ => rfl) fun _ _ => rfl
  | @reset token newPassword _ howner =>
      refine hashesKept_updateUser (fun _ => rfl) fun huid _ => ?_
      exact absurd (huid ▸ howner) (hother token newPassword rfl)

end

section

variable {settings : MailSettings} {classes : CharClasses} {bcrypt : Bcrypt}
  {mint : Time → User → String × Int} {dummyHash : String} {s : MailService} {e : PasswordEvent}
  {uid : UUID}

/-- A request is refused for its body, or handled. -/
theorem receive_cases (settings : MailSettings) (classes : CharClasses) (bcrypt : Bcrypt)
    (mint : Time → User → String × Int) (dummyHash : String) (s : MailService)
    (e : PasswordEvent) :
    (∃ error, receive settings classes bcrypt mint dummyHash s e = (.unprocessable error, s))
      ∨ receive settings classes bcrypt mint dummyHash s e
        = respond settings bcrypt mint dummyHash s e := by
  unfold receive
  cases e.validate classes with
  | error error => exact Or.inl ⟨error, rfl⟩
  | ok _ => exact Or.inr rfl

/-- What the handlers leave of an account whose password they do not replace. -/
theorem respond_kept (hother : ∀ k p, Sets s e k uid p →
      (respond settings bcrypt mint dummyHash s e).1 ≠ .success ∧ ¬ e.CommitLost) :
    HashesKept uid s.users (respond settings bcrypt mint dummyHash s e).2.users := by
  cases e with
  | tick t => exact hashesKept_refl uid s.users
  | redis redis => exact hashesKept_refl uid s.users
  | register f userId token salt payload =>
      rcases handleRegister_cases settings (bcrypt.hashText salt) f userId token payload s with
        ⟨err, s', hrun, husers⟩ | ⟨-, husers, hdone⟩
      · simp only [respond, hrun, final, husers]
        exact hashesKept_refl uid s.users
      · simp only [respond, husers]
        refine hashesKept_append fun hid => ?_
        -- it is this account's registration, and it went through
        obtain ⟨hfailed, hanswered⟩ := hother .register payload.password
          (hid ▸ .register f userId token salt payload)
        rcases hdone with hlost | ⟨a, s', hrun⟩
        · exact hanswered hlost
        · refine hfailed ?_
          simp only [respond, hrun, Reply.of]
  | login f fresh email password =>
      obtain ⟨-, husers | ⟨userId, t, husers⟩⟩ := handleLogin_cases (mint s.now) bcrypt.verifyText
        dummyHash f fresh email password s.toWorker
      · simp only [respond, husers]
        exact hashesKept_refl uid s.users
      · simp only [respond, husers]
        exact hashesKept_updateUser (fun _ => rfl) fun _ _ => rfl
  | token f salt req =>
      rcases handle_cases (mint s.now) (bcrypt.hashText salt) f req s.toServer with
        ⟨err, s', hrun, husers⟩ | ⟨flush, heffect, husers, hdone⟩
      · simp only [respond, hrun, final, husers]
        exact hashesKept_refl uid s.users
      · simp only [respond, husers]
        refine hashesKept_of_tokenEffect heffect fun token newPassword hreq howner => ?_
        subst hreq
        obtain ⟨hfailed, hanswered⟩ := hother .resetPassword newPassword
          (.resetPassword howner f salt newPassword)
        rcases hdone with hlost | ⟨a, s', hrun⟩
        · exact hanswered hlost
        · refine hfailed ?_
          simp only [respond, hrun, Reply.of]
  | account caller salt r =>
      cases hroute : route (bcrypt.hashText salt) r caller s.users with
      | error err =>
          simp only [respond, hroute, committed]
          exact hashesKept_refl uid s.users
      | ok answer =>
          obtain ⟨flush, heffect, hcommitted⟩ := route_effect (bcrypt.hashText salt) r caller s.users
          simp only [respond, hcommitted]
          refine hashesKept_of_effect heffect fun fullName password hr hcaller => ?_
          subst hr
          refine (hother .updateMe password (.updateMe hcaller salt fullName password)).1 ?_
          simp only [respond, hroute]

/-- **No request changes the password of an account but those that replace it.** -/
theorem receive_kept (hother : ¬ Replaces settings classes bcrypt mint dummyHash uid s e) :
    HashesKept uid s.users (receive settings classes bcrypt mint dummyHash s e).2.users := by
  rcases receive_cases settings classes bcrypt mint dummyHash s e with ⟨error, h⟩ | h
  · rw [h]
    exact hashesKept_refl uid s.users
  · unfold Replaces at hother
    rw [h] at hother ⊢
    refine respond_kept fun k p hsets => ?_
    exact not_or.mp fun hdone => hother ⟨⟨k, p, hsets⟩, hdone⟩

/-- The account has no other hash than those of `p`. -/
def PasswordIs (bcrypt : Bcrypt) (uid : UUID) (p : String) (users : List User) : Prop :=
  ∀ u ∈ users, u.id = uid → ∃ salt, u.hashedPassword = bcrypt.hashText salt p

theorem PasswordIs.kept {p : String} {users users' : List User}
    (h : PasswordIs bcrypt uid p users) (hkept : HashesKept uid users users') :
    PasswordIs bcrypt uid p users' := by
  intro u' hu' hid
  obtain ⟨u, hu, huid, hsame⟩ := hkept u' hu' hid
  rw [← hsame]
  exact h u hu huid

theorem passwordIs_updateUser {change : User → User} {salt p : String} (users : List User)
    (hid : ∀ u, (change u).id = u.id)
    (hhash : ∀ u, (change u).hashedPassword = bcrypt.hashText salt p) :
    PasswordIs bcrypt uid p (updateUser uid change users) := by
  intro u' hu' huid
  obtain ⟨u, -, -, heq⟩ := row_of_updateUser hu' hid
  rw [if_pos huid] at heq
  rw [heq]
  exact ⟨salt, hhash u⟩

/-- **A request that sets a password has set it when it succeeds.** -/
theorem receive_sets {k : Setter} {p : String} (hsets : Sets s e k uid p)
    (hsuccess : (receive settings classes bcrypt mint dummyHash s e).1 = .success) :
    PasswordIs bcrypt uid p (receive settings classes bcrypt mint dummyHash s e).2.users := by
  rcases receive_cases settings classes bcrypt mint dummyHash s e with ⟨error, h⟩ | h
  · rw [h] at hsuccess
    cases hsuccess
  rw [h] at hsuccess ⊢
  cases hsets with
  | register f uid token salt payload =>
      rcases handleRegister_cases settings (bcrypt.hashText salt) f uid token payload s with
        ⟨err, s', hrun, -⟩ | ⟨hfresh, husers, -⟩
      · simp only [respond, hrun, Reply.of] at hsuccess
        cases hsuccess
      · simp only [respond, husers]
        intro u hu hid
        rcases List.mem_append.mp hu with hold | hnew
        · exact absurd hid (hfresh u hold)
        · rw [List.mem_singleton.mp hnew]
          exact ⟨salt, rfl⟩
  | updateMe hcaller salt fullName password =>
      simp only [respond, route, committed_updateMe hcaller]
      exact passwordIs_updateUser _ (fun _ => rfl) fun _ => rfl
  | @resetPassword token _ howner f salt _ =>
      rcases handle_cases (mint s.now) (bcrypt.hashText salt) f (.resetPassword token p)
        s.toServer with ⟨err, s', hrun, -⟩ | ⟨flush, heffect, husers, -⟩
      · simp only [respond, hrun, Reply.of] at hsuccess
        cases hsuccess
      · simp only [respond, husers]
        cases heffect with
        | reset howner' =>
            cases howner.symm.trans howner'
            exact passwordIs_updateUser _ (fun _ => rfl) fun _ => rfl

/-! ## What a login makes of it -/

/-- A password that is hashed to something else does not open the account. -/
theorem login_turnedAway {p q email : String} (laws : bcrypt.CollisionFree)
    (hne : hashedPart p ≠ hashedPart q) (h : PasswordIs bcrypt uid p s.users)
    (hrow : ∀ user ∈ userByEmail s.users email, user.id = uid) (f : LoginFaults) (fresh : String) :
    (receive settings classes bcrypt mint dummyHash s (.login f fresh email q)).1
      = .failure (.http invalidCredentials) := by
  have hwrong : ∀ user ∈ userByEmail s.users email,
      bcrypt.verifyText q user.hashedPassword = false := by
    intro user huser
    obtain ⟨salt, hhash⟩ := h user (List.mem_of_find?_eq_some huser) (hrow user huser)
    rw [hhash, ← Bool.not_eq_true, laws.verifyText_iff]
    exact fun heq => hne heq.symm
  obtain ⟨w', hrun⟩ := handleLogin_refused (mint s.now) bcrypt.verifyText dummyHash
    (judged_refused bcrypt.verifyText hwrong) fresh (f := f) (w := s.toWorker)
  show Reply.of ((handleLogin (mint s.now) bcrypt.verifyText dummyHash f fresh email q).run
    s.toWorker) = _
  rw [hrun]
  rfl

/-- One that is hashed to the same does, if the account is active and not locked. -/
theorem login_opens {p q email salt : String} {user : User} (laws : bcrypt.CollisionFree)
    (heq : hashedPart p = hashedPart q) (hrow : userByEmail s.users email = some user)
    (hactive : user.isActive = true) (hhash : user.hashedPassword = bcrypt.hashText salt p)
    (hunlocked : s.toWorker.lockRead {} email = false) (fresh : String) :
    (receive settings classes bcrypt mint dummyHash s (.login {} fresh email q)).1
      = .success := by
  have hright : bcrypt.verifyText q user.hashedPassword = true := by
    rw [hhash, laws.verifyText_iff]
    exact heq.symm
  have hjudged : judged bcrypt.verifyText (s.toWorker.lockRead {} email) s.users email q
      = .ok user := by
    unfold judged
    rw [hrow, hunlocked]
    dsimp only
    rw [if_neg (by simp [hright]), if_pos hactive]
  obtain ⟨response, w', hrun⟩ := handleLogin_welcomes (mint s.now) bcrypt.verifyText dummyHash
    hjudged rfl fresh (f := {}) (w := s.toWorker)
  show Reply.of ((handleLogin (mint s.now) bcrypt.verifyText dummyHash {} fresh email q).run
    s.toWorker) = _
  rw [hrun]
  rfl

/-- **Passwords that are hashed to something else are turned away**, as long as `p` is set. -/
theorem onlyChosenOpens_of_ne {p q : String} (laws : bcrypt.CollisionFree)
    (hne : hashedPart p ≠ hashedPart q) (k : Setter) :
    OnlyChosenOpens settings classes bcrypt mint dummyHash k p q := by
  intro s e uid hsets hsuccess es t hrun hmeets f fresh email hrow
  refine login_turnedAway laws hne ?_ hrow f fresh
  refine exec_invariant (I := fun s : MailService => PasswordIs bcrypt uid p s.users)
    (fun s e s' hs hother hstep => ?_) (receive_sets hsets hsuccess) hmeets hrun
  cases hstep
  exact hs.kept (receive_kept hother)

end

/-! ## Passwords with the same part hashed -/

def kimId : UUID := .ofNat 9

/-- Kim's account, with the hash of her password. -/
def kim (hashedPassword : String) : User :=
  { id := kimId, email := "kim@example.com", username := "kim", hashedPassword }

/-- Kim's service, once a mail with a reset token is out. -/
def kimsService : MailService where
  now := 0
  redis := ExpiringStore.empty.put (resetKey "kims-reset-token-01") kimId.text (some 3600000)
  users := [kim ""]
  client := true

/-- Each of the three requests, where Kim makes it. -/
def kimSets (p : String) : Setter → MailService × PasswordEvent
  | .register => ({ kimsService with redis := ExpiringStore.empty, users := [] },
      .register {} kimId "kims-verify-token-1" "$2b$12$salt"
        { email := "kim@example.com", username := "kim", password := p })
  | .updateMe =>
      (kimsService,
        .account { xUserId := kimId.text } "$2b$12$salt" (.updateMe { password := some p }))
  | .resetPassword =>
      (kimsService, .token {} "$2b$12$salt" (.resetPassword "kims-reset-token-01" p))

section

variable (settings : MailSettings) (classes : CharClasses) (bcrypt : Bcrypt)
  (mint : Time → User → String × Int) (dummyHash : String)

theorem kimSets_sets (k : Setter) (p : String) :
    Sets (kimSets p k).1 (kimSets p k).2 k kimId p := by
  cases k with
  | register => exact .register {} kimId _ _ _
  | updateMe =>
      refine .updateMe ?_ _ none p
      rw [parseCallerId, UUID.ofText?_text]
  | resetPassword =>
      have hstored : kimsService.redis.get 0 (resetKey "kims-reset-token-01")
          = some kimId.text := rfl
      refine .resetPassword ?_ {} _ p
      show (kimsService.redis.get 0 (resetKey "kims-reset-token-01")).bind UUID.ofText? = _
      rw [hstored, Option.bind_some, UUID.ofText?_text]

/-- Where nothing fails each of them succeeds. -/
theorem kimSets_responds (k : Setter) (p : String) :
    ∃ t, respond settings bcrypt mint dummyHash (kimSets p k).1 (kimSets p k).2 = (.success, t)
      ∧ t.users = [kim (bcrypt.hashText "$2b$12$salt" p)]
      ∧ t.toWorker.lockRead {} "kim@example.com" = false := by
  cases k with
  | register => exact ⟨_, rfl, rfl, rfl⟩
  | updateMe => exact ⟨_, rfl, rfl, rfl⟩
  | resetPassword => exact ⟨_, rfl, rfl, rfl⟩

/-- With an accepted password each of them is handled. -/
theorem receive_kimSets {p : String} (hp : Accepted classes p) (k : Setter) :
    receive settings classes bcrypt mint dummyHash (kimSets p k).1 (kimSets p k).2
      = respond settings bcrypt mint dummyHash (kimSets p k).1 (kimSets p k).2 := by
  have hvalid : (kimSets p k).2.validate classes = .ok () := by
    cases k with
    | register =>
        simp only [kimSets, PasswordEvent.validate, UserCreate.validate, UserCreate.passwordField,
          passwordWithin_ok hp]
        rfl
    | updateMe =>
        simp only [kimSets, PasswordEvent.validate, UserUpdate.validate, UserUpdate.passwordField,
          passwordWithin_ok hp]
        rfl
    | resetPassword =>
        simp only [kimSets, PasswordEvent.validate, ResetPasswordRequest.newPasswordField,
          passwordWithin_ok hp]
        rfl
  rw [receive, hvalid]

variable {bcrypt}

/-- **Whichever request sets it, another password with the same part hashed opens the account.** -/
theorem not_onlyChosenOpens_of_eq {classes} {p q : String} (laws : bcrypt.CollisionFree)
    (hp : Accepted classes p) (heq : hashedPart p = hashedPart q) (k : Setter) :
    ¬ OnlyChosenOpens settings classes bcrypt mint dummyHash k p q := by
  intro h
  have hsets := kimSets_sets k p
  obtain ⟨t, hresponds, husers, hunlocked⟩ := kimSets_responds settings bcrypt mint dummyHash k p
  have hreceive := (receive_kimSets settings classes bcrypt mint dummyHash hp k).trans hresponds
  have hrow : userByEmail t.users "kim@example.com"
      = some (kim (bcrypt.hashText "$2b$12$salt" p)) := by
    rw [husers]
    rfl
  have hid : ∀ user ∈ userByEmail t.users "kim@example.com", user.id = kimId := by
    intro user huser
    rw [hrow] at huser
    cases huser
    rfl
  have hrefused := h _ _ _ hsets (by rw [hreceive]) [] t (by rw [hreceive]; rfl) trivial {} "fresh"
    "kim@example.com" hid
  rw [login_opens laws heq hrow rfl rfl hunlocked "fresh"] at hrefused
  cases hrefused

end

/--
**When only the chosen password opens the account**: exactly if the two differ in
the 72 bytes that are hashed.

Whichever of the three requests sets `p`, and after every run that sets no other
password of the account: a login with `q` is turned away if they do, and there is a
run after which it gets in if they do not.
-/
theorem onlyChosenOpens_iff (settings : MailSettings) (classes : CharClasses) {bcrypt : Bcrypt}
    (laws : bcrypt.CollisionFree) (mint : Time → User → String × Int) (dummyHash : String)
    (k : Setter) {p : String} (hp : Accepted classes p) (q : String) :
    OnlyChosenOpens settings classes bcrypt mint dummyHash k p q
      ↔ hashedPart p ≠ hashedPart q :=
  ⟨fun h heq => not_onlyChosenOpens_of_eq settings mint dummyHash laws hp heq k h,
    fun hne => onlyChosenOpens_of_ne laws hne k⟩

/-! ## Two passwords of 73 characters -/

/-- The letters and digits of ASCII, and no others. -/
def asciiClasses : CharClasses where
  isupper := Char.isUpper
  isdigit := Char.isDigit

/-- A digest that spells out what it is of. -/
def spellOut (bytes : Bytes) : List Char :=
  (bytes.take 72).map fun b => Char.ofNat (0x100 + b.toNat)

/-- The hash is the salt, and the digest after a `$`. -/
def plainBcrypt : Bcrypt where
  hashpw := fun p salt => salt ++ "$" ++ String.ofList (spellOut p)
  checkpw := fun q hashed => hashed.toList.reverse.takeWhile (· ≠ '$') = (spellOut q).reverse

theorem toNat_spelt (b : UInt8) : (Char.ofNat (0x100 + b.toNat)).toNat = 0x100 + b.toNat := by
  have hb := b.toNat_lt
  have hvalid : (0x100 + b.toNat).isValidChar := Or.inl (by omega)
  rw [Char.ofNat, dif_pos hvalid]
  rfl

theorem spellOut_inj {p q : Bytes} : spellOut p = spellOut q ↔ p.take 72 = q.take 72 := by
  refine (List.map_injective_iff.mpr fun a b h => ?_).eq_iff
  have hnat := congrArg Char.toNat h
  rw [toNat_spelt, toNat_spelt] at hnat
  exact UInt8.toNat_inj.mp (by omega)

theorem plainBcrypt_collisionFree : plainBcrypt.CollisionFree := by
  refine ⟨fun p salt q => ?_⟩
  have hdigest : ∀ c ∈ (spellOut p).reverse, decide (c ≠ '$') = true := by
    intro c hc
    obtain ⟨b, -, rfl⟩ := List.mem_map.mp (List.mem_reverse.mp hc)
    refine decide_eq_true fun h => ?_
    have hnat := congrArg Char.toNat h
    rw [toNat_spelt] at hnat
    have hdollar : '$'.toNat = 36 := rfl
    omega
  have htext : (plainBcrypt.hashpw p salt).toList.reverse
      = (spellOut p).reverse ++ '$' :: salt.toList.reverse := by
    simp [plainBcrypt]
  have htake : (plainBcrypt.hashpw p salt).toList.reverse.takeWhile (· ≠ '$')
      = (spellOut p).reverse := by
    rw [htext, List.takeWhile_append_of_pos hdigest, List.takeWhile_cons_of_neg (by simp),
      List.append_nil]
  show decide (_ = _) = true ↔ _
  rw [decide_eq_true_iff, htake, List.reverse_inj, spellOut_inj]
  exact eq_comm

theorem onlyChosenOpens_secret :
    Accepted asciiClasses "Secret123"
      ∧ OnlyChosenOpens mailDefaults asciiClasses plainBcrypt (fun _ _ => ("jwt", 3600)) ""
        .resetPassword "Secret123" "Secret124" :=
  ⟨by decide +kernel, (onlyChosenOpens_iff mailDefaults asciiClasses plainBcrypt_collisionFree _ ""
    .resetPassword (by decide +kernel) "Secret124").mpr
      (hashedPart_ne_of_short (by decide) (by decide) (by decide))⟩

def seventyThree (last : Char) : String :=
  String.ofList ('A' :: '1' :: List.replicate 70 'a' ++ [last])

/-- The first two characters already meet both character rules, whatever the last one is. -/
theorem accepted_seventyThree (last : Char) : Accepted asciiClasses (seventyThree last) := by
  unfold Accepted seventyThree
  rw [String.length_ofList, String.toList_ofList]
  refine ⟨by simp, ?_, ?_⟩
  · rw [List.cons_append, List.any_cons]
    rfl
  · rw [List.cons_append, List.any_cons, List.cons_append, List.any_cons]
    rfl

/-- **The second password opens the account**, whichever request set the first. -/
theorem second_password_opens :
    Accepted asciiClasses (seventyThree 'x') ∧ Accepted asciiClasses (seventyThree 'y')
      ∧ seventyThree 'x' ≠ seventyThree 'y'
      ∧ ∀ k, ¬ OnlyChosenOpens mailDefaults asciiClasses plainBcrypt (fun _ _ => ("jwt", 3600)) "" k
          (seventyThree 'x') (seventyThree 'y') := by
  refine ⟨accepted_seventyThree 'x', accepted_seventyThree 'y', by decide +kernel, fun k => ?_⟩
  exact not_onlyChosenOpens_of_eq mailDefaults _ "" plainBcrypt_collisionFree
    (accepted_seventyThree 'x') (by decide +kernel) k

end Microservices.Users
