import Microservices.Users.Mail

/-!
# Registering

`register` adds the new row to the session and flushes it, so that the database
has accepted it; it is committed only when `get_db` resumes, after the handler. The
verification mail is sent by the handler itself. A commit that fails takes back
the row, and neither the token nor the mail.

A registration that loses its email or username to a concurrent one is a flush
that fails.
-/

namespace Microservices.Users

open Effects

/-- A `UserCreate` that has passed validation. -/
structure UserCreate where
  email : String
  username : String
  password : String
  fullName : Option String := none

/-- What becomes of the awaits of one registration. -/
structure RegisterFaults where
  query : Fault := .none
  hash : Fault := .none
  flush : Fault := .none
  refresh : Fault := .none
  mail : MailFaults := {}
  /-- What is raised once the handler's work is done, such as by the response. -/
  respond : Fault := .none
  commit : Fault := .none

def alreadyRegistered : HTTPException :=
  { statusCode := 409, detail := "Email or username already registered" }

/-- `select(User).where((User.email == payload.email) | (User.username == payload.username))`. -/
def holders (payload : UserCreate) (users : List User) : List User :=
  users.filter fun u => u.email = payload.email ∨ u.username = payload.username

/-- `if existing.scalar_one_or_none()`. -/
def refuseExisting : List User → MailAction Unit
  | [] => return ()
  | [_] => throw (.http alreadyRegistered)
  -- `MultipleResultsFound`: one row has the email and another the username
  | _ => throw .infrastructure

/-- The row that is added, with the defaults of its columns; `uid` is the `uuid4` of its id. -/
def UserCreate.newUser (payload : UserCreate) (uid : UUID) (hashedPassword : String) : User :=
  { id := uid, email := payload.email, username := payload.username, hashedPassword
    fullName := payload.fullName }

/-- `db.flush()`, where the table has its primary key and two unique columns. -/
def flushNew (f : RegisterFaults) (user : User) : MailAction Unit :=
  await .infrastructure f.flush do
    let s ← get
    if ∃ u ∈ s.users, u.id = user.id ∨ u.email = user.email ∨ u.username = user.username then
      throw .infrastructure
    else return ()

/-- `get_db` around a handler. -/
def MailService.withDb {α : Type} (commit : Fault) (body : MailAction (α × Flush)) :
    MailAction α := do
  let (a, flush) ← body
  await .infrastructure commit <| modify fun s => { s with users := flush s.users }
  return a

section

variable (settings : MailSettings) (hashpw : String → String)

/-- `register`, up to the row that has been flushed and read back. -/
def addUser (f : RegisterFaults) (uid : UUID) (payload : UserCreate) : MailAction User := do
  let existing ← await .infrastructure f.query do
    let s ← get
    return holders payload s.users
  refuseExisting existing
  let hashedPassword ← onWorker (onServer (hashPassword hashpw { hash := f.hash } payload.password))
  let user := payload.newUser uid hashedPassword
  flushNew f user
  await .infrastructure f.refresh (return ())
  return user

/-- `register`, less its audit line; `token` is the one the mail draws. -/
def register (f : RegisterFaults) (uid : UUID) (token : String) (payload : UserCreate) :
    MailAction (UserResponse × Flush) := do
  let user ← addUser hashpw f uid payload
  orReturn (sendVerificationEmail settings f.mail token user) ()
  await .infrastructure f.respond (return ())
  return (.ofUser user, fun users => users ++ [user])

/-- One request. -/
def handleRegister (f : RegisterFaults) (uid : UUID) (token : String) (payload : UserCreate) :
    MailAction UserResponse :=
  MailService.withDb f.commit (register settings hashpw f uid token payload)

end

/-! ## How far a registration gets -/

/-- The row is flushed: nobody holds its unique columns, and no await before the mail fails. -/
def Flushed (f : RegisterFaults) (uid : UUID) (payload : UserCreate) (users : List User) : Prop :=
  f.query = .none ∧ holders payload users = [] ∧ f.hash = .none
    ∧ (f.flush = .none ∧ ∀ u ∈ users, u.id ≠ uid) ∧ f.refresh = .none

/-! ## What a run does for a user, and when -/

section

variable {α : Type}

/-- The run stores a verification token of the user: Redis has it then, whatever it had before. -/
def StoresTokenOf (user : User) (h : MailAction α) (s : MailService) : Prop :=
  ∃ token expiresAt, ∀ redis, (final (h.run { s with redis })).redis (verifyKey token)
    = some ⟨user.id.text, expiresAt⟩

/-- The run sends a mail to the user. -/
def SendsMailTo (user : User) (h : MailAction α) (s : MailService) : Prop :=
  ∃ new, (final (h.run s)).outbox = new ++ s.outbox ∧ ∃ mail ∈ new, mail.recipient = user.email

def Announces (user : User) (h : MailAction α) (s : MailService) : Prop :=
  StoresTokenOf user h s ∨ SendsMailTo user h s

/-- Who is announced by the time `h` is done is committed by then. -/
def AnnouncedIsDurable (user : User) (h : MailAction α) (s : MailService) : Prop :=
  Announces user h s → user ∈ (final (h.run s)).users

end

/--
**Side effects follow durability**, in a run of `register` and the commit after it:
both when the handler is done and when the request is.
-/
def FollowsDurability (settings : MailSettings) (hashpw : String → String) (f : RegisterFaults)
    (uid : UUID) (token : String) (payload : UserCreate) (s : MailService) : Prop :=
  let user := payload.newUser uid (hashpw payload.password)
  AnnouncedIsDurable user (register settings hashpw f uid token payload) s
    ∧ AnnouncedIsDurable user (handleRegister settings hashpw f uid token payload) s

/-! ## Up to the mail -/

section

variable {settings : MailSettings} {hashpw : String → String} {f : RegisterFaults} {uid : UUID}
  {token : String} {payload : UserCreate} {s : MailService}

theorem refuseExisting_returnsIf (existing : List User) :
    ReturnsIf (existing = []) s (refuseExisting existing) () := by
  match existing with
  | [] => exact ⟨fun _ => rfl, fun h => absurd rfl h⟩
  | [_] => exact ⟨nofun, fun _ => ⟨_, rfl⟩⟩
  | _ :: _ :: _ => exact ⟨nofun, fun _ => ⟨_, rfl⟩⟩

theorem not_held {u : User} (hfree : holders payload s.users = []) (hu : u ∈ s.users) :
    ¬ (u.email = payload.email ∨ u.username = payload.username) := by
  simpa using List.filter_eq_nil_iff.mp hfree u hu

/-- With its email and username free, a row is refused only for its id. -/
theorem flushNew_returnsIf (hfree : holders payload s.users = []) (hashedPassword : String) :
    ReturnsIf (f.flush = .none ∧ ∀ u ∈ s.users, u.id ≠ uid) s
      (flushNew f (payload.newUser uid hashedPassword)) () := by
  refine returnsIf_await _ _ (ReturnsIf.get_bind (ReturnsIf.congr ?_ (returnsIf_throw_if _)))
  rw [not_exists]
  refine forall_congr' fun u => ?_
  rw [not_and]
  refine imp_congr_right fun hu => not_congr ?_
  exact or_iff_left (not_held hfree hu)

theorem addUser_returnsIf :
    ReturnsIf (Flushed f uid payload s.users) s (addUser hashpw f uid payload)
      (payload.newUser uid (hashpw payload.password)) := by
  have hquery : ReturnsIf (f.query = .none ∧ True) s (await .infrastructure f.query do
      let s ← get
      return holders payload s.users : MailAction (List User)) (holders payload s.users) :=
    returnsIf_await _ _ (ReturnsIf.get_bind returnsIf_pure)
  have hhash : ReturnsIf (f.hash = .none) s
      (onWorker (onServer (hashPassword hashpw { hash := f.hash } payload.password)))
      (hashpw payload.password) :=
    returnsIf_onPart (returnsIf_onPart (returnsIf_await_pure _ _ _) rfl) rfl
  -- each check counts on those before: the flush on an email and a username that are free
  refine ReturnsIf.congr ?_ (hquery.bind fun _ => (refuseExisting_returnsIf _).bind fun hfree =>
    hhash.bind fun _ => (flushNew_returnsIf hfree _).bind fun _ =>
      (returnsIf_await_pure _ _ _).bind fun _ => returnsIf_pure)
  simp only [Flushed, and_true]

/-! ## The handler, and the commit after it -/

theorem register_refused (h : ¬ Flushed f uid payload s.users) :
    ∃ e, (register settings hashpw f uid token payload).run s = .error e s := by
  obtain ⟨e, he⟩ := addUser_returnsIf.2 h
  exact ⟨e, run_bind_error he _⟩

variable (settings) (hashpw) (token) in
/-- The mail is out when what is left of the handler can still raise. -/
theorem register_mailed (h : Flushed f uid payload s.users) :
    ∃ s', Mailed f.mail (verifyKey token) uid.text settings.verificationTtl s s'
      ∧ (f.respond = .none → ∃ a, (register settings hashpw f uid token payload).run s
          = .ok (a, fun users => users ++ [payload.newUser uid (hashpw payload.password)]) s')
      ∧ (f.respond ≠ .none →
          ∃ e, (register settings hashpw f uid token payload).run s = .error e s') := by
  let user := payload.newUser uid (hashpw payload.password)
  obtain ⟨s', hsent, hmailed⟩ := sendToken_mailed f.mail (verifyKey token)
    settings.verificationTtl user _ s
  have hrun : (register settings hashpw f uid token payload).run s = (do
      await .infrastructure f.respond (return ())
      return (.ofUser user, fun users => users ++ [user]) : MailAction _).run s' := by
    rw [register, run_bind_ok (addUser_returnsIf.1 h)]
    exact run_bind_ok (run_orReturn_ok hsent ()) _
  have hrespond : ReturnsIf (f.respond = .none) s'
      (await .infrastructure f.respond (return ()) : MailAction Unit) () :=
    returnsIf_await_pure _ _ _
  refine ⟨s', hmailed, fun hr => ?_, fun hr => ?_⟩
  · rw [hrun, run_bind_ok (hrespond.1 hr)]
    exact ⟨_, rfl⟩
  · obtain ⟨e, he⟩ := hrespond.2 hr
    rw [hrun, run_bind_error he]
    exact ⟨e, rfl⟩

section

variable (settings) (hashpw) (f) (uid) (token) (payload) (s)

/-- Either way the handler ends. -/
theorem register_final :
    (¬ Flushed f uid payload s.users
        ∧ final ((register settings hashpw f uid token payload).run s) = s)
      ∨ (Flushed f uid payload s.users
        ∧ Mailed f.mail (verifyKey token) uid.text settings.verificationTtl s
          (final ((register settings hashpw f uid token payload).run s))) := by
  by_cases h : Flushed f uid payload s.users
  · obtain ⟨s', hmailed, hok, herror⟩ := register_mailed settings hashpw token h
    refine Or.inr ⟨h, ?_⟩
    by_cases hr : f.respond = .none
    · obtain ⟨a, hrun⟩ := hok hr
      rw [hrun]
      exact hmailed
    · obtain ⟨e, hrun⟩ := herror hr
      rw [hrun]
      exact hmailed
  · obtain ⟨e, hrun⟩ := register_refused h
    refine Or.inl ⟨h, ?_⟩
    rw [hrun]
    rfl

/-- Nothing is committed by the time the handler is done. -/
theorem register_users :
    (final ((register settings hashpw f uid token payload).run s)).users = s.users := by
  rcases register_final settings hashpw f uid token payload s with ⟨-, hsame⟩ | ⟨-, hmailed⟩
  · rw [hsame]
  · exact hmailed.users

/-- The user is announced exactly if the row is flushed and the `SETEX` carried out. -/
theorem register_announces_iff :
    Announces (payload.newUser uid (hashpw payload.password))
        (register settings hashpw f uid token payload) s
      ↔ Flushed f uid payload s.users ∧ f.mail.store.CarriedOut s.toWorker := by
  constructor
  · intro h
    by_contra hno
    -- without the `SETEX` the handler leaves Redis as it finds it, whatever that is
    have hquiet : ∀ redis, (final ((register settings hashpw f uid token payload).run
          { s with redis })).redis = redis
        ∧ (final ((register settings hashpw f uid token payload).run
          { s with redis })).outbox = s.outbox := by
      intro redis
      rcases register_final settings hashpw f uid token payload { s with redis } with
        ⟨-, hsame⟩ | ⟨hflushed, -, -, ⟨hc, -⟩ | ⟨-, hkept⟩⟩
      · rw [hsame]
        exact ⟨rfl, rfl⟩
      · exact absurd ⟨hflushed, hc⟩ hno
      · exact hkept
    rcases h with ⟨key, expiresAt, hstored⟩ | ⟨new, hnew, mail, hmail, -⟩
    · have hnone := hstored ExpiringStore.empty
      rw [(hquiet _).1] at hnone
      cases hnone
    · have hnil : new = [] := List.self_eq_append_left.mp ((hquiet s.redis).2.symm.trans hnew)
      rw [hnil] at hmail
      cases hmail
  · rintro ⟨hflushed, hc⟩
    refine Or.inl ⟨token, some (s.now + settings.verificationTtl), fun redis => ?_⟩
    rcases register_final settings hashpw f uid token payload { s with redis } with
      ⟨hno, -⟩ | ⟨-, -, -, ⟨-, hput⟩ | ⟨hno, -⟩⟩
    · exact absurd hflushed hno
    · rw [hput]
      exact ExpiringStore.put_self ..
    · exact absurd hc hno

end

/-- The commit changes the table only. -/
theorem announces_withDb {α : Type} {user : User} (commit : Fault) (body : MailAction (α × Flush)) :
    Announces user (MailService.withDb commit body) s ↔ Announces user body s := by
  have hsame : ∀ t : MailService,
      (final ((MailService.withDb commit body).run t)).redis = (final (body.run t)).redis
        ∧ (final ((MailService.withDb commit body).run t)).outbox
          = (final (body.run t)).outbox := by
    intro t
    unfold MailService.withDb
    cases hr : body.run t with
    | error e t' =>
        rw [run_bind_error hr]
        exact ⟨rfl, rfl⟩
    | ok a t' =>
        rw [run_bind_ok hr]
        cases commit <;> exact ⟨rfl, rfl⟩
  simp only [Announces, StoresTokenOf, SendsMailTo, hsame]

/-- **The row is committed** if nothing was raised up to the commit, and that was carried out. -/
theorem mem_users_handleRegister (h : Flushed f uid payload s.users) :
    payload.newUser uid (hashpw payload.password)
        ∈ (final ((handleRegister settings hashpw f uid token payload).run s)).users
      ↔ f.respond = .none ∧ f.commit ≠ .before := by
  let user := payload.newUser uid (hashpw payload.password)
  obtain ⟨s', hmailed, hok, herror⟩ := register_mailed settings hashpw token h
  have hnew : user ∉ s'.users := by
    rw [hmailed.users]
    exact fun hu => not_held h.2.1 hu (Or.inl rfl)
  have hadded : user ∈ s'.users ++ [user] := List.mem_append_right _ (List.mem_singleton_self user)
  by_cases hr : f.respond = .none
  · obtain ⟨a, hrun⟩ := hok hr
    rw [handleRegister, MailService.withDb, run_bind_ok hrun]
    cases hf : f.commit with
    | none => exact ⟨fun _ => ⟨hr, by simp⟩, fun _ => hadded⟩
    | before => exact ⟨fun hu => absurd hu hnew, fun h => absurd rfl h.2⟩
    | after => exact ⟨fun _ => ⟨hr, by simp⟩, fun _ => hadded⟩
  · obtain ⟨e, hrun⟩ := herror hr
    rw [handleRegister, MailService.withDb, run_bind_error hrun]
    exact ⟨fun hu => absurd hu hnew, fun h => absurd h.1 hr⟩

/-- **A registration adds its row to the table**, or changes nothing there. -/
theorem handleRegister_cases (settings : MailSettings) (hashpw : String → String)
    (f : RegisterFaults) (uid : UUID) (token : String) (payload : UserCreate) (s : MailService) :
    let r := (handleRegister settings hashpw f uid token payload).run s
    (∃ e s', r = .error e s' ∧ s'.users = s.users)
      ∨ (∀ u ∈ s.users, u.id ≠ uid)
        ∧ (final r).users = s.users ++ [payload.newUser uid (hashpw payload.password)]
        ∧ (f.commit = .after ∨ ∃ a s', r = .ok a s') := by
  have hbody := register_users settings hashpw f uid token payload s
  rcases commit_cases (register settings hashpw f uid token payload)
    (fun flush s => { s with users := flush s.users }) .infrastructure f.commit s with
    ⟨e, hrun⟩ | ⟨a, flush, s', hrun, hfinal, hdone⟩
  · exact Or.inl ⟨e, _, hrun, hbody⟩
  · have hflushed : Flushed f uid payload s.users := by
      by_contra hno
      obtain ⟨e, he⟩ := register_refused hno
      rw [he] at hrun
      cases hrun
    -- the handler came to its end, and with the write that adds the row
    obtain ⟨s₁, -, hok, hraise⟩ := register_mailed settings hashpw token hflushed
    by_cases hr : f.respond = .none
    · obtain ⟨a₁, ha⟩ := hok hr
      cases hrun.symm.trans ha
      rw [hrun] at hbody
      refine Or.inr ⟨hflushed.2.2.2.1.2, ?_, hdone.imp_right fun ⟨s'', hdone⟩ => ⟨a, s'', hdone⟩⟩
      rw [← hbody]
      exact congrArg (fun s : MailService => s.users) hfinal
    · obtain ⟨e, he⟩ := hraise hr
      rw [he] at hrun
      cases hrun

/--
**When the side effects of a registration follow its durability**: if it stores no
token. Asked only when the request is done, also if the commit is carried out.
-/
theorem followsDurability_iff (settings : MailSettings) (hashpw : String → String)
    (f : RegisterFaults) (uid : UUID) (token : String) (payload : UserCreate) (s : MailService) :
    (FollowsDurability settings hashpw f uid token payload s
        ↔ ¬ (Flushed f uid payload s.users ∧ f.mail.store.CarriedOut s.toWorker))
      ∧ (AnnouncedIsDurable (payload.newUser uid (hashpw payload.password))
          (handleRegister settings hashpw f uid token payload) s
        ↔ (Flushed f uid payload s.users ∧ f.mail.store.CarriedOut s.toWorker →
          f.respond = .none ∧ f.commit ≠ .before)) := by
  have hannounces := register_announces_iff settings hashpw f uid token payload s
  have hrequest := (announces_withDb f.commit (register settings hashpw f uid token payload)).trans
    hannounces
  constructor
  · constructor
    · rintro ⟨hhandler, -⟩ hmails
      -- the row would have to be in the table when the handler is done
      have hdurable := hhandler (hannounces.mpr hmails)
      rw [register_users] at hdurable
      exact not_held hmails.1.2.1 hdurable (Or.inl rfl)
    · intro hno
      exact ⟨fun h => absurd (hannounces.mp h) hno, fun h => absurd (hrequest.mp h) hno⟩
  · constructor
    · intro hend hmails
      exact (mem_users_handleRegister hmails.1).mp (hend (hrequest.mpr hmails))
    · intro hcommit h
      have hmails := hrequest.mp h
      exact (mem_users_handleRegister hmails.1).mpr (hcommit hmails)

end

/-! ## A commit that fails -/

section

def mailDefaults : MailSettings :=
  { verificationTtl := 86400000, resetTtl := 3600000, publicBaseUrl := "http://localhost:3000" }

def zoe : UserCreate := { email := "zoe@example.com", username := "zoe", password := "Secret123" }

def zoeId : UUID := .ofNat 7

/-- A process that has just connected to Redis. -/
def connected : MailService :=
  { now := 0, redis := ExpiringStore.empty, users := [], client := true }

/-- The registration of `zoe`, whose commit fails. -/
def zoeRequest : MailAction UserResponse :=
  handleRegister mailDefaults id { commit := .before } zoeId "mailed-token" zoe

/-- The token is stored and the mail sent, and there is no row. -/
theorem mailed_not_committed :
    StoresTokenOf (zoe.newUser zoeId "Secret123") zoeRequest connected
      ∧ SendsMailTo (zoe.newUser zoeId "Secret123") zoeRequest connected
      ∧ (final (zoeRequest.run connected)).users = []
      ∧ ¬ FollowsDurability mailDefaults id { commit := .before } zoeId "mailed-token" zoe
        connected := by
  have hstored : StoresTokenOf (zoe.newUser zoeId "Secret123") zoeRequest connected :=
    ⟨"mailed-token", some 86400000, fun redis =>
      ExpiringStore.put_self redis (verifyKey "mailed-token") zoeId.text (some 86400000)⟩
  have hsent : SendsMailTo (zoe.newUser zoeId "Secret123") zoeRequest connected :=
    ⟨_, rfl, _, List.mem_singleton_self _, rfl⟩
  refine ⟨hstored, hsent, rfl, fun h => ?_⟩
  have hrow := h.2 (Or.inl hstored)
  cases hrow

end

end Microservices.Users
