import Microservices.Users.LoginFaults

/-!
# Tokens by mail

A verification or reset mail is a token stored in Redis and a link to it handed to
the email sender, in this order and inside one `try`. The requests that only ask
for a mail answer 204 and leave the mail to a background task, which runs once the
response is out and the session is committed.
-/

namespace Microservices.Users

open Effects

structure Mail where
  /-- `to`. -/
  recipient : String
  subject : String
  body : String
  deriving DecidableEq, Repr

/-- The settings the mails depend on; the lifetimes are in milliseconds. -/
structure MailSettings where
  verificationTtl : Time
  resetTtl : Time
  publicBaseUrl : String

/-- A process of the service, and the mails it has handed to the email sender, newest first. -/
structure MailService extends Worker where
  outbox : List Mail := []

/-- What becomes of the two awaits of a mail. -/
structure MailFaults where
  store : RedisFault := {}
  send : Fault := .none

abbrev MailAction := EStateM Failure MailService

/-- An action of a process, in a process that sends mails. -/
def onWorker {α : Type} (h : Action α) : MailAction α :=
  onPart MailService.toWorker (fun w s => { s with toWorker := w }) h

/-- `store_email_verification_token` and `store_password_reset_token`, by the key. -/
def storeToken (f : RedisFault) (key userId : String) (ttl : Time) : Action Bool := do
  if ← getRedis f then
    await .infrastructure f.command <| modify fun w =>
      { w with redis := w.redis.put key userId (some (w.now + ttl)) }
    return true
  else return false

/-- `verification_email_body`. -/
def verificationEmailBody (verifyUrl : String) : String :=
  "Welcome to the platform!\n\n"
    ++ "Please confirm your email address by clicking the link below.\n"
    ++ "This link is single-use and expires in 24 hours:\n\n" ++ verifyUrl ++ "\n\n"
    ++ "If you didn't sign up, you can safely ignore this email."

/-- `password_reset_email_body`. -/
def passwordResetEmailBody (resetUrl : String) : String :=
  "We received a request to reset your password.\n\n"
    ++ "Use the link below within 1 hour to choose a new password:\n\n" ++ resetUrl ++ "\n\n"
    ++ "If you didn't request this, ignore this email — your account is safe."

/-- What the two pipelines share: the key and lifetime of the token, and the mail. -/
def sendToken (f : MailFaults) (key : String) (ttl : Time) (user : User) (mail : Mail) :
    MailAction Unit :=
  orReturn (do
    let stored ← onWorker (storeToken f.store key user.id.text ttl)
    if stored then
      await .infrastructure f.send <| modify fun s => { s with outbox := mail :: s.outbox }
    else return ()) ()

/-- `_send_verification_email`; `token` is the one it draws. -/
def sendVerificationEmail (settings : MailSettings) (f : MailFaults) (token : String)
    (user : User) : MailAction Unit :=
  sendToken f (verifyKey token) settings.verificationTtl user
    { recipient := user.email
      subject := "Verify your email"
      body := verificationEmailBody (settings.publicBaseUrl ++ "/verify-email?token=" ++ token) }

/-- `_send_password_reset_email`. -/
def sendPasswordResetEmail (settings : MailSettings) (f : MailFaults) (token : String)
    (user : User) : MailAction Unit :=
  sendToken f (resetKey token) settings.resetTtl user
    { recipient := user.email
      subject := "Password reset"
      body := passwordResetEmailBody (settings.publicBaseUrl ++ "/reset-password?token=" ++ token) }

/-- `resend_verification`, as the account whose mail its background task sends. -/
def resendVerification (users : List User) (email : String) : Option User :=
  (userByEmail users email).filter fun user => !user.emailVerified

/-- `forgot_password`, likewise. -/
def forgotPassword (users : List User) (email : String) : Option User :=
  (userByEmail users email).filter User.isActive

/-! ## What a mail leaves -/

/-- The command is carried out, whatever becomes of its answer. -/
def RedisFault.CarriedOut (f : RedisFault) (w : Worker) : Prop :=
  (w.client = true ∨ f.refused = false) ∧ f.command ≠ .before

/-- The token is stored if the `SETEX` is carried out, and only then may the call return true. -/
theorem storeToken_cases (f : RedisFault) (key userId : String) (ttl : Time) (w : Worker) :
    ∃ w', (w'.now = w.now ∧ w'.users = w.users)
      ∧ (f.CarriedOut w ∧ w'.redis = w.redis.put key userId (some (w.now + ttl))
          ∧ ((storeToken f key userId ttl).run w = .ok true w'
            ∨ (storeToken f key userId ttl).run w = .error .infrastructure w')
        ∨ ¬ f.CarriedOut w ∧ w'.redis = w.redis
          ∧ ((storeToken f key userId ttl).run w = .ok false w'
            ∨ (storeToken f key userId ttl).run w = .error .infrastructure w')) := by
  have hclient : (w.connect f).client = true ↔ w.client = true ∨ f.refused = false := by simp
  let stored : Worker :=
    { w.connect f with redis := w.redis.put key userId (some (w.now + ttl)) }
  rw [storeToken, run_bind_ok (getRedis_run f w)]
  cases hc : (w.connect f).client with
  | false =>
      have hoff : ¬ f.CarriedOut w := fun h => Bool.false_ne_true (hc.symm.trans (hclient.mpr h.1))
      exact ⟨w.connect f, ⟨rfl, rfl⟩, Or.inr ⟨hoff, rfl, Or.inl rfl⟩⟩
  | true =>
      have hon := hclient.mp hc
      cases hf : f.command with
      | none => exact ⟨stored, ⟨rfl, rfl⟩, Or.inl ⟨⟨hon, by simp [hf]⟩, rfl, Or.inl rfl⟩⟩
      | before => exact ⟨w.connect f, ⟨rfl, rfl⟩, Or.inr ⟨fun h => h.2 hf, rfl, Or.inr rfl⟩⟩
      | after => exact ⟨stored, ⟨rfl, rfl⟩, Or.inl ⟨⟨hon, by simp [hf]⟩, rfl, Or.inr rfl⟩⟩

/-- What a mail leaves of the service: the table alone, and Redis too unless the `SETEX` is carried
out. -/
structure Mailed (f : MailFaults) (key userId : String) (ttl : Time) (s s' : MailService) :
    Prop where
  now : s'.now = s.now
  users : s'.users = s.users
  effect : f.store.CarriedOut s.toWorker ∧ s'.redis = s.redis.put key userId (some (s.now + ttl))
    ∨ ¬ f.store.CarriedOut s.toWorker ∧ s'.redis = s.redis ∧ s'.outbox = s.outbox

/-- A mail does not raise. -/
theorem sendToken_mailed (f : MailFaults) (key : String) (ttl : Time) (user : User) (mail : Mail)
    (s : MailService) :
    ∃ s', (sendToken f key ttl user mail).run s = .ok () s'
      ∧ Mailed f key user.id.text ttl s s' := by
  obtain ⟨w', ⟨hnow, husers⟩, hcases⟩ :=
    storeToken_cases f.store key user.id.text ttl s.toWorker
  -- handing the mail over touches nothing but the outbox
  have hsend : Keeps (fun t : MailService =>
      t.now = w'.now ∧ t.users = w'.users ∧ t.redis = w'.redis)
      (await .infrastructure f.send <| modify fun s => { s with outbox := mail :: s.outbox } :
        MailAction Unit) := by
    refine keeps_await (ensures_modify fun t ht => ?_) _
    exact ht
  obtain ⟨_, hrun⟩ := orReturn_returns (do
    let stored ← onWorker (storeToken f.store key user.id.text ttl)
    if stored then
      await .infrastructure f.send <| modify fun s => { s with outbox := mail :: s.outbox }
    else return ()) () s
  refine ⟨_, hrun, ?_⟩
  rcases hcases with ⟨hc, hredis, hstore | hstore⟩ | ⟨hc, hredis, hstore | hstore⟩
  · rw [run_bind_ok (h := onWorker _) (run_onPart_ok hstore)]
    obtain ⟨hn, hu, hr⟩ := hsend { s with toWorker := w' } ⟨rfl, rfl, rfl⟩
    exact ⟨hn.trans hnow, hu.trans husers, Or.inl ⟨hc, hr.trans hredis⟩⟩
  · rw [run_bind_error (h := onWorker _) (run_onPart_error hstore)]
    exact ⟨hnow, husers, Or.inl ⟨hc, hredis⟩⟩
  · rw [run_bind_ok (h := onWorker _) (run_onPart_ok hstore)]
    exact ⟨hnow, husers, Or.inr ⟨hc, hredis, rfl⟩⟩
  · rw [run_bind_error (h := onWorker _) (run_onPart_error hstore)]
    exact ⟨hnow, husers, Or.inr ⟨hc, hredis, rfl⟩⟩

end Microservices.Users
