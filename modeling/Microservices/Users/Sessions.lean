import Microservices.Users.Authority

/-!
# Every session begins with the password

An access token is answered to a login or to a refresh. A refresh presents a token that
was stored by a login or by another refresh, and so on: what is at the end of the chain
is a login that gave the password of the account, or a token that was there when the run
began. No link of the chain is longer than the lifetime of a refresh token.
-/

namespace Microservices.Users

open Effects Schedule
open OpaqueTokens (TokenKind)

/-- How a refresh token came to stand for an account; `x` is its entry in Redis. -/
inductive Session (bcrypt : Bcrypt) (w₀ : ServiceWorld) (past : Past) :
    String → Expiring String Time → Prop where
  | start {token : String} {x : Expiring String Time}
      (h : w₀.redis (refreshKey token) = some x) : Session bcrypt w₀ past token x
  | login {w : ServiceWorld} {f : LoginFaults} {token email password : String} {user : User}
      (hpast : (w, .request (.login f token email password)) ∈ past)
      (hrow : userByEmail w.users email = some user)
      (hpassword : bcrypt.verifyText password user.hashedPassword = true)
      (hactive : user.isActive = true) :
      Session bcrypt w₀ past token ⟨user.id.text, some (w.now + refreshTokenTtl)⟩
  | refresh {w : ServiceWorld} {f : Faults} {salt presented token : String}
      {x : Expiring String Time} {user : User}
      (hsession : Session bcrypt w₀ past presented x) (hlive : ∀ t ∈ x.expiresAt, w.now < t)
      (howner : UUID.ofText? x.value = some user.id)
      (hpast : (w, .request (.token f salt (.refresh presented token))) ∈ past)
      (hrow : user ∈ w.users) (hactive : user.isActive = true) :
      Session bcrypt w₀ past token ⟨user.id.text, some (w.now + refreshTokenTtl)⟩

/-- Why an access token of the account is answered. -/
inductive Entitled (bcrypt : Bcrypt) (w₀ : ServiceWorld) (past : Past) (now : Time) (u : User) :
    UserRequest → Prop where
  | password {f : LoginFaults} {fresh password : String}
      (h : bcrypt.verifyText password u.hashedPassword = true) :
      Entitled bcrypt w₀ past now u (.login f fresh u.email password)
  | session {f : Faults} {salt token fresh : String} {x : Expiring String Time}
      (hsession : Session bcrypt w₀ past token x) (hlive : ∀ t ∈ x.expiresAt, now < t)
      (howner : UUID.ofText? x.value = some u.id) :
      Entitled bcrypt w₀ past now u (.token f salt (.refresh token fresh))

/-- The refresh token that a request draws. -/
def UserRequest.drawsRefresh : UserRequest → Option String
  | .login _ fresh _ _ => some fresh
  | .token _ _ (.refresh _ fresh) => some fresh
  | _ => none

/-- The answer is about the account: its access token, its profile, and a refresh token if one
could be stored. -/
structure AnswersFor (mint : Time → User → String × Int) (now : Time) (u : User)
    (r : UserRequest) (response : TokenResponse) : Prop where
  access : ∃ t, (response.accessToken, response.expiresIn) = mint now { u with lastLoginAt := t }
  profile : response.user.id = u.id ∧ response.user.email = u.email
  refresh : ∀ token ∈ response.refreshToken, r.drawsRefresh = some token

/-! ## What the two requests answer -/

section

variable {bcrypt : Bcrypt} {w₀ w : ServiceWorld} {past past' : Past}

theorem Session.mono {token : String} {x : Expiring String Time}
    (h : Session bcrypt w₀ past token x) (hpast : past ⊆ past') :
    Session bcrypt w₀ past' token x := by
  induction h with
  | start h => exact .start h
  | login hmem hrow hpassword hactive => exact .login (hpast hmem) hrow hpassword hactive
  | refresh _ hlive howner hmem hrow hactive ih => exact .refresh ih hlive howner (hpast hmem) hrow hactive

variable {mint : Time → User → String × Int} {f : Faults}

/-- A refresh answers for the account of its token. -/
theorem refreshToken_answers (salt token fresh : String) (s : Server) :
    Yields (fun t => t = s) (refreshToken (mint s.now) f fresh token) fun r =>
      ∃ user ∈ s.users, user.isActive = true ∧ s.refreshOwner token = some user.id
        ∧ AnswersFor mint s.now user (.token f salt (.refresh token fresh)) r.1 := by
  have hconsume : Ensures (fun t => t = s) (consumeToken f (refreshKey token))
      (TableIs s.now s.users) := by
    rintro t rfl
    exact keeps_consumeToken f _ t ⟨rfl, rfl⟩
  unfold refreshToken consumeRefreshToken
  refine yields_bind_ensures hconsume (yields_consumeToken _ s) fun found hfound => ?_
  refine yields_bind (keeps_presented _ _) (yields_presented found _) fun userId huserId => ?_
  split
  · exact yields_throw _
  · rename_i uid huid
    have hrow : Yields (TableIs s.now s.users) (selectUser f uid) fun row =>
        ∀ user ∈ row, user.id = uid ∧ user ∈ s.users := by
      refine yields_await (yields_bind keeps_get yields_get fun t ht => yields_pure ?_) _
      intro user hmem
      rw [← ht.2]
      exact ⟨by simpa using List.find?_some hmem, List.mem_of_find?_eq_some hmem⟩
    refine yields_bind (keeps_selectUser _) hrow fun row hrow => ?_
    cases row with
    | none => exact yields_throw _
    | some user =>
        obtain ⟨hid, hmem⟩ := hrow user rfl
        dsimp only
        split
        · rename_i hactive
          have howner : s.refreshOwner token = some user.id := by
            rw [Server.refreshOwner, hfound userId huserId, Option.bind_some, huid, hid]
          unfold issueTokenResponse
          refine yields_bind_last (R := fun response => AnswersFor mint s.now user
            (.token f salt (.refresh token fresh)) response) ?_ fun response hresponse =>
              yields_pure ⟨user, hmem, hactive, howner, hresponse⟩
          refine yields_bind_last (yields_true _) fun stored _ => yields_pure ?_
          refine ⟨⟨user.lastLoginAt, rfl⟩, ⟨rfl, rfl⟩, fun t ht => ?_⟩
          cases stored with
          | true =>
              cases ht
              rfl
          | false => cases ht
        · exact yields_throw _

/-- A login answers for the account whose password it gave. -/
theorem handleLogin_answers {checkpw : String → String → Bool} {dummyHash : String}
    {f : LoginFaults} {fresh email password : String} {w w' : Worker} {response : TokenResponse}
    (h : (handleLogin (mint w.now) checkpw dummyHash f fresh email password).run w
      = .ok response w') :
    ∃ user, judged checkpw (w.lockRead f.readLock email) w.users email password = .ok user
      ∧ AnswersFor mint w.now user (.login f fresh email password) response := by
  cases hrun : (login (mint w.now) checkpw dummyHash f fresh email password).run w with
  | error e w₁ =>
      have hfailed := withDb_run_error hrun
      change (handleLogin (mint w.now) checkpw dummyHash f fresh email password).run w = _ at hfailed
      rw [h] at hfailed
      cases hfailed
  | ok r w₁ =>
      obtain ⟨user, hjudged, -⟩ := login_ok _ _ _ hrun
      have hsame : r.1 = response := by
        have hdone := run_bind_ok hrun fun r : TokenResponse × Flush => (do
          modify fun w => { w with users := r.2 w.users }
          return r.1 : Action TokenResponse)
        change (handleLogin (mint w.now) checkpw dummyHash f fresh email password).run w = _ at hdone
        rw [h] at hdone
        cases hdone
        rfl
      refine ⟨user, hjudged, ?_⟩
      rw [login_judged, hjudged] at hrun
      dsimp only at hrun
      obtain ⟨w₂, hcomplete⟩ := completeLogin_run (mint w.now) f fresh email user
        (w.connect f.readLock)
      rw [hcomplete] at hrun
      split at hrun
      · cases hrun
      · cases hrun
        rw [← hsame]
        refine ⟨⟨some w.now, rfl⟩, ⟨rfl, rfl⟩, fun t ht => ?_⟩
        unfold welcome at ht
        split at ht <;> cases ht
        rfl

/-- What a request that presents a token answers: an access token only to a refresh. -/
theorem handle_answers {hashpw : String → String} (salt : String) (req : TokenRequest) (s : Server) :
    Yields (fun t => t = s) (handle (mint s.now) hashpw f req) fun found => ∀ response ∈ found,
      ∃ token fresh, req = .refresh token fresh
        ∧ ∃ user ∈ s.users, user.isActive = true ∧ s.refreshOwner token = some user.id
          ∧ AnswersFor mint s.now user (.token f salt req) response := by
  refine yields_bind_last (R := fun r : Option TokenResponse × Flush => ∀ response ∈ r.1,
    ∃ token fresh, req = .refresh token fresh
      ∧ ∃ user ∈ s.users, user.isActive = true ∧ s.refreshOwner token = some user.id
        ∧ AnswersFor mint s.now user (.token f salt req) response) ?_
    fun r hr => yields_bind_last (yields_true _) fun _ _ => yields_pure hr
  cases req with
  | refresh token fresh =>
      refine yields_bind_last (refreshToken_answers salt token fresh s) fun r hr =>
        yields_pure fun response hresponse => ?_
      cases hresponse
      exact ⟨token, fresh, rfl, hr⟩
  | verifyEmail token =>
      exact yields_bind_last (yields_true _) fun _ _ =>
        yields_pure fun _ h => absurd h (Option.not_mem_none _)
  | resetPassword token newPassword =>
      exact yields_bind_last (yields_true _) fun _ _ =>
        yields_pure fun _ h => absurd h (Option.not_mem_none _)

end

/-- Why a request is answered with an access token of the account, as the service sees it. -/
inductive Grants (bcrypt : Bcrypt) (s : MailService) (u : User) : UserRequest → Prop where
  | password {f : LoginFaults} {fresh password : String}
      (h : bcrypt.verifyText password u.hashedPassword = true) :
      Grants bcrypt s u (.login f fresh u.email password)
  | owner {f : Faults} {salt token fresh : String} (h : s.refreshOwner token = some u.id) :
      Grants bcrypt s u (.token f salt (.refresh token fresh))

/-- What answers with something else answers with no tokens. -/
theorem not_tokens {α : Type} {h : MailAction α} {g : α → UserAnswer} {response : TokenResponse}
    {s s' : MailService} (hg : ∀ a, g a ≠ .tokens response) :
    (h >>= fun a => pure (g a) : MailAction UserAnswer).run s ≠ .ok (.tokens response) s' := by
  intro hrun
  cases hr : h.run s with
  | ok a t =>
      rw [run_bind_ok hr] at hrun
      injection hrun with hsame
      exact hg a hsame
  | error e t =>
      rw [run_bind_error hr] at hrun
      cases hrun

/-- **Who is answered with an access token.** -/
theorem perform_answers {settings : MailSettings} {bcrypt : Bcrypt}
    {mint : Time → User → String × Int} {dummyHash : String} {s s' : MailService} {r : UserRequest}
    {response : TokenResponse}
    (h : (perform settings bcrypt mint dummyHash r).run s = .ok (.tokens response) s') :
    ∃ user ∈ s.users, user.isActive = true ∧ Grants bcrypt s user r
      ∧ AnswersFor mint s.now user r response := by
  cases r with
  | login f fresh email password =>
      change (onWorker (handleLogin (mint s.now) bcrypt.verifyText dummyHash f fresh email password)
        >>= fun response => pure (UserAnswer.tokens response)).run s = _ at h
      cases hrun : (handleLogin (mint s.now) bcrypt.verifyText dummyHash f fresh email password).run
          s.toWorker with
      | error e w' =>
          rw [run_bind_error (h := onWorker _) (run_onPart_error hrun)] at h
          cases h
      | ok a w' =>
          rw [run_bind_ok (h := onWorker _) (run_onPart_ok hrun)] at h
          cases h
          obtain ⟨user, hjudged, hanswers⟩ := handleLogin_answers hrun
          obtain ⟨hrow, hpassword, hactive⟩ := judged_ok _ hjudged
          have hemail : user.email = email := by simpa using List.find?_some hrow
          refine ⟨user, List.mem_of_find?_eq_some hrow, hactive, ?_, hanswers⟩
          rw [← hemail]
          exact .password hpassword
  | token f salt req =>
      change (onTokens (handle (mint s.now) (bcrypt.hashText salt) f req) >>= fun found =>
        pure ((found.map UserAnswer.tokens).getD .noContent)).run s = _ at h
      cases hrun : (handle (mint s.now) (bcrypt.hashText salt) f req).run s.toServer with
      | error e t =>
          rw [run_bind_error (h := onTokens _) (run_onPart_error (run_onPart_error hrun))] at h
          cases h
      | ok found t =>
          rw [run_bind_ok (h := onTokens _) (run_onPart_ok (run_onPart_ok hrun))] at h
          cases found with
          | none => cases h
          | some found =>
              cases h
              obtain ⟨token, fresh, rfl, user, hrow, hactive, howner, hanswers⟩ :=
                handle_answers salt req s.toServer s.toServer rfl _ t hrun _ rfl
              exact ⟨user, hrow, hactive, .owner howner, hanswers⟩
  | register f uid token salt payload =>
      exact absurd h (not_tokens (h := handleRegister _ _ _ _ _ _) fun _ => nofun)
  | logout f token => exact absurd h (not_tokens (h := onWorker _) fun _ => nofun)
  | resendVerification f fresh email =>
      exact absurd h (not_tokens (h := handleResendVerification _ _ _ _) fun _ => nofun)
  | forgotPassword f fresh email =>
      exact absurd h (not_tokens (h := handleForgotPassword _ _ _ _) fun _ => nofun)
  | account f caller salt r =>
      exact absurd h (not_tokens (h := handleRoute _ _ _) fun _ => nofun)
  | profile f caller r =>
      exact absurd h (not_tokens (h := handleRoute _ _ _) fun _ => nofun)

/-! ## Runs -/

/-- Every refresh token there is has its session. -/
def AllSessions (bcrypt : Bcrypt) (w₀ : ServiceWorld) (past : Past) (w : ServiceWorld) : Prop :=
  ∀ token x, w.redis (refreshKey token) = some x → Session bcrypt w₀ past token x

section

variable {settings : MailSettings} {bcrypt : Bcrypt} {w₀ w w' : ServiceWorld} {past : Past}
  {e : ServiceEvent}

theorem AllSessions.owner (h : AllSessions bcrypt w₀ past w) {token : String} {uid : UUID}
    (howner : w.refreshOwner token = some uid) :
    ∃ x, Session bcrypt w₀ past token x ∧ (∀ t ∈ x.expiresAt, w.now < t)
      ∧ UUID.ofText? x.value = some uid := by
  obtain ⟨value, hget, huid⟩ := Option.bind_eq_some_iff.mp howner
  obtain ⟨x, hx, rfl, hlive⟩ := ExpiringStore.exists_of_get_eq_some hget
  exact ⟨x, h token x hx, hlive, huid⟩

theorem AllSessions.step (h : AllSessions bcrypt w₀ past w)
    (hdoes : StepDoes settings bcrypt w e w') :
    AllSessions bcrypt w₀ (past ++ [(w, e)]) w' := by
  have hmore : past ⊆ past ++ [(w, e)] := List.subset_append_left _ _
  have hnow : (w, e) ∈ past ++ [(w, e)] := List.mem_append_right _ (List.mem_singleton_self _)
  intro token x hx
  rcases hdoes.tokens .refresh token x hx with hold | ⟨r, rfl, hstores⟩
  · exact (h token x hold).mono hmore
  · cases hstores with
    | login hrow hpassword hactive => exact .login hnow hrow hpassword hactive
    | refresh howner hrow hactive =>
        obtain ⟨x, hsession, hlive, hid⟩ := h.owner howner
        exact .refresh (hsession.mono hmore) hlive hid hnow hrow hactive

end

/-- Hashes that are the password. -/
def openBcrypt : Bcrypt where
  hashpw := fun _ salt => salt
  checkpw := fun p hashed => decide (p = Identity.utf8 hashed)

/-- Ann logs in, -/
def annLogsIn : ServiceEvent := .request (.login {} "first-token" "ann@example.com" "Correct-1")

end Microservices.Users
