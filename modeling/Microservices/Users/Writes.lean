import Microservices.Users.Service

/-!
# What a request can write

To the table: nothing, or the one change its handler is for, on the row that it is
entitled to change. A request that is refused has changed nothing there, unless it was
only the answer of its commit that got lost.
-/

namespace Microservices.Users

open Effects

/-- The account a verification token stands for. -/
def Server.verifyOwner (s : Server) (token : String) : Option UUID :=
  (s.redis.get s.now (verifyKey token)).bind UUID.ofText?

/-- The commit goes through, and its answer gets lost. -/
def UserRequest.CommitLost : UserRequest → Prop
  | .register f _ _ _ _ => f.commit = .after
  | .token f _ _ => f.commit = .after
  | .account f _ _ _ => f.commit = .after
  | _ => False

/-- What a request can write to the table. -/
inductive TableWrite (bcrypt : Bcrypt) (s : MailService) : UserRequest → Flush → Prop where
  | nothing (r : UserRequest) : TableWrite bcrypt s r id
  | register {f : RegisterFaults} {uid : UUID} {token salt : String} {payload : UserCreate}
      (hnew : ∀ u ∈ s.users, u.id ≠ uid) :
      TableWrite bcrypt s (.register f uid token salt payload) fun users =>
        users ++ [payload.newUser uid (bcrypt.hashText salt payload.password)]
  | login {f : LoginFaults} {fresh email password : String} {user : User}
      (hrow : userByEmail s.users email = some user)
      (hpassword : bcrypt.verifyText password user.hashedPassword = true)
      (hactive : user.isActive = true) :
      TableWrite bcrypt s (.login f fresh email password)
        (updateUser user.id fun u => { u with lastLoginAt := some s.now })
  | verifyEmail {f : Faults} {salt token : String} {user : User}
      (howner : s.verifyOwner token = some user.id) (hrow : user ∈ s.users)
      (hunverified : user.emailVerified = false) :
      TableWrite bcrypt s (.token f salt (.verifyEmail token))
        (updateUser user.id fun u =>
          { u with emailVerified := true, emailVerifiedAt := some s.now })
  | resetPassword {f : Faults} {salt token newPassword : String} {uid : UUID}
      (howner : s.resetOwner token = some uid) :
      TableWrite bcrypt s (.token f salt (.resetPassword token newPassword))
        (updateUser uid fun u => { u with hashedPassword := bcrypt.hashText salt newPassword })
  | account {f : AccountFaults} {caller : CallerHeaders} {salt : String} {r : AccountRequest}
      {flush : Flush} (heffect : AccountEffect (bcrypt.hashText salt) caller r flush) :
      TableWrite bcrypt s (.account f caller salt r) flush

/-- The request raised and left the table as it was, or made one of its writes. -/
def Written {α : Type} (bcrypt : Bcrypt) (s : MailService) (r : UserRequest)
    (result : EStateM.Result Failure MailService α) : Prop :=
  (∃ e t, result = .error e t ∧ t.users = s.users)
    ∨ ∃ flush, TableWrite bcrypt s r flush ∧ (final result).users = flush s.users
      ∧ (r.CommitLost ∨ ∃ a t, result = .ok a t)

section

variable {bcrypt : Bcrypt} {s : MailService} {r : UserRequest}

/-- What is made of the answer does not matter. -/
theorem Written.bind_pure {α β : Type} {h : MailAction α} (hw : Written bcrypt s r (h.run s))
    (g : α → β) : Written bcrypt s r ((h >>= fun a => pure (g a) : MailAction β).run s) := by
  cases hrun : h.run s with
  | ok a t =>
      rw [hrun] at hw
      rw [run_bind_ok hrun]
      rcases hw with ⟨e, t', hno, -⟩ | ⟨flush, hwrite, husers, -⟩
      · cases hno
      · exact Or.inr ⟨flush, hwrite, husers, Or.inr ⟨g a, t, rfl⟩⟩
  | error e t =>
      rw [hrun] at hw
      rw [run_bind_error hrun]
      rcases hw with ⟨e', t', hsame, husers⟩ | ⟨flush, hwrite, husers, hlost | ⟨a, t', hno⟩⟩
      · cases hsame
        exact Or.inl ⟨e, t, rfl, husers⟩
      · exact Or.inr ⟨flush, hwrite, husers, Or.inl hlost⟩
      · cases hno

/-- A request that leaves the table alone. -/
theorem written_of_same {α : Type} {result : EStateM.Result Failure MailService α}
    (h : (final result).users = s.users) : Written bcrypt s r result := by
  cases result with
  | ok a t => exact Or.inr ⟨id, .nothing r, h, Or.inr ⟨a, t, rfl⟩⟩
  | error e t => exact Or.inl ⟨e, t, rfl, h⟩

end

/-! ## Logging in -/

section

variable (mint : User → String × Int) (checkpw : String → String → Bool) (dummyHash : String)

theorem judged_ok {locked : Bool} {users : List User} {email password : String} {user : User}
    (h : judged checkpw locked users email password = .ok user) :
    userByEmail users email = some user ∧ checkpw password user.hashedPassword = true
      ∧ user.isActive = true := by
  unfold judged at h
  split at h
  · cases h
  · rename_i found hfound
    split at h
    · cases h
    · rename_i hgood
      split at h
      · rename_i hactive
        cases h
        exact ⟨hfound, by simpa using (not_or.mp hgood).2, hactive⟩
      · cases h

/-- A login that does not raise has found the account, with the password right and active. -/
theorem login_ok {f : LoginFaults} {fresh email password : String} {w w' : Worker}
    {response : TokenResponse} {flush : Flush}
    (h : (login mint checkpw dummyHash f fresh email password).run w = .ok (response, flush) w') :
    ∃ user, judged checkpw (w.lockRead f.readLock email) w.users email password = .ok user
      ∧ flush = updateUser user.id fun u => { u with lastLoginAt := some w.now } := by
  rw [login_judged] at h
  cases hjudged : judged checkpw (w.lockRead f.readLock email) w.users email password with
  | ok user =>
      rw [hjudged] at h
      dsimp only at h
      obtain ⟨w₁, hrun⟩ := completeLogin_run mint f fresh email user (w.connect f.readLock)
      rw [hrun] at h
      split at h
      · cases h
      · cases h
        exact ⟨user, rfl, rfl⟩
  | error e =>
      rw [hjudged] at h
      dsimp only at h
      split at h
      · cases h
      · obtain ⟨w₁, hrun⟩ := turnAway_run (α := TokenResponse × Flush) f email
          (userByEmail w.users email) (w.lockRead f.readLock email) (w.connect f.readLock)
        rw [hrun] at h
        cases h

theorem handleLogin_writes (f : LoginFaults) (fresh email password : String) (w : Worker) :
    (∃ e w', (handleLogin mint checkpw dummyHash f fresh email password).run w = .error e w'
        ∧ w'.users = w.users)
      ∨ ∃ user, judged checkpw (w.lockRead f.readLock email) w.users email password = .ok user
        ∧ ∃ a w', (handleLogin mint checkpw dummyHash f fresh email password).run w = .ok a w'
          ∧ w'.users = updateUser user.id (fun u => { u with lastLoginAt := some w.now }) w.users := by
  have hkeeps : Keeps (fun w' : Worker => TableIs w.now w.users w'.toServer)
      (login mint checkpw dummyHash f fresh email password) :=
    keeps_login (fun _ _ hs => hs) f fresh email password
  obtain ⟨-, husers⟩ := hkeeps w ⟨rfl, rfl⟩
  cases hrun : (login mint checkpw dummyHash f fresh email password).run w with
  | error e w' =>
      rw [hrun] at husers
      exact Or.inl ⟨e, w', run_bind_error hrun _, husers⟩
  | ok r w' =>
      obtain ⟨response, flush⟩ := r
      rw [hrun] at husers
      obtain ⟨user, hjudged, rfl⟩ := login_ok mint checkpw dummyHash hrun
      refine Or.inr ⟨user, hjudged, response, _, run_bind_ok hrun _, ?_⟩
      exact congrArg (updateUser user.id _) husers

end

/-! ## Presenting a token -/

section

variable {f : Faults}

/-- The row that is found. -/
theorem yields_tokenOwner_row {now : Time} {users : List User} (userId : String) :
    Yields (TableIs now users) (tokenOwner f userId) fun user =>
      UUID.ofText? userId = some user.id ∧ user ∈ users := by
  unfold tokenOwner
  cases huid : UUID.ofText? userId with
  | none => exact yields_throw _
  | some uid =>
      have hrow : Yields (TableIs now users) (selectUser f uid) fun row =>
          ∀ user ∈ row, user.id = uid ∧ user ∈ users := by
        refine yields_await (yields_bind keeps_get yields_get fun s hs => yields_pure ?_) _
        intro user hfound
        rw [← hs.2]
        exact ⟨by simpa using List.find?_some hfound, List.mem_of_find?_eq_some hfound⟩
      refine yields_bind (keeps_selectUser uid) hrow fun row hrow => ?_
      cases row with
      | none => exact yields_throw _
      | some user =>
          obtain ⟨hid, hmem⟩ := hrow user rfl
          exact yields_pure ⟨congrArg some hid.symm, hmem⟩

/-- `verify_email` writes for the account of its token, if that is not verified. -/
theorem yields_verifyEmail_owner (token : String) (s : Server) :
    Yields (fun t => t = s) (verifyEmail f token) fun flush =>
      flush = id ∨ ∃ user ∈ s.users, s.verifyOwner token = some user.id
        ∧ user.emailVerified = false ∧ flush = updateUser user.id fun u =>
          { u with emailVerified := true, emailVerifiedAt := some s.now } := by
  have hconsume : Ensures (fun t => t = s) (consumeToken f (verifyKey token))
      (TableIs s.now s.users) := by
    rintro t rfl
    exact keeps_consumeToken f _ t ⟨rfl, rfl⟩
  unfold verifyEmail consumeEmailVerificationToken
  refine yields_bind_ensures hconsume (yields_consumeToken _ s) fun found hfound => ?_
  refine yields_bind (keeps_presented _ _) (yields_presented found _) fun userId huserId => ?_
  refine yields_bind (keeps_tokenOwner _) (yields_tokenOwner_row userId) fun user huser => ?_
  refine yields_bind keeps_get yields_get fun t ht => yields_pure ?_
  split
  · exact Or.inl rfl
  · rename_i hunverified
    refine Or.inr ⟨user, huser.2, ?_, by simpa using hunverified, ?_⟩
    · rw [Server.verifyOwner, hfound userId huserId, Option.bind_some, huser.1]
    · rw [ht.1]

variable (mint : User → String × Int) {bcrypt : Bcrypt} {salt : String}

/-- What the body of a handler would commit. -/
theorem body_writes (req : TokenRequest) (s : MailService) :
    Yields (fun t => t = s.toServer) (body mint (bcrypt.hashText salt) f req) fun r =>
      TableWrite bcrypt s (.token f salt req) r.2 := by
  cases req with
  | refresh token fresh =>
      refine yields_bind_last (yields_refreshToken mint (bcrypt.hashText salt) fresh token s.toServer)
        fun r hr => yields_pure ?_
      obtain ⟨response, flush⟩ := r
      cases hr
      exact .nothing _
  | verifyEmail token =>
      refine yields_bind_last (yields_verifyEmail_owner token s.toServer) fun flush hflush =>
        yields_pure ?_
      rcases hflush with rfl | ⟨user, hrow, howner, hunverified, rfl⟩
      · exact .nothing _
      · exact .verifyEmail howner hrow hunverified
  | resetPassword token newPassword =>
      refine yields_bind_last (yields_resetPassword _ token newPassword s.toServer)
        fun flush hflush => yields_pure ?_
      cases hflush with
      | reset howner => exact .resetPassword howner

theorem handle_written (req : TokenRequest) (s : MailService) :
    Written bcrypt s (.token f salt req)
      ((onTokens (handle mint (bcrypt.hashText salt) f req)).run s) := by
  have hbody := body_users (f := f) mint (bcrypt.hashText salt) req s.users s.toServer rfl
  rcases commit_cases (body mint (bcrypt.hashText salt) f req)
    (fun flush s => { s with users := flush s.users }) .infrastructure f.commit s.toServer with
    ⟨e, hrun⟩ | ⟨a, flush, s', hrun, hfinal, hdone⟩
  · refine Or.inl ⟨e, _, run_onPart_error (run_onPart_error hrun), ?_⟩
    exact hbody
  · rw [hrun] at hbody
    refine Or.inr ⟨flush, body_writes mint req s s.toServer rfl _ s' hrun, ?_, ?_⟩
    · change (final ((handle mint (bcrypt.hashText salt) f req).run s.toServer)) = _ at hfinal
      have husers : (final ((handle mint (bcrypt.hashText salt) f req).run s.toServer)).users
          = flush s.users := by
        rw [hfinal, ← hbody]
        rfl
      cases hr : (handle mint (bcrypt.hashText salt) f req).run s.toServer with
      | ok b t =>
          rw [hr] at husers
          rw [onTokens, onWorker, onServer, run_onPart_ok (run_onPart_ok hr)]
          exact husers
      | error e t =>
          rw [hr] at husers
          rw [onTokens, onWorker, onServer, run_onPart_error (run_onPart_error hr)]
          exact husers
    · exact hdone.imp_right fun ⟨s'', hok⟩ => ⟨a, _, run_onPart_ok (run_onPart_ok hok)⟩

end

/-! ## The routes -/

theorem run_raising_ok {α : Type} (a : α) (s : MailService) :
    (raising (.ok a)).run s = .ok a s := rfl

theorem run_pause (f : Fault) (s : MailService) :
    ((await .infrastructure f (return ()) : MailAction Unit).run s = .ok () s)
      ∨ (await .infrastructure f (return ()) : MailAction Unit).run s
        = .error .infrastructure s := by
  cases f with
  | none => exact Or.inl rfl
  | before => exact Or.inr rfl
  | after => exact Or.inr rfl

/-- A request to a route raises and changes nothing, or writes what the route says. -/
theorem handleRoute_cases (f : AccountFaults) (admitted : Except HTTPException Unit)
    (result : List User → RouteResult) (s : MailService) :
    (∃ e, (handleRoute f admitted result).run s = .error e s)
      ∨ ∃ a flush, result s.users = .ok (a, flush)
        ∧ final ((handleRoute f admitted result).run s) = { s with users := flush s.users }
        ∧ (f.commit = .after
          ∨ (handleRoute f admitted result).run s = .ok a { s with users := flush s.users }) := by
  let body : MailAction (AccountResponse × Flush) := do
    raising admitted
    await .infrastructure f.query (return ())
    let s ← get
    let answer ← raising (result s.users)
    await .infrastructure f.work (return ())
    return answer
  have hbody : (∃ e, body.run s = .error e s)
      ∨ ∃ a flush, result s.users = .ok (a, flush) ∧ body.run s = .ok (a, flush) s := by
    cases hadmitted : admitted with
    | error e =>
        refine Or.inl ⟨.http e, ?_⟩
        show (raising admitted >>= _).run s = _
        rw [hadmitted]
        rfl
    | ok _ =>
        rcases run_pause f.query s with hquery | hquery
        · cases hresult : result s.users with
          | error e =>
              refine Or.inl ⟨.http e, ?_⟩
              show (raising admitted >>= _).run s = _
              rw [hadmitted, run_bind_ok (run_raising_ok _ s), run_bind_ok hquery]
              show (raising (result s.users) >>= _).run s = _
              rw [hresult]
              rfl
          | ok answer =>
              obtain ⟨a, flush⟩ := answer
              have hgo : body.run s
                  = ((await .infrastructure f.work (return ()) : MailAction Unit) >>= fun _ =>
                      pure (a, flush)).run s := by
                show (raising admitted >>= _).run s = _
                rw [hadmitted, run_bind_ok (run_raising_ok _ s), run_bind_ok hquery]
                show (raising (result s.users) >>= _).run s = _
                rw [hresult, run_bind_ok (run_raising_ok _ s)]
              rcases run_pause f.work s with hwork | hwork
              · refine Or.inr ⟨a, flush, rfl, ?_⟩
                rw [hgo, run_bind_ok hwork]
                rfl
              · refine Or.inl ⟨.infrastructure, ?_⟩
                rw [hgo, run_bind_error hwork]
        · refine Or.inl ⟨.infrastructure, ?_⟩
          show (raising admitted >>= _).run s = _
          rw [hadmitted, run_bind_ok (run_raising_ok _ s), run_bind_error hquery]
  rcases hbody with ⟨e, hrun⟩ | ⟨a, flush, hresult, hrun⟩
  · exact Or.inl ⟨e, run_bind_error hrun _⟩
  · have hcommit : (handleRoute f admitted result).run s = ((await .infrastructure f.commit <|
        modify fun s : MailService => { s with users := flush s.users }) >>= fun _ =>
          (pure a : MailAction AccountResponse)).run s := run_bind_ok hrun _
    cases hf : f.commit with
    | none =>
        rw [hf] at hcommit
        exact Or.inr ⟨a, flush, hresult, by rw [hcommit]; rfl, Or.inr hcommit⟩
    | before =>
        rw [hf] at hcommit
        exact Or.inl ⟨.infrastructure, hcommit⟩
    | after =>
        rw [hf] at hcommit
        exact Or.inr ⟨a, flush, hresult, by rw [hcommit]; rfl, Or.inl rfl⟩

/-- What a route does not let in it refuses, whatever is in the table. -/
theorem route_of_not_admitted {hashpw : String → String} {caller : CallerHeaders}
    {r : AccountRequest} {e : HTTPException} (h : r.admitCaller caller = .error e) (users : List User) :
    route hashpw r caller users = .error e := by
  cases r with
  | updateMe _ | deactivateMe | hardDeleteMe =>
      rw [AccountRequest.admitCaller] at h
      cases hcaller : parseCallerId caller with
      | ok uid =>
          rw [hcaller] at h
          cases h
      | error e' =>
          rw [hcaller] at h
          cases h
          simp only [route, updateMe, deactivateMe, hardDeleteMe, hcaller]
          rfl
  | adminPromoteUser userId =>
      rw [AccountRequest.admitCaller] at h
      rw [route, adminPromoteUser]
      cases hadmin : requireAdmin caller with
      | error e' =>
          rw [hadmin] at h
          cases h
          rfl
      | ok _ =>
          cases hcaller : parseCallerId caller <;> rw [hadmin, hcaller] at h <;> cases h
          rfl
  | adminDemoteUser userId | adminDeleteUser userId =>
      rw [AccountRequest.admitCaller] at h
      first | rw [route, adminDemoteUser] | rw [route, adminDeleteUser]
      cases hadmin : requireAdmin caller with
      | error e' =>
          rw [hadmin] at h
          cases h
          rfl
      | ok _ =>
          cases hcaller : parseCallerId caller with
          | error e' =>
              rw [hadmin, hcaller] at h
              cases h
              rfl
          | ok callerId =>
              rw [hadmin, hcaller] at h
              simp only [bind, Except.bind] at h ⊢
              by_cases hself : userId = callerId
              · rw [if_pos hself] at h ⊢
                cases h
                rfl
              · rw [if_neg hself] at h
                cases h

/-- A request for a mail raises and leaves all as it is, or does what it is for. -/
theorem askForMail_cases (f : AskFaults) (find : List User → Option User)
    (send : User → MailAction Unit) (s : MailService) :
    (∃ e, (askForMail f find send).run s = .error e s)
      ∨ (find s.users = none ∧ (askForMail f find send).run s = .ok () s)
      ∨ ∃ user, find s.users = some user
        ∧ (askForMail f find send).run s = (send user).run s := by
  let lookUp : MailAction (Option User) := MailService.withDb f.commit do
    let found ← await .infrastructure f.query do
      let s ← get
      return find s.users
    return (found, id)
  have hlookUp : (∃ e, lookUp.run s = .error e s) ∨ lookUp.run s = .ok (find s.users) s := by
    cases hquery : f.query with
    | before => exact Or.inl ⟨.infrastructure, by simp only [lookUp, hquery]; rfl⟩
    | after => exact Or.inl ⟨.infrastructure, by simp only [lookUp, hquery]; rfl⟩
    | none =>
        cases hcommit : f.commit with
        | before => exact Or.inl ⟨.infrastructure, by simp only [lookUp, hquery, hcommit]; rfl⟩
        | after => exact Or.inl ⟨.infrastructure, by simp only [lookUp, hquery, hcommit]; rfl⟩
        | none => exact Or.inr (by simp only [lookUp, hquery, hcommit]; rfl)
  rcases hlookUp with ⟨e, hrun⟩ | hrun
  · exact Or.inl ⟨e, run_bind_error hrun _⟩
  · cases hfound : find s.users with
    | none =>
        refine Or.inr (Or.inl ⟨rfl, ?_⟩)
        show (lookUp >>= _).run s = _
        rw [run_bind_ok hrun, hfound]
        rfl
    | some user =>
        refine Or.inr (Or.inr ⟨user, rfl, ?_⟩)
        show (lookUp >>= _).run s = _
        rw [run_bind_ok hrun, hfound]

/-- A profile is only read. -/
theorem profileRoute_flush {r : ProfileRequest} {caller : CallerHeaders} {users : List User}
    {a : AccountResponse} {flush : Flush} (h : profileRoute r caller users = .ok (a, flush)) :
    flush = id := by
  cases r with
  | getMe =>
      rw [profileRoute, getMe] at h
      cases hcaller : parseCallerId caller <;> rw [hcaller] at h <;> simp only [bind, Except.bind] at h
      · cases h
      · split at h <;> cases h
        rfl
  | getUser userId =>
      rw [profileRoute, getUser] at h
      cases hcaller : parseCallerId caller <;> rw [hcaller] at h <;> simp only [bind, Except.bind] at h
      · cases h
      · split at h <;> cases h
        rfl
  | adminGetUser userId =>
      rw [profileRoute, adminGetUser] at h
      cases hadmin : requireAdmin caller <;> cases hcaller : parseCallerId caller <;>
        rw [hadmin, hcaller] at h <;> simp only [bind, Except.bind] at h
      · cases h
      · cases h
      · cases h
      · split at h <;> cases h
        rfl

/-! ## Any request -/

section

variable (settings : MailSettings) (bcrypt : Bcrypt) (mint : Time → User → String × Int)
  (dummyHash : String)

/-- A request for a mail leaves the table. -/
theorem askForMail_users {f : AskFaults} {find : List User → Option User}
    {send : User → MailAction Unit}
    (hsend : ∀ user s, (final ((send user).run s)).users = s.users) (s : MailService) :
    (final ((askForMail f find send).run s)).users = s.users := by
  rcases askForMail_cases f find send s with ⟨e, hrun⟩ | ⟨-, hrun⟩ | ⟨user, -, hrun⟩
  · rw [hrun]
    rfl
  · rw [hrun]
    rfl
  · rw [hrun]
    exact hsend user s

theorem sendToken_users (f : MailFaults) (key : String) (ttl : Time) (user : User) (mail : Mail)
    (s : MailService) : (final ((sendToken f key ttl user mail).run s)).users = s.users := by
  obtain ⟨s', hrun, hmailed⟩ := sendToken_mailed f key ttl user mail s
  rw [hrun]
  exact hmailed.users

theorem revokeRefreshToken_users (f : RedisFault) (token : String) (w : Worker) :
    (final ((revokeRefreshToken f token).run w)).users = w.users := by
  unfold revokeRefreshToken
  rw [run_bind_ok (getRedis_run f w)]
  cases (w.connect f).client with
  | false => rfl
  | true => cases hf : f.command <;> rfl

/-- What runs on the worker alone. -/
theorem final_onWorker {α : Type} (h : Action α) (s : MailService) :
    final ((onWorker h).run s) = { s with toWorker := final (h.run s.toWorker) } := by
  unfold onWorker
  cases hrun : h.run s.toWorker with
  | ok a w => rw [run_onPart_ok (t := s) hrun]; rfl
  | error e w => rw [run_onPart_error (t := s) hrun]; rfl

theorem final_onTokens {α : Type} (h : Handler α) (s : MailService) :
    final ((onTokens h).run s) = { s with toServer := final (h.run s.toServer) } := by
  rw [onTokens, final_onWorker]
  unfold onServer
  cases hrun : h.run s.toServer with
  | ok a t => rw [run_onPart_ok (t := s.toWorker) hrun]; rfl
  | error e t => rw [run_onPart_error (t := s.toWorker) hrun]; rfl

/-- **What any request can write.** -/
theorem perform_written (s : MailService) (r : UserRequest) :
    Written bcrypt s r ((perform settings bcrypt mint dummyHash r).run s) := by
  cases r with
  | register f uid token salt payload =>
      refine Written.bind_pure (h := handleRegister _ _ _ _ _ _) ?_ _
      rcases handleRegister_cases settings (bcrypt.hashText salt) f uid token payload s with
        hfailed | ⟨hnew, husers, hdone⟩
      · exact Or.inl hfailed
      · exact Or.inr ⟨_, .register hnew, husers, hdone⟩
  | login f fresh email password =>
      refine Written.bind_pure (h := onWorker _) ?_ _
      rcases handleLogin_writes (mint s.now) bcrypt.verifyText dummyHash f fresh email password
        s.toWorker with ⟨e, w', hrun, husers⟩ | ⟨user, hjudged, a, w', hrun, husers⟩
      · refine Or.inl ⟨e, _, run_onPart_error hrun, ?_⟩
        exact husers
      · obtain ⟨hrow, hpassword, hactive⟩ := judged_ok _ hjudged
        refine Or.inr ⟨_, .login hrow hpassword hactive, ?_, Or.inr ⟨a, _, run_onPart_ok hrun⟩⟩
        rw [final_onWorker, hrun]
        exact husers
  | token f salt req =>
      refine Written.bind_pure (h := onTokens _) ?_ _
      exact handle_written (mint s.now) req s
  | logout f token =>
      refine Written.bind_pure (h := onWorker _) (written_of_same ?_) _
      rw [final_onWorker]
      exact revokeRefreshToken_users f token s.toWorker
  | resendVerification f fresh email =>
      refine Written.bind_pure (h := handleResendVerification _ _ _ _) (written_of_same ?_) _
      exact askForMail_users (fun user s => sendToken_users _ _ _ user _ s) s
  | forgotPassword f fresh email =>
      refine Written.bind_pure (h := handleForgotPassword _ _ _ _) (written_of_same ?_) _
      exact askForMail_users (fun user s => sendToken_users _ _ _ user _ s) s
  | account f caller salt r =>
      refine Written.bind_pure (h := handleRoute _ _ _) ?_ _
      rcases handleRoute_cases f (r.admitCaller caller) (route (bcrypt.hashText salt) r caller) s with
        ⟨e, hrun⟩ | ⟨a, flush, hresult, hfinal, hdone⟩
      · exact Or.inl ⟨e, s, hrun, rfl⟩
      · obtain ⟨flush', heffect, hcommitted⟩ := route_effect (bcrypt.hashText salt) r caller s.users
        rw [hresult] at hcommitted
        refine Or.inr ⟨flush', .account heffect, ?_, hdone.imp_right fun hok => ⟨a, _, hok⟩⟩
        rw [hfinal]
        exact hcommitted
  | profile f caller r =>
      refine Written.bind_pure (h := handleRoute _ _ _) (written_of_same ?_) _
      rcases handleRoute_cases f (r.admitCaller caller) (profileRoute r caller) s with
        ⟨e, hrun⟩ | ⟨a, flush, hresult, hfinal, -⟩
      · rw [hrun]
        rfl
      · rw [hfinal, profileRoute_flush hresult]
        rfl

end

end Microservices.Users
