import Microservices.Users.Writes

/-!
# What a request stores

A token is stored for an account by five requests, and each has its reason: the account
is being registered, it is the one of the email that was given, its password was right,
or the refresh token was its own. Nothing else writes under the keys of tokens; what is
there can only go.
-/

namespace Microservices.Users

open Effects
open OpaqueTokens (TokenKind key_inj loginFailKey_ne_key)

/-- The account a refresh token stands for. -/
def Server.refreshOwner (s : Server) (token : String) : Option UUID :=
  (s.redis.get s.now (refreshKey token)).bind UUID.ofText?

/-- What a request can store under the key of a token. -/
inductive Stores (settings : MailSettings) (bcrypt : Bcrypt) (s : MailService) :
    UserRequest → TokenKind → String → Expiring String Time → Prop where
  | register {f : RegisterFaults} {uid : UUID} {token salt : String} {payload : UserCreate}
      (hnew : ∀ u ∈ s.users, u.id ≠ uid) :
      Stores settings bcrypt s (.register f uid token salt payload) .verify token
        ⟨uid.text, some (s.now + settings.verificationTtl)⟩
  | resendVerification {f : AskFaults} {fresh email : String} {user : User}
      (hrow : resendVerification s.users email = some user) :
      Stores settings bcrypt s (.resendVerification f fresh email) .verify fresh
        ⟨user.id.text, some (s.now + settings.verificationTtl)⟩
  | forgotPassword {f : AskFaults} {fresh email : String} {user : User}
      (hrow : forgotPassword s.users email = some user) :
      Stores settings bcrypt s (.forgotPassword f fresh email) .reset fresh
        ⟨user.id.text, some (s.now + settings.resetTtl)⟩
  | login {f : LoginFaults} {fresh email password : String} {user : User}
      (hrow : userByEmail s.users email = some user)
      (hpassword : bcrypt.verifyText password user.hashedPassword = true)
      (hactive : user.isActive = true) :
      Stores settings bcrypt s (.login f fresh email password) .refresh fresh
        ⟨user.id.text, some (s.now + refreshTokenTtl)⟩
  | refresh {f : Faults} {salt token fresh : String} {user : User}
      (howner : s.refreshOwner token = some user.id) (hrow : user ∈ s.users)
      (hactive : user.isActive = true) :
      Stores settings bcrypt s (.token f salt (.refresh token fresh)) .refresh fresh
        ⟨user.id.text, some (s.now + refreshTokenTtl)⟩

/-- At `now`, every token there is was there before or may be stored. -/
def OnlyStores (now : Time) (before : ExpiringStore String String Time)
    (may : TokenKind → String → Expiring String Time → Prop) (s : Server) : Prop :=
  s.now = now ∧ ∀ kind token x, s.redis (kind.key token) = some x →
    before (kind.key token) = some x ∨ may kind token x

section

variable {now : Time} {before : ExpiringStore String String Time}
  {may : TokenKind → String → Expiring String Time → Prop} {s : Server}

theorem onlyStores_start (may : TokenKind → String → Expiring String Time → Prop) (s : Server) :
    OnlyStores s.now s.redis may s := ⟨rfl, fun _ _ _ h => Or.inl h⟩

namespace OnlyStores

variable (h : OnlyStores now before may s)

include h

theorem users (users : List User) : OnlyStores now before may { s with users } := h

theorem del (key : String) : OnlyStores now before may { s with redis := s.redis.del key } := by
  refine ⟨h.1, fun kind token x hx => ?_⟩
  by_cases hkey : kind.key token = key
  · rw [hkey] at hx
    exact absurd ((ExpiringStore.del_self s.redis key).symm.trans hx) (by simp)
  · exact h.2 kind token x ((Function.update_of_ne hkey ..).symm.trans hx)

theorem put (kind : TokenKind) {token value : String} {expiresAt : Option Time}
    (hmay : may kind token ⟨value, expiresAt⟩) :
    OnlyStores now before may
      { s with redis := s.redis.put (kind.key token) value expiresAt } := by
  refine ⟨h.1, fun kind' token' x hx => ?_⟩
  by_cases hkey : kind'.key token' = kind.key token
  · obtain ⟨rfl, rfl⟩ := key_inj hkey
    cases (ExpiringStore.put_self ..).symm.trans hx
    exact Or.inr hmay
  · exact h.2 kind' token' x ((ExpiringStore.put_of_ne s.redis hkey ..).symm.trans hx)

/-- Counters are kept elsewhere. -/
theorem count (email : String) (t : Time) :
    OnlyStores now before may
      { s with redis := (s.redis.incrExpireNxText s.now (loginFailKey email) t).2 } := by
  refine ⟨h.1, fun kind token x hx => h.2 kind token x ?_⟩
  have hkey := (loginFailKey_ne_key email kind token).symm
  exact (ExpiringStore.incrExpireNxText_of_ne s.redis hkey ..).symm.trans hx

end OnlyStores

/-! ## Logging in -/

theorem stores_recordLoginFailure (f : RedisFault) (email : String) :
    Keeps (fun w : Worker => OnlyStores now before may w.toServer)
      (Worker.recordLoginFailure f email) := by
  refine keeps_bind (keeps_getRedis f) fun client => ?_
  cases client with
  | false => exact keeps_pure 0
  | true =>
      refine keeps_orReturn (keeps_bind (keeps_await (fun w hw => ?_) _) fun count => ?_) 0
      · exact hw.count email (w.now + lockoutWindow)
      · cases count with
        | none => exact keeps_throw _
        | some count => exact keeps_pure count

theorem stores_resetLoginFailures (f : RedisFault) (email : String) :
    Keeps (fun w : Worker => OnlyStores now before may w.toServer)
      (Worker.resetLoginFailures f email) := by
  refine keeps_bind (keeps_getRedis f) fun client => ?_
  cases client with
  | false => exact keeps_pure ()
  | true =>
      refine keeps_orReturn (keeps_await (ensures_modify fun w hw => ?_) _) ()
      exact hw.del (loginFailKey email)

theorem stores_turnAway {α : Type} (f : LoginFaults) (email : String) (user : Option User)
    (locked : Bool) :
    Keeps (fun w : Worker => OnlyStores now before may w.toServer)
      (turnAway f email user locked : Action α) := by
  unfold turnAway
  split
  · exact keeps_bind (stores_recordLoginFailure f.record email) fun _ => keeps_throw _
  · exact keeps_throw _

/-- A refresh token is stored for the account. -/
theorem stores_issueTokenResponse {mint : User → String × Int} {f : Faults} {fresh : String}
    {user : User} (hmay : may .refresh fresh ⟨user.id.text, some (now + refreshTokenTtl)⟩) :
    Keeps (OnlyStores now before may) (issueTokenResponse mint f fresh user) := by
  refine keeps_issueTokenResponse fun s hs => ?_
  refine hs.put .refresh ?_
  rw [hs.1]
  exact hmay

theorem stores_completeLogin {mint : User → String × Int} (f : LoginFaults) {fresh : String}
    (email : String) {user : User}
    (hmay : may .refresh fresh ⟨user.id.text, some (now + refreshTokenTtl)⟩) :
    Keeps (fun w : Worker => OnlyStores now before may w.toServer)
      (completeLogin mint f fresh email user) := by
  refine keeps_bind keeps_get fun w => ?_
  refine keeps_bind (stores_resetLoginFailures f.reset email) fun _ => ?_
  refine keeps_bind (keeps_getRedis f.store) fun client => ?_
  refine keeps_bind ?_ fun response => keeps_pure _
  refine keeps_onPart (stores_issueTokenResponse hmay) (fun _ hw => hw) ?_
  exact fun _ _ _ hs => hs

end

/-- A login stores a token for the account that it lets in. -/
theorem stores_handleLogin {mint : User → String × Int} {checkpw : String → String → Bool}
    {dummyHash : String} {may : TokenKind → String → Expiring String Time → Prop}
    (f : LoginFaults) (fresh email password : String) (w : Worker)
    (hmay : ∀ user, judged checkpw (w.lockRead f.readLock email) w.users email password = .ok user →
      may .refresh fresh ⟨user.id.text, some (w.now + refreshTokenTtl)⟩) :
    OnlyStores w.now w.redis may
      (final ((handleLogin mint checkpw dummyHash f fresh email password).run w)).toServer := by
  have hstart : OnlyStores w.now w.redis may (w.connect f.readLock).toServer :=
    onlyStores_start may w.toServer
  have hlogin : OnlyStores w.now w.redis may
      (final ((login mint checkpw dummyHash f fresh email password).run w)).toServer := by
    rw [login_judged]
    cases hjudged : judged checkpw (w.lockRead f.readLock email) w.users email password with
    | ok user => exact stores_completeLogin f email (hmay user hjudged) _ hstart
    | error e =>
        dsimp only
        split
        · exact hstart
        · exact stores_turnAway f email _ _ _ hstart
  cases hrun : (login mint checkpw dummyHash f fresh email password).run w with
  | ok r w' =>
      rw [hrun] at hlogin
      have hdone := run_bind_ok hrun fun r : TokenResponse × Flush => (do
        modify fun w => { w with users := r.2 w.users }
        return r.1 : Action TokenResponse)
      change (handleLogin mint checkpw dummyHash f fresh email password).run w = _ at hdone
      rw [hdone]
      exact hlogin
  | error e w' =>
      rw [hrun] at hlogin
      have hfailed := withDb_run_error hrun
      change (handleLogin mint checkpw dummyHash f fresh email password).run w = _ at hfailed
      rw [hfailed]
      exact hlogin

/-! ## Presenting a token -/

section

variable {f : Faults} {mint : User → String × Int} {hashpw : String → String}
  {may : TokenKind → String → Expiring String Time → Prop}

theorem stores_consumeToken {now : Time} {before : ExpiringStore String String Time} (key : String) :
    Keeps (OnlyStores now before may) (consumeToken f key) := by
  unfold consumeToken
  split
  · exact keeps_pure _
  · refine keeps_await (fun s hs => ?_) _
    exact hs.del key

theorem stores_refreshToken (fresh token : String) (s : Server)
    (hmay : ∀ user ∈ s.users, s.refreshOwner token = some user.id → user.isActive = true →
      may .refresh fresh ⟨user.id.text, some (s.now + refreshTokenTtl)⟩) :
    Ensures (fun t => t = s) (refreshToken mint f fresh token)
      (fun t => TableIs s.now s.users t ∧ OnlyStores s.now s.redis may t) := by
  have hconsume : Ensures (fun t => t = s) (consumeToken f (refreshKey token))
      (fun t => TableIs s.now s.users t ∧ OnlyStores s.now s.redis may t) := by
    rintro t rfl
    exact ⟨keeps_consumeToken f _ t ⟨rfl, rfl⟩, stores_consumeToken _ t (onlyStores_start may t)⟩
  unfold refreshToken consumeRefreshToken
  refine ensures_bind_returning hconsume (yields_consumeToken _ s) fun found hfound => ?_
  refine ensures_bind_returning (keeps_presented _ _) (yields_presented found _)
    fun userId huserId => ?_
  split
  · exact keeps_throw _
  · rename_i uid huid
    refine ensures_bind_returning (R := fun row => ∀ user ∈ row, user.id = uid ∧ user ∈ s.users)
      (keeps_selectUser _) ?_ fun row hrow => ?_
    · refine yields_await (yields_bind keeps_get yields_get fun t ht => yields_pure ?_) _
      intro user hmem
      rw [← ht.1.2]
      exact ⟨by simpa using List.find?_some hmem, List.mem_of_find?_eq_some hmem⟩
    · cases row with
      | none => exact keeps_throw _
      | some user =>
          obtain ⟨hid, hmem⟩ := hrow user rfl
          dsimp only
          split
          · rename_i hactive
            have howner : s.refreshOwner token = some user.id := by
              rw [Server.refreshOwner, hfound userId huserId, Option.bind_some, huid, hid]
            refine keeps_bind (fun t ht => ?_) fun _ => keeps_pure _
            exact ⟨keeps_issueTokenResponse (P := TableIs s.now s.users) (fun _ hs => hs) t ht.1,
              stores_issueTokenResponse (hmay user hmem howner hactive) t ht.2⟩
          · exact keeps_throw _

theorem stores_handle (req : TokenRequest) (s : Server)
    (hmay : ∀ token fresh, req = .refresh token fresh → ∀ user ∈ s.users,
      s.refreshOwner token = some user.id → user.isActive = true →
      may .refresh fresh ⟨user.id.text, some (s.now + refreshTokenTtl)⟩) :
    OnlyStores s.now s.redis may (final ((handle mint hashpw f req).run s)) := by
  have hstart : ∀ t, t = s → OnlyStores s.now s.redis may t := by
    rintro t rfl
    exact onlyStores_start may t
  refine ensures_withDb (P := fun t => t = s) ?_ (fun t users ht => ht.users users) s rfl
  cases req with
  | refresh token fresh =>
      refine ensures_bind (fun t ht => ?_) fun _ => keeps_pure _
      exact (stores_refreshToken fresh token s (hmay token fresh rfl) t ht).2
  | verifyEmail token =>
      refine ensures_bind (fun t ht => ?_) fun _ => keeps_pure _
      refine keeps_bind (stores_consumeToken _) (fun found => ?_) t (hstart t ht)
      refine keeps_bind (keeps_presented _ _) fun userId => ?_
      refine keeps_bind (keeps_tokenOwner _) fun user => ?_
      exact keeps_bind keeps_get fun _ => keeps_pure _
  | resetPassword token newPassword =>
      refine ensures_bind (fun t ht => ?_) fun _ => keeps_pure _
      refine keeps_bind (stores_consumeToken _) (fun found => ?_) t (hstart t ht)
      refine keeps_bind (keeps_presented _ _) fun userId => ?_
      refine keeps_bind (keeps_tokenOwner _) fun user => ?_
      exact keeps_bind (keeps_await (keeps_pure _) _) fun _ => keeps_pure _

end

/-! ## Mails, and the other requests -/

section

variable {may : TokenKind → String → Expiring String Time → Prop}

theorem stores_mailed (kind : TokenKind) {f : MailFaults} {token userId : String} {ttl : Time}
    {s s' : MailService} (h : Mailed f (kind.key token) userId ttl s s')
    (hmay : may kind token ⟨userId, some (s.now + ttl)⟩) :
    OnlyStores s.now s.redis may s'.toServer := by
  rcases h.effect with ⟨-, hput⟩ | ⟨-, hsame, -⟩
  · refine ⟨h.now, ?_⟩
    rw [hput]
    exact ((onlyStores_start may s.toServer).put kind hmay).2
  · refine ⟨h.now, ?_⟩
    rw [hsame]
    exact (onlyStores_start may s.toServer).2

/-- A registration that gets as far as its mail is of a new account. -/
theorem stores_handleRegister {settings : MailSettings} {hashpw : String → String}
    (f : RegisterFaults) (uid : UUID) (token : String) (payload : UserCreate) (s : MailService)
    (hmay : (∀ u ∈ s.users, u.id ≠ uid) →
      may .verify token ⟨uid.text, some (s.now + settings.verificationTtl)⟩) :
    OnlyStores s.now s.redis may
      (final ((handleRegister settings hashpw f uid token payload).run s)).toServer := by
  have hbody : OnlyStores s.now s.redis may
      (final ((register settings hashpw f uid token payload).run s)).toServer := by
    rcases register_final settings hashpw f uid token payload s with
      ⟨-, hsame⟩ | ⟨hflushed, hmailed⟩
    · rw [hsame]
      exact onlyStores_start may s.toServer
    · exact stores_mailed .verify hmailed (hmay hflushed.2.2.2.1.2)
  rcases commit_cases (register settings hashpw f uid token payload)
    (fun flush s => { s with users := flush s.users }) .infrastructure f.commit s with
    ⟨e, hrun⟩ | ⟨a, flush, s', hrun, hfinal, -⟩
  · change (handleRegister settings hashpw f uid token payload).run s = _ at hrun
    rw [hrun]
    exact hbody
  · change final ((handleRegister settings hashpw f uid token payload).run s) = _ at hfinal
    rw [hrun] at hbody
    rw [hfinal]
    exact hbody

theorem stores_askForMail {f : AskFaults} {find : List User → Option User}
    {send : User → MailAction Unit} (s : MailService)
    (hsend : ∀ user, find s.users = some user →
      OnlyStores s.now s.redis may (final ((send user).run s)).toServer) :
    OnlyStores s.now s.redis may (final ((askForMail f find send).run s)).toServer := by
  rcases askForMail_cases f find send s with ⟨e, hrun⟩ | ⟨-, hrun⟩ | ⟨user, hfound, hrun⟩
  · rw [hrun]
    exact onlyStores_start may s.toServer
  · rw [hrun]
    exact onlyStores_start may s.toServer
  · rw [hrun]
    exact hsend user hfound

theorem stores_sendToken (kind : TokenKind) {f : MailFaults} {token : String} {ttl : Time}
    {user : User} {mail : Mail} (s : MailService)
    (hmay : may kind token ⟨user.id.text, some (s.now + ttl)⟩) :
    OnlyStores s.now s.redis may
      (final ((sendToken f (kind.key token) ttl user mail).run s)).toServer := by
  obtain ⟨s', hrun, hmailed⟩ := sendToken_mailed f (kind.key token) ttl user mail s
  rw [hrun]
  exact stores_mailed kind hmailed hmay

theorem stores_revokeRefreshToken (f : RedisFault) (token : String) (w : Worker) :
    OnlyStores w.now w.redis may (final ((revokeRefreshToken f token).run w)).toServer := by
  have hstart : OnlyStores w.now w.redis may (w.connect f).toServer :=
    onlyStores_start may w.toServer
  unfold revokeRefreshToken
  rw [run_bind_ok (getRedis_run f w)]
  cases (w.connect f).client with
  | false => exact hstart
  | true =>
      refine keeps_await (P := fun w' : Worker => OnlyStores w.now w.redis may w'.toServer)
        (ensures_modify fun w' hw' => ?_) _ _ hstart
      exact hw'.del (refreshKey token)

theorem stores_handleRoute (f : AccountFaults) (admitted : Except HTTPException Unit)
    (result : List User → RouteResult) (s : MailService) :
    OnlyStores s.now s.redis may (final ((handleRoute f admitted result).run s)).toServer := by
  rcases handleRoute_cases f admitted result s with ⟨e, hrun⟩ | ⟨a, flush, -, hfinal, -⟩
  · rw [hrun]
    exact onlyStores_start may s.toServer
  · rw [hfinal]
    exact onlyStores_start may s.toServer

end

/-- **What any request can store.** -/
theorem perform_stores (settings : MailSettings) (bcrypt : Bcrypt)
    (mint : Time → User → String × Int) (dummyHash : String) (s : MailService) (r : UserRequest) :
    OnlyStores s.now s.redis (Stores settings bcrypt s r)
      (final ((perform settings bcrypt mint dummyHash r).run s)).toServer := by
  cases r with
  | register f uid token salt payload =>
      show OnlyStores _ _ _ (final ((handleRegister _ _ _ _ _ _ >>= _).run s)).toServer
      rw [final_bind_pure]
      exact stores_handleRegister f uid token payload s fun hnew => .register hnew
  | login f fresh email password =>
      show OnlyStores _ _ _ (final ((onWorker _ >>= _).run s)).toServer
      rw [final_bind_pure, final_onWorker]
      refine stores_handleLogin f fresh email password s.toWorker fun user hjudged => ?_
      obtain ⟨hrow, hpassword, hactive⟩ := judged_ok _ hjudged
      exact .login hrow hpassword hactive
  | token f salt req =>
      show OnlyStores _ _ _ (final ((onTokens _ >>= _).run s)).toServer
      rw [final_bind_pure, final_onTokens]
      refine stores_handle req s.toServer fun token fresh hreq user hrow howner hactive => ?_
      subst hreq
      exact .refresh howner hrow hactive
  | logout f token =>
      show OnlyStores _ _ _ (final ((onWorker _ >>= _).run s)).toServer
      rw [final_bind_pure, final_onWorker]
      exact stores_revokeRefreshToken f token s.toWorker
  | resendVerification f fresh email =>
      show OnlyStores _ _ _ (final ((askForMail _ _ _ >>= _).run s)).toServer
      rw [final_bind_pure]
      exact stores_askForMail s fun user hrow =>
        stores_sendToken .verify s (.resendVerification hrow)
  | forgotPassword f fresh email =>
      show OnlyStores _ _ _ (final ((askForMail _ _ _ >>= _).run s)).toServer
      rw [final_bind_pure]
      exact stores_askForMail s fun user hrow =>
        stores_sendToken .reset s (.forgotPassword hrow)
  | account f caller salt r =>
      show OnlyStores _ _ _ (final ((handleRoute _ _ _ >>= _).run s)).toServer
      rw [final_bind_pure]
      exact stores_handleRoute f _ _ s
  | profile f caller r =>
      show OnlyStores _ _ _ (final ((handleRoute _ _ _ >>= _).run s)).toServer
      rw [final_bind_pure]
      exact stores_handleRoute f _ _ s

end Microservices.Users
