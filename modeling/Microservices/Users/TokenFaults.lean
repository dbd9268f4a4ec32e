import Microservices.Users.Tokens

/-!
# What a failure leaves of a token

Presenting a token consumes it: `GETDEL` is the first thing each handler does, and
none of them ever puts the token back. So a request that fails has burned its
token exactly when its `GETDEL` took effect, however far it got after that, and
the `users` table is as it was, since the session rolls back.
-/

namespace Microservices.Users

open Effects

variable {f : Faults}

/-- The token stored under `key` would be accepted. -/
def Usable (s : Server) (key : String) : Prop :=
  ∃ userId, s.redis.get s.now key = some userId ∧ userId ≠ ""

/-- The request did not succeed, because Redis was down or an await raised. -/
def FailedByInfrastructure {α : Type} (f : Faults) (r : EStateM.Result Failure Server α) : Prop :=
  ∃ e s, r = .error e s ∧ (e = .infrastructure ∨ f.redisDown = true)

/-- The `GETDEL` took effect, whatever became of its answer. -/
def Faults.TookToken (f : Faults) : Prop := f.redisDown = false ∧ f.getdel ≠ .before

/-- The replacement a refresh draws is not the token it was given. -/
def TokenRequest.DrawsFresh : TokenRequest → Prop
  | .refresh token fresh => fresh ≠ token
  | _ => True

/--
**A failed request does not burn its token**: it is still usable, or the client
holds its replacement.
-/
def NotBurned (f : Faults) (req : TokenRequest) (s : Server)
    (r : EStateM.Result Failure Server (Option TokenResponse)) : Prop :=
  FailedByInfrastructure f r → Usable s req.key →
    Usable (final r) req.key ∨ ∃ response s', r = .ok (some response) s'
      ∧ response.refreshToken.isSome

/-! ## Everything after the `GETDEL` -/

/-- No token under `key`, expired or not. -/
def Gone (key : String) (s : Server) : Prop := s.redis key = none

theorem consumeToken_gone (h : f.TookToken) (key : String) :
    Ensures (fun _ => True) (consumeToken f key) (Gone key) := by
  rw [consumeToken, h.1, if_neg (by simp)]
  refine ensures_await (fun s _ => ?_) h.2
  exact ExpiringStore.del_self s.redis key

/-- Without effect there is no token to go on with, and nothing has changed. -/
theorem consumeToken_untouched (h : ¬ f.TookToken) (key : String) (s : Server) :
    (consumeToken f key).run s = .ok none s
      ∨ (consumeToken f key).run s = .error .infrastructure s := by
  unfold consumeToken
  cases hd : f.redisDown with
  | true => exact Or.inl rfl
  | false =>
      have hb : f.getdel = .before := by
        by_contra hne
        exact h ⟨hd, hne⟩
      rw [hb]
      exact Or.inr rfl

section

variable {P Q : Server → Prop}

theorem keeps_presented (userId : Option String) (e : HTTPException) :
    Keeps P (presented userId e) := by
  unfold presented
  split
  · exact keeps_throw _
  · split
    · exact keeps_throw _
    · exact keeps_pure _

theorem keeps_selectUser (uid : UUID) : Keeps P (selectUser f uid) :=
  keeps_await (keeps_bind keeps_get fun _ => keeps_pure _) _

theorem keeps_tokenOwner (userId : String) : Keeps P (tokenOwner f userId) := by
  unfold tokenOwner
  split
  · exact keeps_throw _
  · refine keeps_bind (keeps_selectUser _) fun found => ?_
    cases found with
    | none => exact keeps_throw _
    | some user => exact keeps_pure _

theorem keeps_issueTokenResponse {mint : User → String × Int} {fresh : String} {user : User}
    (hput : ∀ s, P s → P { s with
      redis := s.redis.put (refreshKey fresh) user.id.text (some (s.now + refreshTokenTtl)) }) :
    Keeps P (issueTokenResponse mint f fresh user) := by
  unfold issueTokenResponse
  refine keeps_bind ?_ fun stored => keeps_pure _
  unfold storeRefreshToken
  split
  · exact keeps_pure _
  · exact keeps_bind (keeps_await (ensures_modify hput) _) fun _ => keeps_pure _

/--
What the `GETDEL` ensures, the rest of the handler keeps, if storing the
replacement does.
-/
theorem ensures_body (mint : User → String × Int) (hashpw : String → String) {req : TokenRequest}
    (hconsume : Ensures P (consumeToken f req.key) Q)
    (hput : ∀ token fresh, req = .refresh token fresh → ∀ (s : Server) (userId : String), Q s →
      Q { s with
        redis := s.redis.put (refreshKey fresh) userId (some (s.now + refreshTokenTtl)) }) :
    Ensures P (body mint hashpw f req) Q := by
  cases req with
  | refresh token fresh =>
      refine ensures_bind (ensures_bind hconsume fun found => ?_) fun _ => keeps_pure _
      refine keeps_bind (keeps_presented _ _) fun userId => ?_
      split
      · exact keeps_throw _
      · refine keeps_bind (keeps_selectUser _) fun row => ?_
        cases row with
        | none => exact keeps_throw _
        | some user =>
            dsimp only
            split
            · exact keeps_bind
                (keeps_issueTokenResponse fun s hs => hput token fresh rfl s _ hs)
                fun _ => keeps_pure _
            · exact keeps_throw _
  | verifyEmail token =>
      refine ensures_bind (ensures_bind hconsume fun found => ?_) fun _ => keeps_pure _
      refine keeps_bind (keeps_presented _ _) fun userId => ?_
      refine keeps_bind (keeps_tokenOwner _) fun user => ?_
      exact keeps_bind keeps_get fun _ => keeps_pure _
  | resetPassword token newPassword =>
      refine ensures_bind (ensures_bind hconsume fun found => ?_) fun _ => keeps_pure _
      refine keeps_bind (keeps_presented _ _) fun userId => ?_
      refine keeps_bind (keeps_tokenOwner _) fun user => ?_
      refine keeps_bind (keeps_await (keeps_pure _) _) fun hashed => keeps_pure _

theorem ensures_withDb {α : Type} {b : Handler (α × Flush)} (hb : Ensures P b Q)
    (hcommit : ∀ (s : Server) (users : List User), Q s → Q { s with users }) :
    Ensures P (withDb f b) Q :=
  ensures_bind hb fun _ =>
    keeps_bind (keeps_await (ensures_modify fun s hs => hcommit s _ hs) _) fun _ => keeps_pure _

end

/-! ## What a request writes to the table -/

/-- The account whose password a reset token sets. -/
def Server.resetOwner (s : Server) (token : String) : Option UUID :=
  (s.redis.get s.now (resetKey token)).bind UUID.ofText?

/-- The write of a request that gets that far. -/
inductive TokenEffect (hashpw : String → String) (s : Server) : TokenRequest → Flush → Prop where
  | refresh (token fresh : String) : TokenEffect hashpw s (.refresh token fresh) id
  | verified (token : String) : TokenEffect hashpw s (.verifyEmail token) id
  | verify (token : String) (uid : UUID) (t : Time) : TokenEffect hashpw s (.verifyEmail token)
      (updateUser uid fun u => { u with emailVerified := true, emailVerifiedAt := some t })
  | reset {token newPassword : String} {uid : UUID} (howner : s.resetOwner token = some uid) :
      TokenEffect hashpw s (.resetPassword token newPassword)
        (updateUser uid fun u => { u with hashedPassword := hashpw newPassword })

section

variable {P : Server → Prop}

/-- Only what is stored is found. -/
theorem yields_consumeToken (key : String) (s : Server) :
    Yields (fun t => t = s) (consumeToken f key) fun found =>
      ∀ userId ∈ found, s.redis.get s.now key = some userId := by
  unfold consumeToken
  split
  · exact yields_pure fun _ h => absurd h (Option.not_mem_none _)
  · refine yields_await (fun t ht found t' hrun => ?_) _
    cases hrun
    rw [ht]
    exact fun _ h => h

theorem yields_presented (found : Option String) (e : HTTPException) :
    Yields P (presented found e) fun userId => found = some userId := by
  unfold presented
  cases found with
  | none => exact yields_throw _
  | some userId =>
      dsimp only
      split
      · exact yields_throw _
      · exact yields_pure rfl

theorem yields_tokenOwner (userId : String) :
    Yields P (tokenOwner f userId) fun user => UUID.ofText? userId = some user.id := by
  unfold tokenOwner
  cases UUID.ofText? userId with
  | none => exact yields_throw _
  | some uid =>
      have hrow : Yields P (selectUser f uid) fun row => ∀ user ∈ row, user.id = uid := by
        refine yields_await (yields_bind keeps_get (yields_true _) fun s _ => yields_pure ?_) _
        intro user huser
        simpa using List.find?_some huser
      refine yields_bind_last hrow fun row hid => ?_
      cases row with
      | none => exact yields_throw _
      | some user => exact yields_pure (congrArg some (hid user rfl).symm)

/-- `reset_password` writes for the account of its token. -/
theorem yields_resetPassword (hashpw : String → String) (token newPassword : String) (s : Server) :
    Yields (fun t => t = s) (resetPassword hashpw f token newPassword)
      (TokenEffect hashpw s (.resetPassword token newPassword)) := by
  unfold resetPassword consumePasswordResetToken
  refine yields_bind_last (yields_consumeToken _ s) fun found hfound => ?_
  refine yields_bind_last (yields_presented found _) fun userId huserId => ?_
  refine yields_bind_last (yields_tokenOwner userId) fun user huser => ?_
  refine yields_bind_last (yields_await (yields_pure (Eq.refl (hashpw newPassword))) _)
    fun hashed hhashed => yields_pure ?_
  rw [← hhashed]
  refine .reset ?_
  rw [Server.resetOwner, hfound userId huserId, Option.bind_some, huser]

theorem yields_verifyEmail (hashpw : String → String) (token : String) (s : Server) :
    Yields P (verifyEmail f token) (TokenEffect hashpw s (.verifyEmail token)) := by
  unfold verifyEmail consumeEmailVerificationToken
  refine yields_bind_last (yields_true _) fun found _ => ?_
  refine yields_bind_last (yields_true _) fun userId _ => ?_
  refine yields_bind_last (yields_true _) fun user _ => ?_
  refine yields_bind_last (yields_true _) fun t _ => yields_pure ?_
  split
  · exact .verified token
  · exact .verify token _ _

theorem yields_refreshToken (mint : User → String × Int) (hashpw : String → String)
    (fresh token : String) (s : Server) :
    Yields P (refreshToken mint f fresh token) fun r =>
      TokenEffect hashpw s (.refresh token fresh) r.2 := by
  unfold refreshToken
  refine yields_bind_last (yields_true _) fun found _ => ?_
  refine yields_bind_last (yields_true _) fun userId _ => ?_
  split
  · exact yields_throw _
  · refine yields_bind_last (yields_true _) fun row _ => ?_
    cases row with
    | none => exact yields_throw _
    | some user =>
        dsimp only
        split
        · exact yields_bind_last (yields_true _) fun _ _ => yields_pure (.refresh token fresh)
        · exact yields_throw _

/-- **What a request can write.** -/
theorem body_effect (mint : User → String × Int) (hashpw : String → String) (req : TokenRequest)
    (s : Server) :
    Yields (fun t => t = s) (body mint hashpw f req) fun r => TokenEffect hashpw s req r.2 := by
  cases req with
  | refresh token fresh =>
      exact yields_bind_last (yields_refreshToken mint hashpw fresh token s)
        fun _ h => yields_pure h
  | verifyEmail token =>
      exact yields_bind_last (yields_verifyEmail hashpw token s) fun _ h => yields_pure h
  | resetPassword token newPassword =>
      exact yields_bind_last (yields_resetPassword hashpw token newPassword s)
        fun _ h => yields_pure h

end

/-! ## The token and the table after a request -/

variable (mint : User → String × Int) (hashpw : String → String)

/-- **A request whose `GETDEL` took effect leaves no token**, however it ends. -/
theorem handle_gone {req : TokenRequest} (hfresh : req.DrawsFresh) (h : f.TookToken) :
    Ensures (fun _ => True) (handle mint hashpw f req) (Gone req.key) := by
  refine ensures_withDb (ensures_body mint hashpw (consumeToken_gone h req.key) ?_)
    fun s users hs => hs
  intro token fresh hreq s userId hs
  subst hreq
  have hne : refreshKey token ≠ refreshKey fresh := by
    intro he
    exact hfresh (String.append_right_inj _ |>.mp he).symm
  exact (ExpiringStore.put_of_ne s.redis hne _ _).trans hs

/-- A handler that read no token ends there, and changes nothing. -/
theorem body_untouched (h : ¬ f.TookToken) (req : TokenRequest) (s : Server) :
    ∃ e, (body mint hashpw f req).run s = .error e s := by
  have hstop : ∀ {α : Type} (key : String) (error : HTTPException) (k : String → Handler α),
      ∃ e, (consumeToken f key >>= fun found => presented found error >>= k).run s
        = .error e s := by
    intro α key error k
    rcases consumeToken_untouched h key s with hr | hr
    · exact ⟨.http error, by rw [run_bind_ok hr]; rfl⟩
    · exact ⟨.infrastructure, run_bind_error hr _⟩
  cases req with
  | refresh token fresh =>
      obtain ⟨e, he⟩ := hstop (refreshKey token) _ _
      exact ⟨e, run_bind_error he _⟩
  | verifyEmail token =>
      obtain ⟨e, he⟩ := hstop (verifyKey token) _ _
      exact ⟨e, run_bind_error he _⟩
  | resetPassword token newPassword =>
      obtain ⟨e, he⟩ := hstop (resetKey token) _ _
      exact ⟨e, run_bind_error he _⟩

theorem handle_untouched (h : ¬ f.TookToken) (req : TokenRequest) (s : Server) :
    ∃ e, (handle mint hashpw f req).run s = .error e s := by
  obtain ⟨e, he⟩ := body_untouched mint hashpw h req s
  exact ⟨e, run_bind_error he _⟩

/-- The handler's body writes to Redis only: the table waits for the commit. -/
theorem body_users (req : TokenRequest) (users : List User) :
    Keeps (fun s => s.users = users) (body mint hashpw f req) := by
  refine ensures_body mint hashpw ?_ fun _ _ _ s _ hs => hs
  unfold consumeToken
  split
  · exact keeps_pure _
  · exact keeps_await (fun s hs => hs) _

/-- **A request has no effect on the table, or that of its write.** -/
theorem handle_cases (f : Faults) (req : TokenRequest) (s : Server) :
    (∃ e s', (handle mint hashpw f req).run s = .error e s' ∧ s'.users = s.users)
      ∨ ∃ flush, TokenEffect hashpw s req flush
        ∧ (final ((handle mint hashpw f req).run s)).users = flush s.users
        ∧ (f.commit = .after ∨ ∃ a s', (handle mint hashpw f req).run s = .ok a s') := by
  have hbody := body_users (f := f) mint hashpw req s.users s rfl
  rcases commit_cases (body mint hashpw f req) (fun flush s => { s with users := flush s.users })
    .infrastructure f.commit s with ⟨e, hrun⟩ | ⟨a, flush, s', hrun, hfinal, hdone⟩
  · exact Or.inl ⟨e, _, hrun, hbody⟩
  · rw [hrun] at hbody
    refine Or.inr ⟨flush, body_effect mint hashpw req s s rfl _ s' hrun, ?_, ?_⟩
    · rw [← hbody]
      exact congrArg Server.users hfinal
    · exact hdone.imp_right fun ⟨s'', hok⟩ => ⟨a, s'', hok⟩

/-- **A request that fails leaves the table as it was**, unless its commit went through. -/
theorem users_of_error {req : TokenRequest} {s s' : Server} {e : Failure}
    (h : (handle mint hashpw f req).run s = .error e s') (hcommit : f.commit ≠ .after) :
    s'.users = s.users := by
  rcases handle_cases mint hashpw f req s with
    ⟨e', t, hrun, husers⟩ | ⟨flush, -, -, hafter | ⟨a, t, hrun⟩⟩
  · rw [h] at hrun
    cases hrun
    exact husers
  · exact absurd hafter hcommit
  · rw [h] at hrun
    cases hrun

/--
**A failed request has burned its token exactly when its `GETDEL` took effect.**

For every state, every token and every pattern of failures of the three handlers:
a request that does not succeed because of one leaves the token usable if it was
and the `GETDEL` did not take effect, and gone otherwise. The `users` table is as
it was, unless it was only the commit's answer that got lost.
-/
theorem token_survives_iff (mint : User → String × Int) (hashpw : String → String) (f : Faults)
    (req : TokenRequest) (hfresh : req.DrawsFresh) (s : Server)
    (hfail : FailedByInfrastructure f ((handle mint hashpw f req).run s)) :
    (Usable (final ((handle mint hashpw f req).run s)) req.key
        ↔ Usable s req.key ∧ ¬ f.TookToken)
      ∧ (f.commit ≠ .after → (final ((handle mint hashpw f req).run s)).users = s.users) := by
  refine ⟨?_, fun hcommit => ?_⟩
  · by_cases ht : f.TookToken
    · have hgone := handle_gone mint hashpw hfresh ht s trivial
      refine ⟨fun ⟨userId, hget, _⟩ => ?_, fun h => absurd ht h.2⟩
      rw [ExpiringStore.get, ExpiringStore.live_eq_none _ hgone] at hget
      cases hget
    · obtain ⟨e, he⟩ := handle_untouched mint hashpw ht req s
      rw [he]
      exact ⟨fun h => ⟨h, ht⟩, fun h => h.1⟩
  · obtain ⟨e, s', he, _⟩ := hfail
    rw [he]
    exact users_of_error mint hashpw he hcommit

/-- Bob's account, with one token of each kind outstanding. -/
def bob : User where
  id := ⟨2, by decide⟩
  email := "bob@example.com"
  username := "bob"
  hashedPassword := "hash"

def bobsServer : Server where
  now := 0
  redis :=
    ((ExpiringStore.empty.put (refreshKey "t0") bob.id.text (some refreshTokenTtl)).put
      (verifyKey "t1") bob.id.text (some refreshTokenTtl)).put
      (resetKey "t2") bob.id.text (some refreshTokenTtl)
  users := [bob]

/-- Bob's three requests. -/
def bobsRequests : List TokenRequest :=
  [.refresh "t0" "t3", .verifyEmail "t1", .resetPassword "t2" "New-Pass1"]

/-- The first query fails. -/
def queryFails : Faults := { query := .before }

/-- The verification token of a request whose `GETDEL` did not go out is still there. -/
theorem token_survives_refused_getdel :
    Usable (final ((handle (fun _ => ("jwt", 3600)) id { getdel := .before }
      (.verifyEmail "t1")).run bobsServer)) (verifyKey "t1") :=
  (token_survives_iff (fun _ => ("jwt", 3600)) id { getdel := .before } (.verifyEmail "t1") trivial
    bobsServer ⟨.infrastructure, bobsServer, rfl, Or.inl rfl⟩).1.mpr
    ⟨⟨bob.id.text, rfl, by decide +kernel⟩, fun h => h.2 rfl⟩

theorem query_failure_burns {req : TokenRequest} (hreq : req ∈ bobsRequests) :
    ¬ NotBurned queryFails req bobsServer
      ((handle (fun _ => ("jwt", 3600)) id queryFails req).run bobsServer) := by
  intro h
  have hall : ∀ req ∈ bobsRequests, req.DrawsFresh ∧ Usable bobsServer req.key
      ∧ ∃ s', (handle (fun _ => ("jwt", 3600)) id queryFails req).run bobsServer
          = .error .infrastructure s' := by
    intro req hreq
    simp only [bobsRequests, List.mem_cons, List.not_mem_nil, or_false] at hreq
    rcases hreq with rfl | rfl | rfl
    · refine ⟨?_, ⟨bob.id.text, rfl, by decide +kernel⟩, _, rfl⟩
      show "t3" ≠ "t0"
      decide
    · exact ⟨trivial, ⟨bob.id.text, rfl, by decide +kernel⟩, _, rfl⟩
    · exact ⟨trivial, ⟨bob.id.text, rfl, by decide +kernel⟩, _, rfl⟩
  obtain ⟨hfresh, husable, s', hr⟩ := hall req hreq
  have htook : queryFails.TookToken := ⟨rfl, by decide⟩
  have hgone := handle_gone (fun _ => ("jwt", 3600)) id hfresh htook bobsServer trivial
  rw [hr] at h hgone
  rcases h ⟨.infrastructure, s', rfl, Or.inl rfl⟩ husable with ⟨userId, hget, _⟩ | ⟨_, _, hok, _⟩
  · rw [ExpiringStore.get, ExpiringStore.live_eq_none _ hgone] at hget
    cases hget
  · cases hok

/-- **A query that fails after the `GETDEL` burns the token**, in all three handlers. -/
theorem failed_query_burns_token :
    let run req := (handle (fun _ => ("jwt", 3600)) id queryFails req).run bobsServer
    ¬ NotBurned queryFails (.refresh "t0" "t3") bobsServer (run (.refresh "t0" "t3"))
      ∧ ¬ NotBurned queryFails (.verifyEmail "t1") bobsServer (run (.verifyEmail "t1"))
      ∧ ¬ NotBurned queryFails (.resetPassword "t2" "New-Pass1") bobsServer
          (run (.resetPassword "t2" "New-Pass1")) :=
  ⟨query_failure_burns (by simp [bobsRequests]), query_failure_burns (by simp [bobsRequests]),
    query_failure_burns (by simp [bobsRequests])⟩

end Microservices.Users
