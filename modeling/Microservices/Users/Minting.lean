import Microservices.Users.AccessTokens
import Microservices.Users.LoginFaults
import Microservices.Users.TokenFaults

/-!
# What login and refresh mint

Both re-read the row before they mint, and both ask whether it is active. What
they write to the table leaves every account active or not and admin or not as it
was.
-/

namespace Microservices.Users

open Effects

/-- The ids and the flags of the accounts. -/
def standing (users : List User) : List (UUID × Bool × Bool) :=
  users.map fun u => (u.id, u.isActive, u.isAdmin)

/-- The write touches neither ids nor flags. -/
def LeavesStanding (flush : Flush) : Prop := ∀ users, standing (flush users) = standing users

theorem leavesStanding_updateUser {change : User → User}
    (h : ∀ u, ((change u).id, (change u).isActive, (change u).isAdmin)
      = (u.id, u.isActive, u.isAdmin)) (uid : UUID) : LeavesStanding (updateUser uid change) := by
  intro users
  unfold standing updateUser
  rw [List.map_map]
  refine List.map_congr_left fun u _ => ?_
  dsimp only [Function.comp_apply]
  split
  · exact h u
  · rfl

/-- The clock and the table are these. -/
def TableIs (now : Time) (users : List User) (s : Server) : Prop := s.now = now ∧ s.users = users

variable (encode : AccessClaims → (secret algorithm kid : String) → String) (signer : Signer)

/-- The access token is one of an active row of the table, minted at `now`. -/
def MintedFrom (now : Time) (users : List User) (accessToken : String) : Prop :=
  ∃ user ∈ users, user.isActive = true ∧ accessToken = (signer.mint encode now user).1

section

variable {now : Time} {users : List User}

theorem yields_issueTokenResponse {f : Faults} {fresh : String} {user user' : User}
    (hmem : user ∈ users) (hactive : user.isActive = true)
    (hsame : signer.mint encode now user' = signer.mint encode now user) :
    Yields (TableIs now users) (issueTokenResponse (signer.mint encode now) f fresh user')
      fun response => MintedFrom encode signer now users response.accessToken := by
  unfold issueTokenResponse
  refine yields_bind ?_ (yields_true _) fun stored _ => yields_pure ?_
  · unfold storeRefreshToken
    split
    · exact keeps_pure _
    · refine keeps_bind (keeps_await (ensures_modify fun s hs => ?_) _) fun _ => keeps_pure _
      exact hs
  · exact ⟨user, hmem, hactive, congrArg Prod.fst hsame⟩

/-! ## Requests under a token -/

theorem keeps_consumeToken (f : Faults) (key : String) :
    Keeps (TableIs now users) (consumeToken f key) := by
  unfold consumeToken
  split
  · exact keeps_pure _
  · exact keeps_await (fun s hs => hs) _

theorem yields_selectUser (f : Faults) (uid : UUID) :
    Yields (TableIs now users) (selectUser f uid) fun found => ∀ user ∈ found, user ∈ users := by
  refine yields_await (yields_bind keeps_get yields_get fun s hs => yields_pure ?_) _
  intro user hfound
  rw [← hs.2]
  exact List.mem_of_find?_eq_some hfound

/-- `refresh_token` mints from an active row. -/
theorem refreshToken_mints (f : Faults) (fresh token : String) :
    Yields (TableIs now users) (refreshToken (signer.mint encode now) f fresh token) fun r =>
      MintedFrom encode signer now users r.1.accessToken := by
  unfold refreshToken consumeRefreshToken
  refine yields_bind (keeps_consumeToken f _) (yields_true _) fun found _ => ?_
  refine yields_bind (keeps_presented _ _) (yields_true _) fun userId _ => ?_
  split
  · exact yields_throw _
  · refine yields_bind (keeps_selectUser _) (yields_selectUser f _) fun row hrow => ?_
    cases row with
    | none => exact yields_throw _
    | some user =>
        dsimp only
        split
        · rename_i hactive
          refine yields_bind (keeps_issueTokenResponse fun s hs => hs)
            (yields_issueTokenResponse encode signer (hrow user rfl) hactive rfl)
            fun response hresponse => yields_pure hresponse
        · exact yields_throw _

/-- The other two have nothing to return. -/
theorem body_mints (hashpw : String → String) (f : Faults) (req : TokenRequest) :
    Yields (TableIs now users) (body (signer.mint encode now) hashpw f req) fun r =>
      ∀ response ∈ r.1, MintedFrom encode signer now users response.accessToken := by
  cases req with
  | refresh token fresh =>
      refine yields_bind_last (refreshToken_mints encode signer f fresh token) fun r hr =>
        yields_pure fun response hresponse => ?_
      cases hresponse
      exact hr
  | verifyEmail token =>
      exact yields_bind_last (yields_true _) fun _ _ =>
        yields_pure fun _ h => absurd h (Option.not_mem_none _)
  | resetPassword token newPassword =>
      exact yields_bind_last (yields_true _) fun _ _ =>
        yields_pure fun _ h => absurd h (Option.not_mem_none _)

/-- What is written under a token are columns of their own. -/
theorem TokenEffect.leavesStanding {hashpw : String → String} {s : Server} {req : TokenRequest}
    {flush : Flush} (h : TokenEffect hashpw s req flush) : LeavesStanding flush := by
  cases h with
  | refresh => exact fun _ => rfl
  | verified => exact fun _ => rfl
  | verify =>
      refine leavesStanding_updateUser (fun u => ?_) _
      rfl
  | reset =>
      refine leavesStanding_updateUser (fun u => ?_) _
      rfl

theorem yields_body (hashpw : String → String) (f : Faults) (req : TokenRequest) :
    Yields (TableIs now users) (body (signer.mint encode now) hashpw f req) fun r =>
      LeavesStanding r.2 :=
  fun s _ r s' hrun => (body_effect _ hashpw req s s rfl r s' hrun).leavesStanding

theorem keeps_body (hashpw : String → String) (f : Faults) (req : TokenRequest) :
    Keeps (TableIs now users) (body (signer.mint encode now) hashpw f req) := by
  refine ensures_body _ hashpw (keeps_consumeToken f _) ?_
  intro token fresh _ s userId hs
  exact hs

/-- The clock is this, and the ids and flags are those of the table. -/
def StandingIs (now : Time) (users : List User) (s : Server) : Prop :=
  s.now = now ∧ standing s.users = standing users

theorem TableIs.standing {s : Server} (h : TableIs now users s) : StandingIs now users s :=
  ⟨h.1, congrArg Users.standing h.2⟩

theorem TableIs.flush {s : Server} (h : TableIs now users s) {flush : Flush}
    (hflush : LeavesStanding flush) : StandingIs now users { s with users := flush s.users } :=
  ⟨h.1, (hflush s.users).trans (congrArg Users.standing h.2)⟩

/-- **A request under an opaque token leaves the flags**, -/
theorem handle_standing (hashpw : String → String) (f : Faults) (req : TokenRequest) :
    Ensures (TableIs now users) (handle (signer.mint encode now) hashpw f req)
      (StandingIs now users) := by
  refine ensures_bind_yields (fun _ hs => hs.standing) (keeps_body encode signer hashpw f req)
    (yields_body encode signer hashpw f req) fun r hr => ?_
  refine ensures_bind (ensures_await_weak (fun _ hs => hs.standing) (ensures_modify ?_) _)
    fun _ => keeps_pure _
  exact fun s hs => hs.flush hr

/-- **and mints from an active row.** -/
theorem handle_mints (hashpw : String → String) (f : Faults) (req : TokenRequest) :
    Yields (TableIs now users) (handle (signer.mint encode now) hashpw f req) fun r =>
      ∀ response ∈ r, MintedFrom encode signer now users response.accessToken :=
  yields_bind_last (body_mints encode signer hashpw f req) fun _ hr =>
    yields_bind_last (yields_true _) fun _ _ => yields_pure hr

end

/-! ## Login -/

section

variable {P : Server → Prop}

theorem keeps_getRedis (f : RedisFault) : Keeps (fun w : Worker => P w.toServer) (getRedis f) := by
  intro w hw
  rw [getRedis_run]
  exact hw

variable (hredis : ∀ s redis, P s → P { s with redis })

include hredis

theorem keeps_recordLoginFailure (f : RedisFault) (email : String) :
    Keeps (fun w : Worker => P w.toServer) (Worker.recordLoginFailure f email) := by
  refine keeps_bind (keeps_getRedis f) fun client => ?_
  cases client with
  | false => exact keeps_pure 0
  | true =>
      refine keeps_orReturn (keeps_bind (keeps_await (fun w hw => ?_) _) fun count => ?_) 0
      · exact hredis w.toServer _ hw
      · cases count with
        | none => exact keeps_throw _
        | some count => exact keeps_pure count

theorem keeps_resetLoginFailures (f : RedisFault) (email : String) :
    Keeps (fun w : Worker => P w.toServer) (Worker.resetLoginFailures f email) := by
  refine keeps_bind (keeps_getRedis f) fun client => ?_
  cases client with
  | false => exact keeps_pure ()
  | true =>
      refine keeps_orReturn (keeps_await (ensures_modify fun w hw => ?_) _) ()
      exact hredis w.toServer _ hw

theorem keeps_turnAway {α : Type} (f : LoginFaults) (email : String) (user : Option User)
    (locked : Bool) :
    Keeps (fun w : Worker => P w.toServer) (turnAway f email user locked : Action α) := by
  unfold turnAway
  split
  · exact keeps_bind (keeps_recordLoginFailure hredis f.record email) fun _ => keeps_throw _
  · exact keeps_throw _

theorem keeps_completeLogin {mint : User → String × Int} (f : LoginFaults) (fresh email : String)
    (user : User) :
    Keeps (fun w : Worker => P w.toServer) (completeLogin mint f fresh email user) := by
  refine keeps_bind keeps_get fun w => ?_
  refine keeps_bind (keeps_resetLoginFailures hredis f.reset email) fun _ => ?_
  refine keeps_bind (keeps_getRedis f.store) fun client => ?_
  refine keeps_bind ?_ fun response => keeps_pure _
  refine keeps_onPart (keeps_issueTokenResponse fun s hs => hredis s _ hs) (fun _ hw => hw) ?_
  exact fun _ _ _ hs => hs

theorem keeps_login {mint : User → String × Int} {checkpw : String → String → Bool}
    {dummyHash : String} (f : LoginFaults) (fresh email password : String) :
    Keeps (fun w : Worker => P w.toServer)
      (login mint checkpw dummyHash f fresh email password) := by
  refine keeps_bind (fun w hw => ?_) fun locked => keeps_bind keeps_get fun w => ?_
  · rw [isAccountLocked_run]
    exact hw
  · dsimp only
    split
    · exact keeps_turnAway hredis f email _ locked
    · split
      · exact keeps_turnAway hredis f email _ locked
      · split
        · exact keeps_throw _
        · exact keeps_completeLogin hredis f fresh email _

end

section

variable {now : Time} {users : List User}

theorem yields_turnAway {α : Type} {P : Worker → Prop} {R : α → Prop} (f : LoginFaults)
    (email : String) (user : Option User) (locked : Bool) :
    Yields P (turnAway f email user locked : Action α) R := by
  unfold turnAway
  split
  · exact yields_bind_last (yields_true _) fun _ _ => yields_throw _
  · exact yields_throw _

theorem yields_completeLogin (f : LoginFaults) (fresh email : String) {user : User}
    (hmem : user ∈ users) (hactive : user.isActive = true) :
    Yields (fun w : Worker => TableIs now users w.toServer)
      (completeLogin (signer.mint encode now) f fresh email user) fun r =>
        MintedFrom encode signer now users r.1.accessToken := by
  have hredis : ∀ (s : Server) redis, TableIs now users s → TableIs now users { s with redis } :=
    fun _ _ hs => hs
  refine yields_bind keeps_get (yields_true _) fun w _ => ?_
  refine yields_bind (keeps_resetLoginFailures hredis f.reset email) (yields_true _) fun _ _ => ?_
  refine yields_bind (keeps_getRedis f.store) (yields_true _) fun client _ => ?_
  exact yields_bind_last (yields_onPart
    (yields_issueTokenResponse encode signer hmem hactive rfl) fun _ hw => hw)
    fun response hresponse => yields_pure hresponse

/-- `login` mints from the active row of the email. -/
theorem yields_login (checkpw : String → String → Bool) (dummyHash : String) (f : LoginFaults)
    (fresh email password : String) :
    Yields (fun w : Worker => TableIs now users w.toServer)
      (login (signer.mint encode now) checkpw dummyHash f fresh email password) fun r =>
        MintedFrom encode signer now users r.1.accessToken := by
  refine yields_bind (fun w hw => ?_) (yields_true _) fun locked _ =>
    yields_bind keeps_get yields_get fun w hw => ?_
  · rw [isAccountLocked_run]
    exact hw
  · dsimp only
    cases hrow : userByEmail w.users email with
    | none => exact yields_turnAway f email _ locked
    | some user =>
        have hmem : user ∈ users := by
          rw [← hw.2]
          exact List.mem_of_find?_eq_some hrow
        dsimp only
        split
        · exact yields_turnAway f email _ locked
        · split
          · exact yields_throw _
          · rename_i hactive
            exact yields_completeLogin encode signer f fresh email hmem (by simpa using hactive)

/-- **A login writes to the table when it was, or nothing.** -/
theorem handleLogin_cases (mint : User → String × Int) (checkpw : String → String → Bool)
    (dummyHash : String) (f : LoginFaults) (fresh email password : String) (w : Worker) :
    let w' := final ((handleLogin mint checkpw dummyHash f fresh email password).run w)
    w'.now = w.now ∧ (w'.users = w.users
      ∨ ∃ uid t, w'.users = updateUser uid (fun u => { u with lastLoginAt := some t }) w.users) := by
  have hkeeps : Keeps (fun w' : Worker => TableIs w.now w.users w'.toServer)
      (login mint checkpw dummyHash f fresh email password) :=
    keeps_login (fun _ _ hs => hs) f fresh email password
  obtain ⟨hnow, husers⟩ := hkeeps w ⟨rfl, rfl⟩
  rcases commit_cases (login mint checkpw dummyHash f fresh email password)
    (fun flush w => { w with users := flush w.users }) .infrastructure .none w with
    ⟨e, hrun⟩ | ⟨a, flush, w₁, hrun, hfinal, -⟩
  · change (handleLogin mint checkpw dummyHash f fresh email password).run w = _ at hrun
    rw [hrun]
    exact ⟨hnow, Or.inl husers⟩
  · obtain ⟨uid, hflush⟩ := login_flush mint checkpw dummyHash hrun
    rw [hrun] at hnow husers
    change final ((handleLogin mint checkpw dummyHash f fresh email password).run w) = _ at hfinal
    rw [hfinal, hflush, ← husers]
    exact ⟨hnow, Or.inr ⟨uid, w.now, rfl⟩⟩

/-- **It leaves the flags too**, -/
theorem handleLogin_standing (checkpw : String → String → Bool) (dummyHash : String)
    (f : LoginFaults) (fresh email password : String) :
    Ensures (fun w : Worker => TableIs now users w.toServer)
      (handleLogin (signer.mint encode now) checkpw dummyHash f fresh email password)
      fun w => StandingIs now users w.toServer := by
  rintro w ⟨rfl, rfl⟩
  obtain ⟨hnow, hsame | ⟨uid, t, hflush⟩⟩ := handleLogin_cases (signer.mint encode w.now) checkpw
    dummyHash f fresh email password w
  · exact ⟨hnow, congrArg standing hsame⟩
  · refine ⟨hnow, (congrArg standing hflush).trans ?_⟩
    refine leavesStanding_updateUser (fun u => ?_) uid w.users
    rfl

/-- **and mints from an active row.** -/
theorem handleLogin_mints (checkpw : String → String → Bool) (dummyHash : String)
    (f : LoginFaults) (fresh email password : String) :
    Yields (fun w : Worker => TableIs now users w.toServer)
      (handleLogin (signer.mint encode now) checkpw dummyHash f fresh email password) fun r =>
        MintedFrom encode signer now users r.accessToken :=
  yields_bind_last (yields_login encode signer checkpw dummyHash f fresh email password)
    fun _ hr => yields_bind_last (yields_true _) fun _ _ => yields_pure hr

end

end Microservices.Users
