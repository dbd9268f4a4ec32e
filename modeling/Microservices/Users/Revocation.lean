import Microservices.Lib.Schedule
import Microservices.Users.Accounts
import Microservices.Users.Minting
import Microservices.Users.PlainJwt

/-!
# Revocation within one token lifetime

Nothing takes an access token back. What bounds it is its expiry, and that every
path to a new one reads the row again: after an account is deactivated, deleted or
demoted the tokens that say otherwise are those minted before, and the last of
these expires one lifetime later.

A run is a list of requests, each at its time. `minted` keeps, for each access
token that has left the service, the time and the table it was minted from. Ids
are drawn by `uuid4`: a registration draws one that no account has had.
-/

namespace Microservices.Users

open Effects Gateway Schedule

/-- An access token that has left the service. -/
structure MintedToken where
  token : String
  time : Time
  /-- The table at that time. -/
  users : List User

structure SessionWorld extends Worker where
  /-- Ghost: the ids of the accounts there are and have been. -/
  known : List UUID
  /-- Ghost. -/
  minted : List MintedToken := []

inductive SessionEvent where
  | tick (t : Time)
  | login (f : LoginFaults) (fresh email password : String)
  /-- A refresh, a verification or a password reset. -/
  | token (f : Faults) (req : TokenRequest)
  | account (caller : CallerHeaders) (r : AccountRequest)
  /-- The row that a registration adds. -/
  | register (user : User)
  /-- Another request has changed Redis. -/
  | redis (redis : ExpiringStore String String Time)

namespace SessionWorld

/-- Where a run starts: no access token is out. -/
def start (worker : Worker) : SessionWorld where
  toWorker := worker
  known := worker.users.map User.id

/-- The world after a request, with the token it answers if it answers one. -/
def after (w : SessionWorld) (worker : Worker) (token : Option String) : SessionWorld where
  toWorker := worker
  known := w.known
  minted := (token.toList.map fun token => ⟨token, w.now, w.users⟩) ++ w.minted

section

variable (encode : AccessClaims → (secret algorithm kid : String) → String) (signer : Signer)
  (checkpw : String → String → Bool) (hashpw : String → String) (dummyHash : String)

/-- The access token of a login that succeeded. -/
def loginToken : Except Failure TokenResponse → Option String
  | .ok response => some response.accessToken
  | .error _ => none

/-- The access token of a refresh that succeeded. -/
def refreshedToken : Except Failure (Option TokenResponse) → Option String
  | .ok (some response) => some response.accessToken
  | _ => none

def step (w : SessionWorld) : SessionEvent → Option SessionWorld
  | .tick t => if w.now ≤ t then some { w with now := t } else none
  | .login f fresh email password =>
      let result := (handleLogin (signer.mint encode w.now) checkpw dummyHash f fresh email
        password).run w.toWorker
      some (w.after (final result) (loginToken (answer result)))
  | .token f req =>
      let result := (handle (signer.mint encode w.now) hashpw f req).run w.toServer
      some (w.after { w.toWorker with toServer := final result } (refreshedToken (answer result)))
  | .account caller r =>
      some { w with users := committed (route hashpw r caller w.users) w.users }
  | .register user =>
      if user.id ∉ w.known ∧ user.isActive = true ∧ user.isAdmin = false then
        some { w with users := w.users ++ [user], known := user.id :: w.known }
      else none
  | .redis redis => some { w with redis }

end

end SessionWorld

/-- The account has the flag. -/
def Has (flag : User → Bool) (users : List User) (uid : UUID) : Prop :=
  ∃ u ∈ users, u.id = uid ∧ flag u = true

/-- The event promotes the account, if it succeeds. -/
def SessionEvent.Promotes (uid : UUID) : SessionEvent → Prop
  | .account _ (.adminPromoteUser userId) => userId = uid
  | _ => False

/-! ## What the requests do to a flag -/

section

variable {flag : User → Bool} {uid : UUID} {users users' : List User}

/-- The flag is one of the two. -/
def ReadOff (flag : User → Bool) : Prop :=
  ∀ u v : User, (u.id, u.isActive, u.isAdmin) = (v.id, v.isActive, v.isAdmin) → flag u = flag v

theorem readOff_isActive : ReadOff User.isActive := fun _ _ h => (Prod.mk.inj (Prod.mk.inj h).2).1

theorem readOff_isAdmin : ReadOff User.isAdmin := fun _ _ h => (Prod.mk.inj (Prod.mk.inj h).2).2

theorem Has.of_standing (hread : ReadOff flag) (hsame : standing users' = standing users)
    (h : Has flag users' uid) : Has flag users uid := by
  obtain ⟨u, hu, hid, hflag⟩ := h
  have hmem : (u.id, u.isActive, u.isAdmin) ∈ standing users := by
    rw [← hsame]
    exact List.mem_map.mpr ⟨u, hu, rfl⟩
  obtain ⟨v, hv, hvu⟩ := List.mem_map.mp hmem
  exact ⟨v, hv, (Prod.mk.inj hvu).1.trans hid, (hread v u hvu).trans hflag⟩

theorem Has.of_updateUser {userId : UUID} {change : User → User}
    (h : Has flag (updateUser userId change users) uid) (hid : ∀ u, (change u).id = u.id)
    (hgives : userId = uid → ∀ u, flag (change u) = true → flag u = true) :
    Has flag users uid := by
  obtain ⟨u', hu', huid, hflag⟩ := h
  obtain ⟨u, hu, hsame, hu'⟩ := row_of_updateUser hu' hid
  refine ⟨u, hu, hsame.trans huid, ?_⟩
  rw [hu'] at hflag
  split at hflag
  · rename_i hrow
    exact hgives (hrow.symm.trans huid) u hflag
  · exact hflag

theorem Has.of_deleteUser {userId : UUID} (h : Has flag (deleteUser userId users) uid) :
    Has flag users uid := by
  obtain ⟨u, hu, hid, hflag⟩ := h
  exact ⟨u, List.mem_of_mem_filter hu, hid, hflag⟩

section

variable {hashpw : String → String} {caller : CallerHeaders} {r : AccountRequest} {flush : Flush}

/-- A request gives no account a flag that a password says nothing about, that is not gained by
being deactivated or demoted, and that is gained at most by being promoted. -/
theorem Has.of_effect (heffect : AccountEffect hashpw caller r flush) (hread : ReadOff flag)
    (hdeactivated : ∀ u : User, flag { u with isActive := false } = true → flag u = true)
    (hdemoted : ∀ u : User, flag { u with isAdmin := false } = true → flag u = true)
    (hpromoted : SessionEvent.Promotes uid (.account caller r) →
      ∀ u : User, flag { u with isAdmin := true } = true → flag u = true)
    (h : Has flag (flush users) uid) : Has flag users uid := by
  cases heffect with
  | refused => exact h
  | update _ _ =>
      refine h.of_updateUser (fun _ => rfl) fun _ u hflag => ?_
      exact (hread u _ (by rfl)).trans hflag
  | deactivate _ => exact h.of_updateUser (fun _ => rfl) fun _ => hdeactivated
  | hardDelete _ => exact h.of_deleteUser
  | promote _ => exact h.of_updateUser (fun _ => rfl) hpromoted
  | demote _ _ _ => exact h.of_updateUser (fun _ => rfl) fun _ => hdemoted
  | delete _ _ _ => exact h.of_deleteUser

/-- No request makes an account active. -/
theorem active_of_effect (heffect : AccountEffect hashpw caller r flush)
    (h : Has User.isActive (flush users) uid) : Has User.isActive users uid :=
  h.of_effect heffect readOff_isActive (fun _ hflag => absurd hflag Bool.false_ne_true)
    (fun _ hflag => hflag) fun _ _ hflag => hflag

/-- None but its promotion makes it an admin. -/
theorem admin_of_effect (heffect : AccountEffect hashpw caller r flush)
    (hnot : ¬ SessionEvent.Promotes uid (.account caller r))
    (h : Has User.isAdmin (flush users) uid) : Has User.isAdmin users uid :=
  h.of_effect heffect readOff_isAdmin (fun _ hflag => hflag)
    (fun _ hflag => absurd hflag Bool.false_ne_true) fun hpromoted => absurd hpromoted hnot

/-- Accounts come from registrations. -/
theorem exists_of_effect (heffect : AccountEffect hashpw caller r flush)
    (h : Has (fun _ => true) (flush users) uid) : Has (fun _ => true) users uid :=
  h.of_effect heffect (fun _ _ _ => rfl) (fun _ _ => rfl) (fun _ _ => rfl) fun _ _ _ => rfl

end

end

/-! ## What a step can do -/

section

variable (encode : AccessClaims → (secret algorithm kid : String) → String) (signer : Signer)
  (checkpw : String → String → Bool) (hashpw : String → String) (dummyHash : String)

/-- What a step makes of the table. -/
inductive TableMove (e : SessionEvent) (w w' : SessionWorld) : Prop where
  | standing (hsame : standing w'.users = standing w.users) (hknown : w'.known = w.known)
  | account {caller : CallerHeaders} {r : AccountRequest} {flush : Flush}
      (he : e = .account caller r) (heffect : AccountEffect hashpw caller r flush)
      (husers : w'.users = flush w.users) (hknown : w'.known = w.known)
  | register {user : User} (hnew : user.id ∉ w.known) (husers : w'.users = w.users ++ [user])
      (hknown : w'.known = user.id :: w.known)

/-- What a step mints: nothing, or a token of an active row. -/
def Mints (w w' : SessionWorld) : Prop :=
  w'.minted = w.minted ∨ ∃ token, w'.minted = ⟨token, w.now, w.users⟩ :: w.minted
    ∧ MintedFrom encode signer w.now w.users token

/-- Time goes on, a token may be minted, and the table changes in one of three ways. -/
structure SessionMove (e : SessionEvent) (w w' : SessionWorld) : Prop where
  now : w.now ≤ w'.now
  mints : Mints encode signer w w'
  table : TableMove hashpw e w w'

/-- A request that answers with a token leaves it minted from the table it found. -/
theorem sessionMove_after {e : SessionEvent} {w : SessionWorld} {worker : Worker}
    {token : Option String} (hstanding : StandingIs w.now w.users worker.toServer)
    (hmints : ∀ t ∈ token, MintedFrom encode signer w.now w.users t) :
    SessionMove encode signer hashpw e w (w.after worker token) := by
  refine ⟨le_of_eq hstanding.1.symm, ?_, .standing hstanding.2 rfl⟩
  cases token with
  | none => exact Or.inl rfl
  | some t => exact Or.inr ⟨t, rfl, hmints t rfl⟩

theorem step_move {e : SessionEvent} {w w' : SessionWorld}
    (h : w.step encode signer checkpw hashpw dummyHash e = some w') :
    SessionMove encode signer hashpw e w w' := by
  cases e with
  | tick t =>
      simp only [SessionWorld.step] at h
      split at h
      · rename_i hle
        cases h
        exact ⟨hle, Or.inl rfl, .standing rfl rfl⟩
      · cases h
  | login f fresh email password =>
      cases h
      have hw : TableIs w.now w.users w.toWorker.toServer := ⟨rfl, rfl⟩
      refine sessionMove_after encode signer hashpw
        (handleLogin_standing encode signer checkpw dummyHash f fresh email password w.toWorker hw)
        fun t ht => ?_
      cases hrun : (handleLogin (signer.mint encode w.now) checkpw dummyHash f fresh email
          password).run w.toWorker with
      | ok response worker =>
          rw [hrun] at ht
          cases ht
          exact handleLogin_mints encode signer checkpw dummyHash f fresh email password w.toWorker
            hw response worker hrun
      | error e worker =>
          rw [hrun] at ht
          cases ht
  | token f req =>
      cases h
      have hw : TableIs w.now w.users w.toServer := ⟨rfl, rfl⟩
      refine sessionMove_after encode signer hashpw
        (handle_standing encode signer hashpw f req w.toServer hw) fun t ht => ?_
      cases hrun : (handle (signer.mint encode w.now) hashpw f req).run w.toServer with
      | ok response server =>
          rw [hrun] at ht
          cases response with
          | none => cases ht
          | some response =>
              cases ht
              exact handle_mints encode signer hashpw f req w.toServer hw _ server hrun response rfl
      | error e server =>
          rw [hrun] at ht
          cases ht
  | account caller r =>
      cases h
      obtain ⟨flush, heffect, heq⟩ := route_effect hashpw r caller w.users
      exact ⟨le_refl _, Or.inl rfl, .account rfl heffect heq rfl⟩
  | register user =>
      simp only [SessionWorld.step] at h
      split at h
      · rename_i hnew
        cases h
        exact ⟨le_refl _, Or.inl rfl, .register hnew.1 rfl rfl⟩
      · cases h
  | redis redis =>
      cases h
      exact ⟨le_refl _, Or.inl rfl, .standing rfl rfl⟩

/-! ## What a run keeps -/

/-- Every token was minted, at its time, from an active row of the table of that time. -/
def Ledger (w : SessionWorld) : Prop :=
  ∀ m ∈ w.minted, m.time ≤ w.now ∧ MintedFrom encode signer m.time m.users m.token

theorem ledger_step {e : SessionEvent} {w w' : SessionWorld} (h : Ledger encode signer w)
    (hmove : SessionMove encode signer hashpw e w w') : Ledger encode signer w' := by
  intro m hm
  rcases hmove.mints with hsame | ⟨token, hnew, hfrom⟩
  · rw [hsame] at hm
    exact ⟨(h m hm).1.trans hmove.now, (h m hm).2⟩
  · rw [hnew] at hm
    rcases List.mem_cons.mp hm with rfl | hold
    · exact ⟨hmove.now, hfrom⟩
    · exact ⟨(h m hold).1.trans hmove.now, (h m hold).2⟩

/-- Since `d` the account lacks the flag, in the table and in what was minted after. -/
structure Revoked (flag : User → Bool) (uid : UUID) (d : Time) (w : SessionWorld) : Prop where
  known : uid ∈ w.known
  lacks : ¬ Has flag w.users uid
  since : ∀ m ∈ w.minted, d < m.time → ¬ Has flag m.users uid

/-- Nothing gives the flag back to an account of the ledger but an account request. -/
theorem revoked_step {flag : User → Bool} {uid : UUID} {d : Time} {e : SessionEvent}
    {w w' : SessionWorld} (hread : ReadOff flag) (h : Revoked flag uid d w)
    (hmove : SessionMove encode signer hashpw e w w')
    (hrequest : ∀ caller r flush, e = .account caller r → AccountEffect hashpw caller r flush →
      Has flag (flush w.users) uid → Has flag w.users uid) : Revoked flag uid d w' := by
  -- a token minted by this step is minted from the table as it is before it
  have hsince : ∀ m ∈ w'.minted, d < m.time → ¬ Has flag m.users uid := by
    intro m hm hlate
    rcases hmove.mints with hsame | ⟨token, hnew, -⟩
    · rw [hsame] at hm
      exact h.since m hm hlate
    · rw [hnew] at hm
      rcases List.mem_cons.mp hm with rfl | hold
      · exact h.lacks
      · exact h.since m hold hlate
  cases hmove.table with
  | standing hsame hknown =>
      refine ⟨by rw [hknown]; exact h.known, fun hhas => h.lacks ?_, hsince⟩
      exact hhas.of_standing hread hsame
  | account he heffect husers hknown =>
      refine ⟨by rw [hknown]; exact h.known, fun hhas => h.lacks ?_, hsince⟩
      rw [husers] at hhas
      exact hrequest _ _ _ he heffect hhas
  | @register user hnew husers hknown =>
      refine ⟨by rw [hknown]; exact List.mem_cons_of_mem _ h.known, fun hhas => h.lacks ?_, hsince⟩
      obtain ⟨u, hu, hid, hflag⟩ := hhas
      rw [husers] at hu
      rcases List.mem_append.mp hu with hold | hadded
      · exact ⟨u, hold, hid, hflag⟩
      · -- the new row has an id of its own
        rw [List.mem_singleton.mp hadded] at hid
        exact absurd (hid ▸ h.known) hnew

/-- The flag of an account that lacks it has not been seen since: so far there is nothing to see. -/
theorem revoked_now {flag : User → Bool} {uid : UUID} {w : SessionWorld}
    (hledger : Ledger encode signer w) (hknown : uid ∈ w.known) (hlacks : ¬ Has flag w.users uid) :
    Revoked flag uid w.now w :=
  ⟨hknown, hlacks, fun m hm hlate => absurd (hledger m hm).1 (not_le.mpr hlate)⟩

/-! ## What the gateway accepts -/

/-- **Nobody else holds a key of the gateway**: what verifies under one has left the service. -/
def Unforged (jwt : Time → Jwt) (gateway : JwtSettings) (minted : List MintedToken)
    (token : String) : Prop :=
  ∀ now keyring kid secret claims,
    parseKeyring gateway.jwtSecrets gateway.jwtSecret = .ok keyring →
    keyring.get? kid = some secret →
    (jwt now).decode token secret gateway.jwtAlgorithm = .ok claims →
    ∃ m ∈ minted, m.token = token

theorem get?_of_selectVerificationKey {keyring : Keyring} {kid : Option String} {secret : String}
    (h : selectVerificationKey keyring kid = some secret) : ∃ k, keyring.get? k = some secret := by
  unfold selectVerificationKey at h
  split at h
  · split at h
    · cases h
    · exact ⟨_, h⟩
  · exact ⟨_, h⟩

/-- **An accepted token is a young one**, and says of its account what the row said. -/
theorem accepted_minted {jwt : Time → Jwt}
    (laws : LawfulJwt signer.settings.lifetime encode jwt) {gateway : JwtSettings}
    {w : SessionWorld} (hledger : Ledger encode signer w) {now : Time} {token : String}
    {state : RequestState} (hunforged : Unforged jwt gateway w.minted token)
    (haccept : verifyToken (jwt now) gateway token = .ok state) :
    ∃ m ∈ w.minted, now < m.time + signer.settings.lifetime
      ∧ ∃ user ∈ m.users, user.isActive = true ∧ state.userId = some user.id.text
        ∧ ("admin" ∈ state.userRoles.getD [] ↔ user.isAdmin = true) := by
  obtain ⟨kid, keyring, secret, claims, uid, -, hkeyring, hselect, hdecode, huid, rfl⟩ :=
    verifyToken_ok_iff.mp haccept
  -- it verifies under a key of the gateway, so the service has minted it
  obtain ⟨k, hkey⟩ := get?_of_selectVerificationKey hselect
  obtain ⟨m, hm, htoken⟩ := hunforged now keyring k secret claims hkeyring hkey hdecode
  obtain ⟨-, user, huser, hactive, hmint⟩ := hledger m hm
  rw [← htoken, hmint] at hdecode
  obtain ⟨hclaims, hexp⟩ := laws.own _ _ _ _ _ _ _ _ _ hdecode
  have hage : now - m.time < signer.settings.lifetime :=
    age_lt_of_not_expired (t := ⟨m.time, user⟩) hexp
  refine ⟨m, hm, by linarith, user, huser, hactive, ?_, ?_⟩
  · rw [hclaims] at huid
    change UUID.ofText? user.id.text = some uid at huid
    rw [UUID.ofText?_text] at huid
    cases huid
    rfl
  · rw [hclaims]
    exact admin_mem_roles signer.settings.lifetime m.time user

/-! ## The property -/

/-- **The token says what the row said**: it names an active account, an admin's iff it was one. -/
def MintedToken.Faithful (m : MintedToken) : Prop :=
  ∃ user ∈ m.users, user.isActive = true ∧ ∃ claims : AccessClaims,
    m.token = encode claims signer.secret signer.settings.jwtAlgorithm signer.kid
      ∧ claims.sub = user.id.text ∧ ("admin" ∈ claims.roles ↔ user.isAdmin = true)

theorem Ledger.faithful {w : SessionWorld} (h : Ledger encode signer w) {m : MintedToken}
    (hm : m ∈ w.minted) : m.Faithful encode signer := by
  obtain ⟨-, user, huser, hactive, hmint⟩ := h m hm
  exact ⟨user, huser, hactive, _, hmint, rfl, admin_mem_roles _ _ _⟩

theorem ledger_start (worker : Worker) : Ledger encode signer (.start worker) :=
  fun _ hm => absurd hm List.not_mem_nil

theorem ledger_run {fs : List SessionEvent} {w t : SessionWorld} (hw : Ledger encode signer w)
    (h : exec (SessionWorld.step encode signer checkpw hashpw dummyHash) w fs = some t) :
    Ledger encode signer t :=
  exec_invariant (I := Ledger encode signer)
    (fun _ _ _ hs _ hstep =>
      ledger_step encode signer hashpw hs (step_move encode signer checkpw hashpw dummyHash hstep))
    hw (meets_true w fs) h

theorem known_step {e : SessionEvent} {w w' : SessionWorld}
    (h : ∀ uid, Has (fun _ => true) w.users uid → uid ∈ w.known)
    (hmove : SessionMove encode signer hashpw e w w') :
    ∀ uid, Has (fun _ => true) w'.users uid → uid ∈ w'.known := by
  intro uid hhas
  cases hmove.table with
  | standing hsame hknown =>
      rw [hknown]
      exact h uid (hhas.of_standing (fun _ _ _ => rfl) hsame)
  | account _ heffect husers hknown =>
      rw [husers] at hhas
      rw [hknown]
      exact h uid (exists_of_effect heffect hhas)
  | register _ husers hknown =>
      obtain ⟨u, hu, hid, -⟩ := hhas
      rw [husers] at hu
      rw [hknown]
      rcases List.mem_append.mp hu with hold | hadded
      · exact List.mem_cons_of_mem _ (h uid ⟨u, hold, hid, rfl⟩)
      · rw [← hid, List.mem_singleton.mp hadded]
        exact List.mem_cons_self

/-- Every account there is is one of the known. -/
theorem known_run {worker : Worker} {es : List SessionEvent} {w : SessionWorld}
    (h : exec (SessionWorld.step encode signer checkpw hashpw dummyHash) (.start worker) es
      = some w) :
    ∀ uid, Has (fun _ => true) w.users uid → uid ∈ w.known :=
  exec_invariant (I := fun w => ∀ uid, Has (fun _ => true) w.users uid → uid ∈ w.known)
    (fun _ _ _ hs _ hstep =>
      known_step encode signer hashpw hs (step_move encode signer checkpw hashpw dummyHash hstep))
    (fun _ ⟨u, hu, hid, _⟩ => List.mem_map.mpr ⟨u, hu, hid⟩) (meets_true _ es) h

/-- An account that is not active stays so. -/
theorem inactive_run {uid : UUID} {d : Time} {fs : List SessionEvent} {w t : SessionWorld}
    (hw : Revoked User.isActive uid d w)
    (h : exec (SessionWorld.step encode signer checkpw hashpw dummyHash) w fs = some t) :
    Revoked User.isActive uid d t :=
  exec_invariant (I := Revoked User.isActive uid d)
    (fun _ _ _ hs _ hstep => revoked_step encode signer hashpw readOff_isActive hs
      (step_move encode signer checkpw hashpw dummyHash hstep)
      fun _ _ _ _ heffect hhas => active_of_effect heffect hhas)
    hw (meets_true w fs) h

/-- One that is no admin stays so until it is promoted. -/
theorem demoted_run {uid : UUID} {d : Time} {fs : List SessionEvent} {w t : SessionWorld}
    (hw : Revoked User.isAdmin uid d w) (hnot : ∀ e ∈ fs, ¬ e.Promotes uid)
    (h : exec (SessionWorld.step encode signer checkpw hashpw dummyHash) w fs = some t) :
    Revoked User.isAdmin uid d t :=
  exec_invariant (I := Revoked User.isAdmin uid d)
    (fun _ _ _ hs hC hstep => revoked_step encode signer hashpw readOff_isAdmin hs
      (step_move encode signer checkpw hashpw dummyHash hstep)
      fun _ _ _ he heffect hhas => admin_of_effect heffect (he ▸ hC.2) hhas)
    hw ((meets_true w fs).and_events hnot) h

/--
**Revocation takes effect within one token lifetime.**

In every run, each access token that has been minted named an active account of its
time, and had the admin role iff the account was an admin then. And from a state in
which an account is not active, or not there any more, the gateway accepts no token
for it once one lifetime has passed; nor an admin token for one that is no admin and
is not promoted again.
-/
theorem revocation_within_lifetime {jwt : Time → Jwt}
    (laws : LawfulJwt signer.settings.lifetime encode jwt) (gateway : JwtSettings)
    (worker : Worker) (es : List SessionEvent) :
    Always (SessionWorld.step encode signer checkpw hashpw dummyHash)
        (fun w => ∀ m ∈ w.minted, m.Faithful encode signer) (.start worker) es
      ∧ ∀ w, exec (SessionWorld.step encode signer checkpw hashpw dummyHash) (.start worker) es
          = some w →
        ∀ uid ∈ w.known, ∀ fs t,
          exec (SessionWorld.step encode signer checkpw hashpw dummyHash) w fs = some t →
          w.now + signer.settings.lifetime ≤ t.now →
          ∀ token state, Unforged jwt gateway t.minted token →
            verifyToken (jwt t.now) gateway token = .ok state →
            (¬ Has User.isActive w.users uid → state.userId ≠ some uid.text)
              ∧ (¬ Has User.isAdmin w.users uid → (∀ e ∈ fs, ¬ e.Promotes uid) →
                  state.userId = some uid.text → "admin" ∉ state.userRoles.getD []) := by
  refine ⟨always_of_invariant (I := Ledger encode signer)
    (fun _ _ _ hs _ hstep =>
      ledger_step encode signer hashpw hs (step_move encode signer checkpw hashpw dummyHash hstep))
    (fun _ hs _ hm => hs.faithful encode signer hm)
    (ledger_start encode signer worker) (meets_true _ es), ?_⟩
  intro w hw uid hknown fs t ht hlate token state hunforged haccept
  have hledger := ledger_run encode signer checkpw hashpw dummyHash
    (ledger_start encode signer worker) hw
  have hledger' := ledger_run encode signer checkpw hashpw dummyHash hledger ht
  obtain ⟨m, hm, hage, user, huser, hactive, hid, hadmin⟩ :=
    accepted_minted encode signer laws hledger' hunforged haccept
  -- accepted one lifetime later, it must have been minted since
  have hyoung : w.now < m.time := by linarith
  have huid : state.userId = some uid.text → user.id = uid := by
    intro hstate
    rw [hid, Option.some.injEq] at hstate
    have hparse := congrArg UUID.ofText? hstate
    rw [UUID.ofText?_text, UUID.ofText?_text] at hparse
    exact Option.some.inj hparse
  refine ⟨fun hinactive hstate => ?_, fun hnoadmin hnot hstate hrole => ?_⟩
  · have hrevoked := inactive_run encode signer checkpw hashpw dummyHash
      (revoked_now encode signer hledger hknown hinactive) ht
    exact hrevoked.since m hm hyoung ⟨user, huser, huid hstate, hactive⟩
  · have hrevoked := demoted_run encode signer checkpw hashpw dummyHash
      (revoked_now encode signer hledger hknown hnoadmin) hnot ht
    exact hrevoked.since m hm hyoung ⟨user, huser, huid hstate, hadmin.mp hrole⟩

end

/-! ## An account that is closed -/

def annsSigner : Signer where
  settings := { jwtSecret := "0123456789abcdef0123456789abcdef" }
  kid := "default"
  secret := "0123456789abcdef0123456789abcdef"
  resolves := by decide +kernel

def annsGateway : JwtSettings where
  jwtSecrets := ""
  jwtSecret := "0123456789abcdef0123456789abcdef"
  jwtAlgorithm := "HS256"

/-- Ann logs in and closes her account; an hour later her token is worth nothing. -/
theorem ann_locked_out :
    ∃ w t, exec (SessionWorld.step PlainJwt.encode annsSigner (fun p hash => p == hash) id "")
        (.start annsWorker) [.login {} "t0" "ann@example.com" "Correct-1",
          .account { xUserId := ann.id.text } .deactivateMe] = some w
      ∧ exec (SessionWorld.step PlainJwt.encode annsSigner (fun p hash => p == hash) id "") w
          [.tick 3600000] = some t
      ∧ t.minted.length = 1
      ∧ ∀ m ∈ t.minted, ∀ state, verifyToken (PlainJwt.jwt t.now) annsGateway m.token = .ok state →
          state.userId ≠ some ann.id.text := by
  refine ⟨_, _, rfl, rfl, rfl, fun m hm state haccept => ?_⟩
  have hlocked := (revocation_within_lifetime PlainJwt.encode annsSigner (fun p hash => p == hash)
    id "" (PlainJwt.lawful _) annsGateway annsWorker [.login {} "t0" "ann@example.com" "Correct-1",
      .account { xUserId := ann.id.text } .deactivateMe]).2 _ rfl ann.id (by decide) [.tick 3600000]
    _ rfl (by decide) m.token state (fun _ _ _ _ _ _ _ _ => ⟨m, hm, rfl⟩) haccept
  refine hlocked.1 ?_
  rintro ⟨u, hu, -, hactive⟩
  cases List.mem_singleton.mp hu
  cases hactive

end Microservices.Users
