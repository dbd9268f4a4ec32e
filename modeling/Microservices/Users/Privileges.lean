import Microservices.Gateway.Journey
import Microservices.Users.LastAdmin
import Microservices.Users.Sessions

/-!
# No way up but by an admin

The routes of admins go by a header, the header by a token, and the token by the row as
it was when the token was minted. So whoever acts as an admin was one, within one token
lifetime; and whoever becomes one was promoted by somebody who was, or by the operator at
a start. A set of accounts that holds the admins of the beginning, that of the operator,
and whom its members promote, holds all there will ever be, whatever the others send.
-/

namespace Microservices.Users

open Effects Gateway Identity Schedule

variable (encode : AccessClaims → (secret algorithm kid : String) → String) (signer : Signer)

/-! ## Callers -/

/-- The headers of a request that the gateway has let through, with a token or without one. -/
def ForwardedTo (jwt : Time → Jwt) (gateway : JwtSettings) (w : ServiceWorld)
    (caller : CallerHeaders) : Prop :=
  ∃ (hmac : Bytes → Bytes → Bytes) (secret : String) (target : Target) (time : Int)
      (r : ForwardRequest),
    callerHeaders (deliver target (buildForwardHeaders hmac secret time r)) = some caller
      ∧ (r.state.userId = none ∨ ∃ token identity, Unforged jwt gateway w.minted token
        ∧ verifyToken (jwt w.now) gateway token = .ok identity
        ∧ r.state = { identity with requestId := r.state.requestId })

/-- Every token was minted, at its time, from an active row of the table of that time. -/
def MintedRightly (w : ServiceWorld) : Prop :=
  ∀ m ∈ w.minted, m.time ≤ w.now ∧ MintedFrom encode signer m.time m.users m.token

section

variable {hmac : Bytes → Bytes → Bytes} {secret : String} {time : Int} {target : Target}
  {r : ForwardRequest}

/-- The id and the roles are the gateway's, whatever headers the client sends. -/
theorem get?_gatewayOwned {name : String} (hname : name = "x-user-id" ∨ name = "x-user-roles") :
    Multidict.get? (deliver target (buildForwardHeaders hmac secret time r)).headers name
      = assigned hmac secret time r.state name := by
  have hidentity : name ∈ identityNames := by
    rcases hname with rfl | rfl <;> decide
  have hstripped : fields name (strippedHeaders r.headers) = [] := by
    refine (fields_stripped_eq_nil_iff hidentity r.headers).mpr fun _ _ _ => ?_
    rcases hname with rfl | rfl <;> decide
  rw [get?_deliver target (identityName_ne_host hidentity),
    fields_build hmac secret time hidentity, hstripped, List.nil_append, List.head?_filter]
  rfl

/-- A request without a user has no caller. -/
theorem callerHeaders_anonymous (h : r.state.userId = none) :
    callerHeaders (deliver target (buildForwardHeaders hmac secret time r)) = none := by
  unfold callerHeaders
  rw [get?_gatewayOwned (Or.inl rfl), assigned, identityPairs, h]
  rfl

theorem callerHeaders_of_user {userId : String} {roles : List String}
    (hid : r.state.userId = some userId) (hroles : r.state.userRoles = some roles)
    (hne : userId ≠ "") :
    callerHeaders (deliver target (buildForwardHeaders hmac secret time r))
      = some { xUserId := userId, xUserRoles := ",".intercalate roles } := by
  have huser : orEmpty r.state.userId = userId := by
    rw [hid]
    rfl
  obtain ⟨hvid, -, hvroles, -⟩ := @assigned_identity hmac secret time r.state (huser ▸ hne)
  unfold callerHeaders BackendRequest.userRoles BackendRequest.header
  rw [get?_gatewayOwned (Or.inl rfl), get?_gatewayOwned (Or.inr rfl), hvid, hvroles, huser, hroles]
  rfl

end

/-- **A caller is an account, as it was when its token was minted.** -/
theorem caller_of_forwarded {jwt : Time → Jwt}
    (laws : LawfulJwt signer.settings.lifetime encode jwt) {gateway : JwtSettings}
    {w : ServiceWorld} (hminted : MintedRightly encode signer w) {caller : CallerHeaders}
    (h : ForwardedTo jwt gateway w caller) :
    ∃ m ∈ w.minted, w.now < m.time + signer.settings.lifetime ∧ ∃ user ∈ m.users,
      user.isActive = true
        ∧ caller = callerOf (Issued.claims signer.settings.lifetime ⟨m.time, user⟩) := by
  obtain ⟨hmac, secret, target, time, r, hcaller, hnone | ⟨token, identity, hunforged, hverify, hstate⟩⟩ := h
  · rw [callerHeaders_anonymous hnone] at hcaller
    cases hcaller
  · obtain ⟨kid, keyring, key, claims, uid, -, hkeyring, hselect, hdecode, huid, rfl⟩ :=
      verifyToken_ok_iff.mp hverify
    obtain ⟨k, hkey⟩ := get?_of_selectVerificationKey hselect
    obtain ⟨m, hm, htoken⟩ := hunforged w.now keyring k key claims hkeyring hkey hdecode
    obtain ⟨-, user, huser, hactive, hmint⟩ := hminted m hm
    rw [← htoken, hmint] at hdecode
    obtain ⟨rfl, hexp⟩ := laws.own _ _ _ _ _ _ _ _ _ hdecode
    have hage : w.now - m.time < signer.settings.lifetime :=
      age_lt_of_not_expired (t := ⟨m.time, user⟩) hexp
    refine ⟨m, hm, by linarith, user, huser, hactive, ?_⟩
    change UUID.ofText? user.id.text = some uid at huid
    rw [UUID.ofText?_text] at huid
    cases huid
    rw [callerHeaders_of_user (by rw [hstate]) (by rw [hstate]) (uuid_text_ne_empty _)] at hcaller
    exact (Option.some.inj hcaller).symm

/-! ## What becomes of the admins -/

section

variable {bcrypt : Bcrypt} {w : ServiceWorld} {e : ServiceEvent} {flush : Flush} {uid : UUID}

/-- The event promotes the account, if it succeeds. -/
inductive Promotes (w : ServiceWorld) (uid : UUID) : ServiceEvent → Prop where
  | byAdmin {f : AccountFaults} {caller : CallerHeaders} {salt : String}
      (hadmin : requireAdmin caller = .ok ()) :
      Promotes w uid (.request (.account f caller salt (.adminPromoteUser uid)))
  | byOperator {f : StartFaults} {u : User} (hrow : u ∈ w.users) (hid : u.id = uid) :
      Promotes w uid (.restart f (some u.email))

/-- A change of other columns makes nobody an admin. -/
theorem admin_of_updateUser {userId : UUID} {change : User → User}
    (h : Has User.isAdmin (updateUser userId change w.users) uid)
    (hid : ∀ u, (change u).id = u.id) (hsame : ∀ u, (change u).isAdmin = u.isAdmin) :
    Has User.isAdmin w.users uid :=
  h.of_updateUser hid fun _ u hflag => (hsame u).symm.trans hflag

/-- **Who is an admin after a step was one before, or is promoted by it.** -/
theorem admin_of_write (hwrite : EventWrite bcrypt w e flush)
    (h : Has User.isAdmin (flush w.users) uid) :
    Has User.isAdmin w.users uid ∨ Promotes w uid e := by
  cases hwrite with
  | nothing => exact Or.inl h
  | @bootstrap f email user hrow _ =>
      by_cases hid : user.id = uid
      · have hemail : user.email = email := by simpa using List.find?_some hrow
        rw [← hemail]
        exact Or.inr (.byOperator (List.mem_of_find?_eq_some hrow) hid)
      · refine Or.inl (h.of_updateUser (fun _ => rfl) fun hsame => absurd hsame hid)
  | request hwrite =>
      cases hwrite with
      | nothing => exact Or.inl h
      | register _ =>
          obtain ⟨u, hu, hid, hflag⟩ := h
          rcases List.mem_append.mp hu with hold | hadded
          · exact Or.inl ⟨u, hold, hid, hflag⟩
          · rw [List.mem_singleton.mp hadded] at hflag
            cases hflag
      | login _ _ _ => exact Or.inl (admin_of_updateUser h (fun _ => rfl) fun _ => rfl)
      | verifyEmail _ _ _ => exact Or.inl (admin_of_updateUser h (fun _ => rfl) fun _ => rfl)
      | resetPassword _ => exact Or.inl (admin_of_updateUser h (fun _ => rfl) fun _ => rfl)
      | @account f caller salt r _ heffect =>
          by_cases hpromotes : SessionEvent.Promotes uid (.account caller r)
          · cases heffect with
            | promote hadmin =>
                cases hpromotes
                exact Or.inr (.byAdmin hadmin)
            | refused => exact Or.inl h
            | update _ _ => cases hpromotes
            | deactivate _ => cases hpromotes
            | hardDelete _ => cases hpromotes
            | demote _ _ _ => cases hpromotes
            | delete _ _ _ => cases hpromotes
          · exact Or.inl (admin_of_effect heffect hpromotes h)

end

/-! ## Runs -/

/-- The request comes through the gateway, and trusted admins and the operator promote trusted
accounts only. What the others do is not restricted. -/
def StaysWithin (jwt : Time → Jwt) (gateway : JwtSettings) (trusted : UUID → Prop)
    (w : ServiceWorld) : ServiceEvent → Prop
  | .request (.account _ caller _ r) =>
      ForwardedTo jwt gateway w caller ∧ ∀ callerId userId, parseCallerId caller = .ok callerId →
        trusted callerId → r = .adminPromoteUser userId → trusted userId
  | .restart _ initialAdminEmail =>
      ∀ u ∈ w.users, initialAdminEmail = some u.email → trusted u.id
  | _ => True

/-- A request that an admin route lets through is of a trusted account. -/
def ActsTrusted (trusted : UUID → Prop) : ServiceEvent → Prop
  | .request (.account _ caller _ _) =>
      requireAdmin caller = .ok () → ∃ uid, parseCallerId caller = .ok uid ∧ trusted uid
  | _ => True

/-- The admins are trusted, in the table and in what was minted from it. -/
structure Contained (trusted : UUID → Prop) (w : ServiceWorld) : Prop where
  minted : MintedRightly encode signer w
  inMinted : ∀ m ∈ w.minted, ∀ uid, Has User.isAdmin m.users uid → trusted uid
  inTable : ∀ uid, Has User.isAdmin w.users uid → trusted uid

section

variable {encode} {signer} {jwt : Time → Jwt} {gateway : JwtSettings} {trusted : UUID → Prop}
  {w w' : ServiceWorld} {e : ServiceEvent}

theorem Contained.acts (laws : LawfulJwt signer.settings.lifetime encode jwt)
    (h : Contained encode signer trusted w) {caller : CallerHeaders}
    (hforwarded : ForwardedTo jwt gateway w caller) (hadmin : requireAdmin caller = .ok ()) :
    ∃ uid, parseCallerId caller = .ok uid ∧ trusted uid := by
  obtain ⟨m, hm, -, user, huser, -, rfl⟩ :=
    caller_of_forwarded encode signer laws h.minted hforwarded
  refine ⟨user.id, parseCallerId_callerOf _ _, h.inMinted m hm user.id ⟨user, huser, rfl, ?_⟩⟩
  exact (requireAdmin_callerOf signer.settings.lifetime ⟨m.time, user⟩).mp hadmin

variable {settings : MailSettings} {classes : CharClasses} {bcrypt : Bcrypt} {dummyHash : String}

/-- What a step mints, it mints from an active row of the table it finds. -/
theorem serviceStep_minted
    (hs : serviceStep settings classes bcrypt (signer.mint encode) dummyHash w e = some w') :
    w'.minted = w.minted ∨ ∃ token, w'.minted = ⟨token, w.now, w.users⟩ :: w.minted
      ∧ MintedFrom encode signer w.now w.users token := by
  cases e with
  | tick t =>
      rw [serviceStep] at hs
      split at hs <;> cases hs
      exact Or.inl rfl
  | restart f initialAdminEmail =>
      cases hs
      exact Or.inl rfl
  | request r =>
      obtain rfl := Option.some.inj hs
      rcases serve_cases settings classes bcrypt (signer.mint encode) dummyHash w.toMailService r with
        ⟨error, hserve⟩ | hserve
      · rw [hserve]
        exact Or.inl rfl
      · rw [hserve]
        cases hresult : (perform settings bcrypt (signer.mint encode) dummyHash r).run
            w.toMailService with
        | error err t => exact Or.inl rfl
        | ok a t =>
            cases a with
            | registered user => exact Or.inl rfl
            | account response => exact Or.inl rfl
            | noContent => exact Or.inl rfl
            | tokens response =>
                obtain ⟨u, hu, hactive, -, ⟨t', haccess⟩, -, -⟩ := perform_answers hresult
                exact Or.inr ⟨response.accessToken, rfl, u, hu, hactive, congrArg Prod.fst haccess⟩

theorem Contained.step (laws : LawfulJwt signer.settings.lifetime encode jwt)
    (h : Contained encode signer trusted w) (hwithin : StaysWithin jwt gateway trusted w e)
    (hs : serviceStep settings classes bcrypt (signer.mint encode) dummyHash w e = some w') :
    Contained encode signer trusted w' := by
  have hdoes := serviceStep_does hs
  obtain ⟨flush, hwrite, husers⟩ := hdoes.table
  have hold : ∀ m ∈ w.minted, m.time ≤ w'.now ∧ MintedFrom encode signer m.time m.users m.token :=
    fun m hm => ⟨(h.minted m hm).1.trans hdoes.now, (h.minted m hm).2⟩
  refine ⟨fun m hm => ?_, fun m hm uid hadmin => ?_, fun uid hadmin => ?_⟩
  · rcases serviceStep_minted hs with hsame | ⟨token, hnew, hfrom⟩
    · exact hold m (hsame ▸ hm)
    · rw [hnew] at hm
      rcases List.mem_cons.mp hm with rfl | hm
      · exact ⟨hdoes.now, hfrom⟩
      · exact hold m hm
  · rcases serviceStep_minted hs with hsame | ⟨token, hnew, -⟩
    · exact h.inMinted m (hsame ▸ hm) uid hadmin
    · rw [hnew] at hm
      rcases List.mem_cons.mp hm with rfl | hm
      · exact h.inTable uid hadmin
      · exact h.inMinted m hm uid hadmin
  · rw [husers] at hadmin
    rcases admin_of_write hwrite hadmin with hbefore | hpromotes
    · exact h.inTable uid hbefore
    · cases hpromotes with
      | byAdmin hallowed =>
          obtain ⟨callerId, hcaller, htrusted⟩ := h.acts laws hwithin.1 hallowed
          exact hwithin.2 callerId uid hcaller htrusted rfl
      | byOperator hrow hid =>
          rw [← hid]
          exact hwithin _ hrow rfl

end

/-- Ann's claims, and what the gateway makes of them. -/
def annsFirstClaims : AccessClaims := accessClaims annsSigner.settings.lifetime 0 ann

def annsRequest : ForwardRequest where
  headers := ⟨[], nofun⟩
  clientHost := none
  urlScheme := "http"
  urlHostname := none
  state := { userId := some ann.id.text, userEmail := some ann.email, userRoles := some ["user"] }

/-- She logs in and tries to promote herself. -/
def annsAttempt : List ServiceEvent :=
  [annLogsIn, .request (.account {} (callerOf annsFirstClaims) "" (.adminPromoteUser ann.id))]

theorem annsAttempt_within : Meets
    (serviceStep mailDefaults asciiClasses openBcrypt (annsSigner.mint PlainJwt.encode) "")
    (StaysWithin PlainJwt.jwt annsGateway fun _ => False) { toMailService := withAnn }
    annsAttempt := by
  have hlaws := PlainJwt.lawful annsSigner.settings.lifetime
  intro w₁ h₁
  refine ⟨trivial, fun w₂ h₂ => ⟨⟨?_, fun _ _ _ hno => hno.elim⟩, trivial⟩⟩
  cases h₁
  refine ⟨fun _ _ => [], "", annsTarget, 0, annsRequest, ?_, Or.inr
    ⟨(annsSigner.mint PlainJwt.encode 0 ann).1, annsRequest.state, ?_, ?_, rfl⟩⟩
  · exact callerHeaders_of_user rfl rfl (uuid_text_ne_empty _)
  · intro _ _ _ _ _ _ _ _
    exact ⟨_, List.mem_cons_self, rfl⟩
  · refine verifyToken_ok_iff.mpr ⟨some "default", _, annsSigner.secret, annsFirstClaims.read, ann.id,
      hlaws.unverifiedKid _ _ _ _ _ _, rfl, rfl, hlaws.verifies _ _ _ _ _ _ ?_ ?_, ?_, rfl⟩
    · decide
    · decide
    · exact UUID.ofText?_text _

end Microservices.Users
