import Microservices.Gateway.Journey
import Microservices.Tasks.Separation

/-!
# Nobody acts for somebody else

The gateway signs whose request it forwards, for whoever shows a token, and for a minute
the task service believes the signature. Between the two there may be anybody. Requests
may be lost, repeated, held back, sent on with another path or body, put together from
parts of others, or made up; only a signature cannot be had for what the gateway has not
signed.

A signature says nothing of the request it came with, and the address and the roles may
be cut differently than they were signed. The user cannot: a UUID has no bar in it. So
what happens to a user's projects and tasks happens within a minute of somebody showing
the gateway a token of that user, as long as no `Host` header leads the verifier to an
exempt path, where it asks for no signature.
-/

namespace Microservices.Tasks

open Gateway Identity Schedule

/-! ## At the gateway -/

/-- A request as it comes in at the gateway. -/
structure ClientRequest where
  path : String
  headers : ClientHeaders
  clientHost : Option String
  urlScheme : String
  urlHostname : Option String
  requestId : String
  server : Option (String × Nat) := none
  queryString : Bytes := []

/-- What `request.url` is made from. -/
def ClientRequest.urlScope (q : ClientRequest) : UrlScope where
  scheme := q.urlScheme
  server := q.server
  host := q.headers.get? "host"
  path := q.path
  queryString := q.queryString

/-- What `JWTAuthMiddleware` makes of its token. -/
def ClientRequest.authenticate (q : ClientRequest) (jwt : Jwt) (settings : JwtSettings) :
    Except HTTPException (Option RequestState) :=
  match q.urlScope.path? with
  | none => .error serverError
  | some tested => jwtAuth (verifyToken jwt settings) tested (q.headers.getD "authorization")

/-- `token`, in `JWTAuthMiddleware.dispatch`. -/
def ClientRequest.token (q : ClientRequest) : String :=
  String.ofList (Decimal.strip ((q.headers.getD "authorization").toList.drop 7))

/-- What `_build_forward_headers` is given for it. -/
def ClientRequest.forwarded (q : ClientRequest) (identity : Option RequestState) :
    ForwardRequest where
  headers := q.headers
  clientHost := q.clientHost
  urlScheme := q.urlScheme
  urlHostname := q.urlHostname
  state := { identity.getD {} with requestId := some q.requestId }

/-- The identity that is signed at `time`, if the request has one. -/
def signedAt (time : Int) (s : RequestState) : Option Envelope :=
  if orEmpty s.userId = "" then none
  else
    some
      { userId := orEmpty s.userId
        userEmail := some (orEmpty s.userEmail)
        userRoles := some (",".intercalate (s.userRoles.getD []))
        issuedAt := time }

/-- The gateway's own signature on a request is that of this identity. -/
theorem assigned_signature (hmac : Bytes → Bytes → Bytes) (secret : String) (time : Int)
    (s : RequestState) :
    assigned hmac secret time s "x-identity-signature"
      = (signedAt time s).map fun e =>
          String.ofList (Base64.encode (hmac (utf8 secret) e.canonical)) := by
  by_cases hid : orEmpty s.userId = ""
  · unfold assigned identityPairs signedAt
    rw [if_pos hid, if_pos hid]
    rfl
  · rw [(assigned_identity hid).2.2.2.1, signedAt, if_neg hid]
    rfl

/-! ## At the task service -/

/-- `_parse_caller_id`. -/
def parseCallerId (xUserId : String) : Except HTTPException UUID :=
  match UUID.ofText? xUserId with
  | none => .error { statusCode := 400, detail := "Invalid X-User-Id header — expected a UUID" }
  | some uid => .ok uid

/-- Whom the routes take a request for, if it gets to them. Without the header it is a 422. -/
def runsAs (hmac : Bytes → Bytes → Bytes) (v : IdentityVerifier) (now : Int) (r : BackendRequest) :
    Option UUID :=
  -- the exempt paths are those of the service's own health, and no route takes a caller there
  if r.path ∈ v.exempt then none
  else
    match v.dispatch hmac now r with
    | .error _ => none
    | .ok () => (Multidict.get? r.headers "x-user-id").bind fun x => (parseCallerId x).toOption

/-! ## Anybody in between -/

inductive WireEvent where
  /-- The gateway forwards a request; its clock reads `time` when it signs. -/
  | forward (time : Int) (q : ClientRequest)
  /-- A request comes in at the task service, wherever it is from; the clock there reads `now`. -/
  | arrive (now : Int) (env : Surroundings) (r : BackendRequest) (request : ServiceRequest)
  | expire (key : String)

section

variable (hmac : Bytes → Bytes → Bytes) (jwt : Jwt) (settings : JwtSettings) (v : IdentityVerifier)

/-- The task service after an event. -/
def TaskService.onWire (s : TaskService) : WireEvent → Option TaskService
  | .forward _ _ => some s
  | .arrive now env r request =>
      match runsAs hmac v now r with
      | none => some s
      | some callerId => s.advance (.request env callerId request)
  | .expire key => s.advance (.expire key)

/-- The gateway has signed this message. -/
def Signed (past : List WireEvent) (message : Bytes) : Prop :=
  ∃ time q identity e, .forward time q ∈ past ∧ q.authenticate jwt settings = .ok identity
    ∧ signedAt time (q.forwarded identity).state = some e ∧ message = e.canonical

/-- **No signature is forged**: what verifies has been signed. -/
def Unforged (past : List WireEvent) : WireEvent → Prop
  | .arrive now _ r _ =>
      v.verifies hmac now r = true →
        ∀ ts, Decimal.int? r.issuedAt = some ts →
          Signed jwt settings past (canonical r.userId r.userEmail r.userRoles (toString ts))
  | _ => True

/-- The gateway has been shown a token of the user, not more than a minute before `now`, and not more
than five seconds after. -/
def ShownToken (past : List WireEvent) (uid : UUID) (now : Int) : Prop :=
  ∃ time q claims, .forward time q ∈ past ∧ jwt.Verifies settings q.token claims
    ∧ UUID.ofText? claims.sub = some uid
    ∧ now - time ≤ identityMaxAgeSeconds ∧ -5 ≤ now - time

/-- The verifier does not take the request for one on an exempt path. -/
def Checked (r : BackendRequest) : Prop :=
  ∀ tested, r.urlScope.path? = some tested → tested ∉ v.exempt

end

variable {hmac : Bytes → Bytes → Bytes} {jwt : Jwt} {settings : JwtSettings} {v : IdentityVerifier}

/-! ## Whose requests get through -/

/-- Only what a token says is signed. -/
theorem token_of_signed {time : Int} {q : ClientRequest} {identity : Option RequestState}
    {e : Envelope} (hidentity : q.authenticate jwt settings = .ok identity)
    (hsigned : signedAt time (q.forwarded identity).state = some e) :
    ∃ claims uid, jwt.Verifies settings q.token claims ∧ UUID.ofText? claims.sub = some uid
      ∧ e.userId = uid.text ∧ e.issuedAt = time := by
  obtain ⟨hid, he⟩ := Option.ite_none_left_eq_some.mp hsigned
  have he := Option.some.inj he
  unfold ClientRequest.authenticate at hidentity
  split at hidentity
  · cases hidentity
  unfold jwtAuth at hidentity
  split at hidentity
  · -- an exempt path leaves the request without an identity
    cases hidentity
    exact absurd rfl hid
  · split at hidentity
    · cases hstate : verifyToken jwt settings q.token with
      | error e =>
          rw [ClientRequest.token] at hstate
          rw [hstate] at hidentity
          cases hidentity
      | ok state =>
          obtain ⟨kid, keyring, secret, claims, uid, h1, h2, h3, h4, huid, rfl⟩ :=
            verifyToken_ok_iff.mp hstate
          rw [ClientRequest.token] at hstate
          rw [hstate] at hidentity
          cases hidentity
          subst he
          exact ⟨claims, uid, ⟨kid, keyring, secret, h1, h2, h3, h4⟩, huid, rfl, rfl⟩
    · cases hidentity

/-- What verifies has a time in its minute. -/
theorem time_of_verifies {now : Int} {r : BackendRequest} (h : v.verifies hmac now r = true) :
    ∃ ts, Decimal.int? r.issuedAt = some ts
      ∧ now - ts ≤ identityMaxAgeSeconds ∧ -5 ≤ now - ts := by
  unfold IdentityVerifier.verifies verifyIdentity at h
  cases hts : Decimal.int? r.issuedAt with
  | none =>
      rw [hts] at h
      cases h
  | some ts =>
      rw [hts] at h
      dsimp only at h
      split at h
      · cases h
      · rename_i hage
        exact ⟨ts, rfl, by omega⟩

/-- The routes are run for the user in the header, and the header has been verified. -/
theorem runsAs_eq_some {now : Int} {r : BackendRequest} {uid : UUID} (hchecked : Checked v r)
    (h : runsAs hmac v now r = some uid) :
    v.verifies hmac now r = true ∧ UUID.ofText? r.userId = some uid := by
  unfold runsAs at h
  split at h
  · cases h
  · split at h
    · cases h
    · rename_i hdispatch
      obtain ⟨tested, htested⟩ := path?_of_dispatch hdispatch
      obtain ⟨x, hx, hparse⟩ := Option.bind_eq_some_iff.mp h
      have huser : r.userId = x := by
        unfold BackendRequest.userId BackendRequest.header
        rw [hx]
        rfl
      have huid : UUID.ofText? x = some uid := by
        unfold parseCallerId at hparse
        split at hparse
        · cases hparse
        · rename_i u hu
          cases hparse
          exact hu
      rw [huser]
      refine ⟨?_, huid⟩
      rcases (dispatch_ok_iff htested (hchecked tested htested)).mp hdispatch with
        ⟨hempty, -⟩ | ⟨-, -, hverified, -⟩
      · -- the empty text is no UUID
        rw [huser] at hempty
        have hnone : UUID.ofText? "" = none := by decide +kernel
        rw [hempty, hnone] at huid
        cases huid
      · exact hverified

/-- One message is signed for one user, at one time. -/
theorem envelope_of_canonical {e : Envelope} {userId userEmail userRoles : String} {ts : Int}
    (hbar : '|' ∉ userId.toList) (hbar' : '|' ∉ e.userId.toList)
    (h : canonical userId userEmail userRoles (toString ts) = e.canonical) :
    userId = e.userId ∧ ts = e.issuedAt := by
  have hread : (Envelope.mk userId (some userEmail) (some userRoles) ts).canonical = e.canonical := h
  obtain ⟨hjoin, hts⟩ := canonical_eq_iff.mp hread
  unfold Envelope.fields at hjoin
  rw [Delimited.join_cons_cons, Delimited.join_cons_cons] at hjoin
  have hfirst := (Delimited.append_delim_inj_left hbar hbar' hjoin).1
  exact ⟨String.toList_inj.mp hfirst, hts⟩

/-- **Who gets to the routes has shown the gateway a token.** -/
theorem shownToken_of_runsAs {past : List WireEvent} {now : Int} {env : Surroundings}
    {r : BackendRequest} {request : ServiceRequest} {uid : UUID} (hchecked : Checked v r)
    (hunforged : Unforged hmac jwt settings v past (.arrive now env r request))
    (h : runsAs hmac v now r = some uid) : ShownToken jwt settings past uid now := by
  obtain ⟨hverified, huser⟩ := runsAs_eq_some hchecked h
  obtain ⟨ts, hts, hwindow⟩ := time_of_verifies hverified
  obtain ⟨time, q, identity, e, hpast, hidentity, hsigned, hmessage⟩ := hunforged hverified ts hts
  obtain ⟨claims, uid', hclaims, hsub, heid, htime⟩ := token_of_signed hidentity hsigned
  have hbar' : '|' ∉ e.userId.toList := by
    rw [heid]
    exact UUID.bar_not_mem (UUID.ofText?_text uid')
  obtain ⟨heq, rfl⟩ := envelope_of_canonical (UUID.bar_not_mem huser) hbar' hmessage
  rw [heq, heid, UUID.ofText?_text] at huser
  cases huser
  subst htime
  exact ⟨_, q, claims, hpast, hclaims, hsub, hwindow⟩

/-! ## What the requests of others leave -/

/-- The projects and the tasks of this user are the same. -/
structure Untouched (uid : UUID) (s s' : TaskService) : Prop where
  projects : s'.projects.filter (fun p => p.ownerId == uid)
    = s.projects.filter fun p => p.ownerId == uid
  tasks : s'.tasks.filter (fun t => t.creatorId == uid)
    = s.tasks.filter fun t => t.creatorId == uid

variable {s s' s'' : TaskService} {env : Surroundings} {callerId uid : UUID}

theorem Untouched.refl (uid : UUID) (s : TaskService) : Untouched uid s s := ⟨rfl, rfl⟩

theorem Untouched.trans (h : Untouched uid s s') (h' : Untouched uid s' s'') :
    Untouched uid s s'' :=
  ⟨h'.projects.trans h.projects, h'.tasks.trans h.tasks⟩

theorem untouched_handle {request : TaskRequest} {out : Outcome} (hne : callerId ≠ uid)
    (h : Handled s env callerId request out) : Untouched uid s out.state := by
  have hother : ∀ {t : Task}, t.creatorId = callerId → (t.creatorId == uid) = false := by
    rintro t rfl
    exact beq_eq_false_iff_ne.mpr hne
  cases h with
  | answered request answer => exact .refl uid s
  | created key payload project id owner new =>
      exact ⟨rfl, Table.filter_insert_of_not new (hother rfl)⟩
  | updated payload row creator changes =>
      refine ⟨rfl, Table.filter_update_of_not row (id_updated ..).symm (hother creator) ?_⟩
      refine hother ?_
      rw [creator_updated]
      exact creator
  | deleted row creator => exact ⟨rfl, Table.filter_delete_of_not row (hother creator)⟩

theorem untouched_respond (hne : callerId ≠ uid) (request : ServiceRequest) :
    Untouched uid s (s.respond env callerId request).2 := by
  have hother : (callerId == uid) = false := beq_eq_false_iff_ne.mpr hne
  unfold TaskService.respond
  cases request with
  | createProject body =>
      dsimp only
      split
      · exact .refl uid s
      · unfold TaskService.createProject
        dsimp only
        split
        · exact .refl uid s
        · rename_i hnew
          exact ⟨Table.filter_insert_of_not hnew hother, rfl⟩
  | project request =>
      have hprojects : ((handleProject s.projects callerId request).2.filter fun p =>
          p.ownerId == uid) = s.projects.filter fun p => p.ownerId == uid :=
        @handleProject_other (fun u => u == uid) callerId hother s.projects request
      exact ⟨hprojects, rfl⟩
  | task request =>
      dsimp only
      split
      · exact .refl uid s
      · exact untouched_handle hne (handled_handle s env callerId _)

/-- A step at which the routes are not run for a user leaves the user's things. -/
theorem untouched_onWire {e : WireEvent} (hs : s.onWire hmac v e = some s')
    (habsent : ∀ now env r request, e = .arrive now env r request →
      runsAs hmac v now r ≠ some uid) : Untouched uid s s' := by
  cases e with
  | forward time q =>
      cases hs
      exact .refl uid s
  | expire key =>
      cases hs
      exact ⟨rfl, rfl⟩
  | arrive now env r request =>
      unfold TaskService.onWire at hs
      dsimp only at hs
      cases hcaller : runsAs hmac v now r with
      | none =>
          rw [hcaller] at hs
          cases hs
          exact .refl uid s
      | some callerId =>
          rw [hcaller] at hs
          cases hs
          refine untouched_respond (fun hc => ?_) request
          rw [hc] at hcaller
          exact habsent now env r request rfl hcaller

/-- Under a `Host` that reads as a health check an id needs no signature. -/
example : runsAs recordedDigest userServiceVerifier 1700000030
    { healthHost with path := "/api/v1/tasks" } = some annsId := by decide +kernel

/-! ## Ann at Bob's task -/

theorem exec_onWire (hmac : Bytes → Bytes → Bytes) (v : IdentityVerifier) (s : TaskService)
    (es : List WireEvent) : ∃ s', exec (TaskService.onWire hmac v) s es = some s' := by
  induction es generalizing s with
  | nil => exact ⟨s, rfl⟩
  | cons e es ih =>
      obtain ⟨t, ht⟩ : ∃ t, s.onWire hmac v e = some t := by
        cases e with
        | forward time q => exact ⟨_, rfl⟩
        | expire key => exact ⟨_, rfl⟩
        | arrive now env r request =>
            unfold TaskService.onWire
            dsimp only
            split
            · exact ⟨_, rfl⟩
            · exact ⟨_, rfl⟩
      obtain ⟨s', hs'⟩ := ih t
      exact ⟨s', (exec_cons es ht).trans hs'⟩

def annsGet : ClientRequest where
  path := "/api/v1/tasks"
  headers := { items := [("host", "gw"), ("authorization", "Bearer ann")], lowered := by decide }
  clientHost := some "203.0.113.7"
  urlScheme := "https"
  urlHostname := some "gw"
  requestId := "7f3a"

/-- Her headers, on a request that is not hers. -/
def stolenHeaders : BackendRequest := { annsRequest with path := "/api/v1/tasks" }

/-- The gateway signs for Ann, and somebody uses her headers to delete Bob's task. -/
def annsHeadersStolen : List WireEvent := [
  .forward 1700000000 annsGet,
  .arrive 1700000030 { newId := UUID.ofNat 6, now := noon } stolenHeaders
    (.task (.delete bobsTask.id))]

theorem annsMessage_signed :
    Signed annsJwt annsSettings [.forward 1700000000 annsGet]
      (canonical "550e8400-e29b-41d4-a716-446655440000" "ann@x.io" "user" (toString 1700000000)) := by
  have hurl : annsGet.urlScope.path? = some "/api/v1/tasks" := by decide +kernel
  have hauth : annsGet.authenticate annsJwt annsSettings = .ok (some
      { userId := some annsId.text, userEmail := some "ann@x.io", userRoles := some ["user"] }) := by
    unfold ClientRequest.authenticate
    rw [hurl]
    rfl
  exact ⟨1700000000, annsGet,
    some { userId := some annsId.text, userEmail := some "ann@x.io", userRoles := some ["user"] },
    { userId := annsId.text, userEmail := some "ann@x.io", userRoles := some "user"
      issuedAt := 1700000000 },
    List.mem_singleton_self _, hauth, by decide +kernel, by decide +kernel⟩

end Microservices.Tasks
