import Mathlib.Data.Rat.Floor
import Microservices.Gateway.IdentityHeaders
import Microservices.Gateway.JwtAuth
import Microservices.Identity.Verifier
import Microservices.Lib.Trim
import Microservices.Tasks.Requests

/-!
# An identity on its way from the token to a route

The gateway verifies a token, writes the caller's id in canonical form, the address
and the joined roles into headers and signs them. A backend verifies the headers
and reads them again: as a UUID, as a set of roles, or as the plain text under
which the notification service files a subscription.

The headers arrive as they were sent, behind the `Host` of the service's own address.
Each service has its own clock.
-/

namespace Microservices.Gateway

open Identity Tasks

/-- The keyring has a key under which the JWT library finds these claims in the token. -/
def Jwt.Verifies (jwt : Jwt) (settings : JwtSettings) (token : String) (claims : Claims) : Prop :=
  ∃ kid keyring secret, jwt.unverifiedKid token = some kid
    ∧ parseKeyring settings.jwtSecrets settings.jwtSecret = .ok keyring
    ∧ selectVerificationKey keyring kid = some secret
    ∧ jwt.decode token secret settings.jwtAlgorithm = .ok claims

/-- An address in printable ASCII and names of roles, with no white space around them and no comma
in a role. -/
structure Claims.Plain (claims : Claims) : Prop where
  email : ∀ e ∈ claims.email, (∀ c ∈ e.toList, ' ' ≤ c ∧ c ≤ '~') ∧ Trim.Trimmed Trim.isSpace e.toList
  roles : ∀ role ∈ claims.roles.getD [],
    role ≠ "" ∧ ',' ∉ role.toList ∧ Trim.Trimmed Trim.isSpace role.toList

/-- `int(time.time())`, of what the clock shows in seconds. -/
def seconds (clock : ℚ) : Int := if 0 ≤ clock then ⌊clock⌋ else ⌈clock⌉

/-- Where the HTTP client sends a request: the authority of the upstream's URL, the path, and the
query, which the client escapes. -/
structure Target where
  host : String
  path : String
  query : Bytes := []
  bare : Urlsplit.IsBare host.toList
  rooted : path.toList.head? = some '/'
  escaped : Unicode.isAscii query = true

/-- The request as it reaches a backend; the client puts the `Host` in front. -/
def deliver (target : Target) (headers : HeaderDict) : BackendRequest where
  path := target.path
  headers := ("host", target.host) :: headers.entries.map fun e => (lower e.1, e.2)
  queryString := target.query

/-- `x_user_id` of `notification_stream`, which the broadcaster files the connection under; `none`
is a 422. -/
def subscriptionKey (r : BackendRequest) : Option String := Multidict.get? r.headers "x-user-id"

/-- What `_parse_caller_id` and `_require_admin` are given; `none` is a 422. -/
def callerHeaders (r : BackendRequest) : Option Users.CallerHeaders :=
  (Multidict.get? r.headers "x-user-id").map fun xUserId =>
    { xUserId := xUserId, xUserRoles := r.userRoles }

/-- The events that tell of a task. -/
inductive TellsOf (t : Task) : TaskEvent → Prop where
  | created : TellsOf t (taskCreated t)
  | statusChanged (oldStatus : TaskStatus) (callerId : UUID) :
      TellsOf t (taskStatusChanged t oldStatus callerId)
  | deleted : TellsOf t (taskDeleted t)

/-- **The backends take the request for the one of `uid` with these roles.** -/
structure ArrivesAs (hmac : Bytes → Bytes → Bytes) (v : IdentityVerifier) (now : Int)
    (r : BackendRequest) (uid : UUID) (roles : List String) : Prop where
  passes : v.dispatch hmac now r = .ok ()
  caller : ∃ c, callerHeaders r = some c ∧ Users.parseCallerId c = .ok uid
    ∧ (Users.requireAdmin c = .ok () ↔ "admin" ∈ roles)
  key : subscriptionKey r = some uid.text
  events : ∀ t e, TellsOf t e →
    (e.field "creator_id" = subscriptionKey r ↔ t.creatorId = uid)
      ∧ (e.field "assignee_id" = subscriptionKey r ↔ t.assigneeId = some uid)

/-! ## Clocks -/

/-- Whole seconds are no further apart than the clocks are. -/
theorem seconds_window {issued now : ℚ} (h : issued - 5 ≤ now ∧ now ≤ issued + 60) :
    seconds now - seconds issued ≤ identityMaxAgeSeconds ∧ -5 ≤ seconds now - seconds issued := by
  have hmono : ∀ {p q : ℚ}, p ≤ q → seconds p ≤ seconds q := by
    intro p q hpq
    unfold seconds
    split_ifs with hp hq hq
    · exact Int.floor_le_floor hpq
    · exact absurd (le_trans hp hpq) hq
    · have h1 : ⌈p⌉ ≤ 0 := Int.ceil_le.mpr (by simpa using (not_le.mp hp).le)
      exact le_trans h1 (Int.floor_nonneg.mpr hq)
    · exact Int.ceil_le_ceil hpq
  -- moving a clock by whole seconds moves its reading by at most as many
  have hup : seconds (issued + 60) ≤ seconds issued + 60 := by
    unfold seconds
    have hfloor : ⌊issued + 60⌋ = ⌊issued⌋ + 60 := Int.floor_add_ofNat issued 60
    have hceil : ⌈issued + 60⌉ = ⌈issued⌉ + 60 := Int.ceil_add_ofNat issued 60
    have hle := Int.floor_le_ceil issued
    split_ifs with h1 h2 h2
    · omega
    · omega
    · exact absurd (add_nonneg h2 (by norm_num)) h1
    · omega
  have hdown : seconds issued - 5 ≤ seconds (issued - 5) := by
    unfold seconds
    have hfloor : ⌊issued - 5⌋ = ⌊issued⌋ - 5 := Int.floor_sub_ofNat issued 5
    have hceil : ⌈issued - 5⌉ = ⌈issued⌉ - 5 := Int.ceil_sub_ofNat issued 5
    have hle := Int.floor_le_ceil issued
    split_ifs with h1 h2 h2
    · omega
    · omega
    · exact absurd (le_trans (by norm_num) (sub_nonneg.mp h2)) h1
    · omega
  have h1 := hmono h.1
  have h2 := hmono h.2
  unfold identityMaxAgeSeconds
  omega

/-! ## Roles -/

theorem rolesOf_intercalate {roles : List String}
    (h : ∀ role ∈ roles, role ≠ "" ∧ ',' ∉ role.toList ∧ Trim.Trimmed Trim.isSpace role.toList) :
    Users.rolesOf (",".intercalate roles) = roles := by
  unfold Users.rolesOf
  rw [String.toList_intercalate]
  rcases List.eq_nil_or_concat roles with rfl | hne
  · decide +kernel
  · have hcomma : ∀ l ∈ roles.map String.toList, ',' ∉ l := by
      intro l hl
      obtain ⟨role, hrole, rfl⟩ := List.mem_map.mp hl
      exact (h role hrole).2.1
    have hsplit : (",".toList.intercalate (roles.map String.toList)).splitOn ','
        = roles.map String.toList := by
      refine List.splitOn_intercalate ',' hcomma ?_
      obtain ⟨l, a, rfl⟩ := hne
      simp
    rw [hsplit, List.map_map]
    have hstrip : roles.map ((fun r => String.ofList (Decimal.strip r)) ∘ String.toList) = roles := by
      refine (List.map_congr_left fun role hrole => ?_).trans (List.map_id roles)
      have hspace : ∀ c, Trim.isSpace c = false → Decimal.isSpace c = false := by
        intro c hc
        unfold Trim.isSpace at hc
        unfold Decimal.isSpace
        simp only [decide_eq_false_iff_not, List.mem_cons, not_or] at hc ⊢
        tauto
      have htrimmed : Trim.Trimmed Decimal.isSpace role.toList := fun hne' =>
        ⟨hspace _ ((h role hrole).2.2 hne').1, hspace _ ((h role hrole).2.2 hne').2⟩
      have hself : Decimal.strip role.toList = role.toList := Trim.trim_eq_self htrimmed
      simp [hself]
    rw [hstrip, List.filter_eq_self]
    intro role hrole
    simpa using (h role hrole).1

/-! ## Headers -/

/-- A backend reads the path it was sent. -/
theorem path?_deliver (target : Target) (headers : HeaderDict) :
    (deliver target headers).urlScope.path? = some (UrlScope.readBack target.path) := by
  refine UrlScope.path?_of_isBare rfl rfl target.bare target.rooted ?_
  exact Option.isSome_of_eq_some (Unicode.strictUtf8?_of_isAscii target.escaped)

theorem get?_deliver (target : Target) {name : String} (hname : name ≠ "host") (headers : HeaderDict) :
    Multidict.get? (deliver target headers).headers name
      = (fields name headers).head?.map Prod.snd := by
  unfold deliver fields Dict.select Multidict.get?
  rw [List.find?_cons_of_neg (by simpa using hname.symm), List.head?_filter, List.find?_map,
    Option.map_map]
  congr 1

/-- What the gateway assigns under an identity name. -/
def assigned (hmac : Bytes → Bytes → Bytes) (secret : String) (time : Int) (s : RequestState)
    (name : String) : Option String :=
  ((identityPairs hmac secret time s).find? fun e => lower e.1 == name).map Prod.snd

section

variable {hmac : Bytes → Bytes → Bytes} {secret : String} {time : Int} {s : RequestState}
  {target : Target} {r : ForwardRequest}

theorem identityName_ne_host {name : String} (hname : name ∈ identityNames) : name ≠ "host" := by
  rintro rfl
  exact absurd hname (by decide)

/-- Only the gateway's assignments are delivered under the identity names. -/
theorem get?_identity (hclient : ¬ r.headers.CarriesSignature) {name : String}
    (hname : name ∈ identityNames) :
    Multidict.get? (deliver target (buildForwardHeaders hmac secret time r)).headers name
      = assigned hmac secret time r.state name := by
  rw [get?_deliver target (identityName_ne_host hname), fields_build hmac secret time hname,
    fields_stripped_of_not_carries hclient hname, List.nil_append, List.head?_filter]
  rfl

/-- What each of the five names stands for. -/
theorem assigned_identity (hid : orEmpty s.userId ≠ "") :
    assigned hmac secret time s "x-user-id" = some (orEmpty s.userId)
      ∧ orEmpty (assigned hmac secret time s "x-user-email") = orEmpty s.userEmail
      ∧ assigned hmac secret time s "x-user-roles" = some (",".intercalate (s.userRoles.getD []))
      ∧ assigned hmac secret time s "x-identity-signature"
        = some (signIdentity hmac secret (orEmpty s.userId) (some (orEmpty s.userEmail))
          (some (",".intercalate (s.userRoles.getD []))) none time).1
      ∧ assigned hmac secret time s "x-identity-issued-at"
        = some (signIdentity hmac secret (orEmpty s.userId) (some (orEmpty s.userEmail))
          (some (",".intercalate (s.userRoles.getD []))) none time).2 := by
  have h1 : lower "X-User-Id" = "x-user-id" := by decide
  have h2 : lower "X-User-Email" = "x-user-email" := by decide
  have h3 : lower "X-User-Roles" = "x-user-roles" := by decide
  have h4 : lower identitySigHeader = "x-identity-signature" := by decide
  have h5 : lower identityTsHeader = "x-identity-issued-at" := by decide
  unfold assigned identityPairs
  rw [if_neg hid]
  have hnone : orEmpty none = "" := rfl
  have hsome : ∀ x, orEmpty (some x) = x := fun _ => rfl
  by_cases hemail : orEmpty s.userEmail = ""
  · simp [hemail, h1, h3, h4, h5, hnone]
  · simp [hemail, h1, h2, h3, h4, h5, hsome]

end

/-! ## At the backend -/

theorem uuid_text_ne_empty (u : UUID) : u.text ≠ "" := by
  intro h
  have hread := UUID.ofText?_text u
  rw [h] at hread
  have hempty : UUID.ofText? "" = none := by decide +kernel
  rw [hempty] at hread
  cases hread

/-- A signature is never the empty text, and neither is its time. -/
theorem signIdentity_ne_empty {hmac : Bytes → Bytes → Bytes} (hdigest : ∀ k m, (hmac k m).length = 32)
    (secret userId : String) (userEmail userRoles : Option String) (time : Int) :
    (signIdentity hmac secret userId userEmail userRoles none time).1 ≠ ""
      ∧ (signIdentity hmac secret userId userEmail userRoles none time).2 ≠ "" := by
  unfold signIdentity
  dsimp only [Option.getD_none]
  constructor
  · intro h
    have hlist := congrArg String.toList h
    rw [String.toList_ofList] at hlist
    generalize hmac' : hmac (utf8 secret) (canonical userId (orEmpty userEmail) (orEmpty userRoles)
      (toString time)) = mac at hlist
    have hlength : mac.length = 32 := hmac' ▸ hdigest _ _
    match mac, hlist with
    | [], _ => cases hlength
    | [_], h => cases h
    | [_, _], h => cases h
    | _ :: _ :: _ :: _, h => cases h
  · intro h
    have hread := Decimal.int?_toString time
    rw [h] at hread
    have hempty : Decimal.int? "" = none := by decide +kernel
    rw [hempty] at hread
    cases hread

section

variable {hmac : Bytes → Bytes → Bytes} {v : IdentityVerifier} {r : BackendRequest} {now time : Int}
  {uid : UUID} {email tested : String} {roles : List String}

/-- Headers with the id, the roles and their signature arrive as they were meant. -/
theorem arrivesAs_of_signed (hdigest : ∀ k m, (hmac k m).length = 32)
    (htested : r.urlScope.path? = some tested)
    (hid : Multidict.get? r.headers "x-user-id" = some uid.text) (hemail : r.userEmail = email)
    (hroles : r.userRoles = ",".intercalate roles)
    (hsigned : (r.signature, r.issuedAt) = signIdentity hmac v.secret uid.text (some email)
      (some (",".intercalate roles)) none time)
    (hplain : ∀ role ∈ roles, role ≠ "" ∧ ',' ∉ role.toList ∧ Trim.Trimmed Trim.isSpace role.toList)
    (hnow : now - time ≤ identityMaxAgeSeconds ∧ -5 ≤ now - time) :
    ArrivesAs hmac v now r uid roles where
  passes := by
    by_cases hpath : tested ∈ v.exempt
    · exact dispatch_of_exempt htested hpath
    · have huser : r.userId = uid.text := by
        unfold BackendRequest.userId BackendRequest.header
        rw [hid]
        rfl
      have hsig : r.signature = _ := congrArg Prod.fst hsigned
      have hissued : r.issuedAt = toString time := congrArg Prod.snd hsigned
      obtain ⟨hne1, hne2⟩ := signIdentity_ne_empty hdigest v.secret uid.text (some email)
        (some (",".intercalate roles)) time
      refine (dispatch_ok_iff htested hpath).mpr (Or.inr ⟨hsig ▸ hne1, ?_, ?_, ?_⟩)
      · have h2 : r.issuedAt = _ := congrArg Prod.snd hsigned
        exact h2 ▸ hne2
      · -- what it verifies is the envelope the gateway signed
        have haccepted := accepted_signIdentity hmac v.secret
          { userId := uid.text, userEmail := some email
            userRoles := some (",".intercalate roles), issuedAt := time } time now hnow
        unfold IdentityVerifier.verifies
        rw [huser, hemail, hroles, hissued, hsig]
        exact haccepted
      · rw [huser, UUID.ofText?_text]
        intro _ h
        cases h
  caller := by
    refine ⟨{ xUserId := uid.text, xUserRoles := r.userRoles }, ?_, ?_, ?_⟩
    · unfold callerHeaders
      rw [hid]
      rfl
    · unfold Users.parseCallerId
      rw [UUID.ofText?_text]
    · unfold Users.requireAdmin
      rw [hroles, rolesOf_intercalate hplain]
      by_cases hadmin : "admin" ∈ roles
      · exact iff_of_true (if_pos hadmin) hadmin
      · rw [if_neg hadmin]
        exact iff_of_false (by intro h; cases h) hadmin
  key := hid
  events := by
    intro t e he
    have hkey : subscriptionKey r = some uid.text := hid
    -- every event names the creator and the assignee by the text of their ids
    have hfields : e.field "creator_id" = some t.creatorId.text
        ∧ e.field "assignee_id" = t.assigneeId.map UUID.text := by
      cases he with
      | created => exact ⟨rfl, rfl⟩
      | statusChanged oldStatus callerId => exact ⟨rfl, rfl⟩
      | deleted => exact ⟨rfl, rfl⟩
    rw [hkey, hfields.1, hfields.2, Option.some_inj, UUID.text_injective.eq_iff]
    refine ⟨Iff.rfl, ?_⟩
    rw [Option.map_eq_some_iff]
    simp only [UUID.text_injective.eq_iff, exists_eq_right]

end

/--
**An identity survives the trip from the token to the backend.**

For every token that verifies, with a UUID in any form `uuid.UUID` reads, an address
in plain ASCII if any, and plain role names, and every request without a signature of the
client's own, sent to any path of any backend: at any time from five seconds before to
sixty after the issuance the backend takes the request for that user with those roles.
-/
theorem identity_survives {hmac : Bytes → Bytes → Bytes} (hdigest : ∀ k m, (hmac k m).length = 32)
    {jwt : Jwt} {settings : JwtSettings} {token : String} {claims : Claims} {uid : UUID}
    (hverified : jwt.Verifies settings token claims) (huid : UUID.ofText? claims.sub = some uid)
    (hplain : claims.Plain) {identity : RequestState}
    (hidentity : verifyToken jwt settings token = .ok identity) {r : ForwardRequest}
    (hstate : r.state = { identity with requestId := r.state.requestId })
    (hclient : ¬ r.headers.CarriesSignature) (v : IdentityVerifier) (target : Target)
    {issued now : ℚ} (hclock : issued - 5 ≤ now ∧ now ≤ issued + 60) :
    ArrivesAs hmac v (seconds now)
      (deliver target (buildForwardHeaders hmac v.secret (seconds issued) r)) uid
      (claims.roles.getD []) := by
  obtain ⟨kid, keyring, secret, h1, h2, h3, h4⟩ := hverified
  have hclaims := verifyToken_ok_iff.mpr ⟨kid, keyring, secret, claims, uid, h1, h2, h3, h4, huid, rfl⟩
  obtain rfl := Except.ok.inj (hidentity.symm.trans hclaims)
  have hid : orEmpty r.state.userId = uid.text := by rw [hstate]; rfl
  have hemail : orEmpty r.state.userEmail = orEmpty claims.email := by rw [hstate]
  have hroles : r.state.userRoles.getD [] = claims.roles.getD [] := by rw [hstate]; rfl
  have hne : orEmpty r.state.userId ≠ "" := by rw [hid]; exact uuid_text_ne_empty uid
  obtain ⟨hvid, hvemail, hvroles, hvsig, hvts⟩ := assigned_identity hne
  rw [hid] at hvid hvsig hvts
  rw [hemail, hroles] at hvsig hvts
  have hget : ∀ {name : String}, name ∈ identityNames →
      Multidict.get? (deliver target (buildForwardHeaders hmac v.secret (seconds issued) r)).headers name
        = assigned hmac v.secret (seconds issued) r.state name := fun hname => get?_identity hclient hname
  have hpath := path?_deliver target (buildForwardHeaders hmac v.secret (seconds issued) r)
  generalize deliver target (buildForwardHeaders hmac v.secret (seconds issued) r) = arrived
    at hget hpath ⊢
  have hemail' : arrived.userEmail = orEmpty claims.email := by
    unfold BackendRequest.userEmail BackendRequest.header
    rw [hget (by decide), hvemail, hemail]
  have hroles' : arrived.userRoles = ",".intercalate (claims.roles.getD []) := by
    unfold BackendRequest.userRoles BackendRequest.header
    rw [hget (by decide), hvroles, hroles]
    rfl
  have hsigned : (arrived.signature, arrived.issuedAt) = signIdentity hmac v.secret uid.text
      (some (orEmpty claims.email)) (some (",".intercalate (claims.roles.getD []))) none
      (seconds issued) := by
    unfold BackendRequest.signature BackendRequest.issuedAt BackendRequest.header
    rw [hget (by decide), hget (by decide), hvsig, hvts]
    rfl
  exact arrivesAs_of_signed hdigest hpath ((hget (by decide)).trans hvid) hemail' hroles' hsigned
    hplain.roles (seconds_window hclock)

/-! ## Ann's token -/

def annsId : UUID := UUID.ofNat 0x550e8400e29b41d4a716446655440000

/-- Her id as a URN. -/
def annsClaims : Claims where
  sub := "urn:uuid:550E8400-E29B-41D4-A716-446655440000"
  email := some "ann@x.io"
  roles := some ["user"]

/-- A library that knows one token. -/
def annsJwt : Jwt where
  unverifiedKid := fun _ => some none
  decode := fun token _ _ => if token = "ann" then .ok annsClaims else .error .invalidToken

def annsSettings : JwtSettings where
  jwtSecrets := ""
  jwtSecret := "fedcba9876543210fedcba9876543210"
  jwtAlgorithm := "HS256"

/-- Her request, past the middlewares. -/
def annsForward : ForwardRequest where
  headers := { items := [("host", "gw"), ("x-user-roles", "admin")], lowered := by decide }
  clientHost := some "203.0.113.7"
  urlScheme := "https"
  urlHostname := some "gw"
  state :=
    { userId := some annsId.text
      userEmail := some "ann@x.io"
      userRoles := some ["user"]
      requestId := some "7f3a" }

/-- Her own row, at the user service. -/
def annsTarget : Target where
  host := "user-service:8001"
  path := "/api/v1/users/me"
  bare := by decide
  rooted := rfl
  escaped := rfl

/-- Ann's headers still pass at a clock three and a half seconds behind the gateway's. -/
theorem anns_identity_survives :
    ArrivesAs recordedDigest userServiceVerifier (seconds (1700000000 - 3))
      (deliver annsTarget (buildForwardHeaders recordedDigest userServiceVerifier.secret
        (seconds (1700000000 + 1 / 2)) annsForward)) annsId ["user"] := by
  have hkeyring : parseKeyring annsSettings.jwtSecrets annsSettings.jwtSecret
      = .ok (fallbackKeyring annsSettings.jwtSecret "default") := rfl
  have hsecret : selectVerificationKey (fallbackKeyring annsSettings.jwtSecret "default") none
      = some annsSettings.jwtSecret := by decide +kernel
  have hverifies : annsJwt.Verifies annsSettings "ann" annsClaims :=
    ⟨none, _, _, rfl, hkeyring, hsecret, rfl⟩
  have huid : UUID.ofText? annsClaims.sub = some annsId := by decide +kernel
  have hplain : annsClaims.Plain := by
    refine ⟨fun e he => ?_, fun role hrole => ?_⟩
    · cases he
      have hascii : "ann@x.io".toList.all (fun c => decide (' ' ≤ c ∧ c ≤ '~')) = true := by decide
      exact ⟨fun c hc => of_decide_eq_true (List.all_eq_true.mp hascii c hc), by decide⟩
    · obtain rfl : role = "user" := List.mem_singleton.mp hrole
      exact ⟨by decide, by decide, by decide⟩
  have hidentity : verifyToken annsJwt annsSettings "ann" = .ok
      { userId := some annsId.text, userEmail := some "ann@x.io", userRoles := some ["user"] } := by
    obtain ⟨kid, keyring, secret, h1, h2, h3, h4⟩ := hverifies
    exact verifyToken_ok_iff.mpr ⟨kid, keyring, secret, _, _, h1, h2, h3, h4, huid, rfl⟩
  have hclient : ¬ annsForward.headers.CarriesSignature := by
    rintro ⟨e, he, hname⟩
    have all : ∀ e ∈ annsForward.headers.items,
        ¬ (e.1 = "x-identity-signature" ∨ e.1 = "x-identity-issued-at") := by decide
    exact all e he hname
  exact identity_survives length_recordedDigest hverifies huid hplain hidentity rfl hclient
    userServiceVerifier annsTarget ⟨by norm_num, by norm_num⟩

end Microservices.Gateway
