import Microservices.Identity.Signing
import Microservices.Lib.Multidict
import Microservices.RequestUrl
import Microservices.Users.Accounts

/-!
# The verifier in front of the backends

`IdentityVerifierMiddleware`, which stands before the routes of the user, the task
and the notification service. It reads five headers, each of which may be missing,
empty or repeated, and takes a request without a signature for an anonymous one.

What it should guarantee is that whatever identity a route sees has been signed.
It does as long as an unsigned request that claims an address or roles also claims
an id, and as long as the `Host` header does not make `request.url.path` an exempt
path.
-/

namespace Microservices.Identity

/-- A request as the server delivers it: header names in lower case, repeats allowed. -/
structure BackendRequest where
  path : String
  headers : Multidict String String
  scheme : String := "http"
  /-- The address the service listens on. -/
  server : Option (String × Nat) := none
  queryString : Bytes := []
  deriving Repr

namespace BackendRequest

/-- `request.headers.get(name, "")`, for a name in lower case. -/
def header (r : BackendRequest) (name : String) : String := orEmpty (Multidict.get? r.headers name)

def userId (r : BackendRequest) : String := r.header "x-user-id"

def userEmail (r : BackendRequest) : String := r.header "x-user-email"

def userRoles (r : BackendRequest) : String := r.header "x-user-roles"

def signature (r : BackendRequest) : String := r.header "x-identity-signature"

def issuedAt (r : BackendRequest) : String := r.header "x-identity-issued-at"

/-- What `request.url` is made from. -/
def urlScope (r : BackendRequest) : UrlScope where
  scheme := r.scheme
  server := r.server
  host := Multidict.get? r.headers "host"
  path := r.path
  queryString := r.queryString

end BackendRequest

/-- What `IdentityVerifierMiddleware` is set up with; it refuses a shorter secret. -/
structure IdentityVerifier where
  secret : String
  exempt : List String
  strong : 32 ≤ secret.length

def unauthorized (detail : String) : HTTPException := { statusCode := 401, detail := detail }

section

variable (hmac : Bytes → Bytes → Bytes)

/-- `verify_identity`, for the values the request carries. -/
def IdentityVerifier.verifies (v : IdentityVerifier) (now : Int) (r : BackendRequest) : Bool :=
  verifyIdentity hmac v.secret r.userId (some r.userEmail) (some r.userRoles) r.issuedAt r.signature
    now

/-- `IdentityVerifierMiddleware.dispatch`; `.ok` is `await call_next(request)`. -/
def IdentityVerifier.dispatch (v : IdentityVerifier) (now : Int) (r : BackendRequest) :
    Except HTTPException Unit :=
  match r.urlScope.path? with
  | none => .error serverError
  | some tested =>
      if tested ∈ v.exempt then .ok ()
      else if r.signature = "" ∨ r.issuedAt = "" then
        -- of the three identity headers only the id counts as a claim here
        if r.userId ≠ "" then .error (unauthorized "Missing identity signature") else .ok ()
      else if !v.verifies hmac now r then .error (unauthorized "Invalid identity signature")
      else if r.userId ≠ "" ∧ UUID.ofText? r.userId = none then
        .error (unauthorized "Invalid identity claims")
      else .ok ()

end

namespace BackendRequest

/-- The request claims an identity, or part of one. -/
def ClaimsIdentity (r : BackendRequest) : Prop :=
  r.userId ≠ "" ∨ r.userEmail ≠ "" ∨ r.userRoles ≠ ""

/-- The request has no id, and the signature is not all there, but it has an address or roles. -/
def ClaimsWithoutId (r : BackendRequest) : Prop :=
  r.userId = "" ∧ (r.signature = "" ∨ r.issuedAt = "") ∧ (r.userEmail ≠ "" ∨ r.userRoles ≠ "")

instance (r : BackendRequest) : Decidable r.ClaimsWithoutId :=
  inferInstanceAs (Decidable (_ ∧ _ ∧ _))

end BackendRequest

/-- **What a route sees of an identity is signed.** -/
def SeesSignedIdentity (hmac : Bytes → Bytes → Bytes) (v : IdentityVerifier) (now : Int)
    (r : BackendRequest) : Prop :=
  v.dispatch hmac now r = .ok () → r.ClaimsIdentity → v.verifies hmac now r = true

variable {hmac : Bytes → Bytes → Bytes} {v : IdentityVerifier} {now : Int} {r : BackendRequest}
  {tested : String}

/-! ## What passes -/

/-- A request whose URL cannot be read does not pass. -/
theorem path?_of_dispatch (h : v.dispatch hmac now r = .ok ()) :
    ∃ tested, r.urlScope.path? = some tested := by
  unfold IdentityVerifier.dispatch at h
  cases hpath : r.urlScope.path? with
  | none => rw [hpath] at h; cases h
  | some tested => exact ⟨tested, rfl⟩

/-- On an exempt path everything passes. -/
theorem dispatch_of_exempt (htested : r.urlScope.path? = some tested) (hpath : tested ∈ v.exempt) :
    v.dispatch hmac now r = .ok () := by
  unfold IdentityVerifier.dispatch
  rw [htested]
  exact if_pos hpath

/-- What it takes to pass on a path that is not exempt. -/
theorem dispatch_ok_iff (htested : r.urlScope.path? = some tested) (hpath : tested ∉ v.exempt) :
    v.dispatch hmac now r = .ok () ↔
      (r.userId = "" ∧ (r.signature = "" ∨ r.issuedAt = ""))
        ∨ (r.signature ≠ "" ∧ r.issuedAt ≠ "" ∧ v.verifies hmac now r = true
          ∧ (r.userId ≠ "" → UUID.ofText? r.userId ≠ none)) := by
  unfold IdentityVerifier.dispatch
  rw [htested]
  dsimp only
  rw [if_neg hpath]
  by_cases hsig : r.signature = "" ∨ r.issuedAt = ""
  · rw [if_pos hsig]
    by_cases hid : r.userId = ""
    · rw [if_neg (not_not_intro hid)]
      exact iff_of_true rfl (Or.inl ⟨hid, hsig⟩)
    · rw [if_pos hid]
      refine iff_of_false (by intro h; cases h) ?_
      rintro (⟨hid', _⟩ | ⟨h1, h2, _⟩)
      · exact hid hid'
      · exact hsig.elim h1 h2
  · rw [if_neg hsig]
    obtain ⟨hsig1, hsig2⟩ := not_or.mp hsig
    cases hv : v.verifies hmac now r with
    | false =>
        refine iff_of_false (by intro h; cases h) ?_
        rintro (⟨_, h⟩ | ⟨_, _, h, _⟩)
        · exact hsig h
        · cases h
    | true =>
        rw [if_neg (by simp)]
        by_cases huuid : r.userId ≠ "" ∧ UUID.ofText? r.userId = none
        · rw [if_pos huuid]
          refine iff_of_false (by intro h; cases h) ?_
          rintro (⟨_, h⟩ | ⟨_, _, _, h⟩)
          · exact hsig h
          · exact h huuid.1 huuid.2
        · rw [if_neg huuid]
          exact iff_of_true rfl (Or.inr ⟨hsig1, hsig2, rfl, fun h1 h2 => huuid ⟨h1, h2⟩⟩)

/-- Nothing is verified without a signature and a time: no digest is empty, and no number is. -/
theorem verifies_eq_false (hdigest : ∀ k m, (hmac k m).length = 32)
    (h : r.signature = "" ∨ r.issuedAt = "") : v.verifies hmac now r = false := by
  unfold IdentityVerifier.verifies verifyIdentity
  rcases h with h | h
  · rw [h]
    have hempty : Base64.decode true "".toList = some [] := by decide +kernel
    rw [hempty]
    cases Decimal.int? r.issuedAt with
    | none => rfl
    | some ts =>
        dsimp only
        split
        · rfl
        · rw [beq_eq_false_iff_ne]
          intro heq
          have hlength := hdigest (utf8 v.secret) (canonical r.userId (orEmpty (some r.userEmail))
            (orEmpty (some r.userRoles)) (toString ts))
          rw [heq] at hlength
          cases hlength
  · rw [h]
    have hempty : Decimal.int? "" = none := by decide +kernel
    rw [hempty]

/--
**A backend sees signed identity only, except where an address or roles come without an id,
and where the `Host` header leads the verifier to an exempt path.**

For every secret, clock and request, whatever its path, its `Host` and its query: it is
passed on with an identity only under a fresh signature of just that identity, if and
only if, as far as its URL can be read,

- on an exempt path it claims no identity or happens to be signed, and
- on another it does not claim an address or roles without an id and without a signature.
-/
theorem sees_signed_identity_iff (hdigest : ∀ k m, (hmac k m).length = 32) (v : IdentityVerifier)
    (now : Int) (r : BackendRequest) :
    SeesSignedIdentity hmac v now r ↔ ∀ tested, r.urlScope.path? = some tested →
      (tested ∈ v.exempt → r.ClaimsIdentity → v.verifies hmac now r = true)
        ∧ (tested ∉ v.exempt → ¬ r.ClaimsWithoutId) := by
  constructor
  · refine fun h tested htested => ⟨fun hpath => h (dispatch_of_exempt htested hpath), ?_⟩
    rintro hpath ⟨hid, hsig, hclaims⟩
    have hpass : v.dispatch hmac now r = .ok () :=
      (dispatch_ok_iff htested hpath).mpr (Or.inl ⟨hid, hsig⟩)
    have hverified := h hpass (Or.inr hclaims)
    rw [verifies_eq_false hdigest hsig] at hverified
    cases hverified
  · intro h hpass hclaims
    obtain ⟨tested, htested⟩ := path?_of_dispatch hpass
    obtain ⟨hexempt, hother⟩ := h tested htested
    by_cases hpath : tested ∈ v.exempt
    · exact hexempt hpath hclaims
    · rcases (dispatch_ok_iff htested hpath).mp hpass with ⟨hid, hsig⟩ | ⟨_, _, hverified, _⟩
      · -- anonymous for the verifier, so what it claims is not an id
        exact absurd ⟨hid, hsig, hclaims.resolve_left (not_not_intro hid)⟩ (hother hpath)
      · exact hverified

/-! ## Ann, and somebody without an id -/

/-- A digest of the right size that is HMAC-SHA256 on the two messages recorded. -/
def recordedDigest (secret message : Bytes) : Bytes := (recordedHmac secret message).take 32

theorem length_recordedDigest (k m : Bytes) : (recordedDigest k m).length = 32 := by
  unfold recordedDigest recordedHmac
  split_ifs <;> simp

/-- The user service's verifier. -/
def userServiceVerifier : IdentityVerifier where
  secret := "0123456789abcdef0123456789abcdef"
  exempt := ["/health", "/health/ready", "/metrics"]
  strong := by decide

/-- Ann's request, as the gateway signs it. -/
def annsRequest : BackendRequest where
  path := "/api/v1/users/me"
  headers :=
    [("host", "user-service:8001"), ("x-user-id", "550e8400-e29b-41d4-a716-446655440000"),
      ("x-user-email", "ann@x.io"), ("x-user-roles", "user"),
      ("x-identity-signature", "wWs1w9dqMKraTfTCaQoNReSG4B2Bt4yWq6KHJw7fm50="),
      ("x-identity-issued-at", "1700000000")]

theorem anns_identity_signed :
    SeesSignedIdentity recordedDigest userServiceVerifier 1700000030 annsRequest := by
  have hurl : annsRequest.urlScope.path? = some "/api/v1/users/me" := by decide +kernel
  refine (sees_signed_identity_iff length_recordedDigest userServiceVerifier 1700000030
    annsRequest).mpr fun tested htested => ?_
  obtain rfl := Option.some.inj (hurl.symm.trans htested)
  exact ⟨fun hpath => absurd hpath (by decide), fun _ => by decide⟩

/-- Roles and nothing else. -/
def rolesOnly : BackendRequest where
  path := "/api/v1/users/admin/users"
  headers := [("host", "user-service:8001"), ("x-user-roles", "admin")]

/-- An id without a signature, behind a `Host` with a path of its own. -/
def healthHost : BackendRequest where
  path := "/api/v1/users/me"
  headers :=
    [("host", "x/health?"), ("x-user-id", "550e8400-e29b-41d4-a716-446655440000")]

/-- **Unsigned roles reach the route**, and make their sender an admin there; and so does an unsigned
id under a `Host` that reads as a health check. -/
theorem unsigned_roles_pass :
    (rolesOnly.path ∉ userServiceVerifier.exempt
      ∧ userServiceVerifier.dispatch recordedDigest 1700000030 rolesOnly = .ok ()
      ∧ rolesOnly.userRoles = "admin"
      ∧ userServiceVerifier.verifies recordedDigest 1700000030 rolesOnly = false
      ∧ Users.requireAdmin { xUserId := rolesOnly.userId, xUserRoles := rolesOnly.userRoles } = .ok ())
      ∧ healthHost.path ∉ userServiceVerifier.exempt
      ∧ userServiceVerifier.dispatch recordedDigest 1700000030 healthHost = .ok ()
      ∧ healthHost.userId ≠ ""
      ∧ userServiceVerifier.verifies recordedDigest 1700000030 healthHost = false := by
  decide +kernel

end Microservices.Identity
