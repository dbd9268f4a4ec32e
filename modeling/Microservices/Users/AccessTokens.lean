import Microservices.Gateway.JwtAuth
import Microservices.Users.Model

/-!
# Access tokens

`_create_access_jwt`. The claims are those of the row at the time; the key is the
current one of the service's own keyring, and its `kid` goes into the header. Both
services read their keyrings with the same `jwt_keyring.py`.

`encode` is the parameter for `jwt.encode`, `LawfulJwt` what is asked of it and of
`jwt.decode`.
-/

namespace Microservices.Users

open Gateway

/-- The claims of an access token; `exp` and `iat` are in seconds, as the token has them. -/
structure AccessClaims where
  sub : String
  email : String
  roles : List String
  exp : Int
  iat : Int
  deriving DecidableEq, Repr

/-- The settings `_create_access_jwt` reads. -/
structure SigningSettings where
  jwtSecrets : String := ""
  jwtSecret : String
  jwtCurrentKid : String := "default"
  jwtAlgorithm : String := "HS256"
  jwtExpiryMinutes : Int := 60

/-- `jwt_expiry_minutes` as a duration. -/
def SigningSettings.lifetime (settings : SigningSettings) : Time :=
  settings.jwtExpiryMinutes * (60 * 1000)

/-- `payload`. `jwt.encode` writes a `datetime` down to the second. -/
def accessClaims (lifetime now : Time) (user : User) : AccessClaims where
  sub := user.id.text
  email := user.email
  roles := if user.isAdmin then ["admin", "user"] else ["user"]
  exp := (now + lifetime) / 1000
  iat := now / 1000

/-- `KeyringError`, of `parse_keyring` or of `select_signing_key`. -/
inductive SigningError where
  | malformed (error : KeyringError)
  | unknownCurrentKid (currentKid : String) (knownKids : List String)
  deriving DecidableEq, Repr

/-- `select_signing_key`. -/
def selectSigningKey (keyring : Keyring) (currentKid : String) :
    Except SigningError (String × String) :=
  match keyring.get? currentKid with
  | none => .error (.unknownCurrentKid currentKid (keyring.keys.mergeSort fun a b => a ≤ b))
  | some secret => .ok (currentKid, secret)

/-- The `kid` and the secret that new tokens are signed with. -/
def signingKey (settings : SigningSettings) : Except SigningError (String × String) := do
  let keyring ← (parseKeyring settings.jwtSecrets settings.jwtSecret).mapError .malformed
  selectSigningKey keyring settings.jwtCurrentKid

/-- `_create_access_jwt`: the token, and its lifetime in seconds. -/
def createAccessJwt (encode : AccessClaims → (secret algorithm kid : String) → String)
    (settings : SigningSettings) (now : Time) (user : User) :
    Except SigningError (String × Int) := do
  let (kid, secret) ← signingKey settings
  return (encode (accessClaims settings.lifetime now user) secret settings.jwtAlgorithm kid,
    settings.jwtExpiryMinutes * 60)

/-- Settings under which tokens can be signed, with the key. -/
structure Signer where
  settings : SigningSettings
  kid : String
  secret : String
  resolves : signingKey settings = .ok (kid, secret)

/-- `_create_access_jwt` under such settings. -/
def Signer.mint (encode : AccessClaims → (secret algorithm kid : String) → String)
    (signer : Signer) (now : Time) (user : User) : String × Int :=
  (encode (accessClaims signer.settings.lifetime now user) signer.secret
    signer.settings.jwtAlgorithm signer.kid, signer.settings.jwtExpiryMinutes * 60)

theorem createAccessJwt_signer (encode : AccessClaims → (secret algorithm kid : String) → String)
    (signer : Signer) (now : Time) (user : User) :
    createAccessJwt encode signer.settings now user = .ok (signer.mint encode now user) := by
  unfold createAccessJwt
  rw [signer.resolves]
  rfl

/-- A token that has been issued: the row it names, as it was at the time. -/
structure Issued where
  time : Time
  user : User
  deriving DecidableEq, Repr

def Issued.claims (lifetime : Time) (t : Issued) : AccessClaims :=
  accessClaims lifetime t.time t.user

/-- The claims as the gateway reads them. -/
def AccessClaims.read (c : AccessClaims) : Claims where
  sub := c.sub
  email := some c.email
  roles := some c.roles

/-- What the two services count on of the JWT library, for the tokens that are signed. -/
structure LawfulJwt (lifetime : Time)
    (encode : AccessClaims → (secret algorithm kid : String) → String) (jwt : Time → Jwt) :
    Prop where
  /-- The header has the `kid`. -/
  unverifiedKid : ∀ now t user secret algorithm kid, (jwt now).unverifiedKid
    (encode (accessClaims lifetime t user) secret algorithm kid) = some (some kid)
  /-- Under the key it was signed with, a token verifies until it expires. -/
  verifies : ∀ now t user secret algorithm kid, t ≤ now →
    now < (accessClaims lifetime t user).exp * 1000 →
    (jwt now).decode (encode (accessClaims lifetime t user) secret algorithm kid) secret algorithm
      = .ok (accessClaims lifetime t user).read
  /-- Under whichever key a token verifies, it yields its own claims and has not expired. -/
  own : ∀ now t user secret algorithm kid secret' algorithm' claims,
    (jwt now).decode (encode (accessClaims lifetime t user) secret algorithm kid) secret' algorithm'
      = .ok claims →
    claims = (accessClaims lifetime t user).read
      ∧ now < (accessClaims lifetime t user).exp * 1000

@[simp] theorem accessClaims_sub (lifetime now : Time) (user : User) :
    (accessClaims lifetime now user).sub = user.id.text := rfl

theorem admin_mem_roles (lifetime now : Time) (user : User) :
    "admin" ∈ (accessClaims lifetime now user).roles ↔ user.isAdmin = true := by
  unfold accessClaims
  cases user.isAdmin <;> simp

/-- A token that is not expired is younger than its lifetime. -/
theorem age_lt_of_not_expired {lifetime now : Time} {t : Issued}
    (h : now < (t.claims lifetime).exp * 1000) : now - t.time < lifetime := by
  have hexp : (t.time + lifetime) / 1000 * 1000 ≤ t.time + lifetime :=
    Int.ediv_mul_le _ (by decide)
  change now < (t.time + lifetime) / 1000 * 1000 at h
  linarith

end Microservices.Users
