import Microservices.Gateway.Paths
import Microservices.Lib.Trim
import Microservices.Lib.Uuid

/-!
# Verifying a token

The keyring of `jwt_keyring.py` and what `JWTAuthMiddleware.dispatch` does with a
token, once it has one. The JWT library is the parameter `Jwt`.
-/

namespace Microservices.Gateway

/-! ## The keyring -/

/-- `KeyringError`, with the part of its text that varies. -/
inductive KeyringError where
  /-- `expected kid=secret` -/
  | noSecret (entry : String)
  /-- `empty kid or secret` -/
  | emptyPart (entry : String)
  | duplicateKid (kid : String)
  deriving DecidableEq, Repr

abbrev Keyring := Dict String String

/-- `{fallback_kid: fallback_secret}`. -/
def fallbackKeyring (fallbackSecret fallbackKid : String) : Keyring :=
  Dict.empty.set fallbackKid fallbackSecret

/-- One pass of the loop in `parse_keyring`, over a stripped entry. -/
def addEntry (keyring : Keyring) (entry : List Char) : Except KeyringError Keyring :=
  if entry = [] then .ok keyring
  else if '=' ∉ entry then .error (.noSecret (String.ofList entry))
  else
    let kid := String.ofList (Trim.strip (entry.takeWhile (· ≠ '=')))
    let secret := String.ofList (Trim.strip ((entry.dropWhile (· ≠ '=')).drop 1))
    if kid = "" ∨ secret = "" then .error (.emptyPart (String.ofList entry))
    else if kid ∈ keyring.keys then .error (.duplicateKid kid)
    else .ok (keyring.set kid secret)

/-- `parse_keyring`. -/
def parseKeyring (jwtSecrets fallbackSecret : String) (fallbackKid : String := "default") :
    Except KeyringError Keyring :=
  if Trim.strip jwtSecrets.toList = [] then .ok (fallbackKeyring fallbackSecret fallbackKid)
  else
    ((jwtSecrets.toList.splitOn ',').foldlM
      (fun keyring entry => addEntry keyring (Trim.strip entry)) Dict.empty).map fun keyring =>
        if keyring.entries = [] then fallbackKeyring fallbackSecret fallbackKid else keyring

/-- `select_verification_key`. -/
def selectVerificationKey (keyring : Keyring) : Option String → Option String
  | some kid => if kid = "" then none else keyring.get? kid
  | none => keyring.get? "default"

/-! ## The token -/

/-- The payload of a token; `sub` is `str(payload.get("sub", ""))`. -/
structure Claims where
  sub : String
  email : Option String
  roles : Option (List String)

/-- The exceptions of `jwt.decode`. -/
inductive JwtError where
  | expiredSignature
  /-- Any other `InvalidTokenError`. -/
  | invalidToken
  deriving DecidableEq, Repr

/-- The JWT library. -/
structure Jwt where
  /-- `get_unverified_header(token).get("kid")`; `none` outside is an `InvalidTokenError`. -/
  unverifiedKid : String → Option (Option String)
  /-- `decode(token, secret, algorithms=[algorithm])`. -/
  decode : (token secret algorithm : String) → Except JwtError Claims

/-- The settings `dispatch` reads. -/
structure JwtSettings where
  jwtSecrets : String
  jwtSecret : String
  jwtAlgorithm : String

/-- A 401 without further headers. -/
def unauthorized (detail : String) : HTTPException := { statusCode := 401, detail := detail }

/-- `JWTAuthMiddleware.dispatch`, from `token` on. -/
def verifyToken (jwt : Jwt) (settings : JwtSettings) (token : String) :
    Except HTTPException RequestState :=
  match jwt.unverifiedKid token with
  | none => .error (unauthorized "Invalid token")
  | some kid =>
      match parseKeyring settings.jwtSecrets settings.jwtSecret with
      | .error _ => .error { statusCode := 500, detail := "Server misconfigured" }
      | .ok keyring =>
          match selectVerificationKey keyring kid with
          | none => .error (unauthorized "Invalid token")
          | some secret =>
              match jwt.decode token secret settings.jwtAlgorithm with
              | .error .expiredSignature => .error (unauthorized "Token expired")
              | .error .invalidToken => .error (unauthorized "Invalid token")
              | .ok claims =>
                  match UUID.ofText? claims.sub with
                  | none => .error (unauthorized "Invalid token claims")
                  | some userUuid =>
                      .ok
                        { userId := some userUuid.text
                          userEmail := claims.email
                          userRoles := some (claims.roles.getD []) }

/-- A token is refused with a 401 or, by a keyring that does not parse, a 500, and neither carries
a header. -/
theorem verifyToken_error {jwt : Jwt} {settings : JwtSettings} {token : String}
    {e : HTTPException} (h : verifyToken jwt settings token = .error e) :
    e.headers = [] ∧ (e.statusCode = 401 ∨ e.statusCode = 500) := by
  unfold verifyToken at h
  split at h
  · cases h
    exact ⟨rfl, Or.inl rfl⟩
  · split at h
    · cases h
      exact ⟨rfl, Or.inr rfl⟩
    · split at h
      · cases h
        exact ⟨rfl, Or.inl rfl⟩
      · split at h
        · cases h
          exact ⟨rfl, Or.inl rfl⟩
        · cases h
          exact ⟨rfl, Or.inl rfl⟩
        · split at h
          · cases h
            exact ⟨rfl, Or.inl rfl⟩
          · cases h

/-- What it takes for a token to pass, and what the request is taken to be then. -/
theorem verifyToken_ok_iff {jwt : Jwt} {settings : JwtSettings} {token : String}
    {state : RequestState} :
    verifyToken jwt settings token = .ok state ↔
      ∃ kid keyring secret claims uid, jwt.unverifiedKid token = some kid
        ∧ parseKeyring settings.jwtSecrets settings.jwtSecret = .ok keyring
        ∧ selectVerificationKey keyring kid = some secret
        ∧ jwt.decode token secret settings.jwtAlgorithm = .ok claims
        ∧ UUID.ofText? claims.sub = some uid
        ∧ state = { userId := some uid.text, userEmail := claims.email,
                    userRoles := some (claims.roles.getD []) } := by
  constructor
  · intro h
    unfold verifyToken at h
    split at h
    · cases h
    · rename_i kid hkid
      split at h
      · cases h
      · rename_i keyring hkeyring
        split at h
        · cases h
        · rename_i secret hsecret
          split at h
          · cases h
          · cases h
          · rename_i claims hclaims
            split at h
            · cases h
            · rename_i uid huid
              cases h
              exact ⟨kid, keyring, secret, claims, uid, hkid, hkeyring, hsecret, hclaims, huid, rfl⟩
  · rintro ⟨kid, keyring, secret, claims, uid, hkid, hkeyring, hsecret, hclaims, huid, rfl⟩
    unfold verifyToken
    rw [hkid]
    dsimp only
    rw [hkeyring]
    dsimp only
    rw [hsecret]
    dsimp only
    rw [hclaims]
    dsimp only
    rw [huid]

/-- The middleware answers without calling on only with these, and with the header of a 401. -/
theorem jwtAuth_error {jwt : Jwt} {settings : JwtSettings} {path authorization : String}
    {e : HTTPException} (h : jwtAuth (verifyToken jwt settings) path authorization = .error e) :
    (e.headers = [] ∨ e.headers = [("WWW-Authenticate", "Bearer")])
      ∧ (e.statusCode = 401 ∨ e.statusCode = 500) := by
  unfold jwtAuth at h
  split at h
  · cases h
  · split at h
    · cases hv : verifyToken jwt settings
          (String.ofList (Decimal.strip (authorization.toList.drop 7))) with
      | error e' =>
          rw [hv] at h
          cases h
          obtain ⟨hheaders, hstatus⟩ := verifyToken_error hv
          exact ⟨Or.inl hheaders, hstatus⟩
      | ok s =>
          rw [hv] at h
          cases h
    · cases h
      exact ⟨Or.inr rfl, Or.inl rfl⟩

end Microservices.Gateway
