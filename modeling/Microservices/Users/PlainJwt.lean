import Microservices.Lib.Json
import Microservices.Users.AccessTokens

/-!
# A JWT library

One that meets `LawfulJwt`: a token is a JSON object of strings, the key beside the
claims in place of a signature under it. It shows that the laws can be met.
-/

namespace Microservices.Users.PlainJwt

open Gateway

/-- The members of a token. -/
def members (c : AccessClaims) (secret algorithm kid : String) : List (String × String) :=
  [("kid", kid), ("alg", algorithm), ("key", secret), ("sub", c.sub), ("email", c.email),
    ("roles", ",".intercalate c.roles), ("exp", toString c.exp), ("iat", toString c.iat)]

def encode (c : AccessClaims) (secret algorithm kid : String) : String :=
  String.ofList (Json.dumps (Json.ofStrings (members c secret algorithm kid)))

def loads (token : String) : Option Json := Json.loads (Unicode.encodeUtf8 token.toList)

def member? (v : Json) (name : String) : Option String := (v.get? name).bind Json.str?

def unverifiedKid (token : String) : Option (Option String) :=
  (loads token).map fun v => member? v "kid"

def readClaims (v : Json) : Claims where
  sub := (member? v "sub").getD ""
  email := member? v "email"
  roles := (member? v "roles").map fun roles => (roles.toList.splitOn ',').map String.ofList

def decode (now : Time) (token secret algorithm : String) : Except JwtError Claims :=
  match loads token with
  | none => .error .invalidToken
  | some v =>
      if member? v "key" = some secret ∧ member? v "alg" = some algorithm then
        match (member? v "exp").bind Decimal.int? with
        | none => .error .invalidToken
        | some exp => if exp * 1000 ≤ now then .error .expiredSignature else .ok (readClaims v)
      else .error .invalidToken

def jwt (now : Time) : Jwt where
  unverifiedKid := unverifiedKid
  decode := decode now

theorem loads_encode (c : AccessClaims) (secret algorithm kid : String) :
    loads (encode c secret algorithm kid)
      = some (Json.ofStrings (members c secret algorithm kid)) := by
  unfold loads encode
  rw [String.toList_ofList]
  exact Json.loads_dumps_strings (by simp [members])

theorem member?_ofStrings (ms : List (String × String)) (name : String) :
    member? (Json.ofStrings ms) name = (ms.reverse.find? fun m => m.1 = name).map Prod.snd := by
  unfold member? Json.get? Json.ofStrings
  dsimp only
  rw [← List.map_reverse, List.find?_map]
  cases hfind : ms.reverse.find? fun m => m.1 = name with
  | none =>
      have hnone : ms.reverse.find? ((fun m : String × Json => decide (m.1 = name))
          ∘ fun m => (m.1, Json.str m.2)) = none := hfind
      rw [hnone]
      rfl
  | some m =>
      have hsome : ms.reverse.find? ((fun m : String × Json => decide (m.1 = name))
          ∘ fun m => (m.1, Json.str m.2)) = some m := hfind
      rw [hsome]
      rfl

section

variable (c : AccessClaims) (secret algorithm kid : String)

/-- The members that verification reads. -/
theorem member?_members :
    member? (Json.ofStrings (members c secret algorithm kid)) "kid" = some kid
      ∧ member? (Json.ofStrings (members c secret algorithm kid)) "alg" = some algorithm
      ∧ member? (Json.ofStrings (members c secret algorithm kid)) "key" = some secret
      ∧ member? (Json.ofStrings (members c secret algorithm kid)) "exp"
        = some (toString c.exp) := by
  simp only [member?_ofStrings]
  exact ⟨rfl, rfl, rfl, rfl⟩

theorem decode_encode (now : Time) (secret' algorithm' : String) :
    decode now (encode c secret algorithm kid) secret' algorithm'
      = if secret = secret' ∧ algorithm = algorithm' then
          if c.exp * 1000 ≤ now then .error .expiredSignature
          else .ok (readClaims (Json.ofStrings (members c secret algorithm kid)))
        else .error .invalidToken := by
  obtain ⟨-, halg, hkey, hexp⟩ := member?_members c secret algorithm kid
  unfold decode
  rw [loads_encode]
  dsimp only
  rw [halg, hkey, hexp, Option.bind_some, Decimal.int?_toString]
  simp only [Option.some.injEq]

theorem unverifiedKid_encode : unverifiedKid (encode c secret algorithm kid) = some (some kid) := by
  unfold unverifiedKid
  rw [loads_encode, Option.map_some, (member?_members c secret algorithm kid).1]

end

theorem readClaims_members (lifetime now : Time) (user : User) (secret algorithm kid : String) :
    readClaims (Json.ofStrings (members (accessClaims lifetime now user) secret algorithm kid))
      = (accessClaims lifetime now user).read := by
  have hroles : ∀ admin : Bool, ((",".intercalate
      (if admin then ["admin", "user"] else ["user"])).toList.splitOn ',').map String.ofList
        = if admin then ["admin", "user"] else ["user"] := by
    decide +kernel
  unfold readClaims
  simp only [member?_ofStrings]
  exact congrArg (fun roles => Claims.mk user.id.text (some user.email) (some roles))
    (hroles user.isAdmin)

theorem jwt_unverifiedKid (now : Time) : (jwt now).unverifiedKid = unverifiedKid := rfl

theorem jwt_decode (now : Time) : (jwt now).decode = decode now := rfl

theorem lawful (lifetime : Time) : LawfulJwt lifetime encode jwt := by
  refine ⟨?_, ?_, ?_⟩
  · intro now t user secret algorithm kid
    rw [jwt_unverifiedKid, unverifiedKid_encode]
  · intro now t user secret algorithm kid _ hexp
    rw [jwt_decode, decode_encode, if_pos ⟨rfl, rfl⟩, if_neg (not_le.mpr hexp),
      readClaims_members]
  · intro now t user secret algorithm kid secret' algorithm' claims h
    rw [jwt_decode, decode_encode] at h
    split at h
    · split at h
      · cases h
      · rename_i hexp
        rw [readClaims_members, Except.ok.injEq] at h
        exact ⟨h.symm, not_le.mp hexp⟩
    · cases h

end Microservices.Users.PlainJwt
