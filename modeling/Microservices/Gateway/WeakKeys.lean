import Microservices.Gateway.KeyringText

/-!
# Weak keys

The gateway's settings are checked when the process starts: `jwt_secret` has to be
long and none of the known ones. The default is checked as well, so a process that
runs has a strong one. `JWT_SECRETS` is not checked, and as soon as it has one
entry the legacy secret is out of use and its entries are what tokens are verified
with.
-/

namespace Microservices.Gateway

/-- `_MIN_JWT_SECRET_LEN`. -/
def minJwtSecretLen : Nat := 32

/-- `_BANNED_SECRETS`. -/
def bannedSecrets : List String :=
  ["change-me", "change-me-in-production", "secret", "password", "jwt-secret", "your-secret"]

/-- `_ALLOWED_JWT_ALGORITHMS`, sorted. -/
def allowedJwtAlgorithms : List String := ["HS256", "HS384", "HS512"]

/-- The validators' `ValueError`, by its text. -/
abbrev Validated := Except String String

/-- `algorithm_must_be_secure`. -/
def algorithmMustBeSecure (v : String) : Validated :=
  if v ∉ allowedJwtAlgorithms then
    .error ("jwt_algorithm '" ++ v ++ "' is not in the allowed list ['HS256', 'HS384', 'HS512']. "
      ++ "'none' and asymmetric algorithms are not supported by this service.")
  else .ok v

/-- `secret_must_be_strong`. -/
def secretMustBeStrong (v : String) : Validated :=
  if v.toLower ∈ bannedSecrets then
    .error ("jwt_secret is set to a known-weak default value. "
      ++ "Generate a strong random secret with: "
      ++ "python -c \"import secrets; print(secrets.token_hex(32))\"")
  else if v.length < minJwtSecretLen then
    .error ("jwt_secret must be at least " ++ toString minJwtSecretLen ++ " characters. "
      ++ "Current length: " ++ toString v.length ++ ".")
  else .ok v

/-- Settings that the process starts with: the validators have passed. -/
structure Settings extends JwtSettings where
  secretStrong : secretMustBeStrong jwtSecret = .ok jwtSecret
  algorithmSecure : algorithmMustBeSecure jwtAlgorithm = .ok jwtAlgorithm

/-- Long, and none of the known ones. -/
def StrongSecret (secret : String) : Prop :=
  minJwtSecretLen ≤ secret.length ∧ secret ∉ bannedSecrets

instance (secret : String) : Decidable (StrongSecret secret) := inferInstanceAs (Decidable (_ ∧ _))

/-- **No weak key verifies a token**: the keyring, if there is one, has strong secrets only. -/
def OnlyStrongKeys (settings : JwtSettings) : Prop :=
  ∀ keyring, parseKeyring settings.jwtSecrets settings.jwtSecret = .ok keyring →
    ∀ e ∈ keyring.entries, StrongSecret e.2

/-- The known secrets are all short. -/
theorem strongSecret_iff {secret : String} :
    StrongSecret secret ↔ minJwtSecretLen ≤ secret.length := by
  refine ⟨And.left, fun h => ⟨h, fun hbanned => ?_⟩⟩
  have hshort : ∀ s ∈ bannedSecrets, s.length < minJwtSecretLen := by decide
  exact absurd h (not_le.mpr (hshort secret hbanned))

/-- What the validator lets pass is strong. -/
theorem strongSecret_of_validated {v : String} (h : secretMustBeStrong v = .ok v) :
    StrongSecret v := by
  unfold secretMustBeStrong at h
  split at h
  · cases h
  · split at h
    · cases h
    · rename_i hlong
      exact strongSecret_iff.mpr (not_lt.mp hlong)

/--
**The keys are strong exactly if those in `JWT_SECRETS` are**, or it does not parse.

For all settings that the validators accept: every secret of the keyring is strong
if and only if, where the entries of `JWT_SECRETS` are well formed and their kids
distinct, each entry's secret is.
-/
theorem onlyStrongKeys_iff (settings : Settings) :
    OnlyStrongKeys settings.toJwtSettings ↔
      ((∀ e ∈ entriesOf settings.jwtSecrets.toList, WellFormedEntry e) →
        ((entriesOf settings.jwtSecrets.toList).map kidOf).Nodup →
        ∀ e ∈ entriesOf settings.jwtSecrets.toList, StrongSecret (secretOf e)) := by
  constructor
  · intro hstrong hwf hnodup e he
    have hne : entriesOf settings.jwtSecrets.toList ≠ [] := List.ne_nil_of_mem he
    -- the keyring that the text stands for
    have hkeys : (((entriesOf settings.jwtSecrets.toList).map pairOf).map Prod.fst).Nodup := by
      rw [List.map_map]
      exact hnodup
    have hparse : parseKeyring settings.jwtSecrets settings.jwtSecret = .ok ⟨_, hkeys⟩ :=
      parseKeyring_ok_iff.mpr ⟨hwf, (if_neg hne).symm⟩
    exact hstrong _ hparse (pairOf e) (List.mem_map_of_mem he)
  · intro hentries keyring hparse p hp
    obtain ⟨hwf, hring⟩ := parseKeyring_ok_iff.mp hparse
    rw [hring] at hp
    split at hp
    · rw [List.mem_singleton.mp hp]
      exact strongSecret_of_validated settings.secretStrong
    · rename_i hne
      rw [if_neg hne] at hring
      obtain ⟨e, he, rfl⟩ := List.mem_map.mp hp
      -- the kids are those of a keyring, so they are distinct
      have hnodup : ((entriesOf settings.jwtSecrets.toList).map kidOf).Nodup := by
        have hkeys := keyring.nodup
        rw [hring, List.map_map] at hkeys
        exact hkeys
      exact hentries hwf hnodup e he

/-- A strong legacy secret, and a rotation with a key that is none. -/
def weakSettings : Settings where
  jwtSecrets := "k1=secret"
  jwtSecret := "0123456789abcdef0123456789abcdef"
  jwtAlgorithm := "HS256"
  secretStrong := by decide +kernel
  algorithmSecure := by decide +kernel

/-- **The settings are accepted, and `secret` verifies tokens.** -/
theorem weak_key_verifies :
    (∃ keyring, parseKeyring weakSettings.jwtSecrets weakSettings.jwtSecret = .ok keyring
        ∧ selectVerificationKey keyring (some "k1") = some "secret")
      ∧ "secret" ∈ bannedSecrets ∧ ¬ OnlyStrongKeys weakSettings.toJwtSettings := by
  have hparse : parseKeyring weakSettings.jwtSecrets weakSettings.jwtSecret
      = .ok (fallbackKeyring "secret" "k1") :=
    parseKeyring_ok_iff.mpr ⟨by decide +kernel, by decide +kernel⟩
  refine ⟨⟨_, hparse, by decide +kernel⟩, by decide, fun h => ?_⟩
  exact absurd (h _ hparse ("k1", "secret") List.mem_cons_self) (by decide)

end Microservices.Gateway
