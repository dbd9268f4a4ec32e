import Microservices.Gateway.KeyringText
import Microservices.Lib.Schedule
import Microservices.Users.PlainJwt

/-!
# Key rotation

The choreography of `jwt_keyring.py`: add a key to both keyrings, sign with it, wait
until the tokens under the old one have expired, remove that one from both. The two
services have settings of their own and are changed one at a time; tokens are issued
all along.

A change of `JWT_SECRETS` is any text for the keyring that the choreography asks
for. Where the text lists its keys that is one more entry; where it lists none, the
legacy key has to be listed too (`step_appendEntry_iff`, `step_listLegacy`).

What carries the induction is that the gateway holds the key of every token that
has not expired, and what each phase knows: which key is new, or since when no
token has been signed with the old one.
-/

namespace Microservices.Users

open Gateway Schedule

inductive Service where
  | userService
  | gateway
  deriving DecidableEq, Repr

/-- How far a rotation has come. -/
inductive RotationPhase where
  | steady
  /-- One of the two has the new key. -/
  | adding (kid secret : String) (first : Service)
  | added (kid secret : String)
  /-- New tokens are signed with the new key since this time. -/
  | switched (oldKid : String) (since : Time)
  /-- One of the two has dropped the old key. -/
  | removing (oldKid : String) (first : Service)
  deriving DecidableEq, Repr

/-- A token, with the key that signed it, and when and for whom. -/
structure SignedToken where
  token : String
  kid : String
  secret : String
  time : Time
  user : User

structure RotationWorld where
  now : Time
  userService : SigningSettings
  gateway : JwtSettings
  phase : RotationPhase := .steady
  /-- Ghost. -/
  issued : List SignedToken := []

inductive RotationEvent where
  | tick (t : Time)
  | issue (user : User)
  /-- The service restarts with this `JWT_SECRETS`, which has one more key. -/
  | addKey (service : Service) (kid secret jwtSecrets : String)
  /-- user-service restarts with the new `jwt_current_kid`. -/
  | switchKid
  /-- The service restarts with this `JWT_SECRETS`, which lacks the old key. -/
  | removeKey (service : Service) (jwtSecrets : String)

abbrev ParsedKeyring := Except KeyringError Keyring

/-- The second keyring is the first with one more key. -/
def addsKey (kid secret : String) : ParsedKeyring → ParsedKeyring → Bool
  | .ok ring, .ok ring' => decide (ring'.entries.Perm (ring.entries ++ [(kid, secret)]))
  | _, _ => false

/-- The second keyring is the first without the key. -/
def dropsKey (kid : String) : ParsedKeyring → ParsedKeyring → Bool
  | .ok ring, .ok ring' => decide (ring'.entries.Perm (ring.entries.filter fun e => e.1 ≠ kid))
  | _, _ => false

/-- The phase after a service has got a key. -/
def RotationPhase.add (kid secret : String) (service : Service) :
    RotationPhase → Option RotationPhase
  | .steady => some (.adding kid secret service)
  | .adding kid' secret' first =>
      if service ≠ first ∧ kid = kid' ∧ secret = secret' then some (.added kid secret) else none
  | _ => none

/-- The key to go, and the phase after a service has dropped it. -/
def RotationPhase.remove (lifetime now : Time) (service : Service) :
    RotationPhase → Option (String × RotationPhase)
  | .switched oldKid since =>
      if since + lifetime ≤ now then some (oldKid, .removing oldKid service) else none
  | .removing oldKid first => if service ≠ first then some (oldKid, .steady) else none
  | _ => none

namespace RotationWorld

/-- The keyring a service reads. -/
def keyring (w : RotationWorld) : Service → ParsedKeyring
  | .userService => parseKeyring w.userService.jwtSecrets w.userService.jwtSecret
  | .gateway => parseKeyring w.gateway.jwtSecrets w.gateway.jwtSecret

/-- A service restarts with another `JWT_SECRETS`. -/
def withSecrets (w : RotationWorld) (jwtSecrets : String) : Service → RotationWorld
  | .userService => { w with userService := { w.userService with jwtSecrets } }
  | .gateway => { w with gateway := { w.gateway with jwtSecrets } }

variable (encode : AccessClaims → (secret algorithm kid : String) → String)

def step (w : RotationWorld) : RotationEvent → Option RotationWorld
  | .tick t => if w.now ≤ t then some { w with now := t } else none
  | .issue user =>
      match signingKey w.userService, createAccessJwt encode w.userService w.now user with
      | .ok (kid, secret), .ok (token, _) =>
          some { w with issued := ⟨token, kid, secret, w.now, user⟩ :: w.issued }
      | _, _ => some w
  | .addKey service kid secret jwtSecrets =>
      match w.phase.add kid secret service with
      | none => none
      | some phase =>
          let w' := w.withSecrets jwtSecrets service
          if addsKey kid secret (w.keyring service) (w'.keyring service) then
            some { w' with phase }
          else none
  | .switchKid =>
      match w.phase with
      | .added kid _ =>
          some { w with
            userService := { w.userService with jwtCurrentKid := kid }
            phase := .switched w.userService.jwtCurrentKid w.now }
      | _ => none
  | .removeKey service jwtSecrets =>
      match w.phase.remove w.userService.lifetime w.now service with
      | none => none
      | some (oldKid, phase) =>
          let w' := w.withSecrets jwtSecrets service
          if dropsKey oldKid (w.keyring service) (w'.keyring service) then
            some { w' with phase }
          else none

end RotationWorld

/-- The token has not expired. -/
def SignedToken.Live (lifetime now : Time) (t : SignedToken) : Prop :=
  now < (accessClaims lifetime t.time t.user).exp * 1000

/-- The keyring has the key. -/
def Holds (ring : ParsedKeyring) (kid secret : String) : Prop :=
  ∃ keyring, ring = .ok keyring ∧ keyring.get? kid = some secret

/-- Both services have the key that tokens are signed with, and no rotation is under way. -/
structure Ready (w : RotationWorld) : Prop where
  phase : w.phase = .steady
  issued : w.issued = []
  algorithm : w.userService.jwtAlgorithm = w.gateway.jwtAlgorithm
  current : ∃ secret, ∀ service, Holds (w.keyring service) w.userService.jwtCurrentKid secret

/-! ## Edits of a keyring -/

section

variable {ring ring' : ParsedKeyring} {kid secret k s : String}

theorem holds_perm {keyring : Keyring} {entries : List (String × String)}
    (h : keyring.entries.Perm entries) : Holds (.ok keyring) k s ↔ (k, s) ∈ entries := by
  rw [← h.mem_iff, ← Dict.get?_eq_some_iff]
  exact ⟨fun ⟨_, hok, hget⟩ => by cases hok; exact hget, fun hget => ⟨keyring, rfl, hget⟩⟩

/-- A key that is added is new, and the others stay. -/
theorem addsKey_holds (h : addsKey kid secret ring ring' = true) :
    Holds ring' kid secret ∧ ∀ k s, Holds ring k s → Holds ring' k s ∧ k ≠ kid := by
  unfold addsKey at h
  split at h
  · rename_i old new
    have hperm := of_decide_eq_true h
    refine ⟨(holds_perm hperm).mpr (List.mem_append_right _ (List.mem_singleton_self _)), ?_⟩
    rintro k s ⟨_, hok, hget⟩
    cases hok
    have hmem := Dict.mem_of_get?_eq_some hget
    refine ⟨(holds_perm hperm).mpr (List.mem_append_left _ hmem), fun heq => ?_⟩
    have hnodup : ((old.entries ++ [(kid, secret)]).map Prod.fst).Nodup :=
      (hperm.map Prod.fst).nodup_iff.mp new.nodup
    rw [List.map_append] at hnodup
    exact (List.nodup_append.mp hnodup).2.2 k (List.mem_map_of_mem (f := Prod.fst) hmem) kid
      (List.mem_singleton_self _) heq
  · cases h

/-- All keys but the one that is dropped stay. -/
theorem dropsKey_holds (h : dropsKey kid ring ring' = true) (hold : Holds ring k s)
    (hne : k ≠ kid) : Holds ring' k s := by
  unfold dropsKey at h
  split at h
  · obtain ⟨_, hok, hget⟩ := hold
    cases hok
    refine (holds_perm (of_decide_eq_true h)).mpr (List.mem_filter.mpr ⟨?_, by simpa using hne⟩)
    exact Dict.mem_of_get?_eq_some hget
  · cases h

end

/-! ## Edits of `JWT_SECRETS` -/

namespace RotationWorld

/-- The text that a service has for its keyring. -/
def jwtSecrets (w : RotationWorld) : Service → String
  | .userService => w.userService.jwtSecrets
  | .gateway => w.gateway.jwtSecrets

/-- The secret it falls back to. -/
def jwtSecret (w : RotationWorld) : Service → String
  | .userService => w.userService.jwtSecret
  | .gateway => w.gateway.jwtSecret

theorem keyring_eq (w : RotationWorld) (service : Service) :
    w.keyring service = parseKeyring (w.jwtSecrets service) (w.jwtSecret service) := by
  cases service <;> rfl

theorem keyring_withSecrets (w : RotationWorld) (text : String) (service : Service) :
    (w.withSecrets text service).keyring service = parseKeyring text (w.jwtSecret service) := by
  cases service <;> rfl

end RotationWorld

section

variable {encode : AccessClaims → (secret algorithm kid : String) → String} {w : RotationWorld}
  {phase : RotationPhase} {service : Service} {ring : Keyring} {kid secret : List Char}

/-- One more entry adds its key just where the text has entries. -/
theorem addsKey_appendEntry_iff {jwtSecrets fallbackSecret : String}
    (hring : parseKeyring jwtSecrets fallbackSecret = .ok ring) (h : CleanPair kid secret)
    (hnew : String.ofList kid ∉ ring.keys) :
    addsKey (String.ofList kid) (String.ofList secret) (parseKeyring jwtSecrets fallbackSecret)
        (parseKeyring (appendEntry jwtSecrets kid secret) fallbackSecret) = true
      ↔ entriesOf jwtSecrets.toList ≠ [] := by
  rw [hring]
  constructor
  · intro hadds hnone
    -- the new entry is the only one, where there ought to be two
    rw [parseKeyring_first_entry hnone h, addsKey] at hadds
    have hlength := (of_decide_eq_true hadds).length_eq
    rw [(parseKeyring_ok_iff.mp hring).2, if_pos hnone] at hlength
    cases hlength
  · intro hne
    obtain ⟨ring', hring', hentries⟩ := parseKeyring_append hring hne h hnew
    rw [hring', addsKey, hentries]
    exact decide_eq_true (List.Perm.refl _)

/-- **One more entry is the choreography's step just where the text has entries.** -/
theorem step_appendEntry_iff
    (hadd : w.phase.add (String.ofList kid) (String.ofList secret) service = some phase)
    (hring : w.keyring service = .ok ring) (h : CleanPair kid secret)
    (hnew : String.ofList kid ∉ ring.keys) :
    (w.step encode (.addKey service (String.ofList kid) (String.ofList secret)
        (appendEntry (w.jwtSecrets service) kid secret))).isSome = true
      ↔ entriesOf (w.jwtSecrets service).toList ≠ [] := by
  rw [w.keyring_eq] at hring
  rw [← addsKey_appendEntry_iff hring h hnew, RotationWorld.step, hadd]
  dsimp only
  rw [w.keyring_withSecrets, w.keyring_eq]
  split
  · rename_i hadds
    exact iff_of_true rfl hadds
  · rename_i hadds
    exact iff_of_false (by decide) hadds

/-- Where it has none, the key goes in together with the legacy one. -/
theorem step_listLegacy
    (hadd : w.phase.add (String.ofList kid) (String.ofList secret) service = some phase)
    (hnone : entriesOf (w.jwtSecrets service).toList = [])
    (hlegacy : CleanPair "default".toList (w.jwtSecret service).toList) (h : CleanPair kid secret)
    (hnew : String.ofList kid ≠ "default") :
    (w.step encode (.addKey service (String.ofList kid) (String.ofList secret)
        (appendEntry (appendEntry (w.jwtSecrets service) "default".toList
          (w.jwtSecret service).toList) kid secret))).isSome = true := by
  have hlisted := parseKeyring_first_entry hnone hlegacy (w.jwtSecret service)
  rw [String.ofList_toList, String.ofList_toList] at hlisted
  have hring : w.keyring service = .ok (fallbackKeyring (w.jwtSecret service) "default") := by
    rw [w.keyring_eq]
    refine parseKeyring_ok_iff.mpr ⟨fun e he => ?_, by rw [if_pos hnone]; rfl⟩
    rw [hnone] at he
    cases he
  have hentries : entriesOf (appendEntry (w.jwtSecrets service) "default".toList
      (w.jwtSecret service).toList).toList ≠ [] := by
    rw [entriesOf_appendEntry hlegacy]
    simp
  have hkeys : String.ofList kid ∉ (fallbackKeyring (w.jwtSecret service) "default").keys :=
    fun hmem => hnew (List.mem_singleton.mp hmem)
  have hadds := (addsKey_appendEntry_iff hlisted h hkeys).mpr hentries
  rw [RotationWorld.step, hadd]
  dsimp only
  rw [w.keyring_withSecrets, hring, ← hlisted, if_pos hadds]
  rfl

end

/-! ## The invariant -/

variable (encode : AccessClaims → (secret algorithm kid : String) → String) (lifetime : Time)

/-- What each phase knows. -/
def PhaseInv (w : RotationWorld) : Prop :=
  match w.phase with
  | .steady => True
  | .adding kid secret first => Holds (w.keyring first) kid secret
  | .added kid secret => ∀ service, Holds (w.keyring service) kid secret
      ∧ kid ≠ w.userService.jwtCurrentKid
  | .switched oldKid since => w.userService.jwtCurrentKid ≠ oldKid
      ∧ ∀ t ∈ w.issued, t.kid = oldKid → t.time ≤ since
  | .removing oldKid _ => w.userService.jwtCurrentKid ≠ oldKid
      ∧ ∀ t ∈ w.issued, t.kid = oldKid → ¬ t.Live lifetime w.now

structure RotationInv (w : RotationWorld) : Prop where
  expiry : w.userService.lifetime = lifetime
  algorithm : w.userService.jwtAlgorithm = w.gateway.jwtAlgorithm
  /-- Both services have the key that tokens are signed with. -/
  current : ∃ secret, ∀ service, Holds (w.keyring service) w.userService.jwtCurrentKid secret
  signed : ∀ t ∈ w.issued, t.time ≤ w.now
    ∧ t.token = encode (accessClaims lifetime t.time t.user) t.secret w.gateway.jwtAlgorithm t.kid
  /-- **The gateway has the key of every live token.** -/
  live : ∀ t ∈ w.issued, t.Live lifetime w.now → Holds (w.keyring .gateway) t.kid t.secret
  phase : PhaseInv lifetime w

theorem inv_ready {w : RotationWorld} (h : Ready w) :
    RotationInv encode w.userService.lifetime w where
  expiry := rfl
  algorithm := h.algorithm
  current := h.current
  signed := by rw [h.issued]; exact fun _ ht => absurd ht List.not_mem_nil
  live := by rw [h.issued]; exact fun _ ht => absurd ht List.not_mem_nil
  phase := by rw [PhaseInv, h.phase]; trivial

section

variable {encode lifetime} {w w' : RotationWorld}

/-- What has expired stays so. -/
theorem SignedToken.Live.earlier {t : SignedToken} {now now' : Time} (h : t.Live lifetime now')
    (hle : now ≤ now') : t.Live lifetime now := lt_of_le_of_lt hle h

/-- An edit of one keyring, after which the keys stay that the current and the live ones are of. -/
theorem inv_edit (h : RotationInv encode lifetime w) {service : Service} {jwtSecrets : String}
    {phase : RotationPhase} (stays : String → Prop)
    (hkeep : ∀ k s, stays k → Holds (w.keyring service) k s →
      Holds ((w.withSecrets jwtSecrets service).keyring service) k s)
    (hcurrent : stays w.userService.jwtCurrentKid)
    (hlive : ∀ t ∈ w.issued, t.Live lifetime w.now → stays t.kid)
    (hphase : PhaseInv lifetime { w.withSecrets jwtSecrets service with phase }) :
    RotationInv encode lifetime { w.withSecrets jwtSecrets service with phase } := by
  have hall : ∀ x k s, stays k → Holds (w.keyring x) k s →
      Holds ((w.withSecrets jwtSecrets service).keyring x) k s := by
    intro x k s hstays hold
    by_cases hx : x = service
    · rw [hx] at hold ⊢
      exact hkeep k s hstays hold
    · cases x <;> cases service <;> first | exact absurd rfl hx | exact hold
  obtain ⟨secret, hsecret⟩ := h.current
  cases service with
  | userService =>
      exact ⟨h.expiry, h.algorithm, ⟨secret, fun x => hall x _ _ hcurrent (hsecret x)⟩, h.signed,
        fun t ht hl => hall _ _ _ (hlive t ht hl) (h.live t ht hl), hphase⟩
  | gateway =>
      exact ⟨h.expiry, h.algorithm, ⟨secret, fun x => hall x _ _ hcurrent (hsecret x)⟩, h.signed,
        fun t ht hl => hall _ _ _ (hlive t ht hl) (h.live t ht hl), hphase⟩

/-- What a phase knows survives new tokens under the current key, and time. -/
theorem PhaseInv.later (h : PhaseInv lifetime w) (hphase : w'.phase = w.phase)
    (hrings : w'.keyring = w.keyring)
    (hcurrent : w'.userService.jwtCurrentKid = w.userService.jwtCurrentKid)
    (hissued : ∀ t ∈ w'.issued, t ∈ w.issued ∨ t.kid = w.userService.jwtCurrentKid)
    (hnow : w.now ≤ w'.now) : PhaseInv lifetime w' := by
  unfold PhaseInv at h ⊢
  rw [hphase, hrings, hcurrent]
  -- a token under the old key is not new, since the current key is another
  have hold : ∀ oldKid, w.userService.jwtCurrentKid ≠ oldKid →
      ∀ t ∈ w'.issued, t.kid = oldKid → t ∈ w.issued := by
    intro oldKid hne t ht hk
    exact (hissued t ht).resolve_right fun hnew => hne (hnew.symm.trans hk)
  cases hp : w.phase with
  | steady => trivial
  | adding kid secret first =>
      rw [hp] at h
      exact h
  | added kid secret =>
      rw [hp] at h
      exact h
  | switched oldKid since =>
      rw [hp] at h
      exact ⟨h.1, fun t ht hk => h.2 t (hold oldKid h.1 t ht hk) hk⟩
  | removing oldKid first =>
      rw [hp] at h
      exact ⟨h.1, fun t ht hk hl => h.2 t (hold oldKid h.1 t ht hk) hk (hl.earlier hnow)⟩

theorem inv_tick (h : RotationInv encode lifetime w) {t : Time} (hle : w.now ≤ t) :
    RotationInv encode lifetime { w with now := t } where
  expiry := h.expiry
  algorithm := h.algorithm
  current := h.current
  signed := fun x hx => ⟨(h.signed x hx).1.trans hle, (h.signed x hx).2⟩
  live := fun x hx hl => h.live x hx (hl.earlier hle)
  phase := h.phase.later rfl rfl rfl (fun _ => Or.inl) hle

/-- `_create_access_jwt` signs with the current key. -/
theorem signingKey_current {settings : SigningSettings} {kid secret : String}
    (h : signingKey settings = .ok (kid, secret)) :
    kid = settings.jwtCurrentKid
      ∧ Holds (parseKeyring settings.jwtSecrets settings.jwtSecret) kid secret := by
  unfold signingKey at h
  cases hring : parseKeyring settings.jwtSecrets settings.jwtSecret with
  | error e =>
      rw [hring] at h
      cases h
  | ok keyring =>
      rw [hring] at h
      change selectSigningKey keyring settings.jwtCurrentKid = _ at h
      unfold selectSigningKey at h
      split at h
      · cases h
      · rename_i found hget
        cases h
        exact ⟨rfl, keyring, rfl, hget⟩

theorem Holds.unique {ring : ParsedKeyring} {kid secret secret' : String}
    (h : Holds ring kid secret) (h' : Holds ring kid secret') : secret = secret' := by
  obtain ⟨keyring, rfl, hget⟩ := h
  obtain ⟨_, hok, hget'⟩ := h'
  cases hok
  exact Option.some.inj (hget.symm.trans hget')

/-- A new token is under the current key, which the gateway has and which is never the old one. -/
theorem inv_issue (h : RotationInv encode lifetime w) (user : User)
    (hstep : w.step encode (.issue user) = some w') : RotationInv encode lifetime w' := by
  simp only [RotationWorld.step] at hstep
  split at hstep
  · rename_i kid secret token expiresIn hkey htoken
    cases hstep
    obtain ⟨hkid, hholds⟩ := signingKey_current hkey
    obtain ⟨current, hcurrent⟩ := h.current
    have hgateway : Holds (w.keyring .gateway) kid secret := by
      rw [hkid] at hholds ⊢
      rw [hholds.unique (hcurrent .userService)]
      exact hcurrent .gateway
    have hsigned : token = encode (accessClaims lifetime w.now user) secret
        w.gateway.jwtAlgorithm kid := by
      cases (createAccessJwt_signer encode ⟨w.userService, kid, secret, hkey⟩ w.now user).symm.trans
        htoken
      rw [h.expiry, h.algorithm]
    refine ⟨h.expiry, h.algorithm, h.current, ?_, ?_, ?_⟩
    · exact List.forall_mem_cons.mpr ⟨⟨le_refl _, hsigned⟩, h.signed⟩
    · exact List.forall_mem_cons.mpr ⟨fun _ => hgateway, h.live⟩
    · refine h.phase.later rfl rfl rfl (fun t ht => ?_) (le_refl _)
      rcases List.mem_cons.mp ht with rfl | ht
      · exact Or.inr hkid
      · exact Or.inl ht
  · cases hstep
    exact h

theorem add_cases {phase phase' : RotationPhase} {kid secret : String} {service : Service}
    (h : phase.add kid secret service = some phase') :
    (phase = .steady ∧ phase' = .adding kid secret service)
      ∨ ∃ first, service ≠ first ∧ phase = .adding kid secret first
        ∧ phase' = .added kid secret := by
  unfold RotationPhase.add at h
  split at h
  · cases h
    exact Or.inl ⟨rfl, rfl⟩
  · rename_i kid' secret' first
    split at h
    · rename_i hsame
      obtain ⟨hother, rfl, rfl⟩ := hsame
      cases h
      exact Or.inr ⟨first, hother, rfl, rfl⟩
    · cases h
  · cases h

theorem remove_cases {phase phase' : RotationPhase} {now : Time} {service : Service}
    {oldKid : String} (h : phase.remove lifetime now service = some (oldKid, phase')) :
    (∃ since, phase = .switched oldKid since ∧ since + lifetime ≤ now
        ∧ phase' = .removing oldKid service)
      ∨ ∃ first, phase = .removing oldKid first ∧ phase' = .steady := by
  unfold RotationPhase.remove at h
  split at h
  · rename_i since
    split at h
    · rename_i hwait
      cases h
      exact Or.inl ⟨since, rfl, hwait, rfl⟩
    · cases h
  · rename_i first
    split at h
    · cases h
      exact Or.inr ⟨first, rfl, rfl⟩
    · cases h
  · cases h

@[simp] theorem withSecrets_currentKid (w : RotationWorld) (jwtSecrets : String)
    (service : Service) :
    (w.withSecrets jwtSecrets service).userService.jwtCurrentKid = w.userService.jwtCurrentKid := by
  cases service <;> rfl

@[simp] theorem withSecrets_issued (w : RotationWorld) (jwtSecrets : String) (service : Service) :
    (w.withSecrets jwtSecrets service).issued = w.issued := by
  cases service <;> rfl

@[simp] theorem withSecrets_now (w : RotationWorld) (jwtSecrets : String) (service : Service) :
    (w.withSecrets jwtSecrets service).now = w.now := by
  cases service <;> rfl

/-- The keyring of the other service is as it was. -/
theorem withSecrets_keyring_ne (w : RotationWorld) (jwtSecrets : String) {service x : Service}
    (h : x ≠ service) : (w.withSecrets jwtSecrets service).keyring x = w.keyring x := by
  cases x with
  | userService =>
      cases service with
      | userService => exact absurd rfl h
      | gateway => rfl
  | gateway =>
      cases service with
      | userService => rfl
      | gateway => exact absurd rfl h

/-- A key is added beside those that are there; once both have it, it is not the current one. -/
theorem inv_addKey (h : RotationInv encode lifetime w) {service : Service}
    {kid secret jwtSecrets : String}
    (hstep : w.step encode (.addKey service kid secret jwtSecrets) = some w') :
    RotationInv encode lifetime w' := by
  simp only [RotationWorld.step] at hstep
  split at hstep
  · cases hstep
  · rename_i phase hadd
    split at hstep
    · rename_i hedit
      cases hstep
      obtain ⟨hnew, hold⟩ := addsKey_holds hedit
      refine inv_edit h (fun _ => True) (fun k s _ hk => (hold k s hk).1) trivial
        (fun _ _ _ => trivial) ?_
      rcases add_cases hadd with ⟨-, rfl⟩ | ⟨first, hother, hp, rfl⟩
      · exact hnew
      · obtain ⟨current, hcurrent⟩ := h.current
        have hfirst := h.phase
        rw [PhaseInv, hp] at hfirst
        intro x
        refine ⟨?_, fun heq => (hold _ _ (hcurrent service)).2 ?_⟩
        · by_cases hx : x = service
          · rw [hx]
            exact hnew
          · have hxf : x = first := by
              cases x <;> cases service <;> cases first <;>
                first | rfl | exact absurd rfl hx | exact absurd rfl hother
            change Holds ((w.withSecrets jwtSecrets service).keyring x) kid secret
            rw [withSecrets_keyring_ne w jwtSecrets hx, hxf]
            exact hfirst
        · exact (withSecrets_currentKid w jwtSecrets service).symm.trans heq.symm
    · cases hstep

/-- The switch starts the old key's last lifetime. -/
theorem inv_switchKid (h : RotationInv encode lifetime w)
    (hstep : w.step encode .switchKid = some w') : RotationInv encode lifetime w' := by
  simp only [RotationWorld.step] at hstep
  split at hstep
  · rename_i kid secret hp
    cases hstep
    have hphase := h.phase
    rw [PhaseInv, hp] at hphase
    exact ⟨h.expiry, h.algorithm, ⟨secret, fun service => (hphase service).1⟩, h.signed, h.live,
      (hphase .gateway).2, fun t ht _ => (h.signed t ht).1⟩
  · cases hstep

/-- After the wait no live token is under the old key. -/
theorem inv_removeKey (h : RotationInv encode lifetime w) {service : Service} {jwtSecrets : String}
    (hstep : w.step encode (.removeKey service jwtSecrets) = some w') :
    RotationInv encode lifetime w' := by
  simp only [RotationWorld.step] at hstep
  split at hstep
  · cases hstep
  · rename_i oldKid phase hremove
    split at hstep
    · rename_i hedit
      cases hstep
      have hphase := h.phase
      rw [h.expiry] at hremove
      have hgone : w.userService.jwtCurrentKid ≠ oldKid
          ∧ ∀ t ∈ w.issued, t.kid = oldKid → ¬ t.Live lifetime w.now := by
        rcases remove_cases hremove with ⟨since, hp, hwait, -⟩ | ⟨first, hp, -⟩
        · rw [PhaseInv, hp] at hphase
          refine ⟨hphase.1, fun t ht hk hlive => ?_⟩
          have hage : w.now - t.time < lifetime :=
            age_lt_of_not_expired (t := ⟨t.time, t.user⟩) hlive
          have hsince := hphase.2 t ht hk
          linarith
        · rw [PhaseInv, hp] at hphase
          exact hphase
      refine inv_edit h (fun k => k ≠ oldKid) (fun k s hne hk => dropsKey_holds hedit hk hne)
        hgone.1 (fun t ht hlive hk => hgone.2 t ht hk hlive) ?_
      rcases remove_cases hremove with ⟨since, -, -, rfl⟩ | ⟨first, -, rfl⟩
      · refine ⟨?_, ?_⟩
        · rw [← withSecrets_currentKid w jwtSecrets service] at hgone
          exact hgone.1
        · have hdead := hgone.2
          rw [← withSecrets_issued w jwtSecrets service, ← withSecrets_now w jwtSecrets service]
            at hdead
          exact hdead
      · trivial
    · cases hstep

theorem inv_step (h : RotationInv encode lifetime w) {e : RotationEvent}
    (hstep : w.step encode e = some w') : RotationInv encode lifetime w' := by
  cases e with
  | tick t =>
      simp only [RotationWorld.step] at hstep
      split at hstep
      · rename_i hle
        cases hstep
        exact inv_tick h hle
      · cases hstep
  | issue user => exact inv_issue h user hstep
  | addKey service kid secret jwtSecrets => exact inv_addKey h hstep
  | switchKid => exact inv_switchKid h hstep
  | removeKey service jwtSecrets => exact inv_removeKey h hstep

end

/-! ## Every run -/

/-- The gateway verifies the token under the key that its `kid` selects. -/
def Verified (jwt : Time → Jwt) (w : RotationWorld) (t : SignedToken) : Prop :=
  (∃ keyring, parseKeyring w.gateway.jwtSecrets w.gateway.jwtSecret = .ok keyring
      ∧ selectVerificationKey keyring (some t.kid) = some t.secret)
    ∧ verifyToken (jwt w.now) w.gateway t.token = .ok
      { userId := some t.user.id.text
        userEmail := some t.user.email
        userRoles := some (if t.user.isAdmin then ["admin", "user"] else ["user"]) }

theorem verified_of_inv {jwt : Time → Jwt} (laws : LawfulJwt lifetime encode jwt)
    {w : RotationWorld} (h : RotationInv encode lifetime w) {t : SignedToken} (ht : t ∈ w.issued)
    (hlive : t.Live lifetime w.now) : Verified jwt w t := by
  obtain ⟨keyring, hring, hget⟩ := h.live t ht hlive
  obtain ⟨hpast, htoken⟩ := h.signed t ht
  have hselect : selectVerificationKey keyring (some t.kid) = some t.secret := by
    rw [selectVerificationKey, if_neg (kid_ne_empty hring hget)]
    exact hget
  refine ⟨⟨keyring, hring, hselect⟩, verifyToken_ok_iff.mpr ?_⟩
  refine ⟨some t.kid, keyring, t.secret, (accessClaims lifetime t.time t.user).read, t.user.id,
    ?_, hring, hselect, ?_, UUID.ofText?_text _, rfl⟩
  · rw [htoken]
    exact laws.unverifiedKid _ _ _ _ _ _
  · rw [htoken]
    exact laws.verifies _ _ _ _ _ _ hpast hlive

/--
**Key rotation never rejects a live token.**

From two services that share the current key, under every run of the choreography,
however often and with the services in either order, and with tokens issued at any
point of it: in every state visited, the gateway verifies every token that has been
issued and has not expired.
-/
theorem rotation_keeps_tokens {jwt : Time → Jwt} {w : RotationWorld}
    (laws : LawfulJwt w.userService.lifetime encode jwt) (hready : Ready w)
    (es : List RotationEvent) :
    Always (RotationWorld.step encode)
      (fun w' => ∀ t ∈ w'.issued, t.Live w.userService.lifetime w'.now → Verified jwt w' t) w es :=
  always_of_invariant (I := RotationInv encode w.userService.lifetime)
    (fun _ _ _ hs _ hstep => inv_step hs hstep)
    (fun _ hs _ ht hlive => verified_of_inv encode _ laws hs ht hlive)
    (inv_ready encode hready) (meets_true w es)

/-! ## One rotation -/

def cleo : User where
  id := .ofNat 4
  email := "cleo@example.com"
  username := "cleo"
  hashedPassword := ""

/-- Day 0: one key, on both. -/
def dayZero : RotationWorld where
  now := 0
  userService :=
    { jwtSecrets := "k1=old"
      jwtSecret := "legacy"
      jwtCurrentKid := "k1" }
  gateway :=
    { jwtSecrets := "k1=old"
      jwtSecret := "legacy"
      jwtAlgorithm := "HS256" }

def bothKeys : String := "k1=old,k2=new"

def newKey : String := "k2=new"

theorem dayZero_ready : Ready dayZero where
  phase := rfl
  issued := rfl
  algorithm := rfl
  current := by
    have hring : parseKeyring "k1=old" "legacy"
        = .ok (fallbackKeyring "old" "k1") :=
      parseKeyring_ok_iff.mpr ⟨by decide +kernel, by decide +kernel⟩
    refine ⟨"old", fun service => ?_⟩
    cases service with
    | userService => exact ⟨_, hring, rfl⟩
    | gateway => exact ⟨_, hring, rfl⟩

/-- The gateway gets the key first and drops it last; a token is issued under each. -/
def rotationDays : List RotationEvent :=
  [.issue cleo, .addKey .gateway "k2" "new" bothKeys,
    .addKey .userService "k2" "new" bothKeys, .switchKid,
    .issue cleo, .tick 3600000, .removeKey .userService newKey, .removeKey .gateway newKey]

theorem one_rotation :
    (exec (RotationWorld.step PlainJwt.encode) dayZero rotationDays).isSome = true
      ∧ Always (RotationWorld.step PlainJwt.encode) (fun w => ∀ t ∈ w.issued,
          t.Live dayZero.userService.lifetime w.now → Verified PlainJwt.jwt w t)
        dayZero rotationDays :=
  ⟨by decide +kernel, rotation_keeps_tokens PlainJwt.encode (PlainJwt.lawful _) dayZero_ready _⟩

end Microservices.Users
