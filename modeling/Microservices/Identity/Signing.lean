import Microservices.Http
import Microservices.Lib.Base64
import Microservices.Lib.Decimal
import Microservices.Lib.Delimited

/-!
# The identity envelope

`identity_signing.py`, which the gateway and the three backends carry verbatim:
the gateway signs `user_id|user_email|user_roles|issued_at`, a backend recomputes
the signature before it trusts an `X-User-*` header.

HMAC-SHA256 is the parameter `hmac : secret → message → digest`. Nothing below
computes it; the results that need more say so with an injectivity hypothesis.
-/

namespace Microservices.Identity

def utf8 (s : String) : Bytes := s.toByteArray.data.toList

theorem utf8_injective : Function.Injective utf8 := by
  intro s t h
  have hd : s.toByteArray.data = t.toByteArray.data := Array.toList_inj.mp h
  exact String.toByteArray_inj.mp (ByteArray.ext hd)

/-- `IDENTITY_MAX_AGE_SECONDS`. -/
def identityMaxAgeSeconds : Int := 60

/-- `_canonical`. -/
def canonical (userId userEmail userRoles ts : String) : Bytes :=
  utf8 (userId ++ "|" ++ userEmail ++ "|" ++ userRoles ++ "|" ++ ts)

/-- `value or ""`. -/
def orEmpty (value : Option String) : String := value.getD ""

section

variable (hmac : Bytes → Bytes → Bytes)

/-- `sign_identity`; `time` is what `int(time.time())` reads. -/
def signIdentity (secret userId : String) (userEmail userRoles : Option String)
    (issuedAt : Option Int) (time : Int) : String × String :=
  let ts := toString (issuedAt.getD time)
  let mac := hmac (utf8 secret) (canonical userId (orEmpty userEmail) (orEmpty userRoles) ts)
  (String.ofList (Base64.encode mac), ts)

/-- `verify_identity`, at a given `now`. -/
def verifyIdentity (secret userId : String) (userEmail userRoles : Option String)
    (issuedAt signatureB64 : String) (now : Int) (maxAgeSeconds : Int := identityMaxAgeSeconds) :
    Bool :=
  match Decimal.int? issuedAt with
  | none => false
  | some ts =>
      let age := now - ts
      if age > maxAgeSeconds ∨ age < -5 then false
      else
        let expected := hmac (utf8 secret)
          (canonical userId (orEmpty userEmail) (orEmpty userRoles) (toString ts))
        match Base64.decode true signatureB64.toList with
        | none => false
        | some provided => expected == provided

end

/-- What one signature is supposed to speak for. -/
structure Envelope where
  userId : String
  userEmail : Option String
  userRoles : Option String
  issuedAt : Int
  deriving DecidableEq, Repr

namespace Envelope

/-- The fields as they enter the signed string: absent and empty are the same. -/
def signed (e : Envelope) : String × String × String × Int :=
  (e.userId, orEmpty e.userEmail, orEmpty e.userRoles, e.issuedAt)

def canonical (e : Envelope) : Bytes :=
  Identity.canonical e.userId (orEmpty e.userEmail) (orEmpty e.userRoles) (toString e.issuedAt)

/-- A backend whose clock reads `now` accepts `sig` for the envelope. -/
def accepted (hmac : Bytes → Bytes → Bytes) (secret : String) (e : Envelope) (sig : String)
    (now : Int) : Prop :=
  verifyIdentity hmac secret e.userId e.userEmail e.userRoles (toString e.issuedAt) sig now = true

/-- No field before the timestamp contains the delimiter. -/
def DelimiterFree (e : Envelope) : Prop :=
  '|' ∉ e.userId.toList ∧ '|' ∉ (orEmpty e.userEmail).toList ∧ '|' ∉ (orEmpty e.userRoles).toList

instance (e : Envelope) : Decidable e.DelimiterFree := inferInstanceAs (Decidable (_ ∧ _ ∧ _))

instance (hmac : Bytes → Bytes → Bytes) (secret : String) (e : Envelope) (sig : String)
    (now : Int) : Decidable (e.accepted hmac secret sig now) :=
  inferInstanceAs (Decidable (_ = true))

end Envelope

/-! ## What acceptance means -/

variable {hmac : Bytes → Bytes → Bytes} {secret : String}

/-- **Accepted: fresh, and the digest of the canonical string.** -/
theorem accepted_iff {e : Envelope} {sig : String} {now : Int} :
    e.accepted hmac secret sig now ↔
      (now - e.issuedAt ≤ identityMaxAgeSeconds ∧ -5 ≤ now - e.issuedAt)
        ∧ Base64.decode true sig.toList = some (hmac (utf8 secret) e.canonical) := by
  unfold Envelope.accepted verifyIdentity Envelope.canonical
  rw [Decimal.int?_toString]
  dsimp only
  by_cases hage : now - e.issuedAt > identityMaxAgeSeconds ∨ now - e.issuedAt < -5
  · rw [if_pos hage]
    refine ⟨fun h => absurd h (by decide), fun h => ?_⟩
    have := h.1
    omega
  · rw [if_neg hage]
    have hfresh : now - e.issuedAt ≤ identityMaxAgeSeconds ∧ -5 ≤ now - e.issuedAt := by omega
    cases hq : Base64.decode true sig.toList with
    | none => simp
    | some provided =>
        simp only [beq_iff_eq, Option.some.injEq]
        exact ⟨fun h => ⟨hfresh, h.symm⟩, fun h => h.2.symm⟩

/-- What the gateway signs, a backend accepts for as long as it is fresh. -/
theorem accepted_signIdentity (hmac : Bytes → Bytes → Bytes) (secret : String) (e : Envelope)
    (time now : Int) (hnow : now - e.issuedAt ≤ identityMaxAgeSeconds ∧ -5 ≤ now - e.issuedAt) :
    e.accepted hmac secret
      (signIdentity hmac secret e.userId e.userEmail e.userRoles (some e.issuedAt) time).1 now := by
  refine accepted_iff.mpr ⟨hnow, ?_⟩
  simp only [signIdentity, Option.getD_some, String.toList_ofList]
  exact Base64.decode_encode true _

/-- With an injective MAC, one signature for two envelopes is one canonical string. -/
theorem canonical_eq_of_accepted (hinj : ∀ k, Function.Injective (hmac k)) {e e' : Envelope}
    {sig : String} {now now' : Int} (h : e.accepted hmac secret sig now)
    (h' : e'.accepted hmac secret sig now') : e'.canonical = e.canonical := by
  have h1 := (accepted_iff.mp h).2
  have h2 := (accepted_iff.mp h').2
  exact hinj _ (Option.some.inj (h2.symm.trans h1))

/-! ## What the canonical string determines -/

/-- The three fields whose boundaries are in question. -/
def Envelope.fields (e : Envelope) : List (List Char) :=
  [e.userId.toList, (orEmpty e.userEmail).toList, (orEmpty e.userRoles).toList]

theorem delim_not_mem_timestamp (n : Int) : '|' ∉ (toString n).toList := by
  intro h
  rcases Decimal.mem_toString h with hd | hd
  · exact absurd hd (by decide)
  · exact absurd hd (by decide)

theorem toString_int_injective {m n : Int} (h : toString m = toString n) : m = n := by
  have := Decimal.int?_toString m
  rw [h, Decimal.int?_toString] at this
  exact (Option.some.inj this).symm

/-- **The canonical string fixes the timestamp and the joined fields, and no more.** -/
theorem canonical_eq_iff {e e' : Envelope} :
    e'.canonical = e.canonical ↔
      Delimited.join '|' e'.fields = Delimited.join '|' e.fields ∧ e'.issuedAt = e.issuedAt := by
  have key : ∀ x : Envelope, x.canonical = utf8 (String.ofList
      (Delimited.join '|' x.fields ++ '|' :: (toString x.issuedAt).toList)) := by
    intro x
    refine congrArg utf8 (String.toList_inj.mp ?_)
    simp [Envelope.fields]
  rw [key e, key e', utf8_injective.eq_iff]
  refine ⟨fun h => ?_, fun h => by rw [h.1, h.2]⟩
  · have hl := congrArg String.toList h
    rw [String.toList_ofList, String.toList_ofList] at hl
    obtain ⟨h1, h2⟩ := Delimited.append_delim_inj (delim_not_mem_timestamp _)
      (delim_not_mem_timestamp _) hl
    exact ⟨h1, toString_int_injective (String.toList_inj.mp h2)⟩

/-- An envelope with given fields. -/
def Envelope.ofFields (u m r : List Char) (issuedAt : Int) : Envelope :=
  { userId := String.ofList u, userEmail := some (String.ofList m),
    userRoles := some (String.ofList r), issuedAt := issuedAt }

theorem fields_ofFields (u m r : List Char) (t : Int) :
    (Envelope.ofFields u m r t).fields = [u, m, r] := by
  simp [Envelope.ofFields, Envelope.fields, orEmpty]

theorem signed_eq_iff {e e' : Envelope} :
    e'.signed = e.signed ↔ e'.fields = e.fields ∧ e'.issuedAt = e.issuedAt := by
  simp [Envelope.signed, Envelope.fields, String.toList_inj, and_assoc]

theorem delimiterFree_iff {e : Envelope} : e.DelimiterFree ↔ ∀ x ∈ e.fields, '|' ∉ x := by
  simp [Envelope.DelimiterFree, Envelope.fields]

/--
**A signature speaks for one envelope exactly when its fields are delimiter-free.**

For every secret and every envelope `e`: no other envelope is accepted, each
inside its own freshness window, under a signature that is accepted for `e`, if
and only if none of `user_id`, `email` and `roles` of `e` contains `|`.
-/
theorem signature_authenticates_one_envelope_iff (hinj : ∀ k, Function.Injective (hmac k))
    (secret : String) (e : Envelope) :
    (∀ (e' : Envelope) (sig : String) (now now' : Int), e.accepted hmac secret sig now →
        e'.accepted hmac secret sig now' → e'.signed = e.signed) ↔ e.DelimiterFree := by
  rw [delimiterFree_iff, ← Delimited.join_unique_iff (by simp [Envelope.fields])]
  refine ⟨fun h ys hlen hj => ?_, fun huniq e' sig now now' h h' => ?_⟩
  · -- a second way to cut the joined fields is a second envelope with the same signature
    obtain ⟨u, m, r, rfl⟩ : ∃ u m r, ys = [u, m, r] := by
      simpa [Envelope.fields, List.length_eq_three] using hlen
    have hcanon : (Envelope.ofFields u m r e.issuedAt).canonical = e.canonical :=
      canonical_eq_iff.mpr ⟨by rw [fields_ofFields]; exact hj, rfl⟩
    have hnow : e.issuedAt - e.issuedAt ≤ identityMaxAgeSeconds
        ∧ -5 ≤ e.issuedAt - e.issuedAt := by
      unfold identityMaxAgeSeconds; omega
    have h1 := accepted_signIdentity hmac secret e 0 e.issuedAt hnow
    have h2 : (Envelope.ofFields u m r e.issuedAt).accepted hmac secret
        (signIdentity hmac secret e.userId e.userEmail e.userRoles (some e.issuedAt) 0).1
        e.issuedAt := by
      refine accepted_iff.mpr ⟨hnow, ?_⟩
      rw [hcanon]; exact (accepted_iff.mp h1).2
    have := (signed_eq_iff.mp (h _ _ _ _ h1 h2)).1
    rwa [fields_ofFields] at this
  · obtain ⟨hj, ht⟩ := canonical_eq_iff.mp (canonical_eq_of_accepted hinj h h')
    refine signed_eq_iff.mpr ⟨huniq e'.fields ?_ hj, ht⟩
    simp [Envelope.fields]

/-! ## A signature for two envelopes -/

/-- HMAC-SHA256 under the secret below on the two messages signed below, and injective. -/
def recordedHmac (_secret message : Bytes) : Bytes :=
  if message = utf8 "550e8400-e29b-41d4-a716-446655440000|ann|admin@x.io|user|1700000000" then
    [122, 250, 167, 35, 38, 162, 34, 196, 219, 250, 227, 193, 159, 166, 49, 77, 91, 46, 139,
      177, 149, 82, 255, 116, 232, 25, 11, 155, 108, 41, 108, 51]
  else if message = utf8 "550e8400-e29b-41d4-a716-446655440000|ann@x.io|user|1700000000" then
    [193, 107, 53, 195, 215, 106, 48, 170, 218, 77, 244, 194, 105, 10, 13, 69, 228, 134, 224,
      29, 129, 183, 140, 150, 171, 162, 135, 39, 14, 223, 155, 157]
  else message ++ List.replicate 33 0

theorem recordedHmac_injective (k : Bytes) : Function.Injective (recordedHmac k) := by
  have hlong : ∀ (m : Bytes) (d : Bytes), d.length = 32 → m ++ List.replicate 33 0 ≠ d := by
    intro m d hd he
    have := congrArg List.length he
    simp only [List.length_append, List.length_replicate] at this
    omega
  intro m m' h
  unfold recordedHmac at h
  split_ifs at h with h1 h2 h3 h4 h5 h6 h7 h8
  · exact h1.trans h2.symm
  · exact absurd h (by decide)
  · exact absurd h.symm (hlong m' _ rfl)
  · exact absurd h (by decide)
  · exact h4.trans h6.symm
  · exact absurd h.symm (hlong m' _ rfl)
  · exact absurd h (hlong m _ rfl)
  · exact absurd h (hlong m _ rfl)
  · exact List.append_cancel_right h

/-- An account like any other. -/
def ann : Envelope where
  userId := "550e8400-e29b-41d4-a716-446655440000"
  userEmail := some "ann@x.io"
  userRoles := some "user"
  issuedAt := 1700000000

theorem signature_authenticates_ann :
    ann.DelimiterFree ∧ ∀ (e' : Envelope) (sig : String) (now now' : Int),
      ann.accepted recordedHmac "0123456789abcdef0123456789abcdef" sig now →
      e'.accepted recordedHmac "0123456789abcdef0123456789abcdef" sig now' →
      e'.signed = ann.signed :=
  ⟨by decide, (signature_authenticates_one_envelope_iff recordedHmac_injective
    "0123456789abcdef0123456789abcdef" ann).mpr (by decide)⟩

/-- One account, whose address contains the delimiter. -/
def annAdmin : Envelope where
  userId := "550e8400-e29b-41d4-a716-446655440000"
  userEmail := some "ann|admin@x.io"
  userRoles := some "user"
  issuedAt := 1700000000

/-- The same bytes, cut one delimiter earlier. -/
def annRoles : Envelope where
  userId := "550e8400-e29b-41d4-a716-446655440000"
  userEmail := some "ann"
  userRoles := some "admin@x.io|user"
  issuedAt := 1700000000

/-- **One signature is accepted for two envelopes.** -/
theorem signature_for_two_envelopes :
    annAdmin.accepted recordedHmac "0123456789abcdef0123456789abcdef"
        "evqnIyaiIsTb+uPBn6YxTVsui7GVUv906BkLm2wpbDM=" 1700000030
      ∧ annRoles.accepted recordedHmac "0123456789abcdef0123456789abcdef"
        "evqnIyaiIsTb+uPBn6YxTVsui7GVUv906BkLm2wpbDM=" 1700000030
      ∧ annRoles.signed ≠ annAdmin.signed := by
  decide +kernel

end Microservices.Identity
