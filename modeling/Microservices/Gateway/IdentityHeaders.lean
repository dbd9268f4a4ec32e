import Microservices.Gateway.Headers

/-!
# Who writes the identity headers

Five field names decide who a backend takes the caller to be. The gateway strips
three of them from the client's headers and assigns all five. The two it does not
strip, `X-Identity-Signature` and `X-Identity-Issued-At`, reach the upstream in
the client's lower-case spelling, beside the gateway's own if there is one.

The proof keeps the two contributions apart: what survives the stripping, and the
list `identityPairs` of assignments the gateway makes, which no client header
enters.
-/

namespace Microservices.Gateway

open Identity

/-- The fields a backend derives the caller's identity from, in lower case. -/
def identityNames : List String :=
  ["x-user-id", "x-user-email", "x-user-roles", "x-identity-signature", "x-identity-issued-at"]

/-- `user_id` is unset or empty. -/
def RequestState.Anonymous (s : RequestState) : Prop := orEmpty s.userId = ""

variable (hmac : Bytes → Bytes → Bytes) (secret : String) (time : Int)

/--
Between two requests with the same gateway state: the identity fields agree, none
is doubled, and an anonymous request has none.
-/
def IdentityFromGateway (r r' : ForwardRequest) : Prop :=
  ∀ n ∈ identityNames,
    fields n (buildForwardHeaders hmac secret time r)
        = fields n (buildForwardHeaders hmac secret time r')
      ∧ (fields n (buildForwardHeaders hmac secret time r)).length ≤ 1
      ∧ (r.state.Anonymous → fields n (buildForwardHeaders hmac secret time r) = [])

/-- The client sends a header of the signature's own name. -/
def ClientHeaders.CarriesSignature (h : ClientHeaders) : Prop :=
  ∃ e ∈ h.items, e.1 = "x-identity-signature" ∨ e.1 = "x-identity-issued-at"

/-! ## The gateway's assignments -/

/-- The assignments `_build_forward_headers` makes for an authenticated request. -/
def identityPairs (s : RequestState) : List (String × String) :=
  let userId := orEmpty s.userId
  let userEmail := orEmpty s.userEmail
  let userRoles := ",".intercalate (s.userRoles.getD [])
  let signed := signIdentity hmac secret userId (some userEmail) (some userRoles) none time
  if userId = "" then []
  else ("X-User-Id", userId)
    :: ((if userEmail = "" then [] else [("X-User-Email", userEmail)])
      ++ [("X-User-Roles", userRoles), (identitySigHeader, signed.1), (identityTsHeader, signed.2)])

theorem setIdentity_eq_setAll (s : RequestState) (d : HeaderDict) :
    setIdentity hmac secret time s d = d.setAll (identityPairs hmac secret time s) := by
  unfold setIdentity identityPairs
  by_cases hu : orEmpty s.userId = ""
  · simp [hu, Dict.setAll]
  · by_cases he : orEmpty s.userEmail = "" <;> simp [hu, he, Dict.setAll]

/-- The keys of those assignments, in title case. -/
def identityKeys : List String :=
  ["X-User-Id", "X-User-Email", "X-User-Roles", identitySigHeader, identityTsHeader]

theorem identityPairs_keys (s : RequestState) :
    ((identityPairs hmac secret time s).map Prod.fst).Sublist identityKeys := by
  unfold identityPairs
  by_cases hu : orEmpty s.userId = ""
  · simp [hu]
  · by_cases he : orEmpty s.userEmail = ""
    · simp only [hu, he, if_true, if_false, List.nil_append, List.map_cons, List.map_nil]
      exact .cons_cons _ (.cons _ (List.Sublist.refl _))
    · simp only [hu, he, if_false, List.cons_append, List.nil_append, List.map_cons, List.map_nil]
      exact List.Sublist.refl _

theorem identityKeys_nodup : identityKeys.Nodup := by decide

/-- Each identity field is assigned under one key. -/
theorem identityKeys_unique {n : String} (hn : n ∈ identityNames) :
    (identityKeys.filter fun k => lower k == n).length ≤ 1 := by
  have all : ∀ m ∈ identityNames, (identityKeys.filter fun k => lower k == m).length ≤ 1 := by
    decide
  exact all n hn

theorem identityPairs_length {n : String} (hn : n ∈ identityNames) (s : RequestState) :
    ((identityPairs hmac secret time s).filter fun e => lower e.1 == n).length ≤ 1 := by
  have h1 := ((identityPairs_keys hmac secret time s).filter fun k => lower k == n).length_le
  rw [List.filter_map, List.length_map] at h1
  exact Nat.le_trans h1 (identityKeys_unique hn)

theorem signature_mem_identityPairs {s : RequestState} (hs : ¬ s.Anonymous) :
    (∃ v, (identitySigHeader, v) ∈ identityPairs hmac secret time s)
      ∧ ∃ v, (identityTsHeader, v) ∈ identityPairs hmac secret time s := by
  have hu : ¬ orEmpty s.userId = "" := hs
  simp only [identityPairs, hu, if_false]
  generalize signIdentity hmac secret _ _ _ _ time = signed
  exact ⟨⟨signed.1, by simp⟩, ⟨signed.2, by simp⟩⟩

/-- An authenticated request always carries the gateway's signature and its timestamp. -/
theorem identityPairs_signed {n : String} {s : RequestState} (hs : ¬ s.Anonymous)
    (hn : n = "x-identity-signature" ∨ n = "x-identity-issued-at") :
    ((identityPairs hmac secret time s).filter fun e => lower e.1 == n) ≠ [] := by
  have hsig : lower identitySigHeader = "x-identity-signature" := by decide
  have hts : lower identityTsHeader = "x-identity-issued-at" := by decide
  obtain ⟨⟨v, hv⟩, ⟨w, hw⟩⟩ := signature_mem_identityPairs hmac secret time hs
  intro h
  rw [List.filter_eq_nil_iff] at h
  rcases hn with rfl | rfl
  · exact h _ hv (by rw [hsig]; exact beq_self_eq_true _)
  · exact h _ hw (by rw [hts]; exact beq_self_eq_true _)

/-! ## The two contributions to one field -/

/-- Client names are lower-case, so none of them is a key the gateway assigns. -/
theorem lower_of_mem_stripped {h : ClientHeaders} {k : String}
    (hk : k ∈ (strippedHeaders h).keys) : lower k = k ∧ passesStripping k = true := by
  rw [strippedHeaders, Dict.mem_keys_ofPairs] at hk
  obtain ⟨e, he, rfl⟩ := List.mem_map.mp hk
  obtain ⟨h1, h2⟩ := List.mem_filter.mp he
  exact ⟨h.lowered e h1, h2⟩

theorem mem_keys_setForwarded {r : ForwardRequest} {d : HeaderDict} {k : String}
    (hk : k ∈ (setForwarded r d).keys) :
    k ∈ ["X-Forwarded-For", "X-Forwarded-Proto", "X-Forwarded-Host"] ∨ k ∈ d.keys := by
  unfold setForwarded at hk
  rcases Dict.mem_keys_set.mp hk with rfl | hk
  · exact Or.inl (by simp)
  rcases Dict.mem_keys_set.mp hk with rfl | hk
  · exact Or.inl (by simp)
  split at hk
  · split at hk
    · exact Or.inr hk
    · rcases Dict.mem_keys_set.mp hk with rfl | hk
      · exact Or.inl (by simp)
      · exact Or.inr hk
  · exact Or.inr hk

theorem identityKey_fresh {r : ForwardRequest} {k : String} (hk : k ∈ identityKeys) :
    k ∉ (setForwarded r (strippedHeaders r.headers)).keys := by
  intro hm
  have all : ∀ x ∈ identityKeys, lower x ≠ x
      ∧ x ∉ ["X-Forwarded-For", "X-Forwarded-Proto", "X-Forwarded-Host"] := by decide
  rcases mem_keys_setForwarded hm with h | h
  · exact (all k hk).2 h
  · exact (all k hk).1 (lower_of_mem_stripped h).1

/-- The forwarding headers and the request id are no identity fields. -/
theorem other_names {n : String} (hn : n ∈ identityNames) :
    (∀ k ∈ ["X-Forwarded-For", "X-Forwarded-Proto", "X-Forwarded-Host"], (lower k == n) = false)
      ∧ (lower "X-Request-ID" == n) = false := by
  have all : ∀ m ∈ identityNames,
      (∀ k ∈ ["X-Forwarded-For", "X-Forwarded-Proto", "X-Forwarded-Host"], (lower k == m) = false)
        ∧ (lower "X-Request-ID" == m) = false := by
    decide
  exact all n hn

theorem fields_setForwarded {n : String}
    (hn : ∀ k ∈ ["X-Forwarded-For", "X-Forwarded-Proto", "X-Forwarded-Host"], (lower k == n) = false)
    (r : ForwardRequest) (d : HeaderDict) : fields n (setForwarded r d) = fields n d := by
  have h1 := hn "X-Forwarded-For" (by simp)
  have h2 := hn "X-Forwarded-Proto" (by simp)
  have h3 := hn "X-Forwarded-Host" (by simp)
  unfold fields setForwarded
  dsimp only
  rw [Dict.select_set_of_not (p := fun k => lower k == n) h3,
    Dict.select_set_of_not (p := fun k => lower k == n) h2]
  split
  · split
    · rfl
    · exact Dict.select_set_of_not h1
  · rfl

theorem fields_setRequestId {n : String} (hn : n ∈ identityNames) (s : RequestState)
    (d : HeaderDict) : fields n (setRequestId s d) = fields n d := by
  unfold fields setRequestId
  dsimp only
  split
  · rfl
  · exact Dict.select_set_of_not (other_names hn).2

/-- **One identity field: the client's remainder, then the gateway's assignment.** -/
theorem fields_build {n : String} (hn : n ∈ identityNames) (r : ForwardRequest) :
    fields n (buildForwardHeaders hmac secret time r) =
      fields n (strippedHeaders r.headers)
        ++ (identityPairs hmac secret time r.state).filter fun e => lower e.1 == n := by
  have hkeys := identityPairs_keys hmac secret time r.state
  have hfresh : ∀ e ∈ identityPairs hmac secret time r.state,
      e.1 ∉ (setForwarded r (strippedHeaders r.headers)).keys := fun e he =>
    identityKey_fresh (hkeys.subset (List.mem_map_of_mem he))
  have hsel := Dict.select_setAll (fun k => lower k == n) hfresh
    (identityKeys_nodup.sublist hkeys)
  rw [buildForwardHeaders, fields_setRequestId hn, setIdentity_eq_setAll]
  rw [fields, hsel]
  rw [← fields_setForwarded (other_names hn).1 r (strippedHeaders r.headers)]
  rfl

/-- The stripping takes three of the identity fields and lets the two signature fields pass. -/
theorem passes_signature {n : String}
    (hn : n = "x-identity-signature" ∨ n = "x-identity-issued-at") : passesStripping n = true := by
  rcases hn with rfl | rfl <;> decide +kernel

theorem stripped_identity {n : String} (hn : n ∈ identityNames)
    (h1 : n ≠ "x-identity-signature") (h2 : n ≠ "x-identity-issued-at") :
    passesStripping n = false := by
  have all : ∀ m ∈ identityNames, m = "x-identity-signature" ∨ m = "x-identity-issued-at"
      ∨ passesStripping m = false := by decide +kernel
  rcases all n hn with h3 | h3 | h3
  · exact absurd h3 h1
  · exact absurd h3 h2
  · exact h3

/-- What is left of the client's headers under an identity name. -/
theorem fields_stripped_eq_nil_iff {n : String} (hn : n ∈ identityNames) (h : ClientHeaders) :
    fields n (strippedHeaders h) = [] ↔
      ∀ e ∈ h.items, e.1 = n → n ≠ "x-identity-signature" ∧ n ≠ "x-identity-issued-at" := by
  rw [fields, Dict.select_eq_nil_iff]
  refine ⟨fun hnil e he hen => ?_, fun hno k hk => ?_⟩
  · rw [← not_or]
    intro hsig
    have hmem : n ∈ (strippedHeaders h).keys := by
      rw [strippedHeaders, Dict.mem_keys_ofPairs, ← hen]
      exact List.mem_map_of_mem (List.mem_filter.mpr ⟨he, hen ▸ passes_signature hsig⟩)
    have hlow : lower n = n := hen ▸ h.lowered e he
    have := hnil n hmem
    rw [hlow, beq_self_eq_true] at this
    cases this
  · obtain ⟨hlow, hpass⟩ := lower_of_mem_stripped hk
    rw [strippedHeaders, Dict.mem_keys_ofPairs] at hk
    obtain ⟨e, he, rfl⟩ := List.mem_map.mp hk
    rw [hlow, beq_eq_false_iff_ne]
    intro hen
    obtain ⟨h1, h2⟩ := hno e (List.mem_filter.mp he).1 hen
    rw [hen, stripped_identity hn h1 h2] at hpass
    cases hpass

theorem fields_stripped_of_not_carries {h : ClientHeaders} (hc : ¬ h.CarriesSignature)
    {n : String} (hn : n ∈ identityNames) : fields n (strippedHeaders h) = [] := by
  refine (fields_stripped_eq_nil_iff hn h).mpr fun e he hen => ⟨?_, ?_⟩
  · intro hq; exact hc ⟨e, he, Or.inl (hen.trans hq)⟩
  · intro hq; exact hc ⟨e, he, Or.inr (hen.trans hq)⟩

/-- A signature header of the client's spoils its own field, signed or not. -/
theorem carries_spoils {r : ForwardRequest} (hc : r.headers.CarriesSignature) :
    ∃ n ∈ identityNames,
      fields n (buildForwardHeaders hmac secret time r) ≠ []
        ∧ (¬ r.state.Anonymous →
            1 < (fields n (buildForwardHeaders hmac secret time r)).length) := by
  obtain ⟨e, he, hname⟩ := hc
  have hn : e.1 ∈ identityNames := by rcases hname with h | h <;> rw [h] <;> decide
  have hleft : fields e.1 (strippedHeaders r.headers) ≠ [] := by
    intro hnil
    obtain ⟨h1, h2⟩ := (fields_stripped_eq_nil_iff hn r.headers).mp hnil e he rfl
    exact hname.elim h1 h2
  refine ⟨e.1, hn, ?_, fun hauth => ?_⟩
  · rw [fields_build hmac secret time hn]
    exact List.append_ne_nil_of_left_ne_nil hleft _
  · rw [fields_build hmac secret time hn, List.length_append]
    have h1 := List.length_pos_iff.mpr hleft
    have h2 := List.length_pos_iff.mpr (identityPairs_signed hmac secret time hauth hname)
    omega

/--
**The client has no say in its identity exactly when it sends no signature header.**

For every HMAC, secret, clock and gateway state and every two client header
lists: the five identity fields agree between the two forwarded requests, occur
at most once and not at all for an anonymous request, if and only if neither
client sends `X-Identity-Signature` or `X-Identity-Issued-At`.
-/
theorem identity_from_gateway_iff (r : ForwardRequest) (headers' : ClientHeaders)
    (urlHostname' : Option String) :
    IdentityFromGateway hmac secret time r
        { r with headers := headers', urlHostname := urlHostname' }
      ↔ ¬ r.headers.CarriesSignature ∧ ¬ headers'.CarriesSignature := by
  refine ⟨fun h => ⟨fun hc => ?_, fun hc => ?_⟩, fun ⟨h1, h2⟩ n hn => ?_⟩
  · obtain ⟨n, hn, hne, hlen⟩ := carries_spoils hmac secret time hc
    by_cases hs : r.state.Anonymous
    · exact hne ((h n hn).2.2 hs)
    · have := hlen hs
      have := (h n hn).2.1
      omega
  · -- the second request's fields are the first one's
    obtain ⟨n, hn, hne, hlen⟩ := carries_spoils hmac secret time
      (r := { r with headers := headers', urlHostname := urlHostname' }) hc
    rw [← (h n hn).1] at hne hlen
    by_cases hs : r.state.Anonymous
    · exact hne ((h n hn).2.2 hs)
    · have := hlen hs
      have := (h n hn).2.1
      omega
  · rw [fields_build hmac secret time hn, fields_build hmac secret time hn,
      fields_stripped_of_not_carries h1 hn, fields_stripped_of_not_carries h2 hn]
    refine ⟨rfl, identityPairs_length hmac secret time hn r.state, fun hs => ?_⟩
    have hu : orEmpty r.state.userId = "" := hs
    simp [identityPairs, hu]

/-- A login attempt that carries a signature of its own. -/
def forgedRequest : ForwardRequest where
  headers :=
    { items := [("host", "gw"), ("x-identity-signature", "AAAA")], lowered := by decide }
  clientHost := some "203.0.113.7"
  urlScheme := "https"
  urlHostname := some "gw"
  state := {}

/-- **The client's signature header is forwarded without any identity.** -/
theorem forged_signature_forwarded :
    forgedRequest.state.Anonymous
      ∧ fields "x-identity-signature" (buildForwardHeaders (fun _ m => m) "s" 0 forgedRequest)
        = [("x-identity-signature", "AAAA")]
      ∧ ¬ IdentityFromGateway (fun _ m => m) "s" 0 forgedRequest forgedRequest := by
  have hf : fields "x-identity-signature" (buildForwardHeaders (fun _ m => m) "s" 0 forgedRequest)
      = [("x-identity-signature", "AAAA")] := by decide
  have hanon : forgedRequest.state.Anonymous := rfl
  refine ⟨hanon, hf, fun h => ?_⟩
  have hnil := (h "x-identity-signature" (by decide)).2.2 hanon
  rw [hf] at hnil
  cases hnil

end Microservices.Gateway
