import Microservices.Gateway.Hardened
import Microservices.Gateway.IdentityHeaders
import Microservices.Lib.Uuid

/-!
# The correlation id of a forwarded request

`CorrelationMiddleware` checks the client's `X-Request-ID` and puts its own on the
response. The proxy writes the same one into the forwarded headers, in title case. But
`x-request-id` is none of the names it strips, and what the client sent goes along,
checked or not.
-/

namespace Microservices.Gateway

open Identity

/-- What `_build_forward_headers` reads of the request. -/
def HttpRequest.forwarded (q : HttpRequest) (urlScheme : String) (urlHostname : Option String) :
    ForwardRequest where
  headers := q.headers
  clientHost := q.clientHost
  urlScheme := urlScheme
  urlHostname := urlHostname
  state := q.state

/-- 1 to 128 printable ASCII characters, none of them whitespace. -/
def SafeId (id : String) : Prop :=
  1 ≤ id.toList.length ∧ id.toList.length ≤ 128 ∧ ∀ c ∈ id.toList, 0x21 ≤ c.toNat ∧ c.toNat ≤ 0x7E

/-- **One safe id**: the upstream gets one field of the name, and the client gets its value. -/
def OneSafeId (forwarded : HeaderDict) (r : Response) : Prop :=
  ∃ key id, fields "x-request-id" forwarded = [(key, id)] ∧ r.header? "X-Request-ID" = some id
    ∧ SafeId id

/-- What `str(uuid.uuid4())` gives is one. -/
theorem safeId_uuid (u : UUID) : SafeId u.text := by
  refine ⟨by rw [UUID.length_text]; decide, by rw [UUID.length_text]; decide, fun c hc => ?_⟩
  rw [UUID.text, String.toList_ofList] at hc
  have hrange : Hex.alphabet.all (fun c => 0x20 < c.toNat ∧ c.toNat < 0x7F) = true := by decide
  rcases UUID.mem_hyphenate hc with rfl | hc
  · decide
  · obtain ⟨hlow, hhigh⟩ := of_decide_eq_true (List.all_eq_true.mp hrange c (Hex.mem_digits hc))
    exact ⟨hlow, Nat.le_of_lt_succ hhigh⟩

/-! ## What is forwarded -/

section Forwarded

variable (hmac : Bytes → Bytes → Bytes) (secret : String) (time : Int)

theorem identityKeys_not_requestId : ∀ k ∈ identityKeys, (lower k == "x-request-id") = false := by
  decide +kernel

theorem forwardedKeys_not_requestId :
    ∀ k ∈ ["X-Forwarded-For", "X-Forwarded-Proto", "X-Forwarded-Host"],
      (lower k == "x-request-id") = false := by
  decide +kernel

/-- Before the id is written, the fields of its name are the client's. -/
theorem fields_before_requestId (r : ForwardRequest) (d : HeaderDict) :
    fields "x-request-id" (setIdentity hmac secret time r.state (setForwarded r d))
      = fields "x-request-id" d := by
  rw [setIdentity_eq_setAll, fields, Dict.select_setAll_of_not]
  · exact fields_setForwarded forwardedKeys_not_requestId r d
  · intro e he
    exact identityKeys_not_requestId e.1
      ((identityPairs_keys hmac secret time r.state).subset (List.mem_map_of_mem he))

/-- The key the gateway writes is new: the client's are in lower case. -/
theorem requestIdKey_fresh (r : ForwardRequest) :
    "X-Request-ID" ∉
      (setIdentity hmac secret time r.state (setForwarded r (strippedHeaders r.headers))).keys := by
  intro hmem
  rw [setIdentity_eq_setAll] at hmem
  rcases Dict.mem_keys_setAll.mp hmem with hmem | hmem
  · have hnot : "X-Request-ID" ∉ identityKeys := by decide
    exact hnot ((identityPairs_keys hmac secret time r.state).subset hmem)
  · rcases mem_keys_setForwarded hmem with hmem | hmem
    · exact absurd hmem (by decide)
    · have hlower : lower "X-Request-ID" ≠ "X-Request-ID" := by decide
      exact hlower (lower_of_mem_stripped hmem).1

/-- **What the client sent under the name, and the gateway's id after it.** -/
theorem fields_requestId {r : ForwardRequest} {id : String} (hid : r.state.requestId = some id)
    (hne : id ≠ "") :
    fields "x-request-id" (buildForwardHeaders hmac secret time r)
      = fields "x-request-id" (strippedHeaders r.headers) ++ [("X-Request-ID", id)] := by
  have hlower : (lower "X-Request-ID" == "x-request-id") = true := by decide +kernel
  rw [buildForwardHeaders, setRequestId, hid]
  show fields _ (if id = "" then _ else Dict.set _ _ id) = _
  rw [if_neg hne, fields, Dict.select,
    Dict.set_entries_of_not_mem (requestIdKey_fresh hmac secret time r), List.filter_append,
    List.filter_singleton, hlower]
  exact congrArg (· ++ _)
    (fields_before_requestId hmac secret time r (strippedHeaders r.headers))

/-- Nothing is left of the name just if the client did not send it. -/
theorem fields_stripped_requestId (h : ClientHeaders) :
    fields "x-request-id" (strippedHeaders h) = [] ↔ h.get? "x-request-id" = none := by
  have hpasses : passesStripping "x-request-id" = true := by decide +kernel
  have hlower : lower "x-request-id" = "x-request-id" := by decide +kernel
  rw [fields, Dict.select_eq_nil_iff, ClientHeaders.get?, Option.map_eq_none_iff,
    List.find?_eq_none]
  constructor
  · intro hnil e he heq
    have hname : e.1 = "x-request-id" := eq_of_beq heq
    have hmem : "x-request-id" ∈ (strippedHeaders h).keys := by
      rw [strippedHeaders, Dict.mem_keys_ofPairs, ← hname]
      exact List.mem_map_of_mem (List.mem_filter.mpr ⟨he, hname ▸ hpasses⟩)
    have hsent := hnil _ hmem
    rw [hlower, beq_self_eq_true] at hsent
    cases hsent
  · intro hno k hk
    obtain ⟨hk', _⟩ := lower_of_mem_stripped hk
    rw [strippedHeaders, Dict.mem_keys_ofPairs] at hk
    obtain ⟨e, he, rfl⟩ := List.mem_map.mp hk
    rw [hk']
    exact Bool.not_eq_true _ ▸ hno e (List.mem_filter.mp he).1

end Forwarded

/-! ## What the client gets -/

namespace GatewayApp

variable {σ τ : Type} {g : GatewayApp σ τ} {q : HttpRequest} {w : StackState σ τ}
  {identity : Option RequestState}

theorem requestId_ne_empty (huuid : w.uuid4 ≠ "") : requestId q w ≠ "" := by
  unfold requestId sanitizeOrGenerate
  split
  · rename_i h
    exact h.1
  · exact huuid

theorem requestId_of_none (h : q.headers.get? "x-request-id" = none) :
    requestId q w = w.uuid4 := by
  unfold requestId sanitizeOrGenerate
  rw [h]
  exact if_neg fun hne => hne.1 rfl

/-- The routes' answer has the id on it, -/
theorem AnsweredByRoutes.header_requestId (h : g.AnsweredByRoutes q w identity)
    (hcors : g.cors.Documented) :
    ∃ r, (g.app q w).1 = .ok r ∧ r.header? "X-Request-ID" = some (requestId q w) := by
  obtain ⟨r, headers, _, happ⟩ := h.answer hcors
  refine ⟨_, happ, ?_⟩
  rw [leaves_timed _ _ requestId_mem, decorated, header?_setHeader_self]

/-- and where they raise, or their body is too large, the response has none. -/
theorem ReachesCors.header_none (h : g.ReachesCors q w identity) (hcors : g.cors.Documented)
    (hpreflight : ¬ q.IsPreflight) (hnot : ¬ g.AnsweredByRoutes q w identity) :
    ∃ r, (g.app q w).1 = .ok r ∧ r.header? "X-Request-ID" = none := by
  rcases h.outcome hcors hpreflight with hroutes | hraised | hlarge
  · exact absurd hroutes hnot
  · exact ⟨_, hraised, rfl⟩
  · refine ⟨_, hlarge, ?_⟩
    rw [leaves_timed _ _ requestId_mem]
    rfl

/--
**One safe id goes both ways just if the client sends none, and the routes answer.**

A request that reaches the routes is forwarded with the gateway's id, and with whatever
the client sent in its place.
-/
theorem one_safe_id_iff (g : GatewayApp σ τ) (hcors : g.cors.Documented)
    (hmac : Bytes → Bytes → Bytes) (secret : String) (q : HttpRequest) (w : StackState σ τ)
    (hreaches : g.ReachesCors q w identity) (hpreflight : ¬ q.IsPreflight)
    (huuid : ∃ u : UUID, w.uuid4 = u.text) (urlScheme : String) (urlHostname : Option String) :
    (∃ r, (g.app q w).1 = .ok r
        ∧ OneSafeId (buildForwardHeaders hmac secret w.time
            ((atLimiter q w identity).forwarded urlScheme urlHostname)) r)
      ↔ q.headers.get? "x-request-id" = none ∧ g.AnsweredByRoutes q w identity := by
  obtain ⟨u, hu⟩ := huuid
  have hsafe : SafeId w.uuid4 := hu ▸ safeId_uuid u
  have hne : w.uuid4 ≠ "" := by
    intro hempty
    have hpos := hsafe.1
    rw [hempty] at hpos
    exact absurd hpos (by decide)
  have hfields : fields "x-request-id" (buildForwardHeaders hmac secret w.time
        ((atLimiter q w identity).forwarded urlScheme urlHostname))
      = fields "x-request-id" (strippedHeaders q.headers) ++ [("X-Request-ID", requestId q w)] :=
    fields_requestId hmac secret w.time rfl (requestId_ne_empty hne)
  constructor
  · rintro ⟨r, hr, key, id, hone, hid, _⟩
    constructor
    · rw [← fields_stripped_requestId]
      rw [hfields] at hone
      have hlength := congrArg List.length hone
      rw [List.length_append, List.length_singleton, List.length_singleton] at hlength
      exact List.length_eq_zero_iff.mp (by omega)
    · by_contra hnot
      obtain ⟨r', hr', hnone⟩ := hreaches.header_none hcors hpreflight hnot
      cases hr.symm.trans hr'
      rw [hid] at hnone
      cases hnone
  · rintro ⟨hnone, hroutes⟩
    obtain ⟨r, hr, hid⟩ := hroutes.header_requestId hcors
    refine ⟨r, hr, "X-Request-ID", requestId q w, ?_, hid, ?_⟩
    · rw [hfields, (fields_stripped_requestId q.headers).mpr hnone, List.nil_append]
    · rw [requestId_of_none hnone]
      exact hsafe

end GatewayApp

theorem atNoon_uuid : ∃ u : UUID, atNoon.uuid4 = u.text :=
  ⟨UUID.ofNat 0x0b9e4d1c5f3a4c689d276a1f8e2b7c30, by decide +kernel⟩

theorem login_one_safe_id :
    ∃ r, (oneRequestGateway.app (anonymous "/api/v1/auth/login") atNoon).1 = .ok r
      ∧ OneSafeId (buildForwardHeaders (fun _ m => m) "s" 43200
          ((GatewayApp.atLimiter (anonymous "/api/v1/auth/login") atNoon none).forwarded "https"
            (some "gateway"))) r := by
  have hpath : (anonymous "/api/v1/auth/login").urlPath = "/api/v1/auth/login" :=
    anonymous_urlPath rfl
  have hroutes : oneRequestGateway.AnsweredByRoutes (anonymous "/api/v1/auth/login") atNoon none :=
    { readable := Option.isSome_of_eq_some (anonymous_path? rfl)
      declared := by decide
      token := jwtAuth_none_iff.mpr (by rw [hpath]; decide)
      budget := by decide +kernel
      notPreflight := fun h => absurd h.1 (by decide)
      handled := by intro h; cases h
      fits := rfl }
  exact (GatewayApp.one_safe_id_iff oneRequestGateway noOrigins_documented (fun _ m => m) "s"
    (anonymous "/api/v1/auth/login") atNoon
    ⟨hroutes.readable, hroutes.declared, hroutes.token, hroutes.budget⟩ hroutes.notPreflight atNoon_uuid "https"
    (some "gateway")).mpr ⟨by decide, hroutes⟩

/-- A login whose `X-Request-ID` the middleware refuses: it has a blank in it. -/
def loginWithId : HttpRequest where
  method := "POST"
  path := "/api/v1/auth/login"
  headers := { items := [("host", "gateway"), ("x-request-id", "seen twice")], lowered := by decide }
  clientHost := some "203.0.113.7"
  body := [.request [] false]

theorem loginWithId_path? : loginWithId.urlScope.path? = some "/api/v1/auth/login" :=
  UrlScope.path?_of_isBare rfl rfl (by decide) rfl rfl

/-- **The id the middleware refuses is forwarded, beside the one it makes.** -/
theorem refused_id_forwarded :
    oneRequestGateway.AnsweredByRoutes loginWithId atNoon none
      ∧ fields "x-request-id" (buildForwardHeaders (fun _ m => m) "s" 43200
          ((GatewayApp.atLimiter loginWithId atNoon none).forwarded "https" (some "gateway")))
        = [("x-request-id", "seen twice"),
          ("X-Request-ID", "0b9e4d1c-5f3a-4c68-9d27-6a1f8e2b7c30")]
      ∧ ∀ r, ¬ OneSafeId (buildForwardHeaders (fun _ m => m) "s" 43200
          ((GatewayApp.atLimiter loginWithId atNoon none).forwarded "https" (some "gateway"))) r := by
  have hfields : fields "x-request-id" (buildForwardHeaders (fun _ m => m) "s" 43200
        ((GatewayApp.atLimiter loginWithId atNoon none).forwarded "https" (some "gateway")))
      = [("x-request-id", "seen twice"),
        ("X-Request-ID", "0b9e4d1c-5f3a-4c68-9d27-6a1f8e2b7c30")] := by decide +kernel
  have hpath : loginWithId.urlPath = "/api/v1/auth/login" :=
    congrArg (Option.getD · "") loginWithId_path?
  refine ⟨?_, hfields, ?_⟩
  · exact
      { readable := Option.isSome_of_eq_some loginWithId_path?
        declared := by decide
        token := jwtAuth_none_iff.mpr (by rw [hpath]; decide)
        budget := by decide +kernel
        notPreflight := fun h => absurd h.1 (by decide)
        handled := by intro h; cases h
        fits := rfl }
  · rintro r ⟨key, id, hone, _⟩
    rw [hfields] at hone
    cases hone

end Microservices.Gateway
