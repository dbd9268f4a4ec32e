import Microservices.Gateway.Stack

/-!
# Which responses are hardened

`SecurityHeadersMiddleware` is added first and so lies innermost: it sees the
responses of the routes and none of those that a layer above it makes. Of these
the body-size limit and the JWT layer lie above `CorrelationMiddleware` as well,
and their responses have no request id either. Where the client's `Host` makes
`request.url.path` raise, the answer is the framework's and has neither.
-/

namespace Microservices.Gateway

/-- The response carries every security header and a request id. -/
structure Hardened (r : Response) : Prop where
  secure : ∀ h ∈ securityHeaders, r.header? h.1 = some h.2
  traceable : (r.header? "X-Request-ID").isSome

/-- What CORS calls a preflight. -/
def HttpRequest.IsPreflight (q : HttpRequest) : Prop :=
  q.method = "OPTIONS" ∧ (q.headers.get? "origin").isSome
    ∧ (q.headers.get? "access-control-request-method").isSome

/-- The headers the CORS layer writes. -/
def isCorsName (name : String) : Bool :=
  startsWith (lower name) "access-control-" || lower name == "vary"

/-- The framework's documented behaviour: preflights, and only these, are answered by the layer
itself, and of other responses only its own headers are touched. -/
structure Cors.Documented (c : Cors) : Prop where
  preflight_iff : ∀ q, (c.preflight q).isSome ↔ q.IsPreflight
  preflight_headers : ∀ q r name, c.preflight q = some r → (r.header? name).isSome →
    isCorsName name = true ∨ lower name ∈ ["content-type", "content-length"]
  decorate_headers : ∀ q r name, isCorsName name = false →
    (c.decorate q r).header? name = r.header? name

/-! ## Headers that stay -/

section Headers

variable {r : Response}

theorem header?_setHeader_self (r : Response) (name value : String) :
    (r.setHeader name value).header? name = some value :=
  Multidict.get?_set_self ..

theorem header?_setHeader_of_ne {name name' : String} (h : lower name ≠ lower name')
    (value : String) : (r.setHeader name value).header? name' = r.header? name' :=
  Multidict.get?_set_of_ne h ..

theorem map_fst_lowered (headers : List (String × String)) :
    (headers.map fun h => (lower h.1, h.2)).map Prod.fst = headers.map fun h => lower h.1 := by
  rw [List.map_map]
  rfl

theorem header?_setHeaders_of_ne {headers : List (String × String)} {name : String}
    (h : ∀ e ∈ headers, lower e.1 ≠ lower name) :
    (r.setHeaders headers).header? name = r.header? name := by
  refine Multidict.get?_setAll_of_not_mem ?_ r.headers
  rw [map_fst_lowered]
  intro hmem
  obtain ⟨e, he, heq⟩ := List.mem_map.mp hmem
  exact h e he heq

/-- Of headers with different names every one is read back. -/
theorem header?_setHeaders {headers : List (String × String)} {e : String × String}
    (hnodup : (headers.map fun h => lower h.1).Nodup) (he : e ∈ headers) :
    (r.setHeaders headers).header? e.1 = some e.2 := by
  rw [← map_fst_lowered] at hnodup
  have hmem : (lower e.1, e.2) ∈ headers.map fun h => (lower h.1, h.2) :=
    List.mem_map.mpr ⟨e, he, rfl⟩
  exact Multidict.get?_setAll_of_mem hmem hnodup r.headers

theorem header?_delHeader_of_ne {name name' : String} (h : lower name ≠ lower name') :
    (r.delHeader name).header? name' = r.header? name' :=
  Multidict.get?_del_of_ne h _

/-- The answer of a layer to an exception has no headers but the exception's and a content type. -/
theorem header?_ofException_of_ne {e : HTTPException} {name : String}
    (h : ∀ name' ∈ "content-type" :: e.headers.map Prod.fst, lower name' ≠ lower name) :
    (Response.ofException e).header? name = none := by
  unfold Response.header? Response.ofException Multidict.get?
  rw [Option.map_eq_none_iff, List.find?_eq_none]
  intro field hfield
  rw [decide_eq_true_iff]
  rcases List.mem_append.mp hfield with hfield | hfield
  · obtain ⟨e', he', rfl⟩ := List.mem_map.mp hfield
    exact h e'.1 (List.mem_cons_of_mem _ (List.mem_map_of_mem he'))
  · rw [List.mem_singleton.mp hfield]
    exact h "content-type" List.mem_cons_self

/-- The names that make a response hardened. -/
def hardeningNames : List String := "X-Request-ID" :: securityHeaders.map Prod.fst

/-- The other names that the layers above the routes write or delete. -/
def otherNames : List String :=
  ["content-type", "WWW-Authenticate", "Retry-After", "Cache-Control", "Pragma", "server",
   "x-powered-by", "X-Response-Time", "X-RateLimit-Limit", "X-RateLimit-Remaining",
   "X-RateLimit-Scope", "X-RateLimit-Reset"]

/-- `f` leaves the headers that make a response hardened. -/
def Leaves (f : Response → Response) : Prop :=
  ∀ r, ∀ name ∈ hardeningNames, (f r).header? name = r.header? name

theorem requestId_mem : "X-Request-ID" ∈ hardeningNames := List.mem_cons_self

theorem mem_hardeningNames {h : String × String} (hh : h ∈ securityHeaders) :
    h.1 ∈ hardeningNames :=
  List.mem_cons_of_mem _ (List.mem_map_of_mem hh)

theorem frameOptions_mem : "X-Frame-Options" ∈ hardeningNames :=
  mem_hardeningNames (h := ("X-Frame-Options", "DENY")) (by simp [securityHeaders])

/-- The names differ whatever their case. -/
theorem hardeningNames_nodup : (hardeningNames.map lower).Nodup := by decide +kernel

theorem lower_other_ne :
    ∀ name ∈ otherNames, ∀ name' ∈ hardeningNames, lower name ≠ lower name' := by
  decide +kernel

theorem lower_requestId_ne {h : String × String} (hh : h ∈ securityHeaders) :
    lower "X-Request-ID" ≠ lower h.1 := by
  intro heq
  refine (List.nodup_cons.mp hardeningNames_nodup).1 ?_
  rw [heq]
  exact List.mem_map_of_mem (List.mem_map_of_mem hh)

theorem leaves_setHeader {name : String} (value : String) (h : name ∈ otherNames) :
    Leaves fun r => r.setHeader name value :=
  fun _ name' hname' => header?_setHeader_of_ne (lower_other_ne name h name' hname') value

theorem leaves_setHeaders {headers : List (String × String)}
    (h : headers.map Prod.fst ⊆ otherNames) : Leaves fun r => r.setHeaders headers :=
  fun _ name' hname' => header?_setHeaders_of_ne fun e he =>
    lower_other_ne e.1 (h (List.mem_map_of_mem he)) name' hname'

theorem leaves_delHeader {name : String} (h : name ∈ otherNames) :
    Leaves fun r => r.delHeader name :=
  fun _ name' hname' => header?_delHeader_of_ne (lower_other_ne name h name' hname')

theorem header?_ofException {e : HTTPException} {name : String}
    (h : e.headers.map Prod.fst ⊆ otherNames) (hname : name ∈ hardeningNames) :
    (Response.ofException e).header? name = none := by
  refine header?_ofException_of_ne fun name' hname' => lower_other_ne name' ?_ name hname
  rcases List.mem_cons.mp hname' with rfl | hname'
  · exact List.mem_cons_self
  · exact h hname'

/-- **A response of the routes comes out with the security headers.** -/
theorem secured_secure (path : String) (r : Response) :
    ∀ h ∈ securityHeaders, (secured path r).header? h.1 = some h.2 := by
  intro h hh
  have hname := mem_hardeningNames hh
  have hnodup : (securityHeaders.map fun h => lower h.1).Nodup := by
    have hall := (List.nodup_cons.mp hardeningNames_nodup).2
    rwa [List.map_map] at hall
  have hset : (r.setHeaders securityHeaders).header? h.1 = some h.2 :=
    header?_setHeaders hnodup hh
  -- what comes after writes and deletes other headers
  have hserver : Leaves fun r => r.delHeader "server" := leaves_delHeader (by simp [otherNames])
  have hpowered : Leaves fun r => r.delHeader "x-powered-by" :=
    leaves_delHeader (by simp [otherNames])
  unfold secured headersToRemove
  rw [List.foldl_cons, List.foldl_cons, List.foldl_nil]
  refine (hpowered _ h.1 hname).trans ((hserver _ h.1 hname).trans ?_)
  split
  · exact (leaves_setHeaders (by simp [otherNames]) _ h.1 hname).trans hset
  · exact hset

theorem leaves_decorate {c : Cors} (hc : c.Documented) (q : HttpRequest) :
    Leaves (c.decorate q) := by
  have hnames : ∀ name ∈ hardeningNames, isCorsName name = false := by decide +kernel
  exact fun r name hname => hc.decorate_headers q r name (hnames name hname)

/-- A response without one of them is not hardened. -/
theorem not_hardened_of_missing {name : String} (hname : name ∈ hardeningNames)
    (h : r.header? name = none) : ¬ Hardened r := by
  intro hr
  rcases List.mem_cons.mp hname with rfl | hname
  · have := hr.traceable
    rw [h] at this
    cases this
  · obtain ⟨e, he, rfl⟩ := List.mem_map.mp hname
    have := hr.secure e he
    rw [h] at this
    cases this

end Headers

/-! ## The layers -/

theorem afterwards_id {σ τ : Type} (out : Except Raised Response × StackState σ τ) :
    afterwards id out = out := by
  obtain ⟨answer, w⟩ := out
  cases answer with
  | ok r => rfl
  | error e => rfl

namespace GatewayApp

variable {σ τ : Type} {g : GatewayApp σ τ} {q : HttpRequest} {w : StackState σ τ}

variable (g q) in
/-- What the routes make of a request, and what its body came to. -/
def routed : Except Raised Response × Count :=
  if g.routes.readsBody q then
    match g.bodySize.readBody {} q.body with
    | (none, count) => (.error .other, count)
    | (some body, count) => (g.routes.answer q body, count)
  else (g.routes.answer q [], {})

theorem router_eq (hcount : w.count = {}) :
    g.router q w = ((g.routed q).1, { w with count := (g.routed q).2 }) := by
  unfold router routed
  rw [hcount]
  by_cases hreads : g.routes.readsBody q = true
  · rw [if_pos hreads, if_pos hreads]
    cases g.bodySize.readBody {} q.body with
    | mk body count =>
        cases body with
        | none => rfl
        | some body => rfl
  · rw [if_neg hreads, if_neg hreads, ← hcount]

/-- An answer of the routes, or of the handler around them. -/
theorem exceptionMiddleware_of_handled (hcount : w.count = {})
    (hhandled : (g.routed q).1 ≠ .error .other) :
    ∃ r, exceptionMiddleware g.router q w = (.ok r, { w with count := (g.routed q).2 }) := by
  unfold exceptionMiddleware
  rw [router_eq hcount]
  cases hrouted : (g.routed q).1 with
  | ok r => exact ⟨r, rfl⟩
  | error raised =>
      cases raised with
      | httpException e => exact ⟨_, rfl⟩
      | other => exact absurd hrouted hhandled

theorem exceptionMiddleware_of_other (hcount : w.count = {})
    (hother : (g.routed q).1 = .error .other) :
    exceptionMiddleware g.router q w = (.error .other, { w with count := (g.routed q).2 }) := by
  unfold exceptionMiddleware
  rw [router_eq hcount, hother]

/-- A preflight is answered without the security headers. -/
theorem preflight_frameOptions (hcors : g.cors.Documented) {p : Response}
    (hp : g.cors.preflight q = some p) : p.header? "X-Frame-Options" = none := by
  by_contra hne
  rcases hcors.preflight_headers q p "X-Frame-Options" hp (Option.isSome_iff_ne_none.mpr hne)
    with hname | hname
  · exact absurd hname (by decide)
  · exact absurd hname (by decide)

theorem belowLimiter_of_not_preflight (hcors : g.cors.Documented) (hread : q.readable = true)
    (h : ¬ q.IsPreflight) :
    g.belowLimiter q w = afterwards (g.cors.decorate q)
      (afterwards (secured q.urlPath) (exceptionMiddleware g.router q w)) := by
  have hnone : g.cors.preflight q = none := by
    rw [← Option.not_isSome_iff_eq_none, hcors.preflight_iff]
    exact h
  unfold belowLimiter corsMiddleware securityHeadersMiddleware
  rw [hnone, reading_of_readable hread]

/-- A request within its budgets is passed on, and the response gets headers of its own at most. -/
theorem rateLimiter_of_within (app : App σ τ) (hread : q.readable = true)
    (h : g.tooMany q w = none) :
    ∃ headers w', headers.map Prod.fst ⊆ otherNames ∧ w'.count = w.count
      ∧ g.rateLimiterMiddleware app q w = afterwards (·.setHeaders headers) (app q w') := by
  unfold rateLimiterMiddleware
  rw [hread, if_neg (by simp)]
  by_cases hpath : q.urlPath ∈ exemptPaths
  · refine ⟨[], w, List.nil_subset _, rfl, ?_⟩
    rw [if_pos hpath]
    exact (afterwards_id _).symm
  · refine ⟨g.budgetHeaders q w, g.charge q w, by simp [budgetHeaders, otherNames], rfl, ?_⟩
    rw [if_neg hpath, h]

/-- The limiter's own answer is a 429 with headers of its own. -/
theorem tooMany_eq_some {e : HTTPException} (h : g.tooMany q w = some e) :
    q.urlPath ∉ exemptPaths ∧ e.headers.map Prod.fst = ["Retry-After", "X-RateLimit-Limit",
      "X-RateLimit-Remaining", "X-RateLimit-Reset", "X-RateLimit-Scope"] := by
  unfold tooMany RateLimiter.limit at h
  by_cases hpath : q.urlPath ∈ exemptPaths
  · rw [if_pos hpath] at h
    cases h
  · rw [if_neg hpath] at h
    obtain ⟨_, he⟩ := Option.ite_none_right_eq_some.mp h
    cases he
    exact ⟨hpath, rfl⟩

theorem tooMany_names {e : HTTPException} (h : g.tooMany q w = some e) :
    e.headers.map Prod.fst ⊆ otherNames := by
  rw [(tooMany_eq_some h).2]
  simp [otherNames]

theorem authenticate_error_names {e : HTTPException} (h : g.authenticate q = .error e) :
    e.headers.map Prod.fst ⊆ otherNames := by
  rcases (jwtAuth_error h).1 with hheaders | hheaders
  · rw [hheaders]
    exact List.nil_subset _
  · rw [hheaders]
    simp [otherNames]

theorem leaves_timed : Leaves (g.timed w) := by
  intro r name hname
  unfold timed
  split
  · rfl
  · exact leaves_setHeader w.elapsed (by simp [otherNames]) r name hname

/-! ## The whole stack -/

/-- **Nothing above the routes answers in their place**: the URL can be read, the declared length is
acceptable, the token is not refused, no budget is over, the request is no preflight, no exception but an
`HTTPException` leaves the routes, and the body they read is within the limit. -/
structure AnsweredByRoutes (g : GatewayApp σ τ) (q : HttpRequest) (w : StackState σ τ)
    (identity : Option RequestState) : Prop where
  readable : q.readable = true
  declared : g.bodySize.declaredOversize (q.headers.get? "content-length") = false
  token : g.authenticate q = .ok identity
  budget : g.tooMany (atLimiter q w identity) w = none
  notPreflight : ¬ q.IsPreflight
  handled : (g.routed (atLimiter q w identity)).1 ≠ .error .other
  fits : (g.routed (atLimiter q w identity)).2.oversize = false

/-- Nothing above the CORS layer answers in its place. -/
structure ReachesCors (g : GatewayApp σ τ) (q : HttpRequest) (w : StackState σ τ)
    (identity : Option RequestState) : Prop where
  readable : q.readable = true
  declared : g.bodySize.declaredOversize (q.headers.get? "content-length") = false
  token : g.authenticate q = .ok identity
  budget : g.tooMany (atLimiter q w identity) w = none

/-- What the layers between the body-size limit and the CORS layer add to a response. -/
def decorated (headers : List (String × String)) (id : String) (r : Response) : Response :=
  (r.setHeaders headers).setHeader "X-Request-ID" id

theorem leaves_decorated {headers : List (String × String)} (h : headers.map Prod.fst ⊆ otherNames)
    (id : String) (r : Response) {e : String × String} (he : e ∈ securityHeaders) :
    (decorated headers id r).header? e.1 = r.header? e.1 :=
  (header?_setHeader_of_ne (lower_requestId_ne he) id).trans
    (leaves_setHeaders h r e.1 (mem_hardeningNames he))

/-- Such a request gets there, and what comes back is decorated. -/
theorem ReachesCors.below {identity : Option RequestState} (h : g.ReachesCors q w identity) :
    ∃ headers w₁, headers.map Prod.fst ⊆ otherNames ∧ w₁.count = {}
      ∧ g.belowBodySize q { w with count := {} }
          = afterwards (decorated headers (requestId q w))
            (g.belowLimiter (atLimiter q w identity) w₁) := by
  obtain ⟨headers, w₁, hnames, hcount, hpasses⟩ := rateLimiter_of_within g.belowLimiter
    (q := atLimiter q w identity) (w := { w with count := {} }) h.readable h.budget
  refine ⟨headers, w₁, hnames, hcount, ?_⟩
  have hbelow := belowBodySize_of_authenticated (w := { w with count := {} }) h.readable h.token
  have hsame : atLimiter q { w with count := {} } identity = atLimiter q w identity := rfl
  rw [hsame, hpasses] at hbelow
  rw [hbelow]
  unfold afterwards
  cases (g.belowLimiter (atLimiter q w identity) w₁).1 with
  | ok r => rfl
  | error e => rfl

/-- The CORS layer's answer to a preflight leaves the gateway, -/
theorem ReachesCors.preflight {identity : Option RequestState} (h : g.ReachesCors q w identity)
    (hcors : g.cors.Documented) (hpreflight : q.IsPreflight) :
    ∃ p headers id, g.cors.preflight (atLimiter q w identity) = some p
      ∧ headers.map Prod.fst ⊆ otherNames
      ∧ (g.app q w).1 = .ok (g.timed w (decorated headers id p)) := by
  obtain ⟨headers, w₁, hnames, hcount, hbelow⟩ := h.below
  obtain ⟨p, hp⟩ := Option.isSome_iff_exists.mp
    ((hcors.preflight_iff (atLimiter q w identity)).mpr hpreflight)
  have hanswer : g.belowLimiter (atLimiter q w identity) w₁ = (.ok p, w₁) := by
    unfold belowLimiter corsMiddleware
    rw [hp]
  rw [hanswer] at hbelow
  have happ := app_of_answer h.readable h.declared hbelow
  rw [hcount, if_neg Bool.false_ne_true] at happ
  exact ⟨p, headers, requestId q w, hp, hnames, congrArg Prod.fst happ⟩

/-- and so does the routes' answer, with what the CORS layer and those above it add. -/
theorem AnsweredByRoutes.answer {identity : Option RequestState}
    (h : g.AnsweredByRoutes q w identity) (hcors : g.cors.Documented) :
    ∃ r headers, headers.map Prod.fst ⊆ otherNames
      ∧ (g.app q w).1 = .ok (g.timed w (decorated headers (requestId q w)
          (g.cors.decorate (atLimiter q w identity)
            (secured q.urlPath r)))) := by
  have hreaches : g.ReachesCors q w identity := ⟨h.readable, h.declared, h.token, h.budget⟩
  obtain ⟨headers, w₁, hnames, hcount, hbelow⟩ := hreaches.below
  rw [belowLimiter_of_not_preflight (q := atLimiter q w identity) hcors h.readable h.notPreflight]
    at hbelow
  obtain ⟨r, hr⟩ := exceptionMiddleware_of_handled (w := w₁) hcount h.handled
  rw [hr] at hbelow
  have happ := app_of_answer h.readable h.declared hbelow
  rw [if_neg (by exact h.fits ▸ Bool.false_ne_true)] at happ
  exact ⟨r, headers, hnames, congrArg Prod.fst happ⟩

/-- Below the CORS layer it is the routes, the handler around the stack if they raise, or the
body-size limit. -/
theorem ReachesCors.outcome {identity : Option RequestState} (h : g.ReachesCors q w identity)
    (hcors : g.cors.Documented) (hpreflight : ¬ q.IsPreflight) :
    g.AnsweredByRoutes q w identity ∨ (g.app q w).1 = .ok internalServerError
      ∨ (g.app q w).1 = .ok (g.timed w (.ofException g.bodySize.tooLargeResponse)) := by
  obtain ⟨headers, w₁, _, hcount, hbelow⟩ := h.below
  rw [belowLimiter_of_not_preflight (q := atLimiter q w identity) hcors h.readable hpreflight] at hbelow
  by_cases hhandled : (g.routed (atLimiter q w identity)).1 = .error .other
  · rw [exceptionMiddleware_of_other hcount hhandled] at hbelow
    exact Or.inr (Or.inl (congrArg Prod.fst (app_of_raised h.readable h.declared hbelow)))
  · obtain ⟨r, hr⟩ := exceptionMiddleware_of_handled hcount hhandled
    rw [hr] at hbelow
    cases hover : (g.routed (atLimiter q w identity)).2.oversize with
    | true =>
        have happ := app_of_answer h.readable h.declared hbelow
        rw [if_pos (by exact hover)] at happ
        exact Or.inr (Or.inr (congrArg Prod.fst happ))
    | false => exact Or.inl ⟨h.readable, h.declared, h.token, h.budget, hpreflight, hhandled, hover⟩

/-- **Which layer a response is from**, and what the layers above have made of it. -/
inductive AppOutcome (g : GatewayApp σ τ) (q : HttpRequest) (w : StackState σ τ) :
    Response → Prop where
  /-- The body-size limit, by the declared length or by what the routes read. -/
  | tooLarge : AppOutcome g q w (g.timed w (.ofException g.bodySize.tooLargeResponse))
  /-- The JWT layer. -/
  | refused {e : HTTPException} (hauth : g.authenticate q = .error e) :
      AppOutcome g q w (g.timed w (.ofException e))
  /-- The limiter. -/
  | tooMany {identity : Option RequestState} {e : HTTPException}
      (hmany : g.tooMany (atLimiter q w identity) w = some e) (id : String) :
      AppOutcome g q w (g.timed w ((Response.ofException e).setHeader "X-Request-ID" id))
  /-- The CORS layer. -/
  | preflight {identity : Option RequestState} {p : Response} {headers : List (String × String)}
      (h : g.ReachesCors q w identity) (hpreflight : q.IsPreflight)
      (hp : g.cors.preflight (atLimiter q w identity) = some p)
      (hnames : headers.map Prod.fst ⊆ otherNames) (id : String) :
      AppOutcome g q w (g.timed w (decorated headers id p))
  /-- The handler around the stack, where the routes raise or the URL cannot be read. -/
  | raised : AppOutcome g q w internalServerError
  | routes {identity : Option RequestState} {r : Response} (h : g.AnsweredByRoutes q w identity) :
      AppOutcome g q w r

theorem app_outcome_of_authenticated (hcors : g.cors.Documented) (hread : q.readable = true)
    (hdeclared : g.bodySize.declaredOversize (q.headers.get? "content-length") = false)
    {identity : Option RequestState} (hauth : g.authenticate q = .ok identity) :
    ∃ r, (g.app q w).1 = .ok r ∧ g.AppOutcome q w r := by
  cases hmany : g.tooMany (atLimiter q w identity) w with
  | some e =>
      have hbelow := belowBodySize_of_authenticated (w := { w with count := {} }) hread hauth
      have hsame : atLimiter q { w with count := {} } identity = atLimiter q w identity := rfl
      rw [hsame, rateLimiter_of_tooMany g.belowLimiter (q := atLimiter q w identity)
        (w := { w with count := {} }) hread (tooMany_eq_some hmany).1 hmany] at hbelow
      refine ⟨_, congrArg Prod.fst (app_of_answer hread hdeclared hbelow), ?_⟩
      rw [if_neg (by exact Bool.false_ne_true)]
      exact .tooMany hmany _
  | none =>
      have hreaches : g.ReachesCors q w identity := ⟨hread, hdeclared, hauth, hmany⟩
      by_cases hpreflight : q.IsPreflight
      · obtain ⟨p, headers, id, hp, hnames, happ⟩ := hreaches.preflight hcors hpreflight
        exact ⟨_, happ, .preflight hreaches hpreflight hp hnames id⟩
      · rcases hreaches.outcome hcors hpreflight with hroutes | hraised | hlarge
        · obtain ⟨r, headers, _, happ⟩ := hroutes.answer hcors
          exact ⟨_, happ, .routes hroutes⟩
        · exact ⟨_, hraised, .raised⟩
        · exact ⟨_, hlarge, .tooLarge⟩

theorem app_outcome (hcors : g.cors.Documented) (q : HttpRequest) (w : StackState σ τ) :
    ∃ r, (g.app q w).1 = .ok r ∧ g.AppOutcome q w r := by
  cases hread : q.readable with
  | false =>
      obtain ⟨w', happ, -⟩ := app_of_unreadable (g := g) (w := w) hread
      exact ⟨_, congrArg Prod.fst happ, .raised⟩
  | true =>
      cases hdeclared : g.bodySize.declaredOversize (q.headers.get? "content-length") with
      | true => exact ⟨_, congrArg Prod.fst (app_of_declared hread hdeclared), .tooLarge⟩
      | false =>
          cases hauth : g.authenticate q with
          | error e =>
              have hbelow := belowBodySize_of_refused (w := { w with count := {} }) hread hauth
              -- nothing of the body has been read, so its size is no matter
              refine ⟨_, congrArg Prod.fst (app_of_answer hread hdeclared hbelow), ?_⟩
              rw [if_neg (by exact Bool.false_ne_true)]
              exact .refused hauth
          | ok identity => exact app_outcome_of_authenticated hcors hread hdeclared hauth

/-- What comes from a layer above the routes lacks one of the headers. -/
theorem AppOutcome.routes_of_hardened {r : Response} (h : g.AppOutcome q w r)
    (hcors : g.cors.Documented) (hhardened : Hardened r) :
    ∃ identity, g.AnsweredByRoutes q w identity := by
  by_contra hnot
  have hid : lower "X-Request-ID" ≠ lower "X-Frame-Options" :=
    lower_requestId_ne (h := ("X-Frame-Options", "DENY")) (by simp [securityHeaders])
  have hmissing : ∃ name ∈ hardeningNames, r.header? name = none := by
    cases h with
    | tooLarge =>
        refine ⟨"X-Request-ID", requestId_mem, ?_⟩
        rw [leaves_timed _ _ requestId_mem]
        rfl
    | refused hauth =>
        refine ⟨"X-Request-ID", requestId_mem, ?_⟩
        rw [leaves_timed _ _ requestId_mem]
        exact header?_ofException (authenticate_error_names hauth) requestId_mem
    | tooMany hmany id =>
        refine ⟨"X-Frame-Options", frameOptions_mem, ?_⟩
        rw [leaves_timed _ _ frameOptions_mem, header?_setHeader_of_ne hid]
        exact header?_ofException (tooMany_names hmany) frameOptions_mem
    | preflight hreaches hpreflight hp hnames id =>
        refine ⟨"X-Frame-Options", frameOptions_mem, ?_⟩
        rw [leaves_timed _ _ frameOptions_mem, decorated, header?_setHeader_of_ne hid,
          leaves_setHeaders hnames _ _ frameOptions_mem]
        exact preflight_frameOptions hcors hp
    | raised => exact ⟨"X-Request-ID", requestId_mem, rfl⟩
    | routes h => exact absurd ⟨_, h⟩ hnot
  obtain ⟨name, hname, hmissing⟩ := hmissing
  exact not_hardened_of_missing hname hmissing hhardened

/-- And the routes' own response is hardened. -/
theorem AnsweredByRoutes.hardened {identity : Option RequestState}
    (h : g.AnsweredByRoutes q w identity) (hcors : g.cors.Documented) :
    ∃ r, (g.app q w).1 = .ok r ∧ Hardened r := by
  obtain ⟨r, headers, hnames, happ⟩ := h.answer hcors
  refine ⟨_, happ, fun e he => ?_, ?_⟩
  · -- set innermost, and left by every layer above
    rw [leaves_timed _ _ (mem_hardeningNames he), leaves_decorated hnames _ _ he,
      leaves_decorate hcors _ _ _ (mem_hardeningNames he)]
    exact secured_secure _ r e he
  · rw [leaves_timed _ _ requestId_mem, decorated, header?_setHeader_self]
    rfl

/--
**A response is hardened exactly if it is the routes' own.**

For every request, every store and state of it, every setting, every CORS layer that
does what is documented, and all routes.
-/
theorem hardened_iff (g : GatewayApp σ τ) (hcors : g.cors.Documented) (q : HttpRequest)
    (w : StackState σ τ) :
    (∃ r, (g.app q w).1 = .ok r ∧ Hardened r) ↔ ∃ identity, g.AnsweredByRoutes q w identity := by
  constructor
  · rintro ⟨r, hr, hhardened⟩
    obtain ⟨r', hr', houtcome⟩ := app_outcome hcors q w
    cases hr.symm.trans hr'
    exact houtcome.routes_of_hardened hcors hhardened
  · rintro ⟨identity, h⟩
    exact h.hardened hcors

end GatewayApp

theorem noOrigins_documented : noOrigins.Documented where
  preflight_iff := by
    intro q
    unfold noOrigins HttpRequest.IsPreflight
    dsimp only
    split
    · rename_i h
      exact iff_of_true rfl h
    · rename_i h
      exact iff_of_false Bool.false_ne_true h
  preflight_headers := by
    intro q r name hr hname
    unfold noOrigins at hr
    dsimp only at hr
    obtain ⟨_, hr⟩ := Option.ite_none_right_eq_some.mp hr
    cases hr
    unfold Response.header? Multidict.get? at hname
    rw [Option.isSome_map, List.find?_isSome] at hname
    obtain ⟨field, hfield, heq⟩ := hname
    -- each of its fields is one of those
    have hnames : ∀ n ∈ ["vary", "access-control-allow-methods", "access-control-max-age",
        "access-control-allow-headers", "content-type"],
        (startsWith n "access-control-" || n == "vary") = true
          ∨ n ∈ ["content-type", "content-length"] := by decide
    unfold isCorsName
    rw [← of_decide_eq_true heq]
    exact hnames field.1 (List.mem_map_of_mem hfield)
  decorate_headers := fun _ _ _ _ => rfl

theorem login_hardened :
    ∃ r, (oneRequestGateway.app (anonymous "/api/v1/auth/login") atNoon).1 = .ok r
      ∧ Hardened r := by
  have hpath : (anonymous "/api/v1/auth/login").urlPath = "/api/v1/auth/login" :=
    anonymous_urlPath rfl
  refine (GatewayApp.hardened_iff oneRequestGateway noOrigins_documented
    (anonymous "/api/v1/auth/login") atNoon).mpr ⟨none, ?_⟩
  exact
    { readable := Option.isSome_of_eq_some (anonymous_path? rfl)
      declared := by decide
      token := jwtAuth_none_iff.mpr (by rw [hpath]; decide)
      budget := by decide +kernel
      notPreflight := fun h => absurd h.1 (by decide)
      handled := by intro h; cases h
      fits := rfl }

/-- **The 401 for a request without a token has no security header and no request id.** -/
theorem anonymous_not_hardened :
    ∃ r, (oneRequestGateway.app (anonymous "/api/v1/tasks") atNoon).1 = .ok r ∧ r.statusCode = 401
      ∧ (∀ name ∈ hardeningNames, r.header? name = none) ∧ ¬ Hardened r := by
  rw [anonymous_refused rfl (by decide)]
  refine ⟨_, rfl, rfl, by decide, fun h => ?_⟩
  exact absurd h.traceable (by decide)

end Microservices.Gateway
