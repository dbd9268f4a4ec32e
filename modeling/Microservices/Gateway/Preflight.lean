import Microservices.Gateway.Charged
import Microservices.Gateway.Hardened

/-!
# What a browser on an allowed origin gets

`CORSMiddleware` lies below the body-size limit, the JWT layer and the limiter. A
preflight carries no token, so the JWT layer refuses it on every path that is not
exempt, and what these layers answer themselves has no CORS header.
-/

namespace Microservices.Gateway

/-! ## The settings of the layer -/

/-- `allow_methods`. -/
def corsAllowMethods : List String := ["GET", "POST", "PUT", "PATCH", "DELETE", "OPTIONS"]

/-- `allow_headers`, and those that the framework always allows, in lower case. -/
def corsAllowHeaders : List String :=
  ["accept", "accept-language", "authorization", "content-language", "content-type",
   "x-request-id"]

/-- The headers a preflight asks for. -/
def HttpRequest.requestedHeaders (q : HttpRequest) : List String :=
  match q.headers.get? "access-control-request-headers" with
  | none => []
  | some names => (names.toList.splitOn ',').map fun name =>
      lower (String.ofList (Decimal.strip name))

/-- Every header it asks for is allowed. -/
def HttpRequest.AsksAllowed (q : HttpRequest) : Prop :=
  ∀ name ∈ q.requestedHeaders, name ∈ corsAllowHeaders

/-- `*` allows every origin. -/
def OriginAllowed (allowedOrigins : List String) (origin : String) : Prop :=
  origin ∈ allowedOrigins ∨ "*" ∈ allowedOrigins

/-- The request names an allowed origin. -/
def HttpRequest.From (allowedOrigins : List String) (q : HttpRequest) : Prop :=
  ∃ origin, q.headers.get? "origin" = some origin ∧ OriginAllowed allowedOrigins origin

/-- The method a preflight asks for is a configured one. -/
def HttpRequest.AsksMethod (q : HttpRequest) : Prop :=
  ∃ method ∈ corsAllowMethods, q.headers.get? "access-control-request-method" = some method

/-- The browser lets the page of `q` read `r`. -/
def Response.Shares (r : Response) (q : HttpRequest) : Prop :=
  r.header? "Access-Control-Allow-Origin" = q.headers.get? "origin"
    ∨ r.header? "Access-Control-Allow-Origin" = some "*"

/--
The framework's documented behaviour with these settings: a preflight is answered
with 200 if its origin, its method and its headers are allowed and with 400 if not,
and the answer lists what is allowed; a response to an allowed origin says so.
-/
structure Cors.Serves (c : Cors) (allowedOrigins : List String) : Prop where
  preflight_status : ∀ q r, c.preflight q = some r →
    (r.statusCode = 200 ↔ q.From allowedOrigins ∧ q.AsksMethod ∧ q.AsksAllowed)
  preflight_origin : ∀ q r, c.preflight q = some r → q.From allowedOrigins → r.Shares q
  preflight_lists : ∀ q r, c.preflight q = some r →
    (r.header? "Access-Control-Allow-Methods").isSome
      ∧ (r.header? "Access-Control-Allow-Headers").isSome
  decorate_origin : ∀ q r, q.From allowedOrigins → (c.decorate q r).Shares q

/-! ## Headers of other layers -/

theorem lower_ne_of_isCorsName {name name' : String} (h : isCorsName name = false)
    (h' : isCorsName name' = true) : lower name ≠ lower name' := by
  intro heq
  unfold isCorsName at h h'
  rw [heq, h'] at h
  cases h

theorem isCorsName_allowOrigin : isCorsName "Access-Control-Allow-Origin" = true := by decide

theorem foreign_otherNames : ∀ name ∈ otherNames, isCorsName name = false := by decide +kernel

theorem header?_setHeaders_foreign {headers : List (String × String)} {name : String}
    (h : headers.map Prod.fst ⊆ otherNames) (hname : isCorsName name = true) (r : Response) :
    (r.setHeaders headers).header? name = r.header? name :=
  header?_setHeaders_of_ne fun e he =>
    lower_ne_of_isCorsName (foreign_otherNames e.1 (h (List.mem_map_of_mem he))) hname

theorem header?_setRequestId {name : String} (hname : isCorsName name = true) (r : Response)
    (id : String) : (r.setHeader "X-Request-ID" id).header? name = r.header? name :=
  header?_setHeader_of_ne (lower_ne_of_isCorsName (by decide) hname) id

/-- The answer of another layer to an exception has no CORS header. -/
theorem header?_ofException_foreign {e : HTTPException} {name : String}
    (h : e.headers.map Prod.fst ⊆ otherNames) (hname : isCorsName name = true) :
    (Response.ofException e).header? name = none := by
  refine header?_ofException_of_ne fun name' hname' => ?_
  refine lower_ne_of_isCorsName (foreign_otherNames name' ?_) hname
  rcases List.mem_cons.mp hname' with rfl | hname'
  · exact List.mem_cons_self
  · exact h hname'

/-- A response without the header is shared with no page. -/
theorem not_shares_of_none {r : Response} {q : HttpRequest} {allowedOrigins : List String}
    (hfrom : q.From allowedOrigins) (h : r.header? "Access-Control-Allow-Origin" = none) :
    ¬ r.Shares q := by
  obtain ⟨origin, horigin, _⟩ := hfrom
  rintro (hshares | hshares)
  · rw [h, horigin] at hshares
    cases hshares
  · rw [h] at hshares
    cases hshares

namespace GatewayApp

variable {σ τ : Type} {g : GatewayApp σ τ} {q : HttpRequest} {w w' : StackState σ τ}

theorem header?_timed {name : String} (hname : isCorsName name = true) (r : Response) :
    (g.timed w r).header? name = r.header? name := by
  unfold timed
  split
  · rfl
  · have hother := foreign_otherNames "X-Response-Time" (by simp [otherNames])
    exact header?_setHeader_of_ne (lower_ne_of_isCorsName hother hname) _

/-! ## What leaves the gateway -/

/-- A request that carries no token passes the JWT layer on exempt paths only. -/
theorem authenticate_of_no_token (h : q.headers.get? "authorization" = none) :
    (isExempt q.urlPath = true ∧ g.authenticate q = .ok none)
      ∨ (isExempt q.urlPath = false ∧ ∃ e, g.authenticate q = .error e) := by
  have hempty : q.headers.getD "authorization" = "" := by
    unfold ClientHeaders.getD
    rw [← ClientHeaders.get?, h]
    rfl
  unfold authenticate
  rw [hempty]
  cases hexempt : isExempt q.urlPath with
  | true => exact Or.inl ⟨rfl, jwtAuth_none_iff.mpr hexempt⟩
  | false =>
      refine Or.inr ⟨rfl, ?_⟩
      unfold jwtAuth
      rw [hexempt, if_neg Bool.false_ne_true, if_neg (by decide)]
      exact ⟨_, rfl⟩

/-- The answers of the layers above the CORS layer: an error, with no CORS header. -/
structure Foreign (r : Response) : Prop where
  status : r.statusCode ≠ 200
  silent : ∀ name, isCorsName name = true → r.header? name = none

theorem foreign_tooLarge : Foreign (Response.ofException g.bodySize.tooLargeResponse) where
  status := by
    show (413 : Nat) ≠ 200
    decide
  silent := by
    intro name hname
    refine header?_ofException_of_ne fun name' hname' => ?_
    have hother : ∀ name ∈ ["content-type", "Connection"], isCorsName name = false := by decide
    exact lower_ne_of_isCorsName (hother name' hname') hname

theorem foreign_internalServerError : Foreign internalServerError where
  status := by decide
  silent := by
    intro name hname
    have hother := foreign_otherNames "content-type" List.mem_cons_self
    have hne := lower_ne_of_isCorsName hother hname
    have hlower : lower "content-type" = "content-type" := by decide
    rw [hlower] at hne
    exact Multidict.get?_cons_of_ne (e := ("content-type", _)) hne []

theorem Foreign.timed {r : Response} (h : Foreign r) : Foreign (g.timed w r) where
  status := by
    rw [timed_statusCode]
    exact h.status
  silent := fun name hname => (header?_timed hname r).trans (h.silent name hname)

theorem Foreign.setRequestId {r : Response} (h : Foreign r) (id : String) :
    Foreign (r.setHeader "X-Request-ID" id) where
  status := h.status
  silent := fun name hname => (header?_setRequestId hname r id).trans (h.silent name hname)

theorem foreign_refused {e : HTTPException} (h : g.authenticate q = .error e) :
    Foreign (Response.ofException e) where
  status := by
    have hstatus := (jwtAuth_error h).2
    show e.statusCode ≠ 200
    omega
  silent := fun _ hname => header?_ofException_foreign (authenticate_error_names h) hname

theorem foreign_tooMany {e : HTTPException} (h : g.tooMany q w = some e) :
    Foreign (Response.ofException e) where
  status := by
    have hpath := (tooMany_eq_some h).1
    unfold tooMany RateLimiter.limit at h
    rw [if_neg hpath] at h
    obtain ⟨_, he⟩ := Option.ite_none_right_eq_some.mp h
    cases he
    show (429 : Nat) ≠ 200
    decide
  silent := fun _ hname => header?_ofException_foreign (tooMany_names h) hname

theorem header?_decorated {headers : List (String × String)} {name : String}
    (h : headers.map Prod.fst ⊆ otherNames) (hname : isCorsName name = true) (id : String)
    (r : Response) : (decorated headers id r).header? name = r.header? name :=
  (header?_setRequestId hname _ id).trans (header?_setHeaders_foreign h hname r)

/-- Either the routes answer, or the CORS layer answers a preflight, or the response is an error of
a layer above it. -/
theorem app_cases (hcors : g.cors.Documented) (q : HttpRequest) (w : StackState σ τ) :
    (∃ identity, g.AnsweredByRoutes q w identity)
      ∨ (q.IsPreflight ∧ ∃ identity, g.ReachesCors q w identity)
      ∨ ∃ r, (g.app q w).1 = .ok r ∧ Foreign r := by
  obtain ⟨r, hr, houtcome⟩ := app_outcome hcors q w
  cases houtcome with
  | tooLarge => exact Or.inr (Or.inr ⟨_, hr, foreign_tooLarge.timed⟩)
  | refused hauth => exact Or.inr (Or.inr ⟨_, hr, (foreign_refused hauth).timed⟩)
  | tooMany hmany id =>
      exact Or.inr (Or.inr ⟨_, hr, ((foreign_tooMany hmany).setRequestId id).timed⟩)
  | preflight h hpreflight => exact Or.inr (Or.inl ⟨hpreflight, _, h⟩)
  | raised => exact Or.inr (Or.inr ⟨_, hr, foreign_internalServerError⟩)
  | routes h => exact Or.inl ⟨_, h⟩

/-- The CORS layer's answer leaves the gateway with its status and its headers. -/
theorem ReachesCors.shown {identity : Option RequestState} (h : g.ReachesCors q w identity)
    (hcors : g.cors.Documented) (hpreflight : q.IsPreflight) :
    ∃ p r, g.cors.preflight (atLimiter q w identity) = some p ∧ (g.app q w).1 = .ok r
      ∧ r.statusCode = p.statusCode
      ∧ ∀ name, isCorsName name = true → r.header? name = p.header? name := by
  obtain ⟨p, headers, id, hp, hnames, happ⟩ := h.preflight hcors hpreflight
  refine ⟨p, _, hp, happ, timed_statusCode _, fun name hname => ?_⟩
  rw [header?_timed hname, header?_decorated hnames hname]

/-- The routes' answer leaves the gateway with the headers the CORS layer gave it. -/
theorem AnsweredByRoutes.shown {identity : Option RequestState}
    (h : g.AnsweredByRoutes q w identity) (hcors : g.cors.Documented) :
    ∃ r r', (g.app q w).1 = .ok r' ∧ ∀ name, isCorsName name = true →
      r'.header? name = (g.cors.decorate (atLimiter q w identity) r).header? name := by
  obtain ⟨r, headers, hnames, happ⟩ := h.answer hcors
  refine ⟨secured q.urlPath r, _, happ, fun name hname => ?_⟩
  rw [header?_timed hname, header?_decorated hnames hname]

/-! ## The whole stack -/

/-- **The preflight works**: 200, with what is allowed. -/
def PreflightServed (g : GatewayApp σ τ) (q : HttpRequest) (w : StackState σ τ) : Prop :=
  ∃ r, (g.app q w).1 = .ok r ∧ r.statusCode = 200 ∧ r.Shares q
    ∧ (r.header? "Access-Control-Allow-Methods").isSome
    ∧ (r.header? "Access-Control-Allow-Headers").isSome

/-- **The page may read the response**, whatever its status. -/
def ResponseShared (g : GatewayApp σ τ) (q : HttpRequest) (w : StackState σ τ) : Prop :=
  ∃ r, (g.app q w).1 = .ok r ∧ r.Shares q

theorem preflightServed_iff {allowedOrigins : List String} (hcors : g.cors.Documented)
    (hserves : g.cors.Serves allowedOrigins) (hpreflight : q.IsPreflight)
    (hfrom : q.From allowedOrigins) (hmethod : q.AsksMethod)
    (htoken : q.headers.get? "authorization" = none) :
    g.PreflightServed q w ↔ q.readable = true ∧ isExempt q.urlPath = true
      ∧ g.bodySize.declaredOversize (q.headers.get? "content-length") = false
      ∧ g.tooMany (atLimiter q w none) w = none ∧ q.AsksAllowed := by
  constructor
  · rintro ⟨r, hr, hstatus, _, _⟩
    rcases app_cases hcors q w with ⟨identity, h⟩ | ⟨_, identity, h⟩ | ⟨r', hr', hforeign⟩
    · exact absurd hpreflight h.notPreflight
    · obtain ⟨p, r', hp, hr', hsame, _⟩ := h.shown hcors hpreflight
      rw [hr] at hr'
      cases hr'
      -- only the CORS layer answers a preflight with 200
      have hallowed := (hserves.preflight_status _ p hp).mp (hsame ▸ hstatus)
      rcases authenticate_of_no_token (g := g) htoken with ⟨hexempt, hauth⟩ | ⟨_, e, hauth⟩
      · have hidentity := hauth.symm.trans h.token
        cases hidentity
        exact ⟨h.readable, hexempt, h.declared, h.budget, hallowed.2.2⟩
      · have hidentity := hauth.symm.trans h.token
        cases hidentity
    · rw [hr] at hr'
      cases hr'
      exact absurd hstatus hforeign.status
  · rintro ⟨hread, hexempt, hdeclared, hbudget, hasks⟩
    have h : g.ReachesCors q w none := ⟨hread, hdeclared, jwtAuth_none_iff.mpr hexempt, hbudget⟩
    obtain ⟨p, r, hp, hr, hsame, hheaders⟩ := h.shown hcors hpreflight
    have hstatus := (hserves.preflight_status _ p hp).mpr ⟨hfrom, hmethod, hasks⟩
    have hlists := hserves.preflight_lists _ p hp
    refine ⟨r, hr, hsame.trans hstatus, ?_, ?_, ?_⟩
    · unfold Response.Shares
      rw [hheaders _ isCorsName_allowOrigin]
      exact hserves.preflight_origin (atLimiter q w none) p hp hfrom
    · rw [hheaders _ (by decide)]
      exact hlists.1
    · rw [hheaders _ (by decide)]
      exact hlists.2

theorem responseShared_iff {allowedOrigins : List String} (hcors : g.cors.Documented)
    (hserves : g.cors.Serves allowedOrigins) (hpreflight : ¬ q.IsPreflight)
    (hfrom : q.From allowedOrigins) :
    g.ResponseShared q w ↔ ∃ identity, g.AnsweredByRoutes q w identity := by
  constructor
  · rintro ⟨r, hr, hshares⟩
    rcases app_cases hcors q w with h | ⟨h, _⟩ | ⟨r', hr', hforeign⟩
    · exact h
    · exact absurd h hpreflight
    · rw [hr] at hr'
      cases hr'
      exact absurd hshares (not_shares_of_none hfrom (hforeign.silent _ isCorsName_allowOrigin))
  · rintro ⟨identity, h⟩
    obtain ⟨r, r', hr', hheaders⟩ := h.shown hcors
    refine ⟨r', hr', ?_⟩
    unfold Response.Shares
    rw [hheaders _ isCorsName_allowOrigin]
    exact hserves.decorate_origin (atLimiter q w identity) r hfrom

/--
**What a page on an allowed origin gets.**

A preflight without a token works exactly where the URL can be read and its path is
exempt, and another request gets a response that the page may read exactly if the routes
answer it.
-/
theorem cors_works_iff (g : GatewayApp σ τ) (allowedOrigins : List String)
    (hcors : g.cors.Documented) (hserves : g.cors.Serves allowedOrigins) (q : HttpRequest)
    (w : StackState σ τ) (hfrom : q.From allowedOrigins) :
    (q.IsPreflight → q.AsksMethod → q.headers.get? "authorization" = none →
        (g.PreflightServed q w ↔ q.readable = true ∧ isExempt q.urlPath = true
          ∧ g.bodySize.declaredOversize (q.headers.get? "content-length") = false
          ∧ g.tooMany (atLimiter q w none) w = none ∧ q.AsksAllowed))
      ∧ (¬ q.IsPreflight →
        (g.ResponseShared q w ↔ ∃ identity, g.AnsweredByRoutes q w identity)) :=
  ⟨fun hpreflight hmethod htoken => preflightServed_iff hcors hserves hpreflight hfrom hmethod
    htoken, fun hpreflight => responseShared_iff hcors hserves hpreflight hfrom⟩

end GatewayApp

/-! ## A gateway for one frontend -/

/-- The framework's answer to a preflight. -/
def corsAnswer (allowedOrigins : List String) (q : HttpRequest) (origin method : String) :
    Response :=
  let failures := (if origin ∈ allowedOrigins then [] else ["origin"])
    ++ (if method ∈ corsAllowMethods then [] else ["method"])
    ++ (if q.requestedHeaders.all (· ∈ corsAllowHeaders) then [] else ["headers"])
  { statusCode := if failures = [] then 200 else 400
    headers :=
      [("vary", "Origin"),
       ("access-control-allow-methods", "GET, POST, PUT, PATCH, DELETE, OPTIONS"),
       ("access-control-max-age", "600"),
       ("access-control-allow-headers",
         "Accept, Accept-Language, Authorization, Content-Language, Content-Type, X-Request-ID")]
      ++ (if origin ∈ allowedOrigins then [("access-control-allow-origin", origin)] else [])
      ++ [("content-type", "text/plain; charset=utf-8")]
    content := if failures = [] then "OK" else "Disallowed CORS " ++ ", ".intercalate failures }

/-- The framework's CORS layer for a list of origins without `*`. -/
def corsFor (allowedOrigins : List String) : Cors where
  preflight := fun q =>
    if q.method = "OPTIONS" then
      (q.headers.get? "origin").bind fun origin =>
        (q.headers.get? "access-control-request-method").map fun method =>
          corsAnswer allowedOrigins q origin method
    else none
  decorate := fun q r =>
    match q.headers.get? "origin" with
    | some origin =>
        if origin ∈ allowedOrigins then
          let r := r.setHeader "Access-Control-Allow-Origin" origin
          r.setHeader "Vary" (match r.header? "Vary" with
            | some vary => vary ++ ", Origin"
            | none => "Origin")
        else r
    | none => r

theorem corsFor_preflight {allowedOrigins : List String} {q : HttpRequest} {r : Response} :
    (corsFor allowedOrigins).preflight q = some r ↔ ∃ origin method, q.method = "OPTIONS"
      ∧ q.headers.get? "origin" = some origin
      ∧ q.headers.get? "access-control-request-method" = some method
      ∧ corsAnswer allowedOrigins q origin method = r := by
  unfold corsFor
  dsimp only
  rw [Option.ite_none_right_eq_some, Option.bind_eq_some_iff]
  constructor
  · rintro ⟨hoptions, origin, horigin, hr⟩
    obtain ⟨method, hmethod, hr⟩ := Option.map_eq_some_iff.mp hr
    exact ⟨origin, method, hoptions, horigin, hmethod, hr⟩
  · rintro ⟨origin, method, hoptions, horigin, hmethod, hr⟩
    exact ⟨hoptions, origin, horigin, Option.map_eq_some_iff.mpr ⟨method, hmethod, hr⟩⟩

/-- The fields of the answer, by name. -/
theorem corsAnswer_field {allowedOrigins : List String} {q : HttpRequest} {origin method : String}
    {field : String × String} (h : field ∈ (corsAnswer allowedOrigins q origin method).headers) :
    field.1 ∈ ["vary", "access-control-allow-methods", "access-control-max-age",
      "access-control-allow-headers", "access-control-allow-origin", "content-type"] := by
  unfold corsAnswer at h
  simp only [List.mem_append] at h
  rcases h with (h | h) | h
  · have hname := List.mem_map_of_mem (f := Prod.fst) h
    simp only [List.map_cons, List.map_nil] at hname
    grind
  · split at h
    · rw [List.mem_singleton.mp h]
      simp
    · cases h
  · rw [List.mem_singleton.mp h]
    simp

theorem corsFor_documented (allowedOrigins : List String) :
    (corsFor allowedOrigins).Documented where
  preflight_iff := by
    intro q
    rw [Option.isSome_iff_exists]
    constructor
    · rintro ⟨r, hr⟩
      obtain ⟨origin, method, hoptions, horigin, hmethod, _⟩ := corsFor_preflight.mp hr
      exact ⟨hoptions, by rw [horigin]; rfl, by rw [hmethod]; rfl⟩
    · rintro ⟨hoptions, horigin, hmethod⟩
      obtain ⟨origin, horigin⟩ := Option.isSome_iff_exists.mp horigin
      obtain ⟨method, hmethod⟩ := Option.isSome_iff_exists.mp hmethod
      exact ⟨_, corsFor_preflight.mpr ⟨origin, method, hoptions, horigin, hmethod, rfl⟩⟩
  preflight_headers := by
    intro q r name hr hname
    obtain ⟨origin, method, _, _, _, rfl⟩ := corsFor_preflight.mp hr
    have hnames : ∀ n ∈ ["vary", "access-control-allow-methods", "access-control-max-age",
        "access-control-allow-headers", "access-control-allow-origin", "content-type"],
        (startsWith n "access-control-" || n == "vary") = true
          ∨ n ∈ ["content-type", "content-length"] := by decide
    unfold Response.header? Multidict.get? at hname
    rw [Option.isSome_map, List.find?_isSome] at hname
    obtain ⟨field, hfield, heq⟩ := hname
    unfold isCorsName
    rw [← of_decide_eq_true heq]
    exact hnames field.1 (corsAnswer_field hfield)
  decorate_headers := by
    intro q r name hname
    unfold corsFor
    dsimp only
    split
    · split
      · have horigin : lower "Access-Control-Allow-Origin" ≠ lower name :=
          (lower_ne_of_isCorsName hname isCorsName_allowOrigin).symm
        have hvary : lower "Vary" ≠ lower name := (lower_ne_of_isCorsName hname (by decide)).symm
        rw [header?_setHeader_of_ne hvary, header?_setHeader_of_ne horigin]
      · rfl
    · rfl

/-- Without `*` an allowed origin is on the list. -/
theorem originAllowed_iff {allowedOrigins : List String} (h : "*" ∉ allowedOrigins)
    (origin : String) : OriginAllowed allowedOrigins origin ↔ origin ∈ allowedOrigins :=
  ⟨fun ho => ho.resolve_right h, Or.inl⟩

theorem corsFor_serves {allowedOrigins : List String} (h : "*" ∉ allowedOrigins) :
    (corsFor allowedOrigins).Serves allowedOrigins where
  preflight_status := by
    intro q r hr
    obtain ⟨origin, method, _, horigin, hmethod, rfl⟩ := corsFor_preflight.mp hr
    have hfrom : q.From allowedOrigins ↔ origin ∈ allowedOrigins := by
      unfold HttpRequest.From
      rw [horigin]
      simp [originAllowed_iff h]
    have hasks : q.AsksMethod ↔ method ∈ corsAllowMethods := by
      unfold HttpRequest.AsksMethod
      rw [hmethod]
      simp
    have hallowed : q.AsksAllowed ↔ q.requestedHeaders.all (· ∈ corsAllowHeaders) = true := by
      unfold HttpRequest.AsksAllowed
      simp
    rw [hfrom, hasks, hallowed]
    unfold corsAnswer
    dsimp only
    by_cases ho : origin ∈ allowedOrigins <;> by_cases hm : method ∈ corsAllowMethods <;>
      by_cases hh : q.requestedHeaders.all (· ∈ corsAllowHeaders) = true <;> simp [ho, hm, hh]
  preflight_origin := by
    intro q r hr hfrom
    obtain ⟨origin, method, _, horigin, hmethod, rfl⟩ := corsFor_preflight.mp hr
    obtain ⟨origin', horigin', hallowed⟩ := hfrom
    rw [horigin] at horigin'
    cases horigin'
    have ho := (originAllowed_iff h origin).mp hallowed
    left
    rw [horigin]
    unfold corsAnswer Response.header? Multidict.get?
    dsimp only
    rw [if_pos ho]
    have hlower : lower "Access-Control-Allow-Origin" = "access-control-allow-origin" := by decide
    rw [hlower]
    simp
  preflight_lists := by
    intro q r hr
    obtain ⟨origin, method, _, _, _, rfl⟩ := corsFor_preflight.mp hr
    exact ⟨rfl, rfl⟩
  decorate_origin := by
    intro q r hfrom
    obtain ⟨origin, horigin, hallowed⟩ := hfrom
    have ho := (originAllowed_iff h origin).mp hallowed
    left
    unfold corsFor
    simp only [horigin, if_pos ho]
    rw [header?_setHeader_of_ne (by decide), header?_setHeader_self]

/-- A gateway whose frontend is served from one origin. -/
def frontendGateway : GatewayApp (InMemoryStore Int) Int :=
  { oneRequestGateway with cors := corsFor ["http://localhost:3000"] }

/-- The preflight of a `GET` from the frontend. -/
def frontendPreflight (path : String) : HttpRequest where
  method := "OPTIONS"
  path := path
  headers :=
    { items := [("host", "gateway"), ("origin", "http://localhost:3000"),
        ("access-control-request-method", "GET"),
        ("access-control-request-headers", "authorization,content-type")]
      lowered := by decide }
  clientHost := some "203.0.113.7"
  body := [.request [] false]

theorem frontendPreflight_from (path : String) :
    (frontendPreflight path).From ["http://localhost:3000"] :=
  ⟨"http://localhost:3000", rfl, Or.inl (by decide)⟩

theorem frontendPreflight_isPreflight (path : String) : (frontendPreflight path).IsPreflight :=
  ⟨rfl, rfl, rfl⟩

theorem frontendPreflight_asksMethod (path : String) : (frontendPreflight path).AsksMethod :=
  ⟨"GET", by decide, rfl⟩

theorem frontendPreflight_asksAllowed (path : String) : (frontendPreflight path).AsksAllowed := by
  show ∀ name ∈ (frontendPreflight "/").requestedHeaders, name ∈ corsAllowHeaders
  decide

/-- Its `Host` is a plain name. -/
theorem frontendPreflight_path? {path : String} (hrooted : path.toList.head? = some '/') :
    (frontendPreflight path).urlScope.path? = some (UrlScope.readBack path) :=
  UrlScope.path?_of_isBare rfl rfl (by decide) hrooted rfl

theorem login_preflight_served :
    frontendGateway.PreflightServed (frontendPreflight "/api/v1/auth/login") atNoon := by
  have hurl : (frontendPreflight "/api/v1/auth/login").urlScope.path? = some "/api/v1/auth/login" :=
    frontendPreflight_path? rfl
  have hexempt : isExempt (frontendPreflight "/api/v1/auth/login").urlPath = true := by
    unfold HttpRequest.urlPath
    rw [hurl]
    decide
  exact ((GatewayApp.cors_works_iff frontendGateway ["http://localhost:3000"] (corsFor_documented _)
    (corsFor_serves (by decide)) (frontendPreflight "/api/v1/auth/login") atNoon
    (frontendPreflight_from _)).1 (frontendPreflight_isPreflight _)
      (frontendPreflight_asksMethod _) rfl).mpr
    ⟨Option.isSome_of_eq_some hurl, hexempt, by decide, by decide +kernel,
      frontendPreflight_asksAllowed _⟩

/-- **The preflight of a request for tasks is refused**, and so no page can send one. -/
theorem tasks_preflight_refused :
    (frontendPreflight "/api/v1/tasks").From ["http://localhost:3000"]
      ∧ (frontendPreflight "/api/v1/tasks").IsPreflight
      ∧ (frontendPreflight "/api/v1/tasks").AsksMethod
      ∧ (frontendPreflight "/api/v1/tasks").AsksAllowed
      ∧ (frontendPreflight "/api/v1/tasks").headers.get? "authorization" = none
      ∧ (∃ r, (frontendGateway.app (frontendPreflight "/api/v1/tasks") atNoon).1 = .ok r
        ∧ r.statusCode = 401 ∧ r.header? "Access-Control-Allow-Origin" = none)
      ∧ ¬ frontendGateway.PreflightServed (frontendPreflight "/api/v1/tasks") atNoon := by
  have hurl : (frontendPreflight "/api/v1/tasks").urlScope.path? = some "/api/v1/tasks" :=
    frontendPreflight_path? rfl
  have hauth : frontendGateway.authenticate (frontendPreflight "/api/v1/tasks")
      = .error missingToken := by
    unfold GatewayApp.authenticate HttpRequest.urlPath
    rw [hurl]
    rfl
  have happ := GatewayApp.app_of_refused (w := atNoon) (Option.isSome_of_eq_some hurl) (by decide)
    hauth
  refine ⟨frontendPreflight_from _, frontendPreflight_isPreflight _,
    frontendPreflight_asksMethod _, frontendPreflight_asksAllowed _, rfl, ?_, ?_⟩
  · rw [happ]
    exact ⟨_, rfl, rfl, by decide⟩
  · rintro ⟨r, hr, hstatus, _⟩
    rw [happ] at hr
    cases hr
    exact absurd hstatus (by decide)

end Microservices.Gateway
