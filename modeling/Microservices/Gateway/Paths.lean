import Microservices.Gateway.Dispatch
import Microservices.Gateway.Headers
import Microservices.Lib.UrlPath
import Microservices.RequestUrl

/-!
# The path the gateway tests and the path the upstream gets

One request, from `JWTAuthMiddleware` over `RateLimiterMiddleware` to `proxy`.
The two middlewares look at `request.url.path`, which is put together from the
`Host` header and the path; the proxy forwards the path the request was routed by,
and the HTTP client and the upstream's server bring that path into normal form.
Nothing normalises it before the tests.

Paths are what the gateway's server hands over, decoded once. The HTTP client is
the parameter `send`: the path of a target, to what the upstream sees of it, or
`none` where the client refuses the URL.
-/

namespace Microservices.Gateway

open Identity

/-! ## The path on the wire -/

/--
The path of a target URL as the upstream sees it: the client has resolved the dot
segments, the upstream's server has decoded the escapes.
-/
def wirePath (path : String) : Bytes :=
  let p := UrlPath.removeDotSegments (path.toList.takeWhile fun c => c ∉ ['#', '?'])
  UrlPath.unquoteToBytes (if p = [] then ['/'] else p)

/-! ## The middlewares -/

/-- `str.startswith`. -/
def startsWith (s start : String) : Bool := start.toList.isPrefixOf s.toList

/-- `exempt_paths` of `JWTAuthMiddleware`, and `_EXEMPT_PATHS` of the rate limiter. -/
def exemptPaths : List String := ["/health", "/health/ready", "/metrics"]

def exemptPrefixes : List String := ["/api/v1/auth/"]

/-- `_AUTH_PATHS`. -/
def authPaths : List String := ["/api/v1/auth/login", "/api/v1/auth/register"]

/-- `_is_exempt`. -/
def isExempt (path : String) : Bool :=
  if path ∈ exemptPaths then true else exemptPrefixes.any fun p => startsWith path p

/--
`JWTAuthMiddleware.dispatch` up to `call_next`: `none` is an exempt path, whose
token is not looked at. `verify` decides over the token.
-/
def jwtAuth (verify : String → Except HTTPException RequestState) (path authorization : String) :
    Except HTTPException (Option RequestState) :=
  if isExempt path then .ok none
  else if startsWith (lower authorization) "bearer " then
    (verify (String.ofList (Decimal.strip (authorization.toList.drop 7)))).map some
  else
    .error
      { statusCode := 401
        detail := "Missing or invalid Authorization header"
        headers := [("WWW-Authenticate", "Bearer")] }

structure RateLimiter where
  maxRequests : Int
  authMaxRequests : Int
  userMaxRequests : Int
  windowSeconds : Int

/-- `f"rate:{scope}:{client_ip}"`. -/
def ipKey (scope clientIp : String) : String := "rate:" ++ scope ++ ":" ++ clientIp

/-- The per-user key, for a request that carries an identity. -/
def userKeys (userId : Option String) : List String :=
  if orEmpty userId = "" then [] else ["rate:user:" ++ orEmpty userId]

/--
`RateLimiterMiddleware.dispatch` up to `call_next`: the buckets it charges, and
the 429 if one is over. `isOver` is what the store answers for a key and a limit.
-/
def RateLimiter.limit (l : RateLimiter) (isOver : String → Int → Bool) (time : Int)
    (path clientIp : String) (userId : Option String) : List String × Option HTTPException :=
  if path ∈ exemptPaths then ([], none)
  else
    let isAuthPath := decide (path ∈ authPaths)
    let ipLimit := if isAuthPath then l.authMaxRequests else l.maxRequests
    let key := ipKey (if isAuthPath then "auth" else "general") clientIp
    let ipOver := isOver key ipLimit
    let userOver := (userKeys userId).any fun k => isOver k l.userMaxRequests
    (key :: userKeys userId,
      if ipOver ∨ userOver then
        some
          { statusCode := 429
            detail := "Rate limit exceeded. Try again later."
            headers :=
              [("Retry-After", toString l.windowSeconds),
               ("X-RateLimit-Limit", toString (if ipOver then ipLimit else l.userMaxRequests)),
               ("X-RateLimit-Remaining", "0"),
               ("X-RateLimit-Reset", toString (time + l.windowSeconds)),
               ("X-RateLimit-Scope", if ipOver then "ip" else "user")] }
      else none)

/-! ## The proxy -/

structure ServiceUrls where
  userServiceUrl : String
  taskServiceUrl : String
  notificationServiceUrl : String

/-- `ROUTE_MAP`, in its order. -/
def routeMap (urls : ServiceUrls) : List (String × String) :=
  [("/api/v1/users", urls.userServiceUrl), ("/api/v1/auth", urls.userServiceUrl),
   ("/api/v1/tasks", urls.taskServiceUrl), ("/api/v1/projects", urls.taskServiceUrl),
   ("/api/v1/notifications", urls.notificationServiceUrl)]

/-- `s.split("//")[-1]`, given the piece read so far. -/
def afterLastSlashes (piece : List Char) : List Char → List Char
  | '/' :: '/' :: rest => afterLastSlashes [] rest
  | c :: rest => afterLastSlashes (piece ++ [c]) rest
  | [] => piece

/-- `upstream.split("//")[-1].split(":")[0]`. -/
def serviceName (upstream : String) : String :=
  String.ofList ((afterLastSlashes [] upstream.toList).takeWhile (· ≠ ':'))

/-- `_resolve_upstream`: base URL, path, service name. -/
def resolveUpstream (urls : ServiceUrls) (path : String) :
    Except HTTPException (String × String × String) :=
  match (routeMap urls).find? fun e => startsWith path e.1 with
  | some (_, upstream) => .ok (upstream, path, serviceName upstream)
  | none => .error { statusCode := 404, detail := "No route for path: " ++ path }

/--
The `full_path` of the route `/api/v1/{full_path:path}`. Its pattern ends in `.*$`,
so it takes no line break but a last one, which it leaves out.
-/
def fullPath (path : String) : Option String :=
  if startsWith path "/api/v1/" then
    let rest := path.toList.drop "/api/v1/".length
    let line := rest.takeWhile (· ≠ '\n')
    if rest = line ∨ rest = line ++ ['\n'] then some (String.ofList line) else none
  else none

/-- Routing and `_resolve_upstream`. -/
def route (urls : ServiceUrls) (method path : String) :
    Except HTTPException (String × String × String) :=
  match fullPath path with
  | none => .error { statusCode := 404, detail := "Not Found" }
  | some p =>
      if method ∈ ["GET", "POST", "PUT", "PATCH", "DELETE"] then
        resolveUpstream urls ("/api/v1/" ++ p)
      else .error { statusCode := 405, detail := "Method Not Allowed" }

/-- What the gateway reads of a request. -/
structure Request extends UrlScope where
  method : String
  authorization : String
  accept : String
  clientIp : String

/-- What the request meets on its way. -/
structure Surroundings where
  verify : String → Except HTTPException RequestState
  limiter : RateLimiter
  isOver : String → Int → Bool
  time : Int
  breakerOpen : String → Bool

/-- What became of a request. -/
structure Trip where
  /-- The gateway's own refusal. -/
  rejected : Option HTTPException
  /-- A JWT was verified. -/
  verified : Bool
  /-- The rate-limit keys that were incremented. -/
  charged : List String
  /-- The path the upstream received, if it received anything. -/
  received : Option Bytes

/-- Which branch of `proxy` handles the request. -/
def Request.kind (r : Request) : Route :=
  if startsWith r.accept "text/event-stream" ∧ r.method = "GET" then .sse
  else .buffered (decide (r.method = "GET"))

/-- One request through the gateway. -/
def serve (urls : ServiceUrls) (send : String → Option Bytes) (env : Surroundings) (r : Request) :
    Trip :=
  match r.path? with
  | none => { rejected := some serverError, verified := false, charged := [], received := none }
  | some tested =>
      match jwtAuth env.verify tested r.authorization with
      | .error e => { rejected := some e, verified := false, charged := [], received := none }
      | .ok identity =>
          let verified := identity.isSome
          let limited := env.limiter.limit env.isOver env.time tested r.clientIp
            (identity.bind RequestState.userId)
          match limited with
          | (charged, some e) => { rejected := some e, verified, charged, received := none }
          | (charged, none) =>
              match route urls r.method r.path with
              | .error e => { rejected := some e, verified, charged, received := none }
              | .ok (_, upstreamPath, name) =>
                  if env.breakerOpen name then
                    { rejected := some (rejection name r.kind), verified, charged, received := none }
                  else { rejected := none, verified, charged, received := send upstreamPath }

/--
**The decisions are right for the path the upstream received**: without a JWT it
lies under `/api/v1/auth/`, and a login or registration was charged as one.
-/
structure DecidedOnReceived (r : Request) (t : Trip) : Prop where
  authOnly : ∀ q, t.received = some q → t.verified = false → utf8 "/api/v1/auth/" <+: q
  charged : ∀ q, t.received = some q → q ∈ authPaths.map utf8 → ipKey "auth" r.clientIp ∈ t.charged

/-- The path that is tested and the received form of `target` answer the tests alike. -/
structure ViewsAgree (tested target : String) : Prop where
  exempt : isExempt tested = true → utf8 "/api/v1/auth/" <+: wirePath target
  auth : wirePath target ∈ authPaths.map utf8 → tested ∈ authPaths

/-! ## The middlewares' decisions -/

theorem jwtAuth_none_iff {verify : String → Except HTTPException RequestState}
    {path authorization : String} :
    jwtAuth verify path authorization = .ok none ↔ isExempt path = true := by
  unfold jwtAuth
  by_cases he : isExempt path = true
  · simp [he]
  · rw [if_neg he]
    refine ⟨fun h => ?_, fun h => absurd h he⟩
    split at h
    · cases hv : verify (String.ofList (Decimal.strip (authorization.toList.drop 7))) <;>
        rw [hv] at h <;> cases h
    · cases h

theorem ipKey_scope {clientIp : String} : ipKey "auth" clientIp ≠ ipKey "general" clientIp := by
  intro h
  have h5 := congrArg (fun s : String => s.toList[5]?) h
  simp [ipKey] at h5

theorem ipKey_not_userKey {scope clientIp : String} {userId : Option String}
    (hscope : scope = "auth" ∨ scope = "general") : ipKey scope clientIp ∉ userKeys userId := by
  unfold userKeys
  split
  · simp
  · intro h
    have h5 := congrArg (fun s : String => s.toList[5]?) (List.mem_singleton.mp h)
    rcases hscope with rfl | rfl <;> simp [ipKey] at h5

/-- **The auth bucket is charged for the paths in `_AUTH_PATHS` and no others.** -/
theorem auth_charged_iff (l : RateLimiter) (isOver : String → Int → Bool) (time : Int)
    (path clientIp : String) (userId : Option String) :
    ipKey "auth" clientIp ∈ (l.limit isOver time path clientIp userId).1 ↔ path ∈ authPaths := by
  have hdisjoint : ∀ p ∈ authPaths, p ∉ exemptPaths := by decide
  unfold RateLimiter.limit
  by_cases he : path ∈ exemptPaths
  · rw [if_pos he]
    exact ⟨fun h => absurd h (by simp), fun h => absurd he (hdisjoint path h)⟩
  · rw [if_neg he]
    by_cases ha : path ∈ authPaths
    · simp [ha]
    · simp only [ha, decide_false, Bool.false_eq_true, if_false, List.mem_cons, iff_false, not_or]
      exact ⟨ipKey_scope, ipKey_not_userKey (Or.inl rfl)⟩

/-! ## One trip -/

variable {urls : ServiceUrls} {send : String → Option Bytes} {env : Surroundings} {r : Request}

/-- What the upstream received was routed, sent, and passed by both middlewares. -/
theorem serve_received {q : Bytes} (h : (serve urls send env r).received = some q) :
    ∃ tested base target name, r.path? = some tested
      ∧ route urls r.method r.path = .ok (base, target, name) ∧ send target = some q
      ∧ ((serve urls send env r).verified = false → isExempt tested = true)
      ∧ (tested ∈ authPaths → ipKey "auth" r.clientIp ∈ (serve urls send env r).charged) := by
  unfold serve at h ⊢
  cases hp : r.path? with
  | none => rw [hp] at h; cases h
  | some tested =>
      simp only [hp] at h ⊢
      cases hj : jwtAuth env.verify tested r.authorization with
      | error e => rw [hj] at h; cases h
      | ok identity =>
          simp only [hj] at h ⊢
          have hcharged := auth_charged_iff env.limiter env.isOver env.time tested r.clientIp
            (identity.bind RequestState.userId)
          revert h hcharged
          cases env.limiter.limit env.isOver env.time tested r.clientIp
            (identity.bind RequestState.userId) with
          | mk charged limited =>
              intro h hcharged
              -- each layer that answers by itself receives nothing for the upstream
              cases limited with
              | some e => cases h
              | none =>
                  cases hr : route urls r.method r.path with
                  | error e => rw [hr] at h; cases h
                  | ok found =>
                      obtain ⟨base, target, name⟩ := found
                      simp only [hr] at h ⊢
                      by_cases hb : env.breakerOpen name = true
                      · rw [if_pos hb] at h; cases h
                      · simp only [if_neg hb] at h ⊢
                        refine ⟨tested, base, target, name, rfl, rfl, h, fun hv => ?_, hcharged.mpr⟩
                        cases identity with
                        | none => exact jwtAuth_none_iff.mp hj
                        | some s => cases hv

/-- A request that nothing stops is sent. -/
theorem serve_forwards {tested : String} {identity : Option RequestState} {charged : List String}
    {base target name : String} (hp : r.path? = some tested)
    (hj : jwtAuth env.verify tested r.authorization = .ok identity)
    (hl : env.limiter.limit env.isOver env.time tested r.clientIp
      (identity.bind RequestState.userId) = (charged, none))
    (hr : route urls r.method r.path = .ok (base, target, name))
    (hb : env.breakerOpen name = false) :
    serve urls send env r = { rejected := none, verified := identity.isSome, charged,
                              received := send target } := by
  unfold serve
  simp only [hp, hj, hl, hr, hb]
  rfl

/-! ## Surroundings that stop nothing -/

/-- Every token verifies, no bucket is over, every breaker is closed. -/
def permissive : Surroundings where
  verify := fun _ => .ok { userId := some "3f8b6a52-6c1e-4c7e-9a0d-5b1f2e7c9d10" }
  limiter :=
    { maxRequests := 100, authMaxRequests := 10, userMaxRequests := 200, windowSeconds := 60 }
  isOver := fun _ _ => false
  time := 0
  breakerOpen := fun _ => false

def getRequest (scope : UrlScope) : Request where
  toUrlScope := scope
  method := "GET"
  authorization := "Bearer x"
  accept := "*/*"
  clientIp := "203.0.113.7"

theorem permissive_limit (path clientIp : String) (userId : Option String) :
    ∃ charged, permissive.limiter.limit permissive.isOver permissive.time path clientIp userId
      = (charged, none) := by
  unfold RateLimiter.limit
  by_cases he : path ∈ exemptPaths
  · rw [if_pos he]
    exact ⟨[], rfl⟩
  · rw [if_neg he]
    simp [permissive]

theorem permissive_jwtAuth (path : String) :
    ∃ identity, jwtAuth permissive.verify path "Bearer x" = .ok identity := by
  unfold jwtAuth
  split
  · exact ⟨none, rfl⟩
  · exact ⟨_, if_pos (by decide)⟩

variable (send) in
/-- They let through whatever routes, unverified if it is exempt. -/
theorem serve_permissive {scope : UrlScope} {tested base target name : String}
    (hp : scope.path? = some tested) (hr : route urls "GET" scope.path = .ok (base, target, name)) :
    (serve urls send permissive (getRequest scope)).received = send target
      ∧ (isExempt tested = true → (serve urls send permissive (getRequest scope)).verified = false)
      ∧ (ipKey "auth" (getRequest scope).clientIp
            ∈ (serve urls send permissive (getRequest scope)).charged → tested ∈ authPaths) := by
  obtain ⟨identity, hj⟩ := permissive_jwtAuth tested
  obtain ⟨charged, hl⟩ := permissive_limit tested (getRequest scope).clientIp
    (identity.bind RequestState.userId)
  have hserve : serve urls send permissive (getRequest scope) = _ :=
    serve_forwards hp hj hl hr rfl
  rw [hserve]
  refine ⟨rfl, fun he => ?_, fun hc => ?_⟩
  · rw [jwtAuth_none_iff.mpr he] at hj
    cases hj
    rfl
  · have hcharged := auth_charged_iff permissive.limiter permissive.isOver permissive.time
      tested (getRequest scope).clientIp (identity.bind RequestState.userId)
    rw [hl] at hcharged
    exact hcharged.mp hc

theorem route_get {method path : String} {found : String × String × String}
    (h : route urls method path = .ok found) : route urls "GET" path = .ok found := by
  unfold route at h ⊢
  cases hp : fullPath path with
  | none => rw [hp] at h; cases h
  | some p =>
      rw [hp] at h
      dsimp only at h ⊢
      split at h
      · rw [if_pos (by simp)]; exact h
      · cases h

/--
**The gateway decides for the path the upstream gets exactly when its two views of
the path answer alike.**

For every path and `Host` header, over all requests with these and all surroundings:
tokens, limits, store answers, breakers. Where the URL cannot be read, the path routes
nowhere or the client refuses its URL there is nothing to decide.
-/
theorem decided_on_received_iff (urls : ServiceUrls) (send : String → Option Bytes)
    (hsend : ∀ target q, send target = some q → q = wirePath target) (scope : UrlScope) :
    (∀ env r, r.toUrlScope = scope → DecidedOnReceived r (serve urls send env r)) ↔
      ∀ tested, scope.path? = some tested →
        ∀ base target name, route urls "GET" scope.path = .ok (base, target, name) →
          (send target).isSome → ViewsAgree tested target := by
  refine ⟨fun h tested ht base target name hr hs => ?_,
    fun h env r hp => ⟨fun q hq hv => ?_, fun q hq ha => ?_⟩⟩
  · obtain ⟨q, hq⟩ := Option.isSome_iff_exists.mp hs
    obtain ⟨hreceived, hverified, hcharged⟩ := serve_permissive send ht hr
    have hd := h permissive (getRequest scope) rfl
    have hw := hsend target q hq
    refine ⟨fun he => ?_, fun ha => ?_⟩
    · rw [← hw]
      exact hd.authOnly q (hreceived.trans hq) (hverified he)
    · exact hcharged (hd.charged q (hreceived.trans hq) (hw ▸ ha))
  · obtain ⟨tested, base, target, name, ht, hr, hs, hexempt, _⟩ := serve_received hq
    rw [hp] at ht hr
    rw [hsend target q hs]
    exact (h tested ht base target name (route_get hr) (by rw [hs]; rfl)).exempt (hexempt hv)
  · obtain ⟨tested, base, target, name, ht, hr, hs, _, hcharged⟩ := serve_received hq
    rw [hp] at ht hr
    refine hcharged ((h tested ht base target name (route_get hr) (by rw [hs]; rfl)).auth ?_)
    rw [← hsend target q hs]
    exact ha

/-- A client that refuses no URL. -/
def sendAll (target : String) : Option Bytes := some (wirePath target)

def testUrls : ServiceUrls where
  userServiceUrl := "http://user-service:8001"
  taskServiceUrl := "http://task-service:8002"
  notificationServiceUrl := "http://notification-service:8003"

/-- A request line and a plain `Host` header. -/
def atGateway (path : String) : UrlScope := { host := some "gateway:8000", path := path }

theorem decided_on_tasks_path :
    DecidedOnReceived (getRequest (atGateway "/api/v1/tasks/"))
      (serve testUrls sendAll permissive (getRequest (atGateway "/api/v1/tasks/"))) := by
  refine (decided_on_received_iff testUrls sendAll (fun _ _ h => (Option.some.inj h).symm)
    (atGateway "/api/v1/tasks/")).mpr ?_ permissive _ rfl
  intro tested ht base target name hr _
  have htested : (atGateway "/api/v1/tasks/").path? = some "/api/v1/tasks/" := by decide +kernel
  obtain rfl := Option.some.inj (htested.symm.trans ht)
  have htarget : target = "/api/v1/tasks/" := by
    have : route testUrls "GET" (atGateway "/api/v1/tasks/").path
        = .ok ("http://task-service:8002", "/api/v1/tasks/", "task-service") := by rfl
    rw [this] at hr
    cases hr
    rfl
  subst htarget
  refine ⟨fun he => absurd he (by decide), fun ha => absurd ha (by decide +kernel)⟩

/-- An unauthenticated client. -/
def unauthenticated (scope : UrlScope) : Request := { getRequest scope with authorization := "" }

/--
**Dot segments, second escapes and a `Host` with a path get past the tests.** Without a
token the user service is asked for `/api/v1/users/me` and the task service for
`/api/v1/tasks`, and a login in either disguise is charged to the general bucket.
-/
theorem dot_segments_pass_the_tests :
    let trip scope := serve testUrls sendAll permissive (unauthenticated scope)
    let dots := atGateway "/api/v1/auth/../users/me"
    let login := atGateway "/api/v1/auth/./login"
    let escaped := atGateway "/api/v1/auth/%6Cogin"
    let host : UrlScope := { host := some "x/api/v1/auth/?", path := "/api/v1/tasks" }
    ((trip dots).received = some (utf8 "/api/v1/users/me") ∧ (trip dots).verified = false)
      ∧ ((trip login).received = some (utf8 "/api/v1/auth/login")
        ∧ (trip login).charged = ["rate:general:203.0.113.7"])
      ∧ ((trip escaped).received = some (utf8 "/api/v1/auth/login")
        ∧ (trip escaped).charged = ["rate:general:203.0.113.7"])
      ∧ ((trip host).received = some (utf8 "/api/v1/tasks") ∧ (trip host).verified = false)
      ∧ ¬ DecidedOnReceived (unauthenticated dots) (trip dots)
      ∧ ¬ DecidedOnReceived (unauthenticated login) (trip login) := by
  intro trip dots login escaped host
  have h1 : (trip dots).received = some (utf8 "/api/v1/users/me") ∧ (trip dots).verified = false := by
    decide +kernel
  have h2 : (trip login).received = some (utf8 "/api/v1/auth/login")
      ∧ (trip login).charged = ["rate:general:203.0.113.7"] := by decide +kernel
  refine ⟨h1, h2, by decide +kernel, by decide +kernel, fun h => ?_, fun h => ?_⟩
  · have := h.authOnly _ h1.1 h1.2
    revert this
    decide +kernel
  · have := h.charged _ h2.1 (by decide +kernel)
    rw [h2.2] at this
    revert this
    decide +kernel

end Microservices.Gateway
