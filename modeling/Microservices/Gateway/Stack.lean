import Microservices.Gateway.BodySize
import Microservices.Gateway.JwtAuth
import Microservices.Gateway.RateLimiter
import Microservices.Lib.Multidict

/-!
# The middleware stack

`main.py` adds seven middlewares, and the one added last runs first. An app is
what lies below a middleware; a middleware that answers by itself does not call
it. The framework puts a handler of exceptions around the whole stack and another
around the routes.

`CORSMiddleware` is the framework's, and the routes are whatever lies below it
all: both are parameters.
-/

namespace Microservices.Gateway

open Identity

/-! ## Requests and responses -/

/-- A request as a layer of the stack sees it. -/
structure HttpRequest where
  method : String
  path : String
  headers : ClientHeaders
  /-- `request.client.host`. -/
  clientHost : Option String
  body : Source
  state : RequestState := {}
  scheme : String := "http"
  /-- The address the gateway listens on. -/
  server : Option (String × Nat) := none
  queryString : Bytes := []

namespace HttpRequest

variable (q : HttpRequest)

/-- What `request.url` is made from. -/
def urlScope : UrlScope where
  scheme := q.scheme
  server := q.server
  host := q.headers.get? "host"
  path := q.path
  queryString := q.queryString

/-- Whether `request.url.path` can be read; otherwise reading it raises. -/
def readable : Bool := q.urlScope.path?.isSome

/-- `request.url.path`, where it can be read. -/
def urlPath : String := q.urlScope.path?.getD ""

end HttpRequest

structure Response where
  statusCode : Nat
  headers : Multidict String String := []
  content : String

namespace Response

/-- `response.headers.get(name)`. -/
def header? (r : Response) (name : String) : Option String := Multidict.get? r.headers (lower name)

/-- `response.headers[name] = value`. -/
def setHeader (r : Response) (name value : String) : Response :=
  { r with headers := Multidict.set (lower name) value r.headers }

/-- `del response.headers[name]`. -/
def delHeader (r : Response) (name : String) : Response :=
  { r with headers := Multidict.del (lower name) r.headers }

/-- One such assignment for each of `headers`, in order. -/
def setHeaders (r : Response) (headers : List (String × String)) : Response :=
  { r with headers := Multidict.setAll r.headers (headers.map fun h => (lower h.1, h.2)) }

/-- `JSONResponse(content={"detail": ...})`. -/
def ofException (e : HTTPException) : Response where
  statusCode := e.statusCode
  headers := e.headers.map (fun h => (lower h.1, h.2)) ++ [("content-type", "application/json")]
  content := e.detail

end Response

/-! ## Apps and middlewares -/

/-- How an app fails to answer. -/
inductive Raised where
  | httpException (e : HTTPException)
  | other
  deriving DecidableEq, Repr

/-- What the layers of one request share. `charged` is a ghost: the calls on the rate-limit store,
in order. -/
structure StackState (σ τ : Type) where
  store : σ
  now : τ
  /-- `int(time.time())`. -/
  time : Int
  /-- What `uuid.uuid4()` gives. -/
  uuid4 : String
  /-- `f"{elapsed:.4f}s"`. -/
  elapsed : String
  count : Count := {}
  charged : List (RateCall τ) := []

abbrev App (σ τ : Type) := HttpRequest → StackState σ τ → Except Raised Response × StackState σ τ

abbrev Middleware (σ τ : Type) := App σ τ → App σ τ

/-- `response = await call_next(request)`, and what is done to the response. -/
def afterwards {σ τ : Type} (f : Response → Response)
    (out : Except Raised Response × StackState σ τ) : Except Raised Response × StackState σ τ :=
  (out.1.map f, out.2)

/-- A layer that reads `request.url.path` once it has the response. -/
def reading {σ τ : Type} (q : HttpRequest) (out : Except Raised Response × StackState σ τ) :
    Except Raised Response × StackState σ τ :=
  if q.readable then out else (out.1.bind fun _ => .error .other, out.2)

/-! ## The layers -/

/-- `[\w...]{1,limit}$` matched at the start, for text below U+0100: the last character may be a
line break on top. -/
def matchesClass (isIn : Char → Bool) (limit : Nat) (s : String) : Bool :=
  let line := if s.toList.getLast? = some '\n' then s.toList.dropLast else s.toList
  decide (1 ≤ line.length ∧ line.length ≤ limit) && line.all isIn

/-- `\w`, below U+0100. -/
def isWord (c : Char) : Bool :=
  c.isAlphanum || c == '_'
    || c.toNat ∈ [0xAA, 0xB2, 0xB3, 0xB5, 0xB9, 0xBA, 0xBC, 0xBD, 0xBE]
    || (decide (0xC0 ≤ c.toNat ∧ c.toNat ≤ 0xFF) && c.toNat ∉ [0xD7, 0xF7])

/-- `_REQUEST_ID_RE`. -/
def requestIdRe (s : String) : Bool := matchesClass (fun c => isWord c || c == '-') 128 s

/-- `_IP_RE`. -/
def ipRe (s : String) : Bool :=
  matchesClass (fun c => isWord c || c ∈ [':', '.', '[', ']', '%', '-']) 64 s

/-- `_SECURITY_HEADERS`. -/
def securityHeaders : List (String × String) :=
  [("X-Content-Type-Options", "nosniff"),
   ("X-Frame-Options", "DENY"),
   ("X-XSS-Protection", "0"),
   ("Strict-Transport-Security", "max-age=63072000; includeSubDomains; preload"),
   ("Content-Security-Policy", "default-src 'none'; frame-ancestors 'none'"),
   ("Referrer-Policy", "strict-origin-when-cross-origin"),
   ("Permissions-Policy",
     "camera=(), microphone=(), geolocation=(), interest-cohort=(), payment=()")]

/-- `_CREDENTIAL_PATHS`. -/
def credentialPaths : List String :=
  ["/api/v1/auth/login", "/api/v1/auth/register", "/api/v1/auth/refresh",
   "/api/v1/users/me/password"]

/-- `_HEADERS_TO_REMOVE`. -/
def headersToRemove : List String := ["server", "x-powered-by"]

/-- What `SecurityHeadersMiddleware` does to a response. -/
def secured (path : String) (r : Response) : Response :=
  let r := r.setHeaders securityHeaders
  let r :=
    if path ∈ credentialPaths then
      r.setHeaders [("Cache-Control", "no-store, no-cache, must-revalidate"),
        ("Pragma", "no-cache")]
    else r
  headersToRemove.foldl Response.delHeader r

/-- `_sanitize_or_generate`. -/
def sanitizeOrGenerate (raw : Option String) (uuid4 : String) : String :=
  if orEmpty raw ≠ "" ∧ requestIdRe (orEmpty raw) then orEmpty raw else uuid4

/-- `_extract_client_ip`. -/
def HttpRequest.clientIp (q : HttpRequest) : String :=
  let realIp := String.ofList (Decimal.strip (q.headers.getD "x-real-ip").toList)
  if realIp ≠ "" ∧ ipRe realIp then realIp
  else
    let fallback := q.clientHost.getD "unknown"
    if ipRe fallback then fallback else "unknown"

/-- `is_auth_path`. -/
def HttpRequest.isAuthPath (q : HttpRequest) : Bool := decide (q.urlPath ∈ authPaths)

/-- The framework's `CORSMiddleware`: the requests it answers itself, and what it does to the
other responses. -/
structure Cors where
  preflight : HttpRequest → Option Response
  decorate : HttpRequest → Response → Response

/-- The routes: which of them read the body, and what they answer on it. -/
structure Routes where
  readsBody : HttpRequest → Bool
  answer : HttpRequest → Bytes → Except Raised Response

/-- The gateway: the settings `main.py` hands to its middlewares, and what it rests on. -/
structure GatewayApp (σ τ : Type) where
  bodySize : BodySizeLimitMiddleware
  jwt : Jwt
  jwtSettings : JwtSettings
  limiter : RateLimiter
  /-- `store.check_and_increment`. -/
  check : σ → RateCall τ → RateAnswer × σ
  cors : Cors
  routes : Routes
  /-- `settings.environment == "production"`. -/
  production : Bool

namespace GatewayApp

variable {σ τ : Type} (g : GatewayApp σ τ)

def securityHeadersMiddleware : Middleware σ τ := fun app q w =>
  reading q (afterwards (secured q.urlPath) (app q w))

def corsMiddleware : Middleware σ τ := fun app q w =>
  match g.cors.preflight q with
  | some r => (.ok r, w)
  | none => afterwards (g.cors.decorate q) (app q w)

/-- The checks of a request, as calls on the store. -/
def calls (q : HttpRequest) (w : StackState σ τ) : List (RateCall τ) :=
  (g.limiter.checks q.isAuthPath q.clientIp q.state.userId).map fun c =>
    ⟨w.now, c.1, c.2, g.limiter.windowSeconds⟩

/-- The calls with their answers, newest first, and the store they leave. -/
def rates (q : HttpRequest) (w : StackState σ τ) : σ × List (RateCall τ × RateAnswer) :=
  answered g.check w.store (g.calls q w)

/-- Whether the store said that `key` is over. -/
def isOver (log : List (RateCall τ × RateAnswer)) (key : String) : Bool :=
  log.any fun e => e.1.key == key && e.2.1

/-- `max(0, limit - count)`. -/
def remaining (log : List (RateCall τ × RateAnswer)) (key : String) (limit : Int) : Int :=
  max 0 (limit - (((log.find? fun e => e.1.key == key).map fun e => e.2.2).getD 0 : Nat))

/-- The 429, if one of the buckets is over. -/
def tooMany (q : HttpRequest) (w : StackState σ τ) : Option HTTPException :=
  (g.limiter.limit (fun key _ => isOver (g.rates q w).2 key) w.time q.urlPath q.clientIp
    q.state.userId).2

/-- The tighter of the two budgets: limit, remaining, scope. -/
def tighterBudget (q : HttpRequest) (w : StackState σ τ) : Int × Int × String :=
  let log := (g.rates q w).2
  let ipLimit := if q.isAuthPath then g.limiter.authMaxRequests else g.limiter.maxRequests
  let ipRemaining := remaining log
    (ipKey (if q.isAuthPath then "auth" else "general") q.clientIp) ipLimit
  match userKeys q.state.userId with
  | [] => (ipLimit, ipRemaining, "ip")
  | userKey :: _ =>
      let userRemaining := remaining log userKey g.limiter.userMaxRequests
      if userRemaining < ipRemaining then (g.limiter.userMaxRequests, userRemaining, "user")
      else (ipLimit, ipRemaining, "ip")

/-- What the limiter adds to the response of a request it lets through. -/
def budgetHeaders (q : HttpRequest) (w : StackState σ τ) : List (String × String) :=
  let budget := g.tighterBudget q w
  [("X-RateLimit-Limit", toString budget.1), ("X-RateLimit-Remaining", toString budget.2.1),
   ("X-RateLimit-Scope", budget.2.2),
   ("X-RateLimit-Reset", toString (w.time + g.limiter.windowSeconds))]

/-- The state after the checks. -/
def charge (q : HttpRequest) (w : StackState σ τ) : StackState σ τ :=
  { w with store := (g.rates q w).1, charged := w.charged ++ g.calls q w }

def rateLimiterMiddleware : Middleware σ τ := fun app q w =>
  if !q.readable then (.error .other, w)
  else if q.urlPath ∈ exemptPaths then app q w
  else
    match g.tooMany q w with
    | some e => (.ok (Response.ofException e), g.charge q w)
    | none => afterwards (·.setHeaders (g.budgetHeaders q w)) (app q (g.charge q w))

/-- The id `CorrelationMiddleware` gives a request. -/
def requestId (q : HttpRequest) (w : StackState σ τ) : String :=
  sanitizeOrGenerate (q.headers.get? "x-request-id") w.uuid4

def correlationMiddleware : Middleware σ τ := fun app q w =>
  let id := requestId q w
  afterwards (·.setHeader "X-Request-ID" id)
    (app { q with state := { q.state with requestId := some id } } w)

/-- What `JWTAuthMiddleware` makes of the token of a request. -/
def authenticate (q : HttpRequest) : Except HTTPException (Option RequestState) :=
  jwtAuth (verifyToken g.jwt g.jwtSettings) q.urlPath (q.headers.getD "authorization")

/-- The request with the identity the token gives it. -/
def withIdentity (q : HttpRequest) (identity : Option RequestState) : HttpRequest :=
  { q with state := identity.getD q.state }

def jwtAuthMiddleware : Middleware σ τ := fun app q w =>
  if !q.readable then (.error .other, w)
  else
    match g.authenticate q with
    | .error e => (.ok (Response.ofException e), w)
    | .ok identity => app (withIdentity q identity) w

def bodySizeLimitMiddleware : Middleware σ τ := fun app q w =>
  if g.bodySize.declaredOversize (q.headers.get? "content-length") then
    (.ok (Response.ofException g.bodySize.tooLargeResponse), w)
  else
    let out := app q { w with count := {} }
    if out.2.count.oversize then
      afterwards (fun _ => Response.ofException g.bodySize.tooLargeResponse) out
    else out

/-- What `record_metrics` does to a response. -/
def timed (w : StackState σ τ) (r : Response) : Response :=
  if g.production then r else r.setHeader "X-Response-Time" w.elapsed

def recordMetrics : Middleware σ τ := fun app q w => reading q (afterwards (g.timed w) (app q w))

/-- The framework's handler around the routes. -/
def exceptionMiddleware : Middleware σ τ := fun app q w =>
  match app q w with
  | (.error (.httpException e), w) => (.ok (Response.ofException e), w)
  | out => out

/-- The framework's answer where nothing else answers. -/
def internalServerError : Response where
  statusCode := 500
  headers := [("content-type", "text/plain; charset=utf-8")]
  content := "Internal Server Error"

/-- The framework's handler around the stack. -/
def serverErrorMiddleware : Middleware σ τ := fun app q w =>
  match app q w with
  | (.error _, w) => (.ok internalServerError, w)
  | out => out

/-- The routes, with a body read through `counting_receive`; without a whole body the reader raises
`ClientDisconnect`. -/
def router : App σ τ := fun q w =>
  if g.routes.readsBody q then
    match g.bodySize.readBody w.count q.body with
    | (none, count) => (.error .other, { w with count })
    | (some body, count) => (g.routes.answer q body, { w with count })
  else (g.routes.answer q [], w)

/-- `app.add_middleware`. -/
def addMiddleware (userMiddleware : List (Middleware σ τ)) (m : Middleware σ τ) :
    List (Middleware σ τ) := m :: userMiddleware

/-- The middlewares of `main.py`, in the order they are added. -/
def userMiddleware : List (Middleware σ τ) :=
  [securityHeadersMiddleware, g.corsMiddleware, g.rateLimiterMiddleware, correlationMiddleware,
   g.jwtAuthMiddleware, g.bodySizeLimitMiddleware, g.recordMetrics].foldl addMiddleware []

/-- `build_middleware_stack`. -/
def app : App σ τ :=
  (serverErrorMiddleware :: (g.userMiddleware ++ [exceptionMiddleware])).foldr (fun m app => m app)
    g.router

/-- **The order on the request path.** -/
theorem app_eq : g.app
    = serverErrorMiddleware (g.recordMetrics (g.bodySizeLimitMiddleware (g.jwtAuthMiddleware
      (correlationMiddleware (g.rateLimiterMiddleware (g.corsMiddleware (securityHeadersMiddleware
        (exceptionMiddleware g.router)))))))) := by
  simp only [app, userMiddleware, addMiddleware, List.foldl_cons, List.foldl_nil, List.cons_append,
    List.nil_append, List.foldr_cons, List.foldr_nil]

/-! ## What the layers make of a request -/

/-- What the limiter calls on. -/
def belowLimiter : App σ τ :=
  g.corsMiddleware (securityHeadersMiddleware (exceptionMiddleware g.router))

/-- What the body-size limit calls on. -/
def belowBodySize : App σ τ :=
  g.jwtAuthMiddleware (correlationMiddleware (g.rateLimiterMiddleware g.belowLimiter))

/-- The request the limiter sees. -/
def atLimiter (q : HttpRequest) (w : StackState σ τ) (identity : Option RequestState) :
    HttpRequest :=
  let q := withIdentity q identity
  { q with state := { q.state with requestId := some (requestId q w) } }

variable {g} {q : HttpRequest} {w w' : StackState σ τ}

theorem reading_of_readable (hread : q.readable = true)
    (out : Except Raised Response × StackState σ τ) : reading q out = out := if_pos hread

/-- A request over a bucket is answered by the limiter. -/
theorem rateLimiter_of_tooMany (app : App σ τ) {e : HTTPException} (hread : q.readable = true)
    (hpath : q.urlPath ∉ exemptPaths) (h : g.tooMany q w = some e) :
    g.rateLimiterMiddleware app q w = (.ok (Response.ofException e), g.charge q w) := by
  unfold rateLimiterMiddleware
  rw [hread, if_neg (by simp), if_neg hpath, h]

/-- **Where `request.url.path` cannot be read the framework answers**, and nobody is charged. -/
theorem app_of_unreadable (hread : q.readable = false) :
    ∃ w', g.app q w = (.ok internalServerError, w') ∧ w'.store = w.store
      ∧ w'.charged = w.charged := by
  have hbelow : ∀ w, g.belowBodySize q w = (.error .other, w) := by
    intro w
    unfold belowBodySize jwtAuthMiddleware
    rw [hread]
    rfl
  rw [belowBodySize, belowLimiter] at hbelow
  rw [app_eq]
  unfold serverErrorMiddleware recordMetrics bodySizeLimitMiddleware reading
  rw [hread, hbelow]
  cases g.bodySize.declaredOversize (q.headers.get? "content-length") with
  | true => exact ⟨w, rfl, rfl, rfl⟩
  | false => exact ⟨{ w with count := {} }, rfl, rfl, rfl⟩

theorem app_of_declared (hread : q.readable = true)
    (h : g.bodySize.declaredOversize (q.headers.get? "content-length") = true) :
    g.app q w = (.ok (g.timed w (Response.ofException g.bodySize.tooLargeResponse)), w) := by
  rw [app_eq]
  unfold serverErrorMiddleware recordMetrics bodySizeLimitMiddleware
  rw [if_pos h, reading_of_readable hread]
  rfl

/-- What comes from below the body limit is timed and guarded, unless the body turned out to be too
large. -/
theorem app_of_below {out : Except Raised Response × StackState σ τ} (hread : q.readable = true)
    (hdeclared : g.bodySize.declaredOversize (q.headers.get? "content-length") = false)
    (h : g.belowBodySize q { w with count := {} } = out) :
    g.app q w = serverErrorMiddleware (fun _ w => afterwards (g.timed w)
      (if out.2.count.oversize then
        afterwards (fun _ => Response.ofException g.bodySize.tooLargeResponse) out
      else out)) q w := by
  rw [belowBodySize, belowLimiter] at h
  rw [app_eq]
  unfold serverErrorMiddleware recordMetrics bodySizeLimitMiddleware
  rw [hdeclared, if_neg Bool.false_ne_true, h, reading_of_readable hread]

/-- An answer from below leaves the gateway unless the body turned out to be too large. -/
theorem app_of_answer {r : Response} (hread : q.readable = true)
    (hdeclared : g.bodySize.declaredOversize (q.headers.get? "content-length") = false)
    (h : g.belowBodySize q { w with count := {} } = (.ok r, w')) :
    g.app q w = (.ok (g.timed w (if w'.count.oversize then
      Response.ofException g.bodySize.tooLargeResponse else r)), w') := by
  rw [app_of_below hread hdeclared h]
  unfold serverErrorMiddleware
  cases w'.count.oversize <;> rfl

theorem app_of_raised {e : Raised} (hread : q.readable = true)
    (hdeclared : g.bodySize.declaredOversize (q.headers.get? "content-length") = false)
    (h : g.belowBodySize q { w with count := {} } = (.error e, w')) :
    g.app q w = (.ok internalServerError, w') := by
  rw [app_of_below hread hdeclared h]
  unfold serverErrorMiddleware
  cases w'.count.oversize <;> rfl

/-- A refused token is answered above the limiter. -/
theorem belowBodySize_of_refused {e : HTTPException} (hread : q.readable = true)
    (h : g.authenticate q = .error e) :
    g.belowBodySize q w = (.ok (Response.ofException e), w) := by
  unfold belowBodySize jwtAuthMiddleware
  rw [hread, if_neg (by simp), h]

theorem belowBodySize_of_authenticated {identity : Option RequestState} (hread : q.readable = true)
    (h : g.authenticate q = .ok identity) :
    g.belowBodySize q w
      = afterwards (·.setHeader "X-Request-ID" (requestId (withIdentity q identity) w))
          (g.rateLimiterMiddleware g.belowLimiter (atLimiter q w identity) w) := by
  unfold belowBodySize jwtAuthMiddleware
  rw [hread, if_neg (by simp), h]
  rfl

end GatewayApp

/-! ## A gateway to look at -/

/-- The framework's CORS layer with no origin allowed. -/
def noOrigins : Cors where
  preflight := fun q =>
    if q.method = "OPTIONS" ∧ (q.headers.get? "origin").isSome
        ∧ (q.headers.get? "access-control-request-method").isSome then
      some
        { statusCode := 400
          headers :=
            [("vary", "Origin"),
             ("access-control-allow-methods", "GET, POST, PUT, PATCH, DELETE, OPTIONS"),
             ("access-control-max-age", "600"),
             ("access-control-allow-headers",
               "Accept, Accept-Language, Authorization, Content-Language, Content-Type, X-Request-ID"),
             ("content-type", "text/plain; charset=utf-8")]
          content := "Disallowed CORS origin" }
    else none
  decorate := fun _ r => r

/-- One request a minute, in memory, and a JWT library to which every token is malformed. -/
def oneRequestGateway : GatewayApp (InMemoryStore Int) Int where
  bodySize := ⟨1048576, by decide⟩
  jwt := { unverifiedKid := fun _ => none, decode := fun _ _ _ => .error .invalidToken }
  jwtSettings := { jwtSecrets := "", jwtSecret := "change-me", jwtAlgorithm := "HS256" }
  limiter := { maxRequests := 1, authMaxRequests := 1, userMaxRequests := 1, windowSeconds := 60 }
  check := InMemoryStore.checkAndIncrement
  cors := noOrigins
  routes := { readsBody := fun _ => false, answer := fun _ _ => .ok { statusCode := 200, content := "" } }
  production := true

def atNoon : StackState (InMemoryStore Int) Int where
  store := Dict.empty
  now := 0
  time := 43200
  uuid4 := "0b9e4d1c-5f3a-4c68-9d27-6a1f8e2b7c30"
  elapsed := "0.0010"

/-- A request without a token. -/
def anonymous (path : String) : HttpRequest where
  method := "GET"
  path := path
  headers := { items := [("host", "gateway")], lowered := by decide }
  clientHost := some "203.0.113.7"
  body := [.request [] false]

/-- Its `Host` is a plain name, and so the path that is read is the one it is for. -/
theorem anonymous_path? {path : String} (hrooted : path.toList.head? = some '/') :
    (anonymous path).urlScope.path? = some (UrlScope.readBack path) :=
  UrlScope.path?_of_isBare rfl rfl (by decide) hrooted rfl

theorem anonymous_urlPath {path : String} (hrooted : path.toList.head? = some '/') :
    (anonymous path).urlPath = UrlScope.readBack path :=
  congrArg (Option.getD · "") (anonymous_path? hrooted)

/-- What a request without a token is answered. -/
def missingToken : HTTPException where
  statusCode := 401
  detail := "Missing or invalid Authorization header"
  headers := [("WWW-Authenticate", "Bearer")]

/-- The 401 for it comes from above all other layers but two. -/
theorem anonymous_refused {path : String} (hrooted : path.toList.head? = some '/')
    (hexempt : isExempt (UrlScope.readBack path) = false)
    (w : StackState (InMemoryStore Int) Int) :
    oneRequestGateway.app (anonymous path) w
      = (.ok (Response.ofException missingToken), { w with count := {} }) := by
  have hread : (anonymous path).readable = true := Option.isSome_of_eq_some (anonymous_path? hrooted)
  have hdeclared : oneRequestGateway.bodySize.declaredOversize
      ((anonymous path).headers.get? "content-length") = false := by rfl
  have hauth : oneRequestGateway.authenticate (anonymous path) = .error missingToken := by
    unfold GatewayApp.authenticate jwtAuth
    rw [anonymous_urlPath hrooted, hexempt]
    rfl
  exact GatewayApp.app_of_answer hread hdeclared (GatewayApp.belowBodySize_of_refused hread hauth)

end Microservices.Gateway
