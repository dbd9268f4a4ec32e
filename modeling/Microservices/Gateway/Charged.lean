import Microservices.Gateway.Stack

/-!
# Who is charged

The limiter lies below `JWTAuthMiddleware`, so a request whose token is refused
never gets to it: it is charged nothing and answered 401 however often it comes.
Nor is one whose `Host` makes `request.url.path` an exempt path, or no path at all.
Every other request is charged one unit.
-/

namespace Microservices.Gateway

open Identity

namespace GatewayApp

variable {σ τ : Type} (g : GatewayApp σ τ)

/-- The call on the store for the client's address. -/
def ipCall (q : HttpRequest) (w : StackState σ τ) : RateCall τ where
  time := w.now
  key := ipKey (if q.isAuthPath then "auth" else "general") q.clientIp
  limit := if q.isAuthPath then g.limiter.authMaxRequests else g.limiter.maxRequests
  windowSeconds := g.limiter.windowSeconds

/-- **The request counts against its address**: one unit is charged to its bucket, and if that is
one too many the answer is a 429. -/
structure CountsAgainstIp (q : HttpRequest) (w : StackState σ τ)
    (out : Except Raised Response × StackState σ τ) : Prop where
  charged : ∃ calls, out.2.charged = w.charged ++ calls
    ∧ (calls.map RateCall.key).count (g.ipCall q w).key = 1
  limited : (g.check w.store (g.ipCall q w)).1.1 = true →
    ∃ r, out.1 = .ok r ∧ r.statusCode = 429

/-! ## Below the limiter nothing is charged -/

/-- The app charges nobody. -/
def Uncharged (app : App σ τ) : Prop := ∀ q w, (app q w).2.charged = w.charged

theorem uncharged_router : Uncharged g.router := by
  intro q w
  unfold router
  split
  · split <;> rfl
  · rfl

theorem uncharged_exceptionMiddleware {app : App σ τ} (h : Uncharged app) :
    Uncharged (exceptionMiddleware app) := by
  intro q w
  have hcharged := h q w
  unfold exceptionMiddleware
  split
  · rename_i heq
    rw [heq] at hcharged
    exact hcharged
  · exact hcharged

theorem uncharged_corsMiddleware {app : App σ τ} (h : Uncharged app) :
    Uncharged (g.corsMiddleware app) := by
  intro q w
  unfold corsMiddleware
  split
  · rfl
  · exact h q w

theorem uncharged_belowLimiter : Uncharged g.belowLimiter := by
  have hroutes := uncharged_exceptionMiddleware g.uncharged_router
  have hsecured : Uncharged (securityHeadersMiddleware (exceptionMiddleware g.router)) := by
    intro q w
    unfold securityHeadersMiddleware reading
    split
    · exact hroutes q w
    · exact hroutes q w
  exact g.uncharged_corsMiddleware hsecured

/-! ## The limiter -/

/-- The calls of a request are that for its address and those for its user. -/
theorem calls_eq (q : HttpRequest) (w : StackState σ τ) :
    g.calls q w = g.ipCall q w :: (userKeys q.state.userId).map fun k =>
      ⟨w.now, k, g.limiter.userMaxRequests, g.limiter.windowSeconds⟩ := by
  unfold calls RateLimiter.checks
  rw [List.map_cons, List.map_map]
  rfl

theorem ipCall_not_userKey (q : HttpRequest) (w : StackState σ τ) :
    (g.ipCall q w).key ∉ userKeys q.state.userId := by
  unfold ipCall
  cases q.isAuthPath with
  | true => exact ipKey_not_userKey (Or.inl rfl)
  | false => exact ipKey_not_userKey (Or.inr rfl)

/-- One of them is for the address. -/
theorem count_calls (q : HttpRequest) (w : StackState σ τ) :
    ((g.calls q w).map RateCall.key).count (g.ipCall q w).key = 1 := by
  have huser : ((userKeys q.state.userId).map fun k => (⟨w.now, k, g.limiter.userMaxRequests,
      g.limiter.windowSeconds⟩ : RateCall τ)).map RateCall.key = userKeys q.state.userId := by
    rw [List.map_map]
    exact List.map_id _
  rw [calls_eq, List.map_cons, huser, List.count_cons_self,
    List.count_eq_zero_of_not_mem (g.ipCall_not_userKey q w)]

/-- The log holds what the store said of the address. -/
theorem ipCall_logged (q : HttpRequest) (w : StackState σ τ) :
    (g.ipCall q w, (g.check w.store (g.ipCall q w)).1) ∈ (g.rates q w).2 := by
  unfold rates
  rw [calls_eq, ← List.singleton_append, answered_append]
  exact List.mem_append_right _ List.mem_cons_self

/-- A request over its address's bucket gets the 429. -/
theorem tooMany_of_over {q : HttpRequest} {w : StackState σ τ} (hpath : q.urlPath ∉ exemptPaths)
    (h : (g.check w.store (g.ipCall q w)).1.1 = true) :
    ∃ e, g.tooMany q w = some e ∧ e.statusCode = 429 := by
  have hover : isOver (g.rates q w).2 (g.ipCall q w).key = true := by
    refine List.any_eq_true.mpr ⟨_, g.ipCall_logged q w, ?_⟩
    rw [h]
    simp
  unfold tooMany RateLimiter.limit
  rw [if_neg hpath]
  refine ⟨_, if_pos (Or.inl ?_), rfl⟩
  exact hover

theorem rateLimiter_charges {q : HttpRequest} {w : StackState σ τ} {app : App σ τ}
    (h : Uncharged app) (hread : q.readable = true) :
    (g.rateLimiterMiddleware app q w).2.charged
      = w.charged ++ if q.urlPath ∈ exemptPaths then [] else g.calls q w := by
  unfold rateLimiterMiddleware
  rw [hread, if_neg (by simp)]
  by_cases hpath : q.urlPath ∈ exemptPaths
  · rw [if_pos hpath, if_pos hpath, List.append_nil]
    exact h q w
  · rw [if_neg hpath, if_neg hpath]
    split
    · rfl
    · exact h q _

/-! ## The whole stack -/

variable {g} {q : HttpRequest} {w : StackState σ τ}

/-- A request whose token is refused is charged nothing and answered 401 or 500. -/
theorem app_of_refused {e : HTTPException} (hread : q.readable = true)
    (hdeclared : g.bodySize.declaredOversize (q.headers.get? "content-length") = false)
    (hrefused : g.authenticate q = .error e) :
    g.app q w = (.ok (g.timed w (Response.ofException e)), { w with count := {} }) :=
  app_of_answer hread hdeclared (belowBodySize_of_refused hread hrefused)

theorem timed_statusCode (r : Response) : (g.timed w r).statusCode = r.statusCode := by
  unfold timed
  split <;> rfl

/-- A request that is let through is charged for what the limiter is charged for. -/
theorem charged_of_authenticated {identity : Option RequestState} (hread : q.readable = true)
    (hdeclared : g.bodySize.declaredOversize (q.headers.get? "content-length") = false)
    (hidentity : g.authenticate q = .ok identity) :
    (g.app q w).2.charged = w.charged
      ++ if q.urlPath ∈ exemptPaths then [] else g.calls (atLimiter q w identity) w := by
  have hbelow := belowBodySize_of_authenticated (w := { w with count := {} }) hread hidentity
  have hlimiter := g.rateLimiter_charges (q := atLimiter q w identity)
    (w := { w with count := {} }) g.uncharged_belowLimiter hread
  cases hout : g.belowBodySize q { w with count := {} } with
  | mk answer w' =>
      have hcharged : w'.charged = w.charged
          ++ if q.urlPath ∈ exemptPaths then [] else g.calls (atLimiter q w identity) w := by
        rw [hout] at hbelow
        have hw' := congrArg (fun out => out.2.charged) hbelow
        exact hw'.trans hlimiter
      cases answer with
      | ok r =>
          rw [app_of_answer hread hdeclared hout]
          exact hcharged
      | error e =>
          rw [app_of_raised hread hdeclared hout]
          exact hcharged

/-- One over its address's bucket is answered with the 429. -/
theorem answer_of_over {identity : Option RequestState} (hread : q.readable = true)
    (hdeclared : g.bodySize.declaredOversize (q.headers.get? "content-length") = false)
    (hidentity : g.authenticate q = .ok identity) (hpath : q.urlPath ∉ exemptPaths)
    (hover : (g.check w.store (g.ipCall q w)).1.1 = true) :
    ∃ r, (g.app q w).1 = .ok r ∧ r.statusCode = 429 := by
  obtain ⟨e, hmany, hstatus⟩ := g.tooMany_of_over (q := atLimiter q w identity)
    (w := { w with count := {} }) hpath hover
  have hbelow := belowBodySize_of_authenticated (w := { w with count := {} }) hread hidentity
  have hlimiter := rateLimiter_of_tooMany g.belowLimiter
    (q := atLimiter q { w with count := {} } identity) hread hpath hmany
  rw [hlimiter] at hbelow
  rw [app_of_answer hread hdeclared hbelow]
  refine ⟨_, rfl, ?_⟩
  rw [timed_statusCode]
  exact hstatus

/-- What leaves the log of charges as it is does not count. -/
theorem not_counts_of_uncharged {out : Except Raised Response × StackState σ τ}
    (h : out.2.charged = w.charged) : ¬ g.CountsAgainstIp q w out := by
  intro hcounts
  obtain ⟨calls, hcalls, hcount⟩ := hcounts.charged
  rw [h] at hcalls
  have hnil : calls = [] := List.self_eq_append_right.mp hcalls
  rw [hnil] at hcount
  cases hcount

/--
**A request counts against its address exactly if its token is not refused and its URL
reads as one outside the exempt paths.**

For every request whose declared length is acceptable, whatever its path and `Host`,
every store, every setting and whatever lies below the middlewares.
-/
theorem counts_against_ip_iff (g : GatewayApp σ τ) (q : HttpRequest) (w : StackState σ τ)
    (hdeclared : g.bodySize.declaredOversize (q.headers.get? "content-length") = false) :
    g.CountsAgainstIp q w (g.app q w) ↔
      q.readable = true ∧ q.urlPath ∉ exemptPaths ∧ ∃ identity, g.authenticate q = .ok identity := by
  constructor
  · intro h
    cases hread : q.readable with
    | false =>
        obtain ⟨w', happ, -, hcharged⟩ := app_of_unreadable (g := g) (w := w) hread
        rw [happ] at h
        exact absurd h (not_counts_of_uncharged hcharged)
    | true =>
        cases hauth : g.authenticate q with
        | error e =>
            rw [app_of_refused hread hdeclared hauth] at h
            exact absurd h (not_counts_of_uncharged rfl)
        | ok identity =>
            refine ⟨rfl, fun hpath => ?_, identity, rfl⟩
            have hcharged := charged_of_authenticated (w := w) hread hdeclared hauth
            rw [if_pos hpath, List.append_nil] at hcharged
            exact not_counts_of_uncharged hcharged h
  · rintro ⟨hread, hpath, identity, hidentity⟩
    have hcharged := charged_of_authenticated (w := w) hread hdeclared hidentity
    rw [if_neg hpath] at hcharged
    exact ⟨⟨_, hcharged, g.count_calls (atLimiter q w identity) w⟩,
      answer_of_over hread hdeclared hidentity hpath⟩

/-- A run of requests, each at its time. -/
def serveAll (g : GatewayApp σ τ) (w : StackState σ τ) (requests : List (τ × HttpRequest)) :
    StackState σ τ :=
  requests.foldl (fun w a => (g.app a.2 { w with now := a.1 }).2) w

/-- **Requests whose tokens are refused leave the store as it is**, in however long a run. -/
theorem refused_run (g : GatewayApp σ τ) (w : StackState σ τ) (requests : List (τ × HttpRequest))
    (hrefused : ∀ a ∈ requests, a.2.readable = true
      ∧ g.bodySize.declaredOversize (a.2.headers.get? "content-length") = false
      ∧ ∃ e, g.authenticate a.2 = .error e) :
    (g.serveAll w requests).store = w.store ∧ (g.serveAll w requests).charged = w.charged := by
  induction requests generalizing w with
  | nil => exact ⟨rfl, rfl⟩
  | cons a requests ih =>
      obtain ⟨hread, hdeclared, e, hauth⟩ := hrefused a List.mem_cons_self
      have hrest := ih { w with now := a.1, count := {} } fun b hb =>
        hrefused b (List.mem_cons_of_mem a hb)
      rw [serveAll, List.foldl_cons, app_of_refused hread hdeclared hauth]
      exact hrest

end GatewayApp

theorem login_counts_against_ip :
    oneRequestGateway.CountsAgainstIp (anonymous "/api/v1/auth/login") atNoon
      (oneRequestGateway.app (anonymous "/api/v1/auth/login") atNoon) := by
  have hpath : (anonymous "/api/v1/auth/login").urlPath = "/api/v1/auth/login" :=
    anonymous_urlPath rfl
  refine (GatewayApp.counts_against_ip_iff oneRequestGateway (anonymous "/api/v1/auth/login") atNoon
    (by decide)).mpr ⟨Option.isSome_of_eq_some (anonymous_path? rfl), ?_, none, jwtAuth_none_iff.mpr ?_⟩
  · rw [hpath]
    decide
  · rw [hpath]
    decide

/-- **A request without a token is answered 401 and charged nothing.** -/
theorem anonymous_not_charged :
    (anonymous "/api/v1/tasks").path ∉ exemptPaths
      ∧ oneRequestGateway.bodySize.declaredOversize
          ((anonymous "/api/v1/tasks").headers.get? "content-length") = false
      ∧ (∃ r, (oneRequestGateway.app (anonymous "/api/v1/tasks") atNoon).1 = .ok r
          ∧ r.statusCode = 401)
      ∧ (oneRequestGateway.app (anonymous "/api/v1/tasks") atNoon).2.charged = []
      ∧ ¬ oneRequestGateway.CountsAgainstIp (anonymous "/api/v1/tasks") atNoon
          (oneRequestGateway.app (anonymous "/api/v1/tasks") atNoon) := by
  rw [anonymous_refused rfl (by decide)]
  exact ⟨by decide, by decide, ⟨_, rfl, rfl⟩, rfl, GatewayApp.not_counts_of_uncharged rfl⟩

end Microservices.Gateway
