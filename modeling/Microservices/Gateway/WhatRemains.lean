import Microservices.Gateway.Charged
import Microservices.Gateway.Hardened
import Microservices.Gateway.ResetHeader
import Microservices.Gateway.UserBudgets

/-!
# What the remaining header promises

A response names how many requests the client has left, in the tighter of its two
buckets. A client that counts down from it is let through, as long as the others who
share a bucket with it are counted too: at this gateway, at another replica on the same
Redis, whatever the store loses meanwhile and whichever of its pipelines fail.

Both stores are covered. Only the pipelines of the request that got the header must
have succeeded: where one fails the count is taken for 0, and the header is worth nothing.
-/

namespace Microservices.Gateway

open Identity

/-! ## Either store -/

/-- `_store`, once it is chosen. The next pipelines meet `faults`, and after them none. -/
inductive RateStore (τ : Type) where
  | memory (buckets : InMemoryStore τ)
  | redis (scores : RedisRates τ) (faults : List Fault)

namespace RateStore

variable {τ : Type}

/-- How many calls are held for a key, some of them maybe too old to count. -/
def held : RateStore τ → String → Nat
  | .memory buckets, k => (buckets.bucket k).length
  | .redis scores _, k => ((scores k).map fun e => e.value.length).getD 0

/-- The next `n` calls are answered. -/
def Answers (n : Nat) : RateStore τ → Prop
  | .memory _ => True
  | .redis _ faults => ∀ f ∈ faults.take n, f = .none

theorem Answers.mono {s : RateStore τ} {n m : Nat} (h : s.Answers m) (hle : n ≤ m) :
    s.Answers n := by
  cases s with
  | memory buckets => trivial
  | redis scores faults =>
      intro f hf
      exact h f ((List.take_prefix_take_left hle).subset hf)

variable [Ring τ] [LinearOrder τ]

/-- `store.check_and_increment`. -/
def checkAndIncrement : RateStore τ → RateCall τ → RateAnswer × RateStore τ
  | .memory buckets, c =>
      let out := buckets.checkAndIncrement c
      (out.1, .memory out.2)
  | .redis scores faults, c =>
      let out := scores.checkAndIncrement (faults.headD .none) c
      (out.1, .redis out.2 faults.tail)

theorem Answers.check {s : RateStore τ} {n : Nat} (h : s.Answers (n + 1)) (c : RateCall τ) :
    (s.checkAndIncrement c).2.Answers n := by
  cases s with
  | memory buckets => trivial
  | redis scores faults =>
      cases faults with
      | nil => exact fun f hf => absurd hf (by simp)
      | cons f faults => exact fun f' hf' => h f' (List.mem_cons_of_mem f hf')

theorem held_memory_le (buckets : InMemoryStore τ) (c : RateCall τ) (k : String) :
    ((buckets.checkAndIncrement c).2.bucket k).length
      ≤ (buckets.bucket k).length + if c.key = k then 1 else 0 := by
  by_cases hk : c.key = k
  · subst hk
    rw [if_pos rfl, bucket_check_self, InMemoryStore.pruned, List.length_append]
    exact Nat.add_le_add_right (List.dropWhile_sublist _).length_le 1
  · rcases bucket_check_of_ne buckets hk with h | h
    · rw [h]
      exact Nat.le_add_right _ _
    · rw [h]
      exact Nat.zero_le _

/-- What a sorted set has of a key is no more than what is stored, and one. -/
theorem length_transaction_le (scores : RedisRates τ) (c : RateCall τ) :
    (scores.transaction c).1 ≤ ((scores c.key).map fun e => e.value.length).getD 0 + 1 := by
  unfold RedisRates.transaction RedisRates.transactionAt
  dsimp only
  rw [List.length_append, List.length_singleton]
  refine Nat.succ_le_succ ((List.length_filter_le _ _).trans ?_)
  cases hget : scores.get c.time c.key with
  | none => exact Nat.zero_le _
  | some times =>
      obtain ⟨e, he, rfl, -⟩ := ExpiringStore.exists_of_get_eq_some hget
      rw [he]
      exact le_refl _

theorem held_transaction_self (scores : RedisRates τ) (c : RateCall τ) :
    (((scores.transaction c).2 c.key).map fun e => e.value.length).getD 0
      = (scores.transaction c).1 := by
  unfold RedisRates.transaction RedisRates.transactionAt
  dsimp only
  rw [ExpiringStore.put_self]
  rfl

theorem held_transaction_of_ne (scores : RedisRates τ) {c : RateCall τ} {k : String}
    (h : c.key ≠ k) : (scores.transaction c).2 k = scores k := by
  unfold RedisRates.transaction RedisRates.transactionAt
  exact ExpiringStore.put_of_ne _ (Ne.symm h) _ _

theorem held_transaction_le (scores : RedisRates τ) (c : RateCall τ) (k : String) :
    (((scores.transaction c).2 k).map fun e => e.value.length).getD 0
      ≤ ((scores k).map fun e => e.value.length).getD 0 + if c.key = k then 1 else 0 := by
  by_cases hk : c.key = k
  · subst hk
    rw [held_transaction_self, if_pos rfl]
    exact length_transaction_le scores c
  · rw [held_transaction_of_ne scores hk]
    exact Nat.le_add_right _ _

/-- **A call adds one to its own key**, and to no other. -/
theorem held_check_le (s : RateStore τ) (c : RateCall τ) (k : String) :
    (s.checkAndIncrement c).2.held k ≤ s.held k + if c.key = k then 1 else 0 := by
  cases s with
  | memory buckets => exact held_memory_le buckets c k
  | redis scores faults =>
      unfold checkAndIncrement RedisRates.checkAndIncrement
      dsimp only
      cases faults.headD .none with
      | none => exact held_transaction_le scores c k
      | before => exact Nat.le_add_right _ _
      | after => exact held_transaction_le scores c k

/-- **A call that is over its limit is held.** -/
theorem held_of_limited {s : RateStore τ} {c : RateCall τ}
    (h : (s.checkAndIncrement c).1.1 = true) :
    c.limit < ((s.checkAndIncrement c).2.held c.key : Int) := by
  cases s with
  | memory buckets =>
      have hover : (buckets.checkAndIncrement c).1.1 = true := h
      show c.limit < ((((buckets.checkAndIncrement c).2.bucket c.key).length : Nat) : Int)
      rw [bucket_check_self]
      rw [checkAndIncrement_eq] at hover
      exact of_decide_eq_true hover
  | redis scores faults =>
      unfold checkAndIncrement RedisRates.checkAndIncrement at h ⊢
      dsimp only at h ⊢
      cases hfault : faults.headD .none with
      | none =>
          rw [hfault] at h
          show c.limit < _
          rw [held, held_transaction_self]
          exact of_decide_eq_true h
      | before =>
          rw [hfault] at h
          cases h
      | after =>
          rw [hfault] at h
          cases h

/-- **An answered call reports no fewer than are held.** -/
theorem held_le_count {s : RateStore τ} (h : s.Answers 1) (c : RateCall τ) :
    (s.checkAndIncrement c).2.held c.key ≤ (s.checkAndIncrement c).1.2 := by
  cases s with
  | memory buckets =>
      show ((buckets.checkAndIncrement c).2.bucket c.key).length ≤ _
      rw [bucket_check_self, checkAndIncrement, checkAndIncrement_eq]
      exact le_refl _
  | redis scores faults =>
      have hfault : faults.headD .none = .none := by
        cases faults with
        | nil => rfl
        | cons f faults => exact h f (by simp)
      unfold checkAndIncrement
      dsimp only
      rw [hfault]
      exact (held_transaction_self scores c).le

/-! ## The calls of a request -/

/-- How many of the calls are for a key. -/
def callsFor (k : String) (calls : List (RateCall τ)) : Nat := (calls.map RateCall.key).count k

theorem held_answered_le (s : RateStore τ) (calls : List (RateCall τ)) (k : String) :
    (answered checkAndIncrement s calls).1.held k ≤ s.held k + callsFor k calls := by
  induction calls using List.reverseRecOn with
  | nil => exact le_refl _
  | append_singleton calls c ih =>
      rw [answered_snoc, callsFor, List.map_append, List.count_append, List.map_singleton,
        List.count_singleton, ← add_assoc]
      have hlast := held_check_le (answered checkAndIncrement s calls).1 c k
      simp only [beq_iff_eq] at hlast ⊢
      exact hlast.trans (Nat.add_le_add_right ih _)

theorem answers_answered {s : RateStore τ} {n : Nat} {calls : List (RateCall τ)}
    (h : s.Answers (n + calls.length)) : (answered checkAndIncrement s calls).1.Answers n := by
  induction calls using List.reverseRecOn generalizing n with
  | nil => exact h
  | append_singleton calls c ih =>
      rw [List.length_append, List.length_singleton, Nat.add_comm calls.length, ← add_assoc] at h
      rw [answered_snoc]
      exact (ih h).check c

/-- What the log reports for a key, 0 without a call for it. -/
def reported (log : List (RateCall τ × RateAnswer)) (k : String) : Nat :=
  ((log.find? fun e => e.1.key == k).map fun e => e.2.2).getD 0

/-- Each of the calls reports no fewer than are held after all of them. -/
theorem held_le_reported {s : RateStore τ} {calls : List (RateCall τ)}
    (hkeys : (calls.map RateCall.key).Nodup) (h : s.Answers calls.length) {c : RateCall τ}
    (hc : c ∈ calls) :
    (answered checkAndIncrement s calls).1.held c.key
      ≤ reported (answered checkAndIncrement s calls).2 c.key := by
  induction calls using List.reverseRecOn with
  | nil => cases hc
  | append_singleton calls d ih =>
      rw [List.length_append, List.length_singleton, Nat.add_comm] at h
      rw [List.map_append, List.nodup_append] at hkeys
      obtain ⟨hkeys, -, hlast⟩ := hkeys
      rw [answered_snoc]
      unfold reported
      dsimp only
      by_cases hcd : d.key = c.key
      · rw [List.find?_cons_of_pos (by simpa using hcd), ← hcd]
        exact held_le_count (answers_answered h) d
      · -- the last call is for another key
        have hmem : c ∈ calls := by
          rcases List.mem_append.mp hc with hc | hc
          · exact hc
          · rw [List.mem_singleton.mp hc] at hcd
            exact absurd rfl hcd
        rw [List.find?_cons_of_neg (by simpa using hcd)]
        have hle := held_check_le (answered checkAndIncrement s calls).1 d c.key
        rw [if_neg hcd] at hle
        exact hle.trans (ih hkeys (h.mono (Nat.le_add_left _ _)) hmem)

/-- A key is over only if with this call it has more than its limit. -/
theorem not_over {s : RateStore τ} {calls : List (RateCall τ)}
    (hkeys : (calls.map RateCall.key).Nodup)
    (h : ∀ c ∈ calls, (s.held c.key : Int) < c.limit) (k : String) :
    GatewayApp.isOver (answered checkAndIncrement s calls).2 k = false := by
  induction calls using List.reverseRecOn with
  | nil => rfl
  | append_singleton calls c ih =>
      rw [List.map_append, List.nodup_append] at hkeys
      obtain ⟨hkeys, -, hlast⟩ := hkeys
      rw [answered_snoc]
      unfold GatewayApp.isOver
      rw [List.any_cons, Bool.or_eq_false_iff]
      refine ⟨?_, ih hkeys fun d hd => h d (List.mem_append_left _ hd)⟩
      -- none of the earlier calls is for the key of the last
      have hbefore := held_answered_le s calls c.key
      have hnone : callsFor c.key calls = 0 := by
        refine List.count_eq_zero_of_not_mem fun hmem => ?_
        exact hlast _ hmem _ (List.mem_singleton.mpr rfl) rfl
      have hself := held_check_le (answered checkAndIncrement s calls).1 c c.key
      rw [if_pos rfl] at hself
      have hlimit := h c (List.mem_append_right _ (List.mem_singleton.mpr rfl))
      cases hover : (checkAndIncrement (answered checkAndIncrement s calls).1 c).1.1 with
      | false => exact Bool.and_false _
      | true =>
          have hheld := held_of_limited hover
          omega

end RateStore

/-! ## Requests on the store -/

/-- What happens on the way of a store: a request at this gateway, or a call from elsewhere. -/
inductive Traffic (τ : Type) where
  | request (q : HttpRequest) (now : τ) (time : Int) (uuid4 elapsed : String)
  | elsewhere (c : RateCall τ)

namespace GatewayApp

section Serving

variable {σ τ : Type} (g : GatewayApp σ τ)

/-- Whose request this is at the limiter, if it gets there and is not exempt. -/
def reaching (q : HttpRequest) : Option Sender :=
  if !q.readable || g.bodySize.declaredOversize (q.headers.get? "content-length") then none
  else
    match g.authenticate q with
    | .error _ => none
    | .ok identity =>
        if q.urlPath ∈ exemptPaths then none
        else some ⟨q.isAuthPath, q.clientIp, (withIdentity q identity).state.userId⟩

/-- The calls for a request of this sender. -/
def callsOf (s : Sender) (now : τ) : List (RateCall τ) :=
  (g.limiter.checksOf s).map fun c => ⟨now, c.1, c.2, g.limiter.windowSeconds⟩

/-- The calls that are made on the store. -/
def charges : Traffic τ → List (RateCall τ)
  | .request q now _ _ _ => ((g.reaching q).map fun s => g.callsOf s now).getD []
  | .elsewhere c => [c]

/-- The gateway after that. -/
def meet (w : StackState σ τ) : Traffic τ → StackState σ τ
  | .request q now time uuid4 elapsed => (g.app q { w with now, time, uuid4, elapsed }).2
  | .elsewhere c => { w with store := (g.check w.store c).2 }

def meetAll (w : StackState σ τ) (traffic : List (Traffic τ)) : StackState σ τ :=
  traffic.foldl g.meet w

/-- The limiter lets the request pass. -/
def LetThrough (q : HttpRequest) (w : StackState σ τ) : Prop :=
  q.readable = true ∧ ∃ identity, g.authenticate q = .ok identity ∧ g.tooMany (atLimiter q w identity) w = none

variable {g} {q : HttpRequest} {w : StackState σ τ}

theorem reaching_eq_some {s : Sender} (h : g.reaching q = some s) :
    q.readable = true ∧ g.bodySize.declaredOversize (q.headers.get? "content-length") = false
      ∧ q.urlPath ∉ exemptPaths
      ∧ ∃ identity, g.authenticate q = .ok identity
        ∧ s = ⟨q.isAuthPath, q.clientIp, (withIdentity q identity).state.userId⟩ := by
  unfold reaching at h
  split at h
  · cases h
  · rename_i hpasses
    obtain ⟨hread, hdeclared⟩ := Bool.or_eq_false_iff.mp (Bool.eq_false_iff.mpr hpasses)
    split at h
    · cases h
    · rename_i identity hidentity
      obtain ⟨hpath, hs⟩ := Option.ite_none_left_eq_some.mp h
      exact ⟨by simpa using hread, hdeclared, hpath, identity, hidentity, (Option.some.inj hs).symm⟩

theorem reaching_eq_none (hread : q.readable = true) (h : g.reaching q = none) :
    g.bodySize.declaredOversize (q.headers.get? "content-length") = true
      ∨ (∃ e, g.authenticate q = .error e) ∨ q.urlPath ∈ exemptPaths := by
  unfold reaching at h
  rw [hread] at h
  split at h
  · rename_i hdeclared
    exact Or.inl hdeclared
  · split at h
    · rename_i e he
      exact Or.inr (Or.inl ⟨e, he⟩)
    · right
      right
      by_contra hpath
      rw [if_neg hpath] at h
      cases h

/-! ### Only the limiter touches the store -/

variable (g) in
/-- What lies below the limiter leaves the store. -/
theorem store_belowLimiter (q : HttpRequest) (w : StackState σ τ) :
    (g.belowLimiter q w).2.store = w.store := by
  have hrouter : (g.router q w).2.store = w.store := by
    unfold router
    split
    · split <;> rfl
    · rfl
  have hroutes : (exceptionMiddleware g.router q w).2.store = w.store := by
    unfold exceptionMiddleware
    split
    · rename_i heq
      rw [heq] at hrouter
      exact hrouter
    · exact hrouter
  unfold belowLimiter corsMiddleware
  split
  · rfl
  · unfold securityHeadersMiddleware reading
    split
    · exact hroutes
    · exact hroutes

/-- What lies above the body-size limit leaves the state. -/
theorem app_state (hread : q.readable = true)
    (hdeclared : g.bodySize.declaredOversize (q.headers.get? "content-length") = false) :
    (g.app q w).2 = (g.belowBodySize q { w with count := {} }).2 := by
  cases hout : g.belowBodySize q { w with count := {} } with
  | mk answer w' =>
      cases answer with
      | ok r => rw [app_of_answer hread hdeclared hout]
      | error e => rw [app_of_raised hread hdeclared hout]

theorem store_rateLimiter (hread : q.readable = true) (hpath : q.urlPath ∉ exemptPaths) :
    (g.rateLimiterMiddleware g.belowLimiter q w).2.store
      = (answered g.check w.store (g.calls q w)).1 := by
  unfold rateLimiterMiddleware
  rw [hread, if_neg (by simp), if_neg hpath]
  split
  · rfl
  · exact g.store_belowLimiter q _

theorem calls_atLimiter (identity : Option RequestState) :
    g.calls (atLimiter q w identity) w
      = g.callsOf ⟨q.isAuthPath, q.clientIp, (withIdentity q identity).state.userId⟩ w.now := by
  -- the layers in between change nothing that the limiter looks at but the user
  have hauth : (atLimiter q w identity).isAuthPath = q.isAuthPath := rfl
  have hip : (atLimiter q w identity).clientIp = q.clientIp := rfl
  have huser : (atLimiter q w identity).state.userId = (withIdentity q identity).state.userId := rfl
  rw [calls, hauth, hip, huser, callsOf, RateLimiter.checksOf]

/-- **A request makes its calls on the store**, and nothing else happens to it. -/
theorem store_app (now : τ) (hnow : w.now = now) :
    (g.app q w).2.store
      = (answered g.check w.store
          (((g.reaching q).map fun s => g.callsOf s now).getD [])).1 := by
  subst hnow
  cases h : g.reaching q with
  | some s =>
      obtain ⟨hread, hdeclared, hpath, identity, hidentity, rfl⟩ := reaching_eq_some h
      have hstore := store_rateLimiter (g := g)
        (q := atLimiter q { w with count := {} } identity) (w := { w with count := {} }) hread hpath
      rw [calls_atLimiter] at hstore
      rw [app_state hread hdeclared, belowBodySize_of_authenticated hread hidentity]
      exact hstore
  | none =>
      cases hread : q.readable with
      | false =>
          obtain ⟨w', happ, hstore, -⟩ := app_of_unreadable (g := g) (w := w) hread
          rw [happ]
          exact hstore
      | true =>
          by_cases hdeclared : g.bodySize.declaredOversize (q.headers.get? "content-length") = true
          · rw [app_of_declared hread hdeclared]
            rfl
          · have hdeclared := Bool.eq_false_iff.mpr hdeclared
            cases hidentity : g.authenticate q with
            | error e =>
                rw [app_of_refused hread hdeclared hidentity]
                rfl
            | ok identity =>
                have hpath : q.urlPath ∈ exemptPaths := by
                  rcases reaching_eq_none hread h with h | ⟨e, h⟩ | h
                  · rw [hdeclared] at h
                    cases h
                  · rw [hidentity] at h
                    cases h
                  · exact h
                rw [app_state hread hdeclared, belowBodySize_of_authenticated hread hidentity]
                unfold rateLimiterMiddleware
                rw [show (atLimiter q { w with count := {} } identity).readable = true from hread,
                  if_neg (by simp),
                  if_pos (show (atLimiter q _ identity).urlPath ∈ exemptPaths from hpath)]
                exact g.store_belowLimiter _ _

theorem store_meetAll (w : StackState σ τ) (traffic : List (Traffic τ)) :
    (g.meetAll w traffic).store = (answered g.check w.store (traffic.flatMap g.charges)).1 := by
  induction traffic using List.reverseRecOn with
  | nil => rfl
  | append_singleton traffic t ih =>
      have hlast : (g.meet (g.meetAll w traffic) t).store
          = (answered g.check (g.meetAll w traffic).store (g.charges t)).1 := by
        cases t with
        | request q now time uuid4 elapsed => exact store_app now rfl
        | elsewhere c => rfl
      rw [List.flatMap_append, List.flatMap_singleton, answered_append, meetAll, List.foldl_append]
      rw [ih] at hlast
      exact hlast

/-! ### The header -/

theorem nodup_lower :
    ([["X-RateLimit-Limit", "X-RateLimit-Remaining", "X-RateLimit-Scope", "X-RateLimit-Reset"],
      ["Retry-After", "X-Request-ID", "X-Response-Time", "content-type"]].flatten.map
        lower).Nodup := by
  decide +kernel

theorem lower_remaining_ne {name : String}
    (h : name ∈ ["X-RateLimit-Limit", "Retry-After", "X-Request-ID", "X-Response-Time",
      "content-type"]) : lower name ≠ lower "X-RateLimit-Remaining" := by
  intro heq
  have hname : name = "X-RateLimit-Remaining" :=
    List.inj_on_of_nodup_map nodup_lower (by simp at h ⊢; tauto) (by simp) heq
  simp [hname] at h

theorem remaining_setHeader {name : String} (r : Response) (value : String)
    (h : name ∈ ["X-Request-ID", "X-Response-Time", "content-type"]) :
    (r.setHeader name value).header? "X-RateLimit-Remaining"
      = r.header? "X-RateLimit-Remaining" := by
  refine header?_setHeader_of_ne (lower_remaining_ne ?_) value
  exact List.mem_cons_of_mem _ (List.mem_cons_of_mem _ h)

theorem remaining_timed (w : StackState σ τ) (r : Response) :
    (g.timed w r).header? "X-RateLimit-Remaining" = r.header? "X-RateLimit-Remaining" := by
  unfold timed
  split
  · rfl
  · exact remaining_setHeader r _ (by simp)

theorem remaining_tooLarge :
    (Response.ofException g.bodySize.tooLargeResponse).header? "X-RateLimit-Remaining" = none :=
  rfl

theorem remaining_serverError : internalServerError.header? "X-RateLimit-Remaining" = none := rfl

theorem remaining_budgetHeaders (r : Response) :
    (r.setHeaders (g.budgetHeaders q w)).header? "X-RateLimit-Remaining"
      = some (toString (g.tighterBudget q w).2.1) := by
  have hnodup : ((g.budgetHeaders q w).map fun h => lower h.1).Nodup := by
    have hall := nodup_lower
    rw [List.flatten_cons, List.map_append] at hall
    exact (List.nodup_append.mp hall).1
  exact header?_setHeaders (e := ("X-RateLimit-Remaining", _)) hnodup (by simp [budgetHeaders])

/-- A 429 says that none are left. -/
theorem remaining_tooMany {e : HTTPException} (h : g.tooMany q w = some e) :
    (Response.ofException e).header? "X-RateLimit-Remaining" = some (toString (0 : Int)) := by
  unfold tooMany RateLimiter.limit at h
  by_cases hpath : q.urlPath ∈ exemptPaths
  · rw [if_pos hpath] at h
    cases h
  · rw [if_neg hpath] at h
    obtain ⟨-, he⟩ := Option.ite_none_right_eq_some.mp h
    cases he
    show Multidict.get? ((lower "Retry-After", _) :: (lower "X-RateLimit-Limit", _)
      :: (lower "X-RateLimit-Remaining", "0") :: _) (lower "X-RateLimit-Remaining") = _
    have hretry : lower "Retry-After" ≠ lower "X-RateLimit-Remaining" :=
      lower_remaining_ne (by simp)
    have hlimit : lower "X-RateLimit-Limit" ≠ lower "X-RateLimit-Remaining" :=
      lower_remaining_ne (by simp)
    rw [Multidict.get?_cons_of_ne (by exact hretry), Multidict.get?_cons_of_ne (by exact hlimit),
      Multidict.get?_cons_self]
    rfl

/-- No bucket of the request has fewer left than the tighter of the two. -/
theorem tighterBudget_le {c : RateCall τ} (hc : c ∈ g.calls q w) :
    (g.tighterBudget q w).2.1 ≤ remaining (g.rates q w).2 c.key c.limit := by
  rw [calls_eq] at hc
  cases huser : userKeys q.state.userId with
  | nil =>
      rw [huser] at hc
      unfold tighterBudget
      rw [List.mem_singleton.mp hc, huser]
      exact le_refl _
  | cons k rest =>
      have hrest : rest = [] := by
        unfold userKeys at huser
        split at huser
        · cases huser
        · cases huser
          rfl
      subst hrest
      rw [huser] at hc
      have hmin : (g.tighterBudget q w).2.1
          = if remaining (g.rates q w).2 k g.limiter.userMaxRequests
              < remaining (g.rates q w).2 (g.ipCall q w).key (g.ipCall q w).limit then
            remaining (g.rates q w).2 k g.limiter.userMaxRequests
          else remaining (g.rates q w).2 (g.ipCall q w).key (g.ipCall q w).limit := by
        unfold tighterBudget
        rw [huser]
        exact apply_ite (fun b : Int × Int × String => b.2.1) _ _ _
      rw [hmin]
      rcases List.mem_cons.mp hc with rfl | hc
      · split
        · rename_i hlt
          exact le_of_lt hlt
        · exact le_refl _
      · rw [List.mem_singleton.mp hc]
        split
        · exact le_refl _
        · rename_i hle
          exact not_lt.mp hle

/-- What the limiter's answer says, and what it means. -/
theorem rateLimiter_says {app : App σ τ} {r : Response} (hread : q.readable = true)
    (hpath : q.urlPath ∉ exemptPaths) (h : (g.rateLimiterMiddleware app q w).1 = .ok r) :
    ∃ n : Int, r.header? "X-RateLimit-Remaining" = some (toString n)
      ∧ ∀ c ∈ g.calls q w, n ≤ remaining (g.rates q w).2 c.key c.limit := by
  unfold rateLimiterMiddleware at h
  rw [hread, if_neg (by simp), if_neg hpath] at h
  split at h
  · rename_i e he
    cases h
    exact ⟨0, remaining_tooMany he, fun c _ => le_max_left _ _⟩
  · unfold afterwards at h
    cases happ : (app q (g.charge q w)).1 with
    | error e =>
        rw [happ] at h
        cases h
    | ok r' =>
        rw [happ] at h
        cases h
        exact ⟨_, remaining_budgetHeaders r', fun c hc => tighterBudget_le hc⟩

/-- An answer with the header is the limiter's or went through it. -/
theorem app_says {s : Sender} {r : Response} (hs : g.reaching q = some s)
    (h : (g.app q w).1 = .ok r) (hheader : (r.header? "X-RateLimit-Remaining").isSome) :
    ∃ n : Int, r.header? "X-RateLimit-Remaining" = some (toString n)
      ∧ ∀ c ∈ g.callsOf s w.now,
        n ≤ remaining (answered g.check w.store (g.callsOf s w.now)).2 c.key c.limit := by
  obtain ⟨hread, hdeclared, hpath, identity, hidentity, rfl⟩ := reaching_eq_some hs
  have hbelow := belowBodySize_of_authenticated (w := { w with count := {} }) hread hidentity
  cases hout : g.belowBodySize q { w with count := {} } with
  | mk answer w' =>
      cases answer with
      | error e =>
          rw [app_of_raised hread hdeclared hout] at h
          cases h
          rw [remaining_serverError] at hheader
          cases hheader
      | ok r' =>
          rw [app_of_answer hread hdeclared hout] at h
          cases h
          rw [remaining_timed] at hheader ⊢
          cases hover : w'.count.oversize with
          | true =>
              rw [hover, if_pos rfl, remaining_tooLarge] at hheader
              cases hheader
          | false =>
              rw [hover] at hheader
              rw [if_neg Bool.false_ne_true]
              rw [hout] at hbelow
              have hanswer := congrArg Prod.fst hbelow
              unfold afterwards at hanswer
              cases hlimiter : (g.rateLimiterMiddleware g.belowLimiter
                  (atLimiter q { w with count := {} } identity) { w with count := {} }).1 with
              | error e =>
                  rw [hlimiter] at hanswer
                  cases hanswer
              | ok r'' =>
                  rw [hlimiter] at hanswer
                  cases hanswer
                  rw [remaining_setHeader _ _ (by simp)]
                  obtain ⟨n, hvalue, hle⟩ := rateLimiter_says
                    (q := atLimiter q { w with count := {} } identity) hread hpath hlimiter
                  rw [rates, calls_atLimiter] at hle
                  exact ⟨n, hvalue, hle⟩

/-! ### Passing the limiter -/

/-- A request passes if the store has none of its keys over. -/
theorem letThrough_of_not_over {s : Sender} (hs : g.reaching q = some s)
    (h : ∀ k, isOver (answered g.check w.store (g.callsOf s w.now)).2 k = false) :
    g.LetThrough q w := by
  obtain ⟨hread, -, hpath, identity, hidentity, rfl⟩ := reaching_eq_some hs
  have hover : ∀ k, isOver (g.rates (atLimiter q w identity) w).2 k = false := by
    intro k
    rw [rates, calls_atLimiter]
    exact h k
  refine ⟨hread, identity, hidentity, ?_⟩
  unfold tooMany RateLimiter.limit
  rw [if_neg (show (atLimiter q w identity).urlPath ∉ exemptPaths from hpath)]
  refine if_neg ?_
  simp [hover]

end Serving

section Promise

variable {τ : Type} [Ring τ] [LinearOrder τ] {g : GatewayApp (RateStore τ) τ} {q : HttpRequest}
  {w : StackState (RateStore τ) τ} {s : Sender}

omit [Ring τ] [LinearOrder τ] in
theorem nodup_callsOf (s : Sender) (now : τ) : ((g.callsOf s now).map RateCall.key).Nodup := by
  unfold callsOf
  rw [List.map_map]
  exact nodup_checksOf g.limiter s

omit [Ring τ] [LinearOrder τ] in
theorem length_callsOf_le (s : Sender) (now : τ) : (g.callsOf s now).length ≤ 2 := by
  unfold callsOf RateLimiter.checksOf RateLimiter.checks userKeys
  rw [List.length_map, List.length_cons, List.length_map]
  split
  · exact Nat.le_succ 1
  · exact le_refl 2

/-- What is held of a bucket leaves what the header says, at least. -/
theorem held_add_le (hcheck : g.check = RateStore.checkAndIncrement) (hanswers : w.store.Answers 2)
    (hs : g.reaching q = some s) {n : Int} (hn : 0 < n) {c : RateCall τ} (hc : c ∈ g.callsOf s w.now)
    (hle : n ≤ remaining (answered g.check w.store (g.callsOf s w.now)).2 c.key c.limit) :
    ((g.app q w).2.store.held c.key : Int) + n ≤ c.limit := by
  have hreported := RateStore.held_le_reported (nodup_callsOf s w.now)
    (hanswers.mono (length_callsOf_le s w.now)) hc
  rw [store_app w.now rfl, hs, Option.map_some, Option.getD_some, hcheck]
  rw [hcheck] at hle
  have hleft : remaining (answered RateStore.checkAndIncrement w.store (g.callsOf s w.now)).2 c.key
      c.limit = max 0 (c.limit - (RateStore.reported (answered RateStore.checkAndIncrement w.store
        (g.callsOf s w.now)).2 c.key : Int)) := rfl
  rw [hleft] at hle
  omega

end Promise

end GatewayApp

/-- Three requests a minute to the login paths, in memory. -/
def threeLogins : GatewayApp (RateStore Int) Int where
  bodySize := oneRequestGateway.bodySize
  jwt := oneRequestGateway.jwt
  jwtSettings := oneRequestGateway.jwtSettings
  limiter := { maxRequests := 100, authMaxRequests := 3, userMaxRequests := 300, windowSeconds := 60 }
  check := RateStore.checkAndIncrement
  cors := noOrigins
  routes := oneRequestGateway.routes
  production := true

def emptyAtNoon : StackState (RateStore Int) Int where
  store := .memory Dict.empty
  now := 0
  time := 43200
  uuid4 := "0b9e4d1c-5f3a-4c68-9d27-6a1f8e2b7c30"
  elapsed := "0.0010"

end Microservices.Gateway
