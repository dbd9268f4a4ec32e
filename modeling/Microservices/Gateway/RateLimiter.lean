import Mathlib.Logic.Function.Basic
import Microservices.Lib.Schedule
import Microservices.Gateway.Paths
import Microservices.Gateway.RateStores

/-!
# Requests at the rate limiter

`RateLimiterMiddleware.dispatch` on one replica, from `_get_store` to the decision.
The store is chosen lazily: the first request pings Redis, and until its ping has
come back any other request finds `_store` unset and pings as well. Whoever comes
back installs a store of its own, over whatever is installed by then, and goes on
with it.

The in-memory store never suspends, so its checks are one step with the answer. A check
on Redis reads the clock, then Redis runs its pipeline, then the pipeline comes back, or
fails, with or without having run; between the three, any other request may be served.
A pipeline that had not run when its client gave it up may still be run later.
-/

namespace Microservices.Gateway

open Schedule

/-- The checks of one request, in order: key and limit. -/
def RateLimiter.checks (l : RateLimiter) (isAuthPath : Bool) (clientIp : String)
    (userId : Option String) : List (String × Int) :=
  (ipKey (if isAuthPath then "auth" else "general") clientIp,
      if isAuthPath then l.authMaxRequests else l.maxRequests)
    :: (userKeys userId).map fun k => (k, l.userMaxRequests)

/-- Which store `_store` is; in-memory stores are numbered as they are made. -/
inductive StoreRef where
  | redis
  | memory (n : Nat)
  deriving DecidableEq, Repr

/-- Where a request is. -/
inductive LimiterPhase (τ : Type) where
  /-- Not at `_get_store` yet. -/
  | received
  /-- In `await client.ping()`. -/
  | pinging (checks : List (String × Int))
  /-- In `await pipe.execute()` for the first of `rest`, whose `now = time.time()` was `reading`;
  `limited` by the earlier ones. Once Redis has run the pipeline, `count` is its result. -/
  | charging (checks rest : List (String × Int)) (limited : Bool) (reading : τ)
      (count : Option Nat)
  | decided (limited : Bool)
  deriving DecidableEq, Repr

/-- A decision: when, over which keys, and on which store. -/
structure Decision (τ : Type) where
  time : τ
  keys : List String
  limited : Bool
  store : StoreRef
  deriving DecidableEq, Repr

/-- One replica's limiter. `decisions`, newest first, is a ghost. -/
structure Limiter (τ : Type) where
  config : RateLimiter
  /-- `_redis_url` is set. -/
  redisUrl : Bool
  now : τ
  store : Option StoreRef := none
  memories : List (InMemoryStore τ) := []
  redis : RedisRates τ := ExpiringStore.empty
  /-- The pipelines given up that Redis has not run, each with its request. -/
  lost : List (Nat × RateCall τ) := []
  requests : Nat → LimiterPhase τ := fun _ => .received
  decisions : List (Decision τ) := []

inductive LimiterEvent (τ : Type) where
  | tick (t : τ)
  /-- A request on a path that is not exempt. -/
  | arrive (i : Nat) (isAuthPath : Bool) (clientIp : String) (userId : Option String)
  /-- A ping comes back. -/
  | pong (i : Nat) (ok : Bool)
  /-- Redis runs a pipeline. -/
  | execute (i : Nat)
  /-- A pipeline comes back. -/
  | charge (i : Nat) (fault : Fault)
  /-- Redis runs a pipeline whose client has given it up. -/
  | late (n : Nat)

/-- The event is a failing Redis call, or none at all. -/
def LimiterEvent.RedisFails {τ : Type} : LimiterEvent τ → Prop
  | .pong _ ok => ok = false
  | .charge _ fault => fault ≠ .none
  | _ => True

namespace Limiter

variable {τ : Type}

/-- The replica at start. -/
def init (config : RateLimiter) (redisUrl : Bool) (now : τ) : Limiter τ :=
  { config := config, redisUrl := redisUrl, now := now }

def setRequest (w : Limiter τ) (i : Nat) (p : LimiterPhase τ) : Limiter τ :=
  { w with requests := Function.update w.requests i p }

/-- `if ip_over or user_over`. -/
def answer (w : Limiter τ) (i : Nat) (checks : List (String × Int)) (limited : Bool)
    (store : StoreRef) : Limiter τ :=
  { w.setRequest i (.decided limited) with
    decisions := ⟨w.now, checks.map Prod.fst, limited, store⟩ :: w.decisions }

/-- The `check_and_increment` call for one check, whose `now` is `reading`. -/
def callAt (w : Limiter τ) (reading : τ) (check : String × Int) : RateCall τ :=
  ⟨reading, check.1, check.2, w.config.windowSeconds⟩

/-- Such a call made now. -/
def call (w : Limiter τ) (check : String × Int) : RateCall τ := w.callAt w.now check

variable [Ring τ] [LinearOrder τ]

/-- All the checks of a request on in-memory store `n`. -/
def chargeMemory (w : Limiter τ) (i : Nat) (checks : List (String × Int)) (n : Nat)
    (memory : InMemoryStore τ) : Limiter τ :=
  let out := answered InMemoryStore.checkAndIncrement memory (checks.map w.call)
  { w with memories := w.memories.set n out.1 }.answer i checks (out.2.any fun e => e.2.1)
    (.memory n)

/-- What follows `store = await self._get_store()`. -/
def proceed (w : Limiter τ) (i : Nat) (checks : List (String × Int)) : StoreRef → Limiter τ
  | .redis => w.setRequest i (.charging checks checks false w.now none)
  | .memory n => w.chargeMemory i checks n (w.memories.getD n Dict.empty)

/-- `self._store = _InMemoryStore()`. -/
def newMemory (w : Limiter τ) : Limiter τ :=
  { w with store := some (.memory w.memories.length), memories := w.memories ++ [Dict.empty] }

/-- `_get_store`, up to its await. -/
def getStore (w : Limiter τ) (i : Nat) (checks : List (String × Int)) : Limiter τ :=
  match w.store with
  | some store => w.proceed i checks store
  | none =>
      if w.redisUrl then w.setRequest i (.pinging checks)
      else w.newMemory.proceed i checks (.memory w.memories.length)

/-- `_get_store`, from its await on. -/
def pong (w : Limiter τ) (i : Nat) (checks : List (String × Int)) (ok : Bool) : Limiter τ :=
  if ok then { w with store := some .redis }.proceed i checks .redis
  else w.newMemory.proceed i checks (.memory w.memories.length)

/-- Redis runs the pipeline of a check. -/
def execute (w : Limiter τ) (i : Nat) (checks : List (String × Int)) (check : String × Int)
    (rest : List (String × Int)) (limited : Bool) (reading : τ) : Limiter τ :=
  let out := w.redis.transactionAt w.now (w.callAt reading check)
  { w with redis := out.2 }.setRequest i
    (.charging checks (check :: rest) limited reading (some out.1))

/-- What a pipeline that comes back says of its check; one that fails lets it pass. A failure may
follow the run or come before it. -/
def over? (check : String × Int) : Fault → Option Nat → Option Bool
  | .none, some count => some (rateAnswer check.2 count).1
  | .before, none => some false
  | .after, some _ => some false
  | _, _ => none

/-- A pipeline that fails before Redis has run it is still on its way there. -/
def giveUp (w : Limiter τ) (i : Nat) (call : RateCall τ) : Fault → Limiter τ
  | .before => { w with lost := w.lost ++ [(i, call)] }
  | _ => w

/-- Redis runs a pipeline that has been given up; nobody gets its result. -/
def runLate (w : Limiter τ) (n : Nat) (call : RateCall τ) : Limiter τ :=
  { w with redis := (w.redis.transactionAt w.now call).2, lost := w.lost.eraseIdx n }

/-- The next check reads the clock; after the last comes the decision. -/
def charge (w : Limiter τ) (i : Nat) (checks rest : List (String × Int)) (limited : Bool) :
    Limiter τ :=
  if rest = [] then w.answer i checks limited .redis
  else w.setRequest i (.charging checks rest limited w.now none)

/-- One step of the replica. -/
def step (w : Limiter τ) : LimiterEvent τ → Option (Limiter τ)
  | .tick t => if w.now ≤ t then some { w with now := t } else none
  | .arrive i isAuthPath clientIp userId =>
      match w.requests i with
      | .received => some (w.getStore i (w.config.checks isAuthPath clientIp userId))
      | _ => none
  | .pong i ok =>
      match w.requests i with
      | .pinging checks => some (w.pong i checks ok)
      | _ => none
  | .execute i =>
      match w.requests i with
      | .charging checks (check :: rest) limited reading none =>
          some (w.execute i checks check rest limited reading)
      | _ => none
  | .charge i fault =>
      match w.requests i with
      | .charging checks (check :: rest) limited reading count =>
          (over? check fault count).map fun exceeds =>
            (w.giveUp i (w.callAt reading check) fault).charge i checks rest (limited || exceeds)
      | _ => none
  | .late n => (w.lost[n]?).map fun p => w.runLate n p.2

end Limiter

/-- The key is one of this budget's. -/
inductive Budget (l : RateLimiter) : String → Int → Prop where
  | general (clientIp : String) : Budget l (ipKey "general" clientIp) l.maxRequests
  | auth (clientIp : String) : Budget l (ipKey "auth" clientIp) l.authMaxRequests
  | user (userId : String) : Budget l ("rate:user:" ++ userId) l.userMaxRequests

/-- The keys of the three budgets differ, at the latest in the sixth character. -/
theorem budget_unique {l : RateLimiter} {k : String} {limit limit' : Int} (h : Budget l k limit)
    (h' : Budget l k limit') : limit = limit' := by
  have hsixth : ∀ k limit, Budget l k limit →
      (k.toList[5]? = some 'g' ∧ limit = l.maxRequests)
        ∨ (k.toList[5]? = some 'a' ∧ limit = l.authMaxRequests)
        ∨ (k.toList[5]? = some 'u' ∧ limit = l.userMaxRequests) := by
    intro k limit h
    cases h with
    | general ip => exact Or.inl ⟨by simp [ipKey], rfl⟩
    | auth ip => exact Or.inr (Or.inl ⟨by simp [ipKey], rfl⟩)
    | user id => exact Or.inr (Or.inr ⟨by simp, rfl⟩)
  rcases hsixth k limit h with ⟨hk, rfl⟩ | ⟨hk, rfl⟩ | ⟨hk, rfl⟩ <;>
    rcases hsixth k limit' h' with ⟨hk', rfl⟩ | ⟨hk', rfl⟩ | ⟨hk', rfl⟩ <;>
    first
    | rfl
    | (rw [hk] at hk'; exact absurd hk' (by decide))

/-- Every check of a request is against the budget of its key. -/
theorem budget_of_mem_checks {l : RateLimiter} {isAuthPath : Bool} {clientIp : String}
    {userId : Option String} {check : String × Int}
    (h : check ∈ l.checks isAuthPath clientIp userId) : Budget l check.1 check.2 := by
  rcases List.mem_cons.mp h with rfl | h
  · cases isAuthPath with
    | true => exact .auth clientIp
    | false => exact .general clientIp
  · obtain ⟨k, hk, rfl⟩ := List.mem_map.mp h
    unfold userKeys at hk
    split at hk
    · cases hk
    · rw [List.mem_singleton.mp hk]
      exact .user _

end Microservices.Gateway
