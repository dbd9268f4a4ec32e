import Mathlib.Algebra.Order.Ring.Int
import Mathlib.Algebra.Ring.Defs
import Mathlib.Data.List.Induction
import Microservices.Lib.Effects
import Microservices.Lib.Expiring
import Microservices.Lib.Recency
import Microservices.Lib.SlidingWindow

/-!
# The two stores of the rate limiter

Both count the calls for a key in a window that ends now. `_InMemoryStore` keeps a
deque for each key, in a dictionary that stands in the order of last use, and
`_RedisStore` a sorted set with an expiry. Every call adds itself before it counts,
so rejected calls are counted too.

Members of a sorted set are fresh UUIDs, so a set is the list of its scores. The
clock takes values in any ordered ring; windows are whole seconds.
-/

namespace Microservices.Gateway

/-- The arguments of `check_and_increment`, and the time it is called at. -/
structure RateCall (τ : Type) where
  time : τ
  key : String
  limit : Int
  windowSeconds : Int

/-- `(is_limited, count)`. -/
abbrev RateAnswer := Bool × Nat

/-- `count > limit, count`. -/
def rateAnswer (limit : Int) (count : Nat) : RateAnswer := (decide ((count : Int) > limit), count)

/-- `MAX_TRACKED_IPS`. -/
def maxTrackedIps : Nat := 10000

/-- `_buckets` of an `_InMemoryStore`. -/
abbrev InMemoryStore (τ : Type) := Dict String (List τ)

/-- The sorted sets of the rate limiter in Redis. -/
abbrev RedisRates (τ : Type) := ExpiringStore String (List τ) τ

section Stores

variable {τ : Type}

/-- `_get_bucket`: the bucket, and the dictionary with that bucket in the last place. -/
def InMemoryStore.getBucket (s : InMemoryStore τ) (key : String) : List τ × InMemoryStore τ :=
  match s.get? key with
  | some bucket => (bucket, (s.erase key).set key bucket)
  | none =>
      let s := if s.entries.length ≥ maxTrackedIps then s.dropFirst else s
      ([], s.set key [])

variable [Ring τ] [LinearOrder τ]

/-- `_InMemoryStore.check_and_increment`. -/
def InMemoryStore.checkAndIncrement (s : InMemoryStore τ) (c : RateCall τ) :
    RateAnswer × InMemoryStore τ :=
  let (bucket, s) := s.getBucket c.key
  let bucket := bucket.dropWhile (fun t => t < c.time - c.windowSeconds) ++ [c.time]
  (rateAnswer c.limit bucket.length, s.set c.key bucket)

/-- The pipeline: `ZREMRANGEBYSCORE`, `ZADD`, `ZCARD`, `EXPIRE`, in one transaction, which Redis runs
at `now` for a call made at `c.time`. -/
def RedisRates.transactionAt (redis : RedisRates τ) (now : τ) (c : RateCall τ) :
    Nat × RedisRates τ :=
  let scores := (redis.get now c.key).getD []
  let scores := scores.filter fun t => ¬ t ≤ c.time - c.windowSeconds
  let scores := scores ++ [c.time]
  (scores.length, redis.put c.key scores (some (now + (c.windowSeconds + 1))))

/-- The pipeline without a delay. -/
def RedisRates.transaction (redis : RedisRates τ) (c : RateCall τ) : Nat × RedisRates τ :=
  redis.transactionAt c.time c

/-- `_RedisStore.check_and_increment`. It fails open. -/
def RedisRates.checkAndIncrement (redis : RedisRates τ) (fault : Fault) (c : RateCall τ) :
    RateAnswer × RedisRates τ :=
  match fault with
  | .none => (rateAnswer c.limit (redis.transaction c).1, (redis.transaction c).2)
  | .before => ((false, 0), redis)
  | .after => ((false, 0), (redis.transaction c).2)

end Stores

/-- The calls made one after the other, with their answers, newest first. -/
def answered {σ τ : Type} (check : σ → RateCall τ → RateAnswer × σ) (s : σ)
    (calls : List (RateCall τ)) : σ × List (RateCall τ × RateAnswer) :=
  calls.foldl (fun w c => ((check w.1 c).2, (c, (check w.1 c).1) :: w.2)) (s, [])

theorem answered_snoc {σ τ : Type} (check : σ → RateCall τ → RateAnswer × σ) (s : σ)
    (calls : List (RateCall τ)) (c : RateCall τ) :
    answered check s (calls ++ [c])
      = ((check (answered check s calls).1 c).2,
          (c, (check (answered check s calls).1 c).1) :: (answered check s calls).2) := by
  rw [answered, List.foldl_append]; rfl

theorem answered_append {σ τ : Type} (check : σ → RateCall τ → RateAnswer × σ) (s : σ)
    (calls more : List (RateCall τ)) :
    answered check s (calls ++ more)
      = ((answered check (answered check s calls).1 more).1,
          (answered check (answered check s calls).1 more).2 ++ (answered check s calls).2) := by
  induction more using List.reverseRecOn with
  | nil => simp [answered]
  | append_singleton more c ih =>
      rw [← List.append_assoc, answered_snoc, ih, answered_snoc]
      rfl

theorem times_init {τ : Type} [LE τ] {calls : List (RateCall τ)} {c : RateCall τ}
    (h : ((calls ++ [c]).map RateCall.time).Pairwise (· ≤ ·)) :
    (calls.map RateCall.time).Pairwise (· ≤ ·) :=
  h.sublist ((List.sublist_append_left _ _).map _)

theorem keys_init {τ : Type} {n : Nat} {calls : List (RateCall τ)} {c : RateCall τ}
    (h : ((calls ++ [c]).map RateCall.key).dedup.length ≤ n) :
    (calls.map RateCall.key).dedup.length ≤ n := by
  refine Nat.le_trans (List.dedup_length_mono ?_) h
  rw [List.map_append]
  exact List.subset_append_left _ _

/-- The times of the calls for `key`, newest first. -/
def timesOf {τ : Type} (key : String) (calls : List (RateCall τ)) : List τ :=
  ((calls.filter fun c => c.key = key).map RateCall.time).reverse

theorem timesOf_snoc_self {τ : Type} (calls : List (RateCall τ)) (c : RateCall τ) :
    timesOf c.key (calls ++ [c]) = c.time :: timesOf c.key calls := by
  simp [timesOf]

theorem timesOf_snoc_of_ne {τ : Type} {key : String} (calls : List (RateCall τ)) {c : RateCall τ}
    (h : c.key ≠ key) : timesOf key (calls ++ [c]) = timesOf key calls := by
  simp [timesOf, h]

/-! ## What a call does to the deques -/

section InMemory

variable {τ : Type} (s : InMemoryStore τ)

/-- The deque a call for `key` finds. -/
def InMemoryStore.bucket (key : String) : List τ := (s.get? key).getD []

theorem getBucket_eq (key : String) :
    s.getBucket key = (s.bucket key, s.use maxTrackedIps key (s.bucket key)) := by
  unfold InMemoryStore.getBucket InMemoryStore.bucket Dict.use Dict.others
  cases h : s.get? key with
  | none =>
      rw [if_neg (Dict.get?_eq_none_iff.mp h)]
      rfl
  | some bucket =>
      have hk : key ∈ s.keys := List.mem_map_of_mem (Dict.mem_of_get?_eq_some h)
      rw [if_pos hk]
      rfl

variable [Ring τ] [LinearOrder τ]

/-- The deque a call leaves: pruned, and with the call itself. -/
def InMemoryStore.pruned (c : RateCall τ) : List τ :=
  (s.bucket c.key).dropWhile (fun t => t < c.time - c.windowSeconds) ++ [c.time]

theorem checkAndIncrement_eq (c : RateCall τ) :
    s.checkAndIncrement c
      = (rateAnswer c.limit (s.pruned c).length, s.use maxTrackedIps c.key (s.pruned c)) := by
  rw [InMemoryStore.checkAndIncrement, getBucket_eq]
  dsimp only
  rw [Dict.use_set]
  rfl

end InMemory

end Microservices.Gateway
