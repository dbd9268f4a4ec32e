import Microservices.Gateway.RateLimiter
import Microservices.Gateway.WindowSafe

/-!
# The limiter while Redis fails

While every Redis call fails, only an in-memory store limits anything: a failing
pipeline lets its request pass. And a count in memory is lost when another store is
installed over it, as each of several first requests does whose pings fail.

Where neither happens there is one in-memory store, and every decision of the stretch
is on it. Its history is a run of calls like those of `inMemory_window_safe`, which
gives the bound.
-/

namespace Microservices.Gateway

open Schedule SlidingWindow

variable {τ : Type}

/-- No ping fails once an in-memory store has been made. -/
def Limiter.NoSecondMemory (w : Limiter τ) : LimiterEvent τ → Prop
  | .pong _ ok => ok = false → w.memories = []
  | _ => True

/-- The keys an event brings into use. -/
def LimiterEvent.keys (l : RateLimiter) : LimiterEvent τ → List String
  | .arrive _ isAuthPath clientIp userId => (l.checks isAuthPath clientIp userId).map Prod.fst
  | _ => []

/-- The times of the decisions over `k` that let the request pass. -/
def passed (k : String) (decisions : List (Decision τ)) : List τ :=
  (decisions.filter fun d => k ∈ d.keys ∧ d.limited = false).map Decision.time

/-- The decisions between two states of a run, newest first. -/
def Limiter.decisionsSince (w w' : Limiter τ) : List (Decision τ) :=
  w'.decisions.take (w'.decisions.length - w.decisions.length)

/-- The decisions made in memory. -/
def inMemory (decisions : List (Decision τ)) : List (Decision τ) :=
  decisions.filter fun d => d.store ≠ .redis

/-- Checks against the budgets of their keys, which are among `K`. -/
def ChecksIn (config : RateLimiter) (K : List String) (checks : List (String × Int)) : Prop :=
  ∀ c ∈ checks, Budget config c.1 c.2 ∧ c.1 ∈ K

/-! ## What the store answers -/

section Answered

variable {σ : Type} {check : σ → RateCall τ → RateAnswer × σ} {s : σ}

theorem answered_calls (calls : List (RateCall τ)) :
    (answered check s calls).2.map Prod.fst = calls.reverse := by
  induction calls using List.reverseRecOn with
  | nil => rfl
  | append_singleton calls c ih => rw [answered_snoc, List.map_cons, ih]; simp

/-- If no call was limited, each of them is among those that were not. -/
theorem mem_notLimited {calls : List (RateCall τ)} {c : RateCall τ} (hc : c ∈ calls)
    (hnone : ((answered check s calls).2.any fun e => e.2.1) = false) :
    c.time ∈ notLimited c.key (answered check s calls).2 := by
  have hmem : c ∈ (answered check s calls).2.map Prod.fst := by
    rw [answered_calls]
    exact List.mem_reverse.mpr hc
  obtain ⟨e, he, rfl⟩ := List.mem_map.mp hmem
  have hlimited : e.2.1 = false := by
    rw [List.any_eq_false] at hnone
    simpa using hnone e he
  exact List.mem_map.mpr ⟨e, List.mem_filter.mpr ⟨he, by simp [hlimited]⟩, rfl⟩

end Answered

theorem notLimited_append (k : String) (log log' : List (RateCall τ × RateAnswer)) :
    notLimited k (log ++ log') = notLimited k log ++ notLimited k log' := by
  simp [notLimited]

/-! ## One store in memory -/

variable [Ring τ] [LinearOrder τ]

/-- `calls` is the history of the one in-memory store, if there is one. -/
structure MemoryHistory (config : RateLimiter) (K : List String) (w : Limiter τ)
    (calls : List (RateCall τ)) : Prop where
  memory : (w.memories = [] ∧ calls = [])
    ∨ w.memories = [(answered InMemoryStore.checkAndIncrement Dict.empty calls).1]
  times : (calls.map RateCall.time ++ [w.now]).Pairwise (· ≤ ·)
  checks : ∀ c ∈ calls, Budget config c.key c.limit ∧ c.windowSeconds = config.windowSeconds
    ∧ c.key ∈ K
  decisions : ∀ k, (passed k (inMemory w.decisions)).Sublist
    (notLimited k (answered InMemoryStore.checkAndIncrement Dict.empty calls).2)

structure OneMemory (config : RateLimiter) (K : List String) (w : Limiter τ) : Prop where
  config_eq : w.config = config
  /-- No store is chosen before the first. -/
  unset : w.store = none → w.memories = []
  /-- An installed in-memory store is the one there is. -/
  installed : ∀ n, w.store = some (.memory n) → n = 0 ∧ w.memories ≠ []
  pinging : ∀ i checks, w.requests i = .pinging checks → ChecksIn config K checks
  history : ∃ calls, MemoryHistory config K w calls

variable {config : RateLimiter} {K : List String} {w w' : Limiter τ}

/-- What is not about the store in memory leaves its history. -/
theorem MemoryHistory.congr {calls : List (RateCall τ)} (h : MemoryHistory config K w calls)
    (hmemories : w'.memories = w.memories) (hnow : w'.now = w.now)
    (hdecisions : inMemory w'.decisions = inMemory w.decisions) :
    MemoryHistory config K w' calls where
  memory := by rw [hmemories]; exact h.memory
  times := by rw [hnow]; exact h.times
  checks := h.checks
  decisions := by rw [hdecisions]; exact h.decisions

theorem oneMemory_init (config : RateLimiter) (K : List String) (redisUrl : Bool) (now : τ) :
    OneMemory config K (Limiter.init config redisUrl now) where
  config_eq := rfl
  unset := fun _ => rfl
  installed := by intro n h; cases h
  pinging := by intro i checks h; cases h
  history := by
    refine ⟨[], Or.inl ⟨rfl, rfl⟩, by simp, by simp, fun k => ?_⟩
    exact List.Sublist.refl _

/-- Moving a request anywhere but into its ping changes nothing for the store. -/
theorem OneMemory.setRequest (h : OneMemory config K w) (i : Nat) {p : LimiterPhase τ}
    (hp : ∀ checks, p = .pinging checks → ChecksIn config K checks) :
    OneMemory config K (w.setRequest i p) where
  config_eq := h.config_eq
  unset := h.unset
  installed := h.installed
  pinging := by
    intro j checks hj
    by_cases hij : j = i
    · subst hij
      rw [Limiter.setRequest] at hj
      dsimp only at hj
      rw [Function.update_self] at hj
      exact hp checks hj
    · rw [Limiter.setRequest] at hj
      dsimp only at hj
      rw [Function.update_of_ne hij] at hj
      exact h.pinging j checks hj
  history := by
    obtain ⟨calls, hcalls⟩ := h.history
    exact ⟨calls, hcalls.congr rfl rfl rfl⟩

/-- A decision on Redis is none in memory. -/
theorem OneMemory.answer_redis (h : OneMemory config K w) (i : Nat)
    (checks : List (String × Int)) (limited : Bool) :
    OneMemory config K (w.answer i checks limited .redis) := by
  have hset := h.setRequest i (p := .decided limited) (by intro c hc; cases hc)
  obtain ⟨calls, hcalls⟩ := h.history
  have hnone : inMemory (w.answer i checks limited .redis).decisions = inMemory w.decisions := by
    simp [inMemory, Limiter.answer, Limiter.setRequest]
  exact ⟨hset.config_eq, hset.unset, hset.installed, hset.pinging, calls,
    hcalls.congr rfl rfl hnone⟩

omit [Ring τ] in
/-- Calls made now come after the calls so far. -/
theorem times_now {times : List τ} {now : τ} (h : (times ++ [now]).Pairwise (· ≤ ·)) {new : List τ}
    (hnew : ∀ t ∈ new, t = now) : ((times ++ new) ++ [now]).Pairwise (· ≤ ·) := by
  obtain ⟨htimes, _, hle⟩ := List.pairwise_append.mp h
  have hall : ∀ t ∈ new ++ [now], t = now := by
    intro t ht
    rcases List.mem_append.mp ht with ht | ht
    · exact hnew t ht
    · exact List.mem_singleton.mp ht
  rw [List.append_assoc]
  refine List.pairwise_append.mpr ⟨htimes, ?_, fun s hs t ht => ?_⟩
  · refine List.pairwise_iff_forall_sublist.mpr fun {s t} hst => ?_
    rw [hall s (hst.subset (by simp)), hall t (hst.subset (by simp))]
  · rw [hall t ht]
    exact hle s hs now (by simp)

/-- What passes on a decision in memory was answered not limited. -/
theorem passed_chargeMemory {memory : InMemoryStore τ} {checks : List (String × Int)} {k : String}
    {log : List (RateCall τ × RateAnswer)} (i : Nat)
    (h : (passed k (inMemory w.decisions)).Sublist (notLimited k log)) :
    (passed k (inMemory (w.chargeMemory i checks 0 memory).decisions)).Sublist
      (notLimited k
        ((answered InMemoryStore.checkAndIncrement memory (checks.map w.call)).2 ++ log)) := by
  rw [notLimited_append]
  show (passed k (inMemory (⟨w.now, checks.map Prod.fst, _, .memory 0⟩ :: w.decisions))).Sublist _
  unfold passed inMemory at h ⊢
  rw [List.filter_cons_of_pos (by simp)]
  by_cases hpass : k ∈ checks.map Prod.fst
      ∧ ((answered InMemoryStore.checkAndIncrement memory (checks.map w.call)).2.any
        fun e => e.2.1) = false
  · -- the request passed, so its check for `k` was not limited
    rw [List.filter_cons_of_pos (by simpa using hpass), List.map_cons]
    obtain ⟨check, hcheck, rfl⟩ := List.mem_map.mp hpass.1
    have hnow := mem_notLimited (List.mem_map_of_mem (f := w.call) hcheck) hpass.2
    exact (List.singleton_sublist.mpr hnow).append h
  · rw [List.filter_cons_of_neg (by simpa using hpass)]
    exact h.trans (List.sublist_append_right _ _)

/-- **Checks on the one in-memory store extend its history.** -/
theorem MemoryHistory.chargeMemory {calls : List (RateCall τ)}
    (h : MemoryHistory config K w calls) (hconfig : w.config = config) (i : Nat)
    {checks : List (String × Int)} (hchecks : ChecksIn config K checks) {memory : InMemoryStore τ}
    (hmemory : w.memories = [memory]) :
    MemoryHistory config K (w.chargeMemory i checks 0 memory) (calls ++ checks.map w.call) := by
  have hmem : memory = (answered InMemoryStore.checkAndIncrement Dict.empty calls).1 := by
    rcases h.memory with ⟨hnil, _⟩ | hm
    · rw [hmemory] at hnil
      cases hnil
    · rw [hmemory] at hm
      exact (List.cons.inj hm).1
  -- the store after these checks, and its log
  have happend := answered_append InMemoryStore.checkAndIncrement (Dict.empty : InMemoryStore τ)
    calls (checks.map w.call)
  rw [← hmem] at happend
  refine ⟨Or.inr ?_, ?_, ?_, fun k => ?_⟩
  · show w.memories.set 0 _ = _
    rw [hmemory, happend]
    rfl
  · rw [List.map_append]
    refine times_now h.times fun t ht => ?_
    rw [List.map_map] at ht
    obtain ⟨c, _, rfl⟩ := List.mem_map.mp ht
    rfl
  · intro c hc
    rcases List.mem_append.mp hc with hc | hc
    · exact h.checks c hc
    · obtain ⟨check, hcheck, rfl⟩ := List.mem_map.mp hc
      obtain ⟨hbudget, hk⟩ := hchecks check hcheck
      exact ⟨hbudget, congrArg RateLimiter.windowSeconds hconfig, hk⟩
  · rw [happend]
    exact passed_chargeMemory i (h.decisions k)

theorem OneMemory.chargeMemory (h : OneMemory config K w) (i : Nat)
    {checks : List (String × Int)} (hchecks : ChecksIn config K checks) {memory : InMemoryStore τ}
    (hmemory : w.memories = [memory]) :
    OneMemory config K (w.chargeMemory i checks 0 memory) where
  config_eq := h.config_eq
  unset := by
    intro hunset
    have hnil := h.unset hunset
    rw [hmemory] at hnil
    cases hnil
  installed := by
    intro n hn
    refine ⟨(h.installed n hn).1, ?_⟩
    show w.memories.set 0 _ ≠ []
    rw [hmemory]
    exact List.cons_ne_nil _ _
  pinging := by
    intro j c hj
    refine (h.setRequest i (p := .decided _) ?_).pinging j c hj
    intro c' hc'
    cases hc'
  history := by
    obtain ⟨calls, hcalls⟩ := h.history
    exact ⟨_, hcalls.chargeMemory h.config_eq i hchecks hmemory⟩

/-- Making the first in-memory store starts its history. -/
theorem OneMemory.newMemory (h : OneMemory config K w) (hnone : w.memories = []) :
    OneMemory config K w.newMemory where
  config_eq := h.config_eq
  unset := by intro hunset; cases hunset
  installed := by
    intro n hn
    rw [Limiter.newMemory] at hn
    dsimp only at hn
    rw [hnone] at hn
    cases hn
    refine ⟨rfl, ?_⟩
    show w.memories ++ [Dict.empty] ≠ []
    simp
  pinging := h.pinging
  history := by
    obtain ⟨calls, hm, ht, hc, hd⟩ := h.history
    have hcalls : calls = [] := by
      rcases hm with ⟨_, hcalls⟩ | hm
      · exact hcalls
      · rw [hnone] at hm
        cases hm
    subst hcalls
    refine ⟨[], Or.inr ?_, ht, hc, hd⟩
    show w.memories ++ [Dict.empty] = _
    rw [hnone]
    rfl

theorem OneMemory.newMemory_proceed (h : OneMemory config K w) (hnone : w.memories = []) (i : Nat)
    {checks : List (String × Int)} (hchecks : ChecksIn config K checks) :
    OneMemory config K (w.newMemory.proceed i checks (.memory w.memories.length)) := by
  have hone : w.newMemory.memories = [Dict.empty] := by
    show w.memories ++ [Dict.empty] = _
    rw [hnone]
    rfl
  rw [hnone]
  show OneMemory config K (w.newMemory.chargeMemory i checks 0 (w.newMemory.memories.getD 0 Dict.empty))
  refine (h.newMemory hnone).chargeMemory i hchecks ?_
  rw [hone]
  rfl

theorem OneMemory.proceed (h : OneMemory config K w) (i : Nat) {checks : List (String × Int)}
    (hchecks : ChecksIn config K checks) {store : StoreRef} (hstore : w.store = some store) :
    OneMemory config K (w.proceed i checks store) := by
  cases store with
  | redis => exact h.setRequest i (by intro c hc; cases hc)
  | memory n =>
      obtain ⟨rfl, hne⟩ := h.installed n hstore
      obtain ⟨calls, hm, _⟩ := h.history
      rcases hm with ⟨hnil, _⟩ | hm
      · exact absurd hnil hne
      · refine h.chargeMemory i hchecks ?_
        rw [hm]
        rfl

/-- **One in-memory store, whose history is behind every decision in memory.** -/
theorem oneMemory_step {e : LimiterEvent τ} (h : OneMemory config K w) (hfirst : w.NoSecondMemory e)
    (hkeys : e.keys config ⊆ K) (hs : w.step e = some w') : OneMemory config K w' := by
  cases e with
  | tick t =>
      rw [Limiter.step] at hs
      split at hs
      · rename_i hle
        cases hs
        obtain ⟨calls, hm, ht, hc, hd⟩ := h.history
        refine ⟨h.config_eq, h.unset, h.installed, h.pinging, calls, hm, ?_, hc, hd⟩
        -- the calls lie before the old time, and so before the new one
        obtain ⟨hcalls, _, hbefore⟩ := List.pairwise_append.mp ht
        refine List.pairwise_append.mpr ⟨hcalls, List.pairwise_singleton _ _, fun s hs t' ht' => ?_⟩
        rw [List.mem_singleton.mp ht']
        exact le_trans (hbefore s hs w.now (by simp)) hle
      · cases hs
  | arrive i isAuthPath clientIp userId =>
      rw [Limiter.step] at hs
      split at hs
      · cases hs
        have hchecks : ChecksIn config K (w.config.checks isAuthPath clientIp userId) := by
          rw [h.config_eq]
          intro c hc
          exact ⟨budget_of_mem_checks hc, hkeys (List.mem_map_of_mem hc)⟩
        unfold Limiter.getStore
        cases hstore : w.store with
        | some store => exact h.proceed i hchecks hstore
        | none =>
            dsimp only
            split
            · refine h.setRequest i fun checks hp => ?_
              cases hp
              exact hchecks
            · exact h.newMemory_proceed (h.unset hstore) i hchecks
      · cases hs
  | pong i ok =>
      rw [Limiter.step] at hs
      split at hs
      · rename_i checks hp
        cases hs
        have hchecks := h.pinging i checks hp
        unfold Limiter.pong
        cases ok with
        | true =>
            rw [if_pos rfl]
            have hredis : OneMemory config K { w with store := some .redis } := by
              refine ⟨h.config_eq, ?_, ?_, h.pinging, ?_⟩
              · intro hunset
                cases hunset
              · intro n hn
                cases hn
              · obtain ⟨calls, hcalls⟩ := h.history
                exact ⟨calls, hcalls.congr rfl rfl rfl⟩
            exact hredis.proceed i hchecks rfl
        | false =>
            -- the ping has failed, and by `hfirst` it is the first to install a store
            rw [if_neg Bool.false_ne_true]
            exact h.newMemory_proceed (hfirst rfl) i hchecks
      · cases hs
  | execute i =>
      rw [Limiter.step] at hs
      split at hs
      · cases hs
        have hredis : ∀ redis, OneMemory config K { w with redis := redis } := by
          intro redis
          obtain ⟨calls, hcalls⟩ := h.history
          exact ⟨h.config_eq, h.unset, h.installed, h.pinging, calls, hcalls.congr rfl rfl rfl⟩
        exact (hredis _).setRequest i (by intro c hc; cases hc)
      · cases hs
  | charge i fault =>
      rw [Limiter.step] at hs
      split at hs
      · obtain ⟨exceeds, -, rfl⟩ := Option.map_eq_some_iff.mp hs
        have hlost : ∀ call, OneMemory config K (w.giveUp i call fault) := by
          intro call
          cases fault with
          | before =>
              obtain ⟨calls, hcalls⟩ := h.history
              exact ⟨h.config_eq, h.unset, h.installed, h.pinging, calls, hcalls.congr rfl rfl rfl⟩
          | none | after => exact h
        unfold Limiter.charge
        split
        · exact (hlost _).answer_redis i _ _
        · exact (hlost _).setRequest i (by intro c hc; cases hc)
      · cases hs
  | late n =>
      obtain ⟨p, -, rfl⟩ := Option.map_eq_some_iff.mp hs
      obtain ⟨calls, hcalls⟩ := h.history
      exact ⟨h.config_eq, h.unset, h.installed, h.pinging, calls, hcalls.congr rfl rfl rfl⟩

/-! ## A stretch in which Redis fails -/

/-- From `w` to `w'` all decisions were made in memory. -/
def DecidesInMemory (w w' : Limiter τ) : Prop :=
  ∃ new, w'.decisions = new ++ w.decisions ∧ ∀ d ∈ new, d.store ≠ .redis

omit [Ring τ] [LinearOrder τ] in
theorem DecidesInMemory.rfl' (h : w'.decisions = w.decisions) : DecidesInMemory w w' :=
  ⟨[], h, by simp⟩

theorem decidesInMemory_proceed (w : Limiter τ) (i : Nat) (checks : List (String × Int))
    (store : StoreRef) : DecidesInMemory w (w.proceed i checks store) := by
  cases store with
  | redis => exact .rfl' rfl
  | memory n =>
      refine ⟨[⟨w.now, checks.map Prod.fst, _, .memory n⟩], rfl, fun d hd => ?_⟩
      rw [List.mem_singleton.mp hd]
      simp

/-- A step that is no pipeline makes its decision, if it makes one, in memory. -/
theorem decidesInMemory_step {e : LimiterEvent τ} (hcharge : ∀ i fault, e ≠ .charge i fault)
    (hs : w.step e = some w') : DecidesInMemory w w' := by
  cases e with
  | tick t =>
      rw [Limiter.step] at hs
      split at hs
      · cases hs
        exact .rfl' rfl
      · cases hs
  | arrive i isAuthPath clientIp userId =>
      rw [Limiter.step] at hs
      split at hs
      · cases hs
        unfold Limiter.getStore
        split
        · exact decidesInMemory_proceed w i _ _
        · split
          · exact .rfl' rfl
          · exact decidesInMemory_proceed w.newMemory i _ _
      · cases hs
  | pong i ok =>
      rw [Limiter.step] at hs
      split at hs
      · cases hs
        unfold Limiter.pong
        split
        · exact .rfl' rfl
        · exact decidesInMemory_proceed w.newMemory i _ _
      · cases hs
  | execute i =>
      rw [Limiter.step] at hs
      split at hs
      · cases hs
        exact .rfl' rfl
      · cases hs
  | charge i fault => exact absurd rfl (hcharge i fault)
  | late n =>
      obtain ⟨p, -, rfl⟩ := Option.map_eq_some_iff.mp hs
      exact .rfl' rfl

theorem decidesInMemory_run {stretch : List (LimiterEvent τ)}
    (hcharge : ∀ i fault, .charge i fault ∉ stretch)
    (h : exec Limiter.step w stretch = some w') : DecidesInMemory w w' := by
  have hall : Meets Limiter.step (fun _ _ => True) w stretch := meets_true w stretch
  have hmeets := hall.and_events (D := fun e => ∀ i fault, e ≠ .charge i fault) (by
    intro e he i fault heq
    rw [heq] at he
    exact hcharge i fault he)
  refine exec_invariant (I := DecidesInMemory w) (fun w₁ e w₂ h₁ hc h₂ => ?_) (.rfl' rfl) hmeets h
  obtain ⟨new, hnew, hmem⟩ := h₁
  obtain ⟨new', hnew', hmem'⟩ := decidesInMemory_step hc.2 h₂
  -- the decisions of the steps add up, newest first
  refine ⟨new' ++ new, by rw [hnew', hnew, List.append_assoc], fun d hd => ?_⟩
  rcases List.mem_append.mp hd with hd | hd
  · exact hmem' d hd
  · exact hmem d hd

/-- In every window from `w` to `w'` at most `limit` requests over `k` pass. -/
def PassesAtMost (w w' : Limiter τ) (k : String) (limit windowSeconds : Int) : Prop :=
  ∀ a : τ, ((passed k (w.decisionsSince w')).filter
    fun t => a ≤ t ∧ t ≤ a + windowSeconds).length ≤ limit.toNat

/-- The calls for a key on the one in-memory store are against one budget. -/
theorem MemoryHistory.fixed {calls : List (RateCall τ)} (h : MemoryHistory config K w calls)
    {k : String} {limit : Int} (hbudget : Budget config k limit) :
    ∀ c ∈ calls, c.key = k → c.limit = limit ∧ c.windowSeconds = config.windowSeconds := by
  intro c hc hk
  obtain ⟨hlimit, hwindow, _⟩ := h.checks c hc
  rw [hk] at hlimit
  exact ⟨budget_unique hlimit hbudget, hwindow⟩

/-- What was decided in memory over `k` is bounded in every window. -/
theorem OneMemory.limited [IsOrderedAddMonoid τ] (h : OneMemory config K w)
    (hkeys : K.dedup.length ≤ maxTrackedIps) {k : String} {limit : Int}
    (hbudget : Budget config k limit) (a : τ) :
    ((passed k (inMemory w.decisions)).filter
      fun t => a ≤ t ∧ t ≤ a + config.windowSeconds).length ≤ limit.toNat := by
  obtain ⟨calls, hcalls⟩ := h.history
  have hmono : (calls.map RateCall.time).Pairwise (· ≤ ·) :=
    (List.pairwise_append.mp hcalls.times).1
  have hsub : calls.map RateCall.key ⊆ K := by
    intro x hx
    obtain ⟨c, hc, rfl⟩ := List.mem_map.mp hx
    exact (hcalls.checks c hc).2.2
  have hfew := fewBetween_of_keys (Nat.le_trans (List.dedup_length_mono hsub) hkeys) k
  have hsafe := inMemory_window_safe calls hmono k limit config.windowSeconds
    (hcalls.fixed hbudget) hfew a
  exact Nat.le_trans ((hcalls.decisions k).filter _).length_le hsafe

/--
**While Redis fails the in-memory store limits.**

In every run in which no ping fails once an in-memory store has been made, over every
stretch in which all Redis calls fail but no pipeline does, at most `limit` requests
over a key pass in any window.
-/
theorem outage_limited [IsOrderedAddMonoid τ] (config : RateLimiter) (redisUrl : Bool)
    (start : τ) (before stretch : List (LimiterEvent τ)) (w w' : Limiter τ)
    (hbefore : exec Limiter.step (Limiter.init config redisUrl start) before = some w)
    (hstretch : exec Limiter.step w stretch = some w')
    (hfails : ∀ e ∈ stretch, e.RedisFails)
    (hfirst : Meets Limiter.step Limiter.NoSecondMemory (Limiter.init config redisUrl start)
      (before ++ stretch))
    (hpipelines : ∀ i fault, .charge i fault ∈ stretch → fault = .none)
    (hkeys : ((before ++ stretch).flatMap (LimiterEvent.keys config)).dedup.length
      ≤ maxTrackedIps)
    (k : String) (limit : Int) (hbudget : Budget config k limit) :
    PassesAtMost w w' k limit config.windowSeconds := by
  -- over the whole run there is one store, and all keys are among those counted
  have hone : OneMemory config ((before ++ stretch).flatMap (LimiterEvent.keys config)) w' := by
    have hmeets := hfirst.and_events
      (D := fun e => e.keys config ⊆ (before ++ stretch).flatMap (LimiterEvent.keys config))
      fun e he x hx => List.mem_flatMap.mpr ⟨e, he, hx⟩
    refine exec_invariant (I := OneMemory config _)
      (fun w₁ e w₂ h₁ hc h₂ => oneMemory_step h₁ hc.1 hc.2 h₂)
      (oneMemory_init config _ redisUrl start) hmeets ?_
    rw [exec_append hbefore]
    exact hstretch
  -- over the stretch every decision is on it
  have hcharge : ∀ i fault, .charge i fault ∉ stretch :=
    fun i fault he => hfails _ he (hpipelines i fault he)
  obtain ⟨new, hnew, hmemory⟩ := decidesInMemory_run hcharge hstretch
  have hsince : w.decisionsSince w' = new := by
    rw [Limiter.decisionsSince, hnew, List.length_append, Nat.add_sub_cancel, List.take_left]
  have hpart : (passed k (w.decisionsSince w')).Sublist (passed k (inMemory w'.decisions)) := by
    have hin : inMemory w'.decisions = new ++ inMemory w.decisions := by
      rw [inMemory, hnew, List.filter_append, inMemory, List.filter_eq_self.mpr]
      intro d hd
      exact decide_eq_true (hmemory d hd)
    rw [hsince, hin]
    unfold passed
    exact ((List.sublist_append_left _ _).filter _).map _
  intro a
  exact Nat.le_trans (hpart.filter _).length_le (hone.limited hkeys hbudget a)

/-- Limits of one request a minute, to see them act. -/
def oneAMinute : RateLimiter :=
  { maxRequests := 1, authMaxRequests := 1, userMaxRequests := 1, windowSeconds := 60 }

/-- A request of one client. -/
def request (i : Nat) : LimiterEvent Int := .arrive i false "203.0.113.7" none

/-- Redis is down from the start, and the client comes three times within a minute. -/
theorem outage_limited_down_from_the_start :
    ∃ w w', exec Limiter.step (Limiter.init oneAMinute true 0) [request 0] = some w
      ∧ exec Limiter.step w [.pong 0 false, .tick 20, request 1, .tick 50, request 2] = some w'
      ∧ PassesAtMost w w' (ipKey "general" "203.0.113.7") 1 60 := by
  refine ⟨_, _, rfl, rfl, ?_⟩
  refine outage_limited oneAMinute true (0 : Int) [request 0]
    [.pong 0 false, .tick 20, request 1, .tick 50, request 2] _ _ rfl rfl ?_ ?_ ?_ ?_ _ 1
    (.general "203.0.113.7")
  · simp [LimiterEvent.RedisFails, request]
  · intro w hw
    cases hw
    refine ⟨trivial, fun w hw => ?_⟩
    cases hw
    refine ⟨fun _ => rfl, fun w hw => ⟨trivial, fun w hw => ⟨trivial, fun w hw => ⟨trivial,
      fun w hw => ⟨trivial, trivial⟩⟩⟩⟩⟩
  · simp [request]
  · refine Nat.le_trans (List.dedup_sublist _).length_le ?_
    decide

/-- A client passes twice in a window over pipelines that fail, and over the stores of two first
requests whose pings fail. -/
theorem outage_unlimited :
    (∃ w w', exec Limiter.step (Limiter.init oneAMinute true 0) [request 0, .pong 0 true] = some w
      ∧ exec Limiter.step w [.charge 0 .before, request 1, .charge 1 .before] = some w'
      ∧ ¬ PassesAtMost w w' (ipKey "general" "203.0.113.7") 1 60)
    ∧ ∃ w w', exec Limiter.step (Limiter.init oneAMinute true 0) [request 0, request 1] = some w
      ∧ exec Limiter.step w [.pong 0 false, .pong 1 false] = some w'
      ∧ ¬ PassesAtMost w w' (ipKey "general" "203.0.113.7") 1 60 := by
  refine ⟨⟨_, _, rfl, rfl, fun h => ?_⟩, ⟨_, _, rfl, rfl, fun h => ?_⟩⟩
  · exact absurd (h 0) (by decide)
  · exact absurd (h 0) (by decide)

end Microservices.Gateway
