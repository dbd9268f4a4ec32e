import Microservices.Gateway.RateStores

/-!
# Where the two stores differ

Given the same calls the stores prune alike but for two cases. A time exactly one
window old is dropped by `ZREMRANGEBYSCORE`, whose bound is included, and kept by
the deque, which drops what is strictly older. And a sorted set is gone once the
window of its last call and a second have passed, which only a call with a longer
window than that can notice.

As long as neither happens the sorted set holds what the deque holds. The first
call at which one of them does is answered differently.
-/

namespace Microservices.Gateway

open SlidingWindow

variable {τ : Type}

/-- The calls for `key`. -/
def callsFor (key : String) (calls : List (RateCall τ)) : List (RateCall τ) :=
  calls.filter fun c => c.key = key

theorem callsFor_snoc_self (calls : List (RateCall τ)) (c : RateCall τ) :
    callsFor c.key (calls ++ [c]) = callsFor c.key calls ++ [c] := by
  simp [callsFor]

theorem callsFor_snoc_of_ne {key : String} (calls : List (RateCall τ)) {c : RateCall τ}
    (h : c.key ≠ key) : callsFor key (calls ++ [c]) = callsFor key calls := by
  simp [callsFor, h]

/-- A property of all splits of a list, one element at a time. -/
theorem forall_split_snoc {α : Type} {P : List α → α → Prop} (l : List α) (a : α) :
    (∀ before x after, l ++ [a] = before ++ x :: after → P before x)
      ↔ (∀ before x after, l = before ++ x :: after → P before x) ∧ P l a := by
  constructor
  · intro h
    refine ⟨fun before x after he => h before x (after ++ [a]) (by rw [he]; simp), ?_⟩
    exact h l a [] rfl
  · rintro ⟨h, ha⟩ before x after he
    rcases List.eq_nil_or_concat after with rfl | ⟨after', b, rfl⟩
    · obtain ⟨rfl, hx⟩ := List.append_inj' he rfl
      cases hx
      exact ha
    · rw [List.concat_eq_append, ← List.cons_append, ← List.append_assoc] at he
      obtain ⟨rfl, _⟩ := List.append_inj' he rfl
      exact h before x after' rfl

variable [LinearOrder τ]

/-- Dropping also the times at the boundary drops more just if there are some. -/
theorem filter_not_le_eq {start : τ} {times : List τ} (h : ∀ t ∈ times, t ≠ start) :
    times.filter (fun t => ¬ t ≤ start) = from_ start times := by
  refine List.filter_congr fun t ht => ?_
  have hne := h t ht
  rw [decide_eq_decide]
  exact ⟨fun hlt => le_of_lt (not_le.mp hlt), fun hle => not_le.mpr (lt_of_le_of_ne hle hne.symm)⟩

theorem forall_ne_of_filter_length {start : τ} {times : List τ}
    (h : (times.filter fun t => ¬ t ≤ start).length = (from_ start times).length) :
    ∀ t ∈ times, t ≠ start := by
  have hsub : (times.filter fun t => ¬ t ≤ start).Sublist (from_ start times) := by
    refine List.monotone_filter_right times ?_
    intro t ht
    have hlt := of_decide_eq_true ht
    exact decide_eq_true (le_of_lt (not_le.mp hlt))
  have heq := hsub.eq_of_length h
  rintro t ht rfl
  have hmem : t ∈ from_ t times := List.mem_filter.mpr ⟨ht, by simp⟩
  rw [← heq] at hmem
  have := (List.mem_filter.mp hmem).2
  simp at this

variable [Ring τ]

/-- The times that are counted after these calls for one key: those within the window of every
call since. -/
def counted (calls : List (RateCall τ)) : List τ :=
  calls.foldl (fun b (c : RateCall τ) => from_ (c.time - c.windowSeconds) b ++ [c.time]) []

theorem counted_snoc (calls : List (RateCall τ)) (c : RateCall τ) :
    counted (calls ++ [c]) = from_ (c.time - c.windowSeconds) (counted calls) ++ [c.time] := by
  rw [counted, List.foldl_append]; rfl

/-- Of the times counted after `earlier`, the calls for its key before it, `c` finds none exactly
one window old, and none in its window if the key has expired. -/
structure SamePruning (earlier : List (RateCall τ)) (c : RateCall τ) : Prop where
  boundary : ∀ t ∈ counted earlier, t ≠ c.time - c.windowSeconds
  expiry : ∀ last, earlier.getLast? = some last → last.time + (last.windowSeconds + 1) ≤ c.time →
    ∀ t ∈ counted earlier, t < c.time - c.windowSeconds

/-! ## The deques -/

theorem counted_sublist (calls : List (RateCall τ)) :
    (counted calls).Sublist (calls.map RateCall.time) := by
  induction calls using List.reverseRecOn with
  | nil => exact List.Sublist.refl _
  | append_singleton calls c ih =>
      rw [counted_snoc, List.map_append]
      exact (List.filter_sublist.trans ih).append (List.Sublist.refl _)

/-- The deques hold the counted times, under keys that have been used. -/
structure DequesCount (calls : List (RateCall τ)) (s : InMemoryStore τ) : Prop where
  bucket : ∀ k, s.bucket k = counted (callsFor k calls)
  keys : s.keys ⊆ calls.map RateCall.key

/-- What a call leaves in its deque is what is counted after it. -/
theorem pruned_eq_counted {calls : List (RateCall τ)} {s : InMemoryStore τ} {c : RateCall τ}
    (h : DequesCount calls s) (hmono : (calls.map RateCall.time).Pairwise (· ≤ ·)) :
    s.pruned c = counted (callsFor c.key calls ++ [c]) := by
  have hsorted : (counted (callsFor c.key calls)).Pairwise (· ≤ ·) :=
    hmono.sublist ((counted_sublist _).trans (List.filter_sublist.map _))
  unfold InMemoryStore.pruned
  rw [h.bucket, dropWhile_eq_from hsorted, counted_snoc]

theorem dequesCount_check {calls : List (RateCall τ)} {s : InMemoryStore τ} {c : RateCall τ}
    (h : DequesCount calls s) (hmono : (calls.map RateCall.time).Pairwise (· ≤ ·))
    (hkeys : ((calls ++ [c]).map RateCall.key).dedup.length ≤ maxTrackedIps) :
    DequesCount (calls ++ [c]) (s.checkAndIncrement c).2 := by
  rw [checkAndIncrement_eq]
  -- the dictionary has room for every key that is used
  have hroom : c.key ∉ s.keys → s.entries.length < maxTrackedIps := by
    intro hnew
    have hnodup : (c.key :: s.keys).Nodup := List.nodup_cons.mpr ⟨hnew, s.nodup⟩
    have hsub : c.key :: s.keys ⊆ (calls ++ [c]).map RateCall.key := by
      intro k hk
      rw [List.map_append]
      rcases List.mem_cons.mp hk with rfl | hk
      · simp
      · exact List.mem_append_left _ (h.keys hk)
    have hle := List.dedup_length_mono hsub
    have hlength : s.keys.length = s.entries.length := List.length_map _
    rw [hnodup.dedup, List.length_cons] at hle
    omega
  refine ⟨fun k => ?_, fun k hk => ?_⟩
  · unfold InMemoryStore.bucket
    by_cases hk : c.key = k
    · rw [← hk, Dict.get?_use_self, callsFor_snoc_self]
      exact pruned_eq_counted h hmono
    · rw [Dict.get?_use_of_ne hroom fun he => hk he.symm, callsFor_snoc_of_ne _ hk]
      exact h.bucket k
  · rw [List.map_append]
    rcases Dict.mem_keys_use hk with rfl | hk
    · simp
    · exact List.mem_append_left _ (h.keys hk)

theorem dequesCount_answered {calls : List (RateCall τ)}
    (hmono : (calls.map RateCall.time).Pairwise (· ≤ ·))
    (hkeys : (calls.map RateCall.key).dedup.length ≤ maxTrackedIps) :
    DequesCount calls (answered InMemoryStore.checkAndIncrement Dict.empty calls).1 := by
  induction calls using List.reverseRecOn with
  | nil => exact ⟨fun k => rfl, by simp [answered, Dict.empty, Dict.keys]⟩
  | append_singleton calls c ih =>
      have hbefore := times_init hmono
      have hkeys' := keys_init hkeys
      rw [answered_snoc]
      exact dequesCount_check (ih hbefore hkeys') hbefore hkeys

/-! ## The sorted sets -/

/-- The sorted sets hold the counted times, and expire by the last call for their key. -/
def SetsCount (calls : List (RateCall τ)) (redis : RedisRates τ) : Prop :=
  ∀ k, redis k = (callsFor k calls).getLast?.map fun last =>
    ⟨counted (callsFor k calls), some (last.time + (last.windowSeconds + 1))⟩

/-- What a call finds in its sorted set and does not remove. -/
def RedisRates.left (redis : RedisRates τ) (c : RateCall τ) : List τ :=
  ((redis.get c.time c.key).getD []).filter fun t => ¬ t ≤ c.time - c.windowSeconds

/-- What is left in the sorted set is as much as in the deque just if `SamePruning` holds, and
then it is the same. -/
theorem left_spec {calls : List (RateCall τ)} {redis : RedisRates τ} (h : SetsCount calls redis)
    (c : RateCall τ) :
    ((redis.left c).length = (from_ (c.time - c.windowSeconds) (counted (callsFor c.key calls))).length
        ↔ SamePruning (callsFor c.key calls) c)
      ∧ (SamePruning (callsFor c.key calls) c →
        redis.left c = from_ (c.time - c.windowSeconds) (counted (callsFor c.key calls))) := by
  have hkey := h c.key
  unfold RedisRates.left ExpiringStore.get
  cases hlast : (callsFor c.key calls).getLast? with
  | none =>
      -- the first call for its key
      rw [hlast] at hkey
      rw [List.getLast?_eq_none_iff] at hlast
      rw [ExpiringStore.live_eq_none _ hkey, hlast]
      refine ⟨iff_of_true rfl ⟨?_, ?_⟩, fun _ => rfl⟩
      · intro t ht; cases ht
      · intro last hl; cases hl
  | some last =>
      rw [hlast] at hkey
      by_cases hexpired : last.time + (last.windowSeconds + 1) ≤ c.time
      · -- the set is gone
        rw [ExpiringStore.live_eq_none_of_le hkey hexpired]
        have hall : SamePruning (callsFor c.key calls) c ↔
            from_ (c.time - c.windowSeconds) (counted (callsFor c.key calls)) = [] := by
          rw [from_, List.filter_eq_nil_iff]
          constructor
          · intro hsame t ht
            simpa using hsame.expiry last hlast hexpired t ht
          · intro hnone
            have hlt : ∀ t ∈ counted (callsFor c.key calls), t < c.time - c.windowSeconds := by
              intro t ht
              simpa using hnone t ht
            exact ⟨fun t ht => ne_of_lt (hlt t ht), fun _ _ _ => hlt⟩
        rw [hall]
        show ([].length = _ ↔ _) ∧ (_ → [] = _)
        rw [List.length_nil, eq_comm, List.length_eq_zero_iff]
        exact ⟨Iff.rfl, Eq.symm⟩
      · rw [ExpiringStore.live_eq_some hkey (not_le.mp hexpired)]
        have hall : SamePruning (callsFor c.key calls) c ↔
            ∀ t ∈ counted (callsFor c.key calls), t ≠ c.time - c.windowSeconds := by
          refine ⟨SamePruning.boundary, fun hne => ⟨hne, ?_⟩⟩
          intro last' hl hle
          rw [hlast] at hl
          cases hl
          exact absurd hle hexpired
        rw [hall, Option.map_some, Option.getD_some]
        refine ⟨⟨forall_ne_of_filter_length, fun hne => ?_⟩, filter_not_le_eq⟩
        rw [filter_not_le_eq hne]

theorem setsCount_transaction {calls : List (RateCall τ)} {redis : RedisRates τ} {c : RateCall τ}
    (h : SetsCount calls redis) (hsame : SamePruning (callsFor c.key calls) c) :
    SetsCount (calls ++ [c]) (redis.transaction c).2 := by
  intro k
  show redis.put c.key (redis.left c ++ [c.time]) _ k = _
  by_cases hk : c.key = k
  · rw [← hk, ExpiringStore.put_self, callsFor_snoc_self, counted_snoc, (left_spec h c).2 hsame]
    simp
  · rw [ExpiringStore.put_of_ne _ fun he => hk he.symm, callsFor_snoc_of_ne _ hk]
    exact h k

/-! ## The answers -/

/-- The log of the in-memory store. -/
def inMemoryLog (calls : List (RateCall τ)) : List (RateCall τ × RateAnswer) :=
  (answered InMemoryStore.checkAndIncrement Dict.empty calls).2

/-- The log of the Redis store while Redis answers. -/
def redisLog (calls : List (RateCall τ)) : List (RateCall τ × RateAnswer) :=
  (answered (fun redis c => RedisRates.checkAndIncrement redis .none c) ExpiringStore.empty calls).2

theorem rateAnswer_inj {limit : Int} {m n : Nat} :
    rateAnswer limit m = rateAnswer limit n ↔ m = n :=
  ⟨fun h => congrArg Prod.snd h, fun h => h ▸ rfl⟩

/-- One more call: the logs stay equal just if it is pruned alike. -/
theorem logs_snoc {calls : List (RateCall τ)} {c : RateCall τ}
    (hmono : (calls.map RateCall.time).Pairwise (· ≤ ·))
    (hdeques : DequesCount calls (answered InMemoryStore.checkAndIncrement Dict.empty calls).1)
    (hsets : SetsCount calls (answered
      (fun redis c => RedisRates.checkAndIncrement redis .none c) ExpiringStore.empty calls).1)
    (hlogs : inMemoryLog calls = redisLog calls) :
    inMemoryLog (calls ++ [c]) = redisLog (calls ++ [c])
      ↔ SamePruning (callsFor c.key calls) c := by
  have hcount := pruned_eq_counted (c := c) hdeques hmono
  unfold inMemoryLog redisLog at hlogs ⊢
  rw [answered_snoc, answered_snoc, hlogs, checkAndIncrement_eq, hcount, counted_snoc,
    ← (left_spec hsets c).1, List.cons.injEq, Prod.mk.injEq]
  simp only [true_and, and_true]
  show rateAnswer _ _ = rateAnswer c.limit (RedisRates.left _ c ++ [c.time]).length ↔ _
  rw [rateAnswer_inj, List.length_append, List.length_append, Nat.add_right_cancel_iff]
  exact eq_comm

/--
**The stores answer alike exactly while every call is pruned alike.**

For every run of calls at non-decreasing times, of one shared clock, that uses no
more keys than the in-memory store tracks, with any limits and windows.
-/
theorem stores_agree_iff (calls : List (RateCall τ))
    (hmono : (calls.map RateCall.time).Pairwise (· ≤ ·))
    (hkeys : (calls.map RateCall.key).dedup.length ≤ maxTrackedIps) :
    inMemoryLog calls = redisLog calls
      ↔ ∀ before c after, calls = before ++ c :: after → SamePruning (callsFor c.key before) c := by
  suffices hboth : (inMemoryLog calls = redisLog calls
      ↔ ∀ before c after, calls = before ++ c :: after → SamePruning (callsFor c.key before) c)
      ∧ (inMemoryLog calls = redisLog calls → SetsCount calls (answered
        (fun redis c => RedisRates.checkAndIncrement redis .none c) ExpiringStore.empty calls).1) from
    hboth.1
  induction calls using List.reverseRecOn with
  | nil =>
      refine ⟨iff_of_true rfl fun before c after he => ?_, fun _ k => rfl⟩
      exact absurd he (by simp)
  | append_singleton calls c ih =>
      have hbefore := times_init hmono
      have hkeys' := keys_init hkeys
      obtain ⟨hiff, hsets⟩ := ih hbefore hkeys'
      have hdeques := dequesCount_answered hbefore hkeys'
      -- the logs are equal only if those before this call are
      have hinit : inMemoryLog (calls ++ [c]) = redisLog (calls ++ [c])
          → inMemoryLog calls = redisLog calls := by
        intro heq
        unfold inMemoryLog redisLog at heq ⊢
        rw [answered_snoc, answered_snoc] at heq
        exact (List.cons.inj heq).2
      rw [forall_split_snoc, ← hiff]
      refine ⟨⟨fun heq => ?_, fun ⟨heq, hsame⟩ => ?_⟩, fun heq => ?_⟩
      · have hlogs := hinit heq
        exact ⟨hlogs, (logs_snoc hbefore hdeques (hsets hlogs) hlogs).mp heq⟩
      · exact (logs_snoc hbefore hdeques (hsets heq) heq).mpr hsame
      · have hlogs := hinit heq
        have hsame := (logs_snoc hbefore hdeques (hsets hlogs) hlogs).mp heq
        rw [answered_snoc]
        exact setsCount_transaction (hsets hlogs) hsame

/-- One client's calls, against a limit of one a minute. -/
def callAt (time : Int) : RateCall Int := ⟨time, "rate:general:203.0.113.7", 1, 60⟩

theorem stores_agree_half_window_apart :
    inMemoryLog [callAt 0, callAt 30] = redisLog [callAt 0, callAt 30] := by
  refine (stores_agree_iff [callAt 0, callAt 30] (by decide)
    (Nat.le_trans (List.dedup_sublist _).length_le (by decide))).mpr ?_
  refine (forall_split_snoc [callAt 0] (callAt 30)).mpr ⟨?_, ?_⟩
  · refine (forall_split_snoc [] (callAt 0)).mpr ⟨fun before c after he => absurd he (by simp), ?_⟩
    exact ⟨by decide, by decide⟩
  · refine ⟨by decide, ?_⟩
    intro last hlast hexpired
    cases hlast
    exact absurd hexpired (by decide)

/-- **A call exactly one window after the last is limited by the deque and not by the sorted set.** -/
theorem stores_differ_one_window_apart :
    (inMemoryLog [callAt 0, callAt 60]).map Prod.snd = [(true, 2), (false, 1)]
      ∧ (redisLog [callAt 0, callAt 60]).map Prod.snd = [(false, 1), (false, 1)]
      ∧ inMemoryLog [callAt 0, callAt 60] ≠ redisLog [callAt 0, callAt 60] := by
  have hmemory : (inMemoryLog [callAt 0, callAt 60]).map Prod.snd = [(true, 2), (false, 1)] := by
    decide
  have hredis : (redisLog [callAt 0, callAt 60]).map Prod.snd = [(false, 1), (false, 1)] := by
    decide
  refine ⟨hmemory, hredis, fun h => ?_⟩
  rw [h, hredis] at hmemory
  cases hmemory

/-! ## One window for all calls -/

variable [IsStrictOrderedRing τ]

/-- A call in the window of a later one is counted by every call in between. -/
theorem mem_counted {windowSeconds : Int} {calls : List (RateCall τ)} {now : τ}
    (hfixed : ∀ c ∈ calls, c.windowSeconds = windowSeconds) (hle : ∀ c ∈ calls, c.time ≤ now)
    {first : RateCall τ} (hfirst : first ∈ calls) (hin : now - windowSeconds ≤ first.time) :
    first.time ∈ counted calls := by
  induction calls using List.reverseRecOn with
  | nil => cases hfirst
  | append_singleton calls c ih =>
      rw [counted_snoc]
      rcases List.mem_append.mp hfirst with hmem | hmem
      · have hmem' := ih (fun x hx => hfixed x (by simp [hx])) (fun x hx => hle x (by simp [hx])) hmem
        refine List.mem_append_left _ (List.mem_filter.mpr ⟨hmem', decide_eq_true ?_⟩)
        rw [hfixed c (by simp)]
        exact le_trans (sub_le_sub_right (hle c (by simp)) _) hin
      · rw [List.mem_singleton.mp hmem]
        simp

/-- With one window a call is pruned alike just if no call for its key was made exactly one window
before it. -/
theorem samePruning_fixed_iff {windowSeconds : Int} {earlier : List (RateCall τ)} {c : RateCall τ}
    (hmono : ((earlier ++ [c]).map RateCall.time).Pairwise (· ≤ ·))
    (hfixed : ∀ x ∈ earlier ++ [c], x.windowSeconds = windowSeconds) :
    SamePruning earlier c ↔ ∀ first ∈ earlier, c.time - first.time ≠ windowSeconds := by
  rw [List.map_append] at hmono
  obtain ⟨hbefore, _, hlast⟩ := List.pairwise_append.mp hmono
  have hle : ∀ x ∈ earlier, x.time ≤ c.time := fun x hx =>
    hlast x.time (List.mem_map_of_mem hx) c.time (by simp)
  have hc : c.windowSeconds = windowSeconds := hfixed c (by simp)
  constructor
  · intro h first hfirst he
    have hstart : first.time = c.time - c.windowSeconds := by
      rw [hc, ← he, sub_sub_cancel]
    refine h.boundary first.time ?_ hstart
    exact mem_counted (fun x hx => hfixed x (by simp [hx])) hle hfirst
      (by rw [hstart, hc])
  · intro h
    constructor
    · intro t ht he
      obtain ⟨first, hfirst, rfl⟩ := List.mem_map.mp ((counted_sublist earlier).subset ht)
      refine h first hfirst ?_
      rw [he, hc, sub_sub_cancel]
    · -- the last call is more than its window ago, and every other one is still older
      intro last hl hexpired t ht
      obtain ⟨init, rfl⟩ := List.getLast?_eq_some_iff.mp hl
      have hlt : last.time < c.time - c.windowSeconds := by
        rw [hc, lt_sub_iff_add_lt]
        rw [hfixed last (by simp), ← add_assoc] at hexpired
        exact lt_of_lt_of_le (lt_add_one _) hexpired
      obtain ⟨first, hfirst, rfl⟩ := List.mem_map.mp ((counted_sublist _).subset ht)
      refine lt_of_le_of_lt ?_ hlt
      rw [List.map_append] at hbefore
      rcases List.mem_append.mp hfirst with hfirst | hfirst
      · exact (List.pairwise_append.mp hbefore).2.2 first.time (List.mem_map_of_mem hfirst) last.time
          (by simp)
      · rw [List.mem_singleton.mp hfirst]

/-- Every call of a run with one window is pruned alike just if no two calls for one key are made
exactly one window apart. -/
theorem samePruning_run_fixed_iff {windowSeconds : Int} {calls : List (RateCall τ)}
    (hmono : (calls.map RateCall.time).Pairwise (· ≤ ·))
    (hfixed : ∀ c ∈ calls, c.windowSeconds = windowSeconds) :
    (∀ before c after, calls = before ++ c :: after → SamePruning (callsFor c.key before) c)
      ↔ ∀ before (c : RateCall τ) after, calls = before ++ c :: after →
          ∀ first ∈ callsFor c.key before, c.time - first.time ≠ windowSeconds := by
  refine forall₄_congr fun before c after he => ?_
  have hsub : (callsFor c.key before ++ [c]).Sublist calls := by
    rw [he, List.append_cons before c after]
    exact (List.filter_sublist.append (List.Sublist.refl _)).trans (List.sublist_append_left _ _)
  exact samePruning_fixed_iff (hmono.sublist (hsub.map _)) fun x hx => hfixed x (hsub.subset hx)

end Microservices.Gateway
