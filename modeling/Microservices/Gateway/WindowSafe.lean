import Microservices.Gateway.RateStores

/-!
# The in-memory window is safe

The deque of a key holds the times of its calls in the window before the last of
them, and the dictionary keeps it while fewer than `MAX_TRACKED_IPS` other keys are
used. So a call counts every earlier call for its key in its window, whatever
happens to other keys in between, and the bound is that of a sliding window.
-/

namespace Microservices.Gateway

open SlidingWindow

variable {τ : Type}

/-- Fewer than `MAX_TRACKED_IPS` distinct other keys are used between one call for `k` and the
next. -/
def FewBetween (k : String) (calls : List (RateCall τ)) : Prop :=
  ∀ before first between second after,
    calls = before ++ first :: (between ++ second :: after) → first.key = k → second.key = k →
    (∀ c ∈ between, c.key ≠ k) → (between.map RateCall.key).dedup.length < maxTrackedIps

/-- The times of the calls for `k` that were answered not limited, newest first. -/
def notLimited (k : String) (log : List (RateCall τ × RateAnswer)) : List τ :=
  (log.filter fun e => e.1.key = k ∧ e.2.1 = false).map fun e => e.1.time

/-! ## Stretches without a call for the key -/

/-- Fewer than `MAX_TRACKED_IPS` distinct keys are used in any stretch after a call for `k` and
without another. -/
def FewSince (k : String) (calls : List (RateCall τ)) : Prop :=
  ∀ before first between after,
    calls = before ++ first :: (between ++ after) → first.key = k →
    (∀ c ∈ between, c.key ≠ k) → (between.map RateCall.key).dedup.length < maxTrackedIps

theorem FewSince.init {k : String} {calls : List (RateCall τ)} {c : RateCall τ}
    (h : FewSince k (calls ++ [c])) : FewSince k calls := by
  intro before first between after he
  exact h before first between (after ++ [c]) (by rw [he]; simp)

theorem FewBetween.init {k : String} {calls : List (RateCall τ)} {c : RateCall τ}
    (h : FewBetween k (calls ++ [c])) : FewBetween k calls := by
  intro before first between second after he
  exact h before first between second (after ++ [c]) (by rw [he]; simp)

/-- A stretch that a call for `k` will end is part of one between two of them. -/
theorem fewSince_of_fewBetween {k : String} {calls : List (RateCall τ)} {c : RateCall τ}
    (h : FewBetween k (calls ++ [c])) (hc : c.key = k) : FewSince k calls := by
  intro before first between after he hfirst hbetween
  -- the first call for `k` from there on
  obtain ⟨second, hsecond⟩ : ∃ second, (after ++ [c]).find? (fun x => x.key = k) = some second := by
    rw [← Option.isSome_iff_exists, List.find?_isSome]
    exact ⟨c, by simp, by simpa using hc⟩
  obtain ⟨hkey, rest, after', hsplit, hrest⟩ := List.find?_eq_some_iff_append.mp hsecond
  have hfew := h before first (between ++ rest) second after' (by
    rw [he, List.append_assoc, List.cons_append, List.append_assoc, hsplit, List.append_assoc])
    hfirst (of_decide_eq_true hkey) (by
      intro x hx
      rcases List.mem_append.mp hx with hx | hx
      · exact hbetween x hx
      · simpa using hrest x hx)
  refine Nat.lt_of_le_of_lt (List.dedup_length_mono ?_) hfew
  rw [List.map_append]
  exact List.subset_append_left _ _

/-- A run that uses no more keys than are tracked leaves every key its place. -/
theorem fewBetween_of_keys {calls : List (RateCall τ)}
    (h : (calls.map RateCall.key).dedup.length ≤ maxTrackedIps) (k : String) :
    FewBetween k calls := by
  intro before first between second after he hfirst _ hbetween
  have hnot : k ∉ between.map RateCall.key := by
    intro hk
    obtain ⟨c, hc, hck⟩ := List.mem_map.mp hk
    exact hbetween c hc hck
  have hsub : k :: between.map RateCall.key ⊆ calls.map RateCall.key := by
    intro x hx
    rw [he, List.map_append, List.map_cons, List.map_append, hfirst]
    refine List.mem_append_right _ ?_
    rcases List.mem_cons.mp hx with rfl | hx
    · exact List.mem_cons_self
    · exact List.mem_cons_of_mem _ (List.mem_append_left _ hx)
  have hle := List.dedup_length_mono hsub
  rw [List.dedup_cons_of_notMem hnot, List.length_cons] at hle
  omega

/-! ## The deque of a key -/

theorem timesOf_append_of_not {k : String} {earlier since : List (RateCall τ)}
    (h : ∀ x ∈ since, x.key ≠ k) : timesOf k (earlier ++ since) = timesOf k earlier := by
  have hnone : since.filter (fun c => c.key = k) = [] := by
    rw [List.filter_eq_nil_iff]
    intro x hx
    simpa using h x hx
  rw [timesOf, List.filter_append, hnone, List.append_nil, timesOf]

theorem timesOf_used {k : String} {earlier since : List (RateCall τ)} {c : RateCall τ}
    (hc : c.key = k) (h : ∀ x ∈ since, x.key ≠ k) :
    timesOf k (earlier ++ c :: since) = c.time :: timesOf k earlier := by
  rw [List.append_cons, timesOf_append_of_not h, ← hc, timesOf_snoc_self]

variable [LinearOrder τ]

/-- The times of the calls for one key come in order. -/
theorem timesOf_sorted {calls : List (RateCall τ)}
    (hmono : (calls.map RateCall.time).Pairwise (· ≤ ·)) (k : String) :
    (timesOf k calls).reverse.Pairwise (· ≤ ·) := by
  rw [timesOf, List.reverse_reverse]
  exact hmono.sublist (List.filter_sublist.map _)

theorem from_reverse (start : τ) (times : List τ) :
    from_ start times.reverse = (from_ start times).reverse := List.filter_reverse

variable [Ring τ]

/-- What the dictionary holds of `k` after `calls`. -/
inductive Tracks (k : String) (window : τ) (calls : List (RateCall τ)) (s : InMemoryStore τ) :
    Prop where
  | unused (hcalls : timesOf k calls = []) (hs : k ∉ s.keys)
  /-- `c` was the last call for `k`. -/
  | used (earlier : List (RateCall τ)) (c : RateCall τ) (since : List (RateCall τ))
      (hcalls : calls = earlier ++ c :: since) (hc : c.key = k) (hsince : ∀ x ∈ since, x.key ≠ k)
      (hs : s.Holds k ((from_ (c.time - window) (timesOf k earlier)).reverse ++ [c.time])
        (since.map RateCall.key).reverse)

variable [IsOrderedAddMonoid τ]

/-- **A call for `k` finds the calls for `k` in its window.** -/
theorem pruned_of_tracks {k : String} {calls : List (RateCall τ)} {s : InMemoryStore τ}
    {c : RateCall τ} (h : Tracks k (c.windowSeconds : τ) calls s) (hc : c.key = k)
    (hmono : ((calls ++ [c]).map RateCall.time).Pairwise (· ≤ ·)) :
    s.pruned c = (from_ (c.time - c.windowSeconds) (timesOf k calls)).reverse ++ [c.time] := by
  unfold InMemoryStore.pruned InMemoryStore.bucket
  rw [hc]
  cases h with
  | unused hcalls hs =>
      rw [Dict.get?_eq_none_iff.mpr hs, hcalls]
      rfl
  | used earlier last since hcalls hlast hsince hs =>
      rw [hs.get?, Option.getD_some, hcalls, timesOf_used hlast hsince]
      rw [List.map_append] at hmono
      obtain ⟨hbefore, _, hle⟩ := List.pairwise_append.mp hmono
      have hlastTime : last.time ≤ c.time := hle last.time (by rw [hcalls]; simp) c.time (by simp)
      -- what the last call left is in order, being part of all the times
      have hsorted : ((from_ (last.time - c.windowSeconds) (timesOf k earlier)).reverse
          ++ [last.time]).Pairwise (· ≤ ·) := by
        have hall := timesOf_sorted hbefore k
        rw [hcalls, timesOf_used hlast hsince, List.reverse_cons] at hall
        refine hall.sublist ((List.Sublist.reverse ?_).append (List.Sublist.refl _))
        exact List.filter_sublist
      rw [dropWhile_eq_from hsorted, ← List.reverse_cons, from_reverse]
      congr 2
      -- pruning twice is pruning once
      unfold from_
      rw [List.filter_cons, List.filter_cons]
      have htwice := from_from (sub_le_sub_right hlastTime (c.windowSeconds : τ)) (timesOf k earlier)
      unfold from_ at htwice
      rw [htwice]

theorem tracks_check {k : String} {limit windowSeconds : Int} {calls : List (RateCall τ)}
    {s : InMemoryStore τ} {c : RateCall τ} (h : Tracks k (windowSeconds : τ) calls s)
    (hfixed : c.key = k → c.limit = limit ∧ c.windowSeconds = windowSeconds)
    (hmono : ((calls ++ [c]).map RateCall.time).Pairwise (· ≤ ·))
    (hfew : FewSince k (calls ++ [c])) :
    Tracks k (windowSeconds : τ) (calls ++ [c]) (s.checkAndIncrement c).2 := by
  rw [checkAndIncrement_eq]
  by_cases hc : c.key = k
  · obtain ⟨_, hwindow⟩ := hfixed hc
    rw [← hwindow] at h ⊢
    rw [pruned_of_tracks h hc hmono, hc]
    -- the call itself is the last for `k` from now on
    exact .used calls c [] rfl hc (by simp) (Dict.holds_use_self ..)
  · cases h with
    | unused hcalls hs =>
        refine .unused (by rw [timesOf_snoc_of_ne calls hc, hcalls]) fun hk => ?_
        rcases Dict.mem_keys_use hk with hk | hk
        · exact hc hk.symm
        · exact hs hk
    | used earlier last since hcalls hlast hsince hs =>
        -- one more key since the last call for `k`, and still fewer than are tracked
        have hsince' : ∀ x ∈ since ++ [c], x.key ≠ k := by
          intro x hx
          rcases List.mem_append.mp hx with hx | hx
          · exact hsince x hx
          · rw [List.mem_singleton.mp hx]
            exact hc
        have hlater := hfew earlier last (since ++ [c]) [] (by rw [hcalls]; simp) hlast hsince'
        have hkeys : ((since ++ [c]).map RateCall.key).reverse
            = c.key :: (since.map RateCall.key).reverse := by simp
        rw [← (List.reverse_perm _).dedup.length_eq, hkeys] at hlater
        refine .used earlier last (since ++ [c]) (by rw [hcalls]; simp) hlast hsince' ?_
        rw [hkeys]
        exact hs.use hc hlater

/-- The store tracks `k` after any calls that leave it its place. -/
theorem tracks_answered {k : String} {limit windowSeconds : Int} {calls : List (RateCall τ)}
    (hmono : (calls.map RateCall.time).Pairwise (· ≤ ·))
    (hfixed : ∀ c ∈ calls, c.key = k → c.limit = limit ∧ c.windowSeconds = windowSeconds)
    (hfew : FewSince k calls) :
    Tracks k (windowSeconds : τ) calls
      (answered InMemoryStore.checkAndIncrement Dict.empty calls).1 := by
  induction calls using List.reverseRecOn with
  | nil => exact .unused rfl (by simp [answered, Dict.empty, Dict.keys])
  | append_singleton calls c ih =>
      have hbefore := times_init hmono
      rw [answered_snoc]
      exact tracks_check (ih hbefore (fun x hx => hfixed x (by simp [hx])) hfew.init)
        (hfixed c (by simp)) hmono hfew

/-- **The calls answered not limited are the admitted ones of a sliding window.** -/
theorem notLimited_eq_admitted {k : String} {limit windowSeconds : Int}
    {calls : List (RateCall τ)} (hmono : (calls.map RateCall.time).Pairwise (· ≤ ·))
    (hfixed : ∀ c ∈ calls, c.key = k → c.limit = limit ∧ c.windowSeconds = windowSeconds)
    (hfew : FewBetween k calls) :
    notLimited k (answered InMemoryStore.checkAndIncrement Dict.empty calls).2
      = admitted limit (windowSeconds : τ) (timesOf k calls) := by
  induction calls using List.reverseRecOn with
  | nil => rfl
  | append_singleton calls c ih =>
      have hbefore := times_init hmono
      have hfixed' : ∀ x ∈ calls, x.key = k → x.limit = limit ∧ x.windowSeconds = windowSeconds :=
        fun x hx => hfixed x (by simp [hx])
      have hlog := ih hbefore hfixed' hfew.init
      rw [answered_snoc]
      unfold notLimited at hlog ⊢
      by_cases hc : c.key = k
      · obtain ⟨hlimit, hwindow⟩ := hfixed c (by simp) hc
        have htracks := tracks_answered hbefore hfixed' (fewSince_of_fewBetween hfew hc)
        rw [← hwindow] at htracks
        have hpruned := pruned_of_tracks htracks hc hmono
        -- what the store counts is what the window counts
        have hcount : ((answered InMemoryStore.checkAndIncrement Dict.empty calls).1.pruned c).length
            = count (c.windowSeconds : τ) c.time (timesOf k calls) := by
          rw [hpruned, List.length_append, List.length_reverse, List.length_singleton, count]
        rw [checkAndIncrement_eq, hcount, ← hc, timesOf_snoc_self, admitted, hc]
        rw [← hwindow, ← hlimit] at hlog ⊢
        by_cases hadmit : (count (c.windowSeconds : τ) c.time (timesOf k calls) : Int) ≤ c.limit
        · rw [if_pos hadmit, List.filter_cons_of_pos (by simp [hc, rateAnswer, hadmit]),
            List.map_cons, hlog]
        · rw [if_neg hadmit, List.filter_cons_of_neg (by simp [rateAnswer]; omega), hlog]
      · rw [timesOf_snoc_of_ne calls hc, List.filter_cons_of_neg (by simp [hc]), hlog]

/--
**The in-memory sliding window is safe.**

For every run of calls at non-decreasing times and every key with a fixed limit and
window that keeps its place: in every closed interval as long as the window at most
`limit` calls for it are answered not limited.
-/
theorem inMemory_window_safe (calls : List (RateCall τ))
    (hmono : (calls.map RateCall.time).Pairwise (· ≤ ·)) (k : String) (limit windowSeconds : Int)
    (hfixed : ∀ c ∈ calls, c.key = k → c.limit = limit ∧ c.windowSeconds = windowSeconds)
    (hfew : FewBetween k calls) (a : τ) :
    ((notLimited k (answered InMemoryStore.checkAndIncrement Dict.empty calls).2).filter
      fun t => a ≤ t ∧ t ≤ a + windowSeconds).length ≤ limit.toNat := by
  rw [notLimited_eq_admitted hmono hfixed hfew]
  exact length_admitted_le limit (windowSeconds : τ) (timesOf k calls) a

/-- Three calls for one key within a minute, another key in between, and a limit of two. -/
def threeInAMinute : List (RateCall Int) :=
  [⟨0, "rate:general:203.0.113.7", 2, 60⟩, ⟨20, "rate:general:203.0.113.8", 2, 60⟩,
   ⟨30, "rate:general:203.0.113.7", 2, 60⟩, ⟨60, "rate:general:203.0.113.7", 2, 60⟩]

theorem window_safe_three_in_a_minute :
    ((notLimited "rate:general:203.0.113.7"
        (answered InMemoryStore.checkAndIncrement Dict.empty threeInAMinute).2).filter
      fun t => (0 : Int) ≤ t ∧ t ≤ 0 + (60 : Int)).length ≤ 2 := by
  refine inMemory_window_safe threeInAMinute (by decide) "rate:general:203.0.113.7" 2 60
    (by decide) (fewBetween_of_keys ?_ _) 0
  exact Nat.le_trans (List.dedup_sublist _).length_le (by decide)

end Microservices.Gateway
