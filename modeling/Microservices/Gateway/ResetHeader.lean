import Mathlib.Algebra.Order.Floor.Ring
import Mathlib.Data.Rat.Floor
import Microservices.Gateway.Paths
import Microservices.Gateway.RateStores

/-!
# What the reset header promises

A 429 names a time to come back at: `Retry-After` seconds later, or the wall clock
second `X-RateLimit-Reset`. The header is the second the request came in, cut down to
a whole one, and the window; the store prunes by the fractional clock, and keeps what
is exactly a window old. So a client that comes back on the dot can find the calls of
the last second still counted, its refused one among them.

The wall clock is `offset` ahead of the monotonic one, throughout.
-/

namespace Microservices.Gateway

open SlidingWindow

variable {τ : Type} [LinearOrder τ]

/-! ## The deques stay in order -/

/-- Every deque is in order, and holds no time past `now`. -/
def Ordered (now : τ) (s : InMemoryStore τ) : Prop := ∀ k, (s.bucket k ++ [now]).Pairwise (· ≤ ·)

theorem Ordered.le {now : τ} {s : InMemoryStore τ} (h : Ordered now s) {k : String} {t : τ}
    (ht : t ∈ s.bucket k) : t ≤ now :=
  (List.pairwise_append.mp (h k)).2.2 t ht now (List.mem_singleton_self _)

theorem Ordered.sorted {now : τ} {s : InMemoryStore τ} (h : Ordered now s) (k : String) :
    (s.bucket k).Pairwise (· ≤ ·) :=
  (List.pairwise_append.mp (h k)).1

theorem pairwise_snoc {times : List τ} {now : τ} (h : times.Pairwise (· ≤ ·))
    (hle : ∀ t ∈ times, t ≤ now) : (times ++ [now]).Pairwise (· ≤ ·) :=
  List.pairwise_append.mpr ⟨h, List.pairwise_singleton _ _, fun t ht u hu => by
    rw [List.mem_singleton.mp hu]
    exact hle t ht⟩

theorem Ordered.mono {now later : τ} {s : InMemoryStore τ} (h : Ordered now s) (hle : now ≤ later) :
    Ordered later s :=
  fun k => pairwise_snoc (h.sorted k) fun _ ht => le_trans (h.le ht) hle

variable [Ring τ]

theorem bucket_check_self (s : InMemoryStore τ) (c : RateCall τ) :
    (s.checkAndIncrement c).2.bucket c.key = s.pruned c := by
  rw [checkAndIncrement_eq, InMemoryStore.bucket, Dict.get?_use_self]
  rfl

/-- A call for another key leaves the deque, or pushes it out. -/
theorem bucket_check_of_ne (s : InMemoryStore τ) {c : RateCall τ} {k : String} (h : c.key ≠ k) :
    (s.checkAndIncrement c).2.bucket k = s.bucket k ∨ (s.checkAndIncrement c).2.bucket k = [] := by
  rw [checkAndIncrement_eq]
  unfold InMemoryStore.bucket
  dsimp only
  cases hk : (s.use maxTrackedIps c.key (s.pruned c)).get? k with
  | none => exact Or.inr rfl
  | some bucket =>
      rw [Dict.get?_of_get?_use h.symm hk]
      exact Or.inl rfl

theorem bucket_answered_of_ne (s : InMemoryStore τ) {k : String} {between : List (RateCall τ)}
    (h : ∀ x ∈ between, x.key ≠ k) :
    (answered InMemoryStore.checkAndIncrement s between).1.bucket k = s.bucket k
      ∨ (answered InMemoryStore.checkAndIncrement s between).1.bucket k = [] := by
  induction between using List.reverseRecOn with
  | nil => exact Or.inl rfl
  | append_singleton between c ih =>
      rw [answered_snoc]
      have hbefore := ih fun x hx => h x (List.mem_append_left _ hx)
      rcases bucket_check_of_ne (answered InMemoryStore.checkAndIncrement s between).1
        (h c (by simp)) with hc | hc
      · rw [hc]
        exact hbefore
      · exact Or.inr hc

theorem ordered_check {now : τ} {s : InMemoryStore τ} (h : Ordered now s) {c : RateCall τ}
    (hle : now ≤ c.time) : Ordered c.time (s.checkAndIncrement c).2 := by
  have hsorted := h.mono hle
  intro k
  by_cases hk : c.key = k
  · subst hk
    rw [bucket_check_self]
    -- what pruning leaves is in order, and the call comes last
    refine pairwise_snoc ((hsorted c.key).sublist ?_) fun t ht => ?_
    · exact (List.dropWhile_sublist _).append_right _
    · rcases List.mem_append.mp ht with ht | ht
      · exact hsorted.le ((List.dropWhile_sublist _).subset ht)
      · exact (List.mem_singleton.mp ht).le
  · rcases bucket_check_of_ne s hk with hb | hb
    · rw [hb]
      exact hsorted k
    · rw [hb]
      exact List.pairwise_singleton _ _

/-- Calls at non-decreasing times keep the deques in order. -/
theorem ordered_answered {s : InMemoryStore τ} {start now : τ} {calls : List (RateCall τ)}
    (h : Ordered start s)
    (hmono : (start :: (calls.map RateCall.time ++ [now])).Pairwise (· ≤ ·)) :
    Ordered now (answered InMemoryStore.checkAndIncrement s calls).1 := by
  induction calls using List.reverseRecOn generalizing now with
  | nil => exact h.mono (List.rel_of_pairwise_cons hmono (by simp))
  | append_singleton calls c ih =>
      rw [List.map_append, ← List.cons_append] at hmono
      obtain ⟨hcalls, _, hle⟩ := List.pairwise_append.mp hmono
      rw [answered_snoc]
      exact (ordered_check (ih hcalls) (le_refl c.time)).mono (hle c.time (by simp) now (by simp))

theorem ordered_answered_empty {now : τ} {calls : List (RateCall τ)}
    (hmono : (calls.map RateCall.time ++ [now]).Pairwise (· ≤ ·)) :
    Ordered now (answered InMemoryStore.checkAndIncrement Dict.empty calls).1 := by
  have hempty : ∀ start : τ, Ordered start Dict.empty := fun _ _ => List.pairwise_singleton _ _
  cases calls with
  | nil => exact hempty now
  | cons first calls =>
      -- the first call can be taken for the start
      refine ordered_answered (hempty first.time) (List.pairwise_cons.mpr ⟨?_, hmono⟩)
      intro t ht
      rcases List.mem_cons.mp ht with rfl | ht
      · exact le_refl _
      · exact List.rel_of_pairwise_cons hmono ht

/-- What a call counts of a deque in order: the times in its window, and itself. -/
theorem notLimited_iff {now : τ} {s : InMemoryStore τ} (h : Ordered now s) (c : RateCall τ) :
    (s.checkAndIncrement c).1.1 = false
      ↔ ((from_ (c.time - c.windowSeconds) (s.bucket c.key)).length : Int) < c.limit := by
  rw [checkAndIncrement_eq, InMemoryStore.pruned, dropWhile_eq_from (h.sorted c.key)]
  simp only [rateAnswer, decide_eq_false_iff_not, List.length_append, List.length_singleton]
  omega

/-! ## The reset -/

variable [FloorRing τ]

/-- `int(t)` of a time. -/
def wholeSeconds (t : τ) : Int := if 0 ≤ t then ⌊t⌋ else ⌈t⌉

/-- `reset_ts` of a request that reads the clock at `asked`. -/
def resetTs (offset asked : τ) (windowSeconds : Int) : Int :=
  wholeSeconds (asked + offset) + windowSeconds

/-- The two headers of a 429. -/
theorem limit_advertises {l : RateLimiter} {isOver : String → Int → Bool}
    {offset asked : τ} {path clientIp : String} {userId : Option String} {e : HTTPException}
    (h : (l.limit isOver (wholeSeconds (asked + offset)) path clientIp userId).2 = some e) :
    ("Retry-After", toString l.windowSeconds) ∈ e.headers
      ∧ ("X-RateLimit-Reset", toString (resetTs offset asked l.windowSeconds)) ∈ e.headers := by
  unfold RateLimiter.limit at h
  by_cases hpath : path ∈ exemptPaths
  · rw [if_pos hpath] at h
    cases h
  · rw [if_neg hpath] at h
    obtain ⟨_, he⟩ := Option.ite_none_right_eq_some.mp h
    cases he
    exact ⟨by simp, by simp [resetTs]⟩

/--
Coming back for the key as either header says is enough: whatever is asked for other
keys in between, `c` again, at the time of the reset or later, or a window later or
more, is not limited.
-/
def ResetSuffices (offset asked : τ) (s : InMemoryStore τ) (c : RateCall τ) : Prop :=
  ∀ (between : List (RateCall τ)) (time : τ), (∀ x ∈ between, x.key ≠ c.key) →
    (c.time :: (between.map RateCall.time ++ [time])).Pairwise (· ≤ ·) →
    ((resetTs offset asked c.windowSeconds : τ) ≤ time + offset
      ∨ c.time + c.windowSeconds ≤ time) →
    ((answered InMemoryStore.checkAndIncrement (s.checkAndIncrement c).2 between).1.checkAndIncrement
      { c with time := time }).1.1 = false

/-- The earliest call that is still counted at the earliest return: the start of the second the
reset was read in, if that is within the window and not past the call. -/
def stillCounted (offset asked : τ) (c : RateCall τ) : τ :=
  max (c.time - c.windowSeconds) (min (wholeSeconds (asked + offset) - offset) c.time)

/-- What the call itself leaves of the deque is no different from `stillCounted` on. -/
theorem from_stillCounted {now : τ} {s : InMemoryStore τ} (h : Ordered now s) (offset asked : τ)
    (c : RateCall τ) :
    from_ (stillCounted offset asked c) (s.pruned c)
      = from_ (stillCounted offset asked c) (s.bucket c.key ++ [c.time]) := by
  rw [InMemoryStore.pruned, dropWhile_eq_from (h.sorted c.key)]
  have htwice := from_from (le_max_left (c.time - c.windowSeconds)
    (min ((wholeSeconds (asked + offset) : τ) - offset) c.time)) (s.bucket c.key)
  unfold from_ at htwice ⊢
  rw [List.filter_append, List.filter_append, stillCounted, htwice]

variable [IsOrderedAddMonoid τ]

theorem resetTs_le_iff {offset asked time : τ} {windowSeconds : Int} :
    (resetTs offset asked windowSeconds : τ) ≤ time + offset
      ↔ (wholeSeconds (asked + offset) : τ) - offset ≤ time - windowSeconds := by
  rw [resetTs, Int.cast_add, sub_le_iff_le_add, sub_add_eq_add_sub, le_sub_iff_add_le]

/-- Whoever comes back as told counts nothing from before `stillCounted`. -/
theorem stillCounted_le {offset asked time : τ} {c : RateCall τ} (hle : c.time ≤ time)
    (htold : (resetTs offset asked c.windowSeconds : τ) ≤ time + offset
      ∨ c.time + c.windowSeconds ≤ time) :
    stillCounted offset asked c ≤ time - c.windowSeconds := by
  refine max_le (sub_le_sub_right hle _) ?_
  rcases htold with hreset | hafter
  · exact le_trans (min_le_left _ _) (resetTs_le_iff.mp hreset)
  · exact le_trans (min_le_right _ _) (le_sub_iff_add_le.mpr hafter)

/-- Coming back a window after `stillCounted` is coming back as told. -/
theorem told_stillCounted (offset asked : τ) (c : RateCall τ) :
    (resetTs offset asked c.windowSeconds : τ)
        ≤ stillCounted offset asked c + c.windowSeconds + offset
      ∨ c.time + c.windowSeconds ≤ stillCounted offset asked c + c.windowSeconds := by
  have hmin : min ((wholeSeconds (asked + offset) : τ) - offset) c.time
      ≤ stillCounted offset asked c := le_max_right _ _
  rcases min_choice ((wholeSeconds (asked + offset) : τ) - offset) c.time with h | h
  · left
    rw [h] at hmin
    rw [resetTs_le_iff, add_sub_cancel_right]
    exact hmin
  · right
    rw [h] at hmin
    exact add_le_add_left hmin _

/--
**When obeying the reset is enough.**

After any calls at non-decreasing times, and for a call of any limit and window whose
header was made no later: coming back as the headers say is enough exactly if, of the
times held for the key and the call's own, fewer than the limit are at or after
`stillCounted`.
-/
theorem reset_suffices_iff (before : List (RateCall τ)) (c : RateCall τ) (offset asked : τ)
    (hmono : ((before ++ [c]).map RateCall.time).Pairwise (· ≤ ·)) :
    ResetSuffices offset asked (answered InMemoryStore.checkAndIncrement Dict.empty before).1 c
      ↔ ((from_ (stillCounted offset asked c)
            ((answered InMemoryStore.checkAndIncrement Dict.empty before).1.bucket c.key
              ++ [c.time])).length : Int) < c.limit := by
  rw [List.map_append] at hmono
  have hbefore := ordered_answered_empty hmono
  have hafter := ordered_check hbefore (le_refl c.time)
  rw [← from_stillCounted hbefore, ← bucket_check_self]
  constructor
  · intro h
    -- come back at the earliest time there is, with nothing in between
    have hle : c.time ≤ stillCounted offset asked c + c.windowSeconds :=
      sub_le_iff_le_add.mp (le_max_left _ _)
    have hreturn := h [] (stillCounted offset asked c + c.windowSeconds) (by simp)
      (by simpa using hle) (told_stillCounted offset asked c)
    rw [answered, List.foldl_nil, notLimited_iff (hafter.mono hle), add_sub_cancel_right] at hreturn
    exact hreturn
  · intro h between time hother hordered htold
    have hle : c.time ≤ time := List.rel_of_pairwise_cons hordered (by simp)
    rw [notLimited_iff (ordered_answered hafter hordered)]
    refine lt_of_le_of_lt (Int.ofNat_le.mpr ?_) h
    -- calls for other keys have left the deque, or pushed it out
    rcases bucket_answered_of_ne _ hother with hb | hb
    · rw [hb]
      exact length_from_le (stillCounted_le hle htold) _
    · rw [hb]
      exact Nat.zero_le _

/-- Two calls in the first minute, and the call that is one too many. -/
def twoEarly : List (RateCall ℚ) :=
  [⟨1, "rate:general:203.0.113.7", 2, 60⟩, ⟨20, "rate:general:203.0.113.7", 2, 60⟩]

def refusedLate : RateCall ℚ := ⟨40, "rate:general:203.0.113.7", 2, 60⟩

theorem refusedLate_suffices :
    ((answered InMemoryStore.checkAndIncrement Dict.empty twoEarly).1.checkAndIncrement
        refusedLate).1.1 = true
      ∧ ResetSuffices (1700000000 : ℚ) 40
          (answered InMemoryStore.checkAndIncrement Dict.empty twoEarly).1 refusedLate :=
  ⟨by decide +kernel,
   (reset_suffices_iff twoEarly refusedLate 1700000000 40 (by decide +kernel)).mpr
    (by decide +kernel)⟩

/-- Three calls within a fifth of a second, of which the last is refused. -/
def twoAtOnce : List (RateCall ℚ) :=
  [⟨51 / 10, "rate:general:203.0.113.7", 2, 60⟩, ⟨52 / 10, "rate:general:203.0.113.7", 2, 60⟩]

def refusedAtOnce : RateCall ℚ := ⟨53 / 10, "rate:general:203.0.113.7", 2, 60⟩

/-- The limiter that refuses it. -/
def twoAMinute : RateLimiter :=
  { maxRequests := 2, windowSeconds := 60, authMaxRequests := 10, userMaxRequests := 300 }

/-- The header says 1700000065, and at 1700000065 all three are still counted. -/
theorem reset_too_early :
    1 ≤ refusedAtOnce.limit
      ∧ (∃ e, (twoAMinute.limit (fun _ _ => true) (wholeSeconds ((53 / 10 : ℚ) + 1700000000))
            "/api/v1/tasks" "203.0.113.7" none).2 = some e
          ∧ ("X-RateLimit-Reset", toString (resetTs (1700000000 : ℚ) (53 / 10) 60)) ∈ e.headers)
      ∧ ((answered InMemoryStore.checkAndIncrement Dict.empty twoAtOnce).1.checkAndIncrement
          refusedAtOnce).1.1 = true
      ∧ resetTs (1700000000 : ℚ) (53 / 10) 60 = 1700000065
      ∧ ¬ ResetSuffices (1700000000 : ℚ) (53 / 10)
          (answered InMemoryStore.checkAndIncrement Dict.empty twoAtOnce).1 refusedAtOnce := by
  have hrefused : ((twoAMinute.limit (fun _ _ => true)
      (wholeSeconds ((53 / 10 : ℚ) + 1700000000)) "/api/v1/tasks" "203.0.113.7" none).2).isSome := by
    decide +kernel
  obtain ⟨e, he⟩ := Option.isSome_iff_exists.mp hrefused
  refine ⟨by decide, ⟨e, he, (limit_advertises he).2⟩, by decide +kernel, by decide +kernel,
    fun h => ?_⟩
  have hback := h [] 65 (by simp) (by decide +kernel) (Or.inl (by decide +kernel))
  exact absurd hback (by decide +kernel)

end Microservices.Gateway
