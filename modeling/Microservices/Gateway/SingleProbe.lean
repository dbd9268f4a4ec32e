import Mathlib.Algebra.Order.Group.Int
import Microservices.Gateway.Dispatch

/-!
# How many calls a half-open breaker lets through

`is_open()` is the only question the proxy asks, and it is answered `False` in
`HALF_OPEN`. Nothing remembers that a probe is already out, so the number of
calls let through in one half-open window is the number of calls that *arrive*
in it.

A call that was let through before the window and goes on trying in it is not
counted: a retry never asks the breaker.

`windowProbes` reads the window off the ghost log. The invariant is that a window
is open exactly while the breaker sits in `HALF_OPEN`: reads open it, recorded
outcomes close it, and nothing else touches it.
-/

namespace Microservices.Gateway

open CircuitBreaker Schedule

variable {τ : Type}

/--
The calls let through since the breaker last became half-open, or `none` when an
outcome has been recorded since (the log is newest first).
-/
def windowProbes : List LogEntry → Option Nat
  | [] => none
  | .becameHalfOpen :: _ => some 0
  | .recorded _ :: _ => none
  | .admitted _ :: log => (windowProbes log).map (· + 1)
  | .rejected _ _ :: log => windowProbes log

/-- **At most one call is let through per half-open window**, and every other one gets a 503. -/
structure SingleProbe (w : World τ) : Prop where
  probes : ∀ k, windowProbes w.log = some k → k ≤ 1
  rejects : ∀ i e, LogEntry.rejected i e ∈ w.log → e.statusCode = 503

/-- No call reaches the breaker in a half-open window that has let one through. -/
def NoSecondArrival (w : World τ) : Event τ → Prop
  | .arrive _ _ => ∀ k, windowProbes w.log = some k → k = 0
  | _ => True

theorem rejection_status (name : String) (r : Route) : (rejection name r).statusCode = 503 := by
  cases r <;> rfl

/-- The log and the breaker agree on whether a half-open window is open. -/
def WindowAgrees (w : World τ) : Prop :=
  (windowProbes w.log).isSome ↔ w.breaker.state_ = .halfOpen

theorem windowAgrees_init (name : String) (threshold : Nat) (timeout now : τ) :
    WindowAgrees (World.init name threshold timeout now) := by
  simp [WindowAgrees, World.init, windowProbes]

theorem windowAgrees_record (w : World τ) (o : Outcome) : WindowAgrees (w.record o) := by
  unfold WindowAgrees
  cases o with
  | success => simp [World.record, windowProbes]
  | failure =>
      simp only [World.record, windowProbes, Option.isSome_none, Bool.false_eq_true, false_iff]
      exact recordFailure_ne_halfOpen w.breaker w.now

theorem singleProbe_init (name : String) (threshold : Nat) (timeout now : τ) :
    SingleProbe (World.init name threshold timeout now) where
  probes := by intro k hk; cases hk
  rejects := by intro i e he; simp [World.init] at he

theorem singleProbe_record {w : World τ} (h : SingleProbe w) (o : Outcome) :
    SingleProbe (w.record o) where
  probes := by intro k hk; cases o <;> cases hk
  rejects := by
    intro i e he
    refine h.rejects i e ?_
    cases o <;> simpa [World.record] using he

variable [LinearOrder τ] [AddCommGroup τ]

/-! ## The window is open exactly while the breaker is half-open -/

theorem windowAgrees_observe {w : World τ} (h : WindowAgrees w) : WindowAgrees w.observe := by
  unfold WindowAgrees World.observe at *
  rcases observe_cases w.breaker w.now with ⟨hr, he⟩ | ⟨hr, he⟩
  · rw [he, if_pos hr]; simp [windowProbes]
  · rw [he, if_neg hr]; exact h

theorem windowAgrees_arrive {w : World τ} (h : WindowAgrees w) (i : Nat) (r : Route) :
    WindowAgrees (w.arrive i r) := by
  obtain ⟨hb, ⟨_, hl⟩ | ⟨_, hl⟩⟩ := arrive_cases w i r
  · have := windowAgrees_observe h
    unfold WindowAgrees at *
    rw [hb, hl]; simpa [windowProbes] using this
  · have := windowAgrees_observe h
    unfold WindowAgrees at *
    rw [hb, hl]; simpa [windowProbes] using this

theorem windowAgrees_touch {w w' : World τ} {o : Option Outcome} (h : WindowAgrees w)
    (ht : Touch w w' o) : WindowAgrees w' := by
  cases ht with
  | quiet hb hl _ => unfold WindowAgrees at *; rw [hb, hl]; exact h
  | read hb hl _ =>
      have := windowAgrees_observe h
      unfold WindowAgrees at *; rw [hb, hl]; exact this
  | outcome o hb hl _ =>
      have := windowAgrees_record w o
      unfold WindowAgrees at *; rw [hb, hl]; exact this

theorem windowAgrees_step {w w' : World τ} {e : Event τ} (h : WindowAgrees w)
    (hs : step w e = some w') : WindowAgrees w' := by
  rcases step_cases hs with ⟨i, r, _, rfl⟩ | ⟨_, ht⟩
  · exact windowAgrees_arrive h i r
  · exact windowAgrees_touch h ht

/-! ## Counting the probes -/

/-- A read starts a window at zero or leaves the count alone. -/
theorem windowProbes_observe (w : World τ) :
    windowProbes w.observe.log = windowProbes w.log
      ∨ (w.breaker.recovered w.now ∧ windowProbes w.observe.log = some 0) := by
  unfold World.observe
  by_cases hr : w.breaker.recovered w.now
  · right; simp [hr, windowProbes]
  · left; simp [hr]

theorem singleProbe_observe {w : World τ} (h : SingleProbe w) : SingleProbe w.observe where
  probes := by
    intro k hk
    rcases windowProbes_observe w with he | ⟨_, he⟩
    · exact h.probes k (he ▸ hk)
    · rw [he] at hk; cases hk; omega
  rejects := by
    intro i e he
    refine h.rejects i e ?_
    unfold World.observe at he
    dsimp only at he
    split at he
    · simpa using he
    · exact he

/--
An arrival keeps the bound exactly when the window it lands in, if any, is still
empty.
-/
theorem singleProbe_arrive {w : World τ} (ha : WindowAgrees w) (h : SingleProbe w) (i : Nat)
    (r : Route) :
    SingleProbe (w.arrive i r) ↔ ∀ k, windowProbes w.log = some k → k = 0 := by
  have hobs := singleProbe_observe h
  obtain ⟨hb, ⟨ho, hl⟩ | ⟨ho, hl⟩⟩ := arrive_cases w i r
  · -- the breaker is open, so no window is, before the arrival or after it
    constructor
    · intro _ k hk
      have hhalf : w.breaker.state_ = .halfOpen := ha.mp (by rw [hk]; rfl)
      have : w.observe.breaker.state_ = .halfOpen := by
        rw [World.observe]; dsimp only; rw [observe_of_halfOpen hhalf]; exact hhalf
      rw [this] at ho; exact CircuitState.noConfusion ho
    · intro _
      refine ⟨fun k hk => hobs.probes k (by rw [hl] at hk; exact hk), fun j e he => ?_⟩
      rw [hl] at he
      rcases List.mem_cons.mp he with h1 | h1
      · cases h1; exact rejection_status _ r
      · exact hobs.rejects j e h1
  · -- the call is let through: the window count, if there is one, goes up by one
    have hcount : windowProbes (w.arrive i r).log = (windowProbes w.observe.log).map (· + 1) := by
      rw [hl]; rfl
    constructor
    · intro hs k hk
      have hhalf : w.breaker.state_ = .halfOpen := ha.mp (by rw [hk]; rfl)
      rcases windowProbes_observe w with he | ⟨⟨hopen, _⟩, _⟩
      · have hk' : windowProbes (w.arrive i r).log = some (k + 1) := by rw [hcount, he, hk]; rfl
        have := hs.probes (k + 1) hk'
        omega
      · rw [hhalf] at hopen; exact CircuitState.noConfusion hopen
    · intro hz
      refine ⟨fun k hk => ?_, fun j e he => ?_⟩
      · rw [hcount] at hk
        obtain ⟨m, hm, rfl⟩ := Option.map_eq_some_iff.mp hk
        rcases windowProbes_observe w with he | ⟨_, he⟩
        · have := hz m (he ▸ hm); omega
        · rw [he] at hm; cases hm; omega
      · rw [hl] at he
        exact hobs.rejects j e (by simpa using he)

theorem singleProbe_touch {w w' : World τ} {o : Option Outcome} (h : SingleProbe w)
    (ht : Touch w w' o) :
    SingleProbe w' := by
  cases ht with
  | quiet hb hl _ => exact ⟨by rw [hl]; exact h.probes, by rw [hl]; exact h.rejects⟩
  | read hb hl _ =>
      have := singleProbe_observe h
      exact ⟨by rw [hl]; exact this.probes, by rw [hl]; exact this.rejects⟩
  | outcome o hb hl _ =>
      have := singleProbe_record h o
      exact ⟨by rw [hl]; exact this.probes, by rw [hl]; exact this.rejects⟩

/--
**One probe per window, exactly when nobody else asks.**

For every schedule of calls to one upstream, every threshold, timeout and
non-decreasing clock: each half-open window lets at most one call through and
turns the rest away with a 503 if and only if no call arrives in a window that
has let one through already.
-/
theorem halfOpen_single_probe_iff (name : String) (threshold : Nat) (timeout now : τ)
    (es : List (Event τ)) :
    Always step SingleProbe (World.init name threshold timeout now) es
      ↔ Meets step NoSecondArrival (World.init name threshold timeout now) es := by
  refine always_iff_meets (I := fun w => WindowAgrees w ∧ SingleProbe w)
    (fun w h => h.2) ?_ ?_ ⟨windowAgrees_init _ _ _ _, singleProbe_init _ _ _ _⟩
  · rintro w e w' ⟨ha, hp⟩ hc hs
    refine ⟨windowAgrees_step ha hs, ?_⟩
    rcases step_cases hs with ⟨i, r, rfl, rfl⟩ | ⟨_, ht⟩
    · exact (singleProbe_arrive ha hp i r).mpr hc
    · exact singleProbe_touch hp ht
  · rintro w e w' ⟨ha, hp⟩ hs hp'
    rcases step_cases hs with ⟨i, r, rfl, rfl⟩ | ⟨hne, _⟩
    · exact (singleProbe_arrive ha hp i r).mp hp'
    · cases e with
      | arrive i r => exact absurd rfl (hne i r)
      | _ => trivial

/-- Five failed posts open the circuit; after 30 s two more calls arrive together. -/
def twoProbes : List (Event Int) :=
  [.arrive 0 (.buffered false), .reply 0 (.raised .connectError),
   .arrive 1 (.buffered false), .reply 1 (.raised .connectError),
   .arrive 2 (.buffered false), .reply 2 (.raised .connectError),
   .arrive 3 (.buffered false), .reply 3 (.raised .connectError),
   .arrive 4 (.buffered false), .reply 4 (.raised .connectError),
   .tick 30, .arrive 5 (.buffered true), .arrive 6 .sse]

/-- **Two calls are let through in one half-open window.** -/
theorem halfOpen_admits_two :
    ∃ w, exec step (World.init "task-service" 5 (30 : Int) 0) twoProbes = some w
      ∧ windowProbes w.log = some 2 ∧ ¬ SingleProbe w := by
  refine ⟨_, rfl, rfl, fun h => ?_⟩
  have := h.probes 2 rfl
  omega

end Microservices.Gateway
