import Mathlib.Algebra.Order.Group.Int
import Microservices.Gateway.Dispatch

/-!
# The edges a breaker moves along

`circuit_breaker.py` draws four edges. A call reports its outcome in whatever
state the breaker is by then, and `record_success` closes it from any: a success
of a call that was let through before the circuit opened takes it from `OPEN` to
`CLOSED`, which is none of the four.

A breaker is in the state a read would find it in. Nobody has to read it for the
recovery window to elapse, so the clock alone moves it from `OPEN` to `HALF_OPEN`.
-/

namespace Microservices.Gateway

open CircuitBreaker Schedule

/-- The documented edges, and staying put; `elapsed` guards the way out of `OPEN`. -/
inductive Edge (elapsed : Prop) : CircuitState → CircuitState → Prop where
  | stays (s : CircuitState) : Edge elapsed s s
  | trips : Edge elapsed .closed .opened
  | recovers : elapsed → Edge elapsed .opened .halfOpen
  | probeSucceeds : Edge elapsed .halfOpen .closed
  | probeFails : Edge elapsed .halfOpen .opened

variable {τ : Type} [LinearOrder τ] [AddCommGroup τ]

/-- The state a read would find. -/
def World.state (w : World τ) : CircuitState := (w.breaker.state w.now).1

/-- The recovery timeout has passed since the last failure. -/
def World.Elapsed (w : World τ) : Prop :=
  ∃ t, w.breaker.lastFailureTime = some t ∧ w.breaker.recoveryTimeout ≤ w.now - t

/-- From `w` to `w'` the breaker has kept its state or moved along a documented edge. -/
def DocumentedMove (w w' : World τ) : Prop := Edge w'.Elapsed w.state w'.state

/-- No success is recorded while the breaker is open. -/
def NoSuccessWhileOpen (w : World τ) (e : Event τ) : Prop :=
  w.outcome e = some .success → w.state ≠ .opened

instance (w : World τ) (e : Event τ) : Decidable (NoSuccessWhileOpen w e) :=
  inferInstanceAs (Decidable (_ → _))

/-! ## What a step does to the breaker -/

/-- The breaker and the clock after a step. -/
inductive Move (w w' : World τ) : Option Outcome → Prop where
  | clock (hb : w'.breaker = w.breaker) (ht : w.now ≤ w'.now) : Move w w' none
  | read (hb : w'.breaker = w.breaker.observe w.now) (ht : w'.now = w.now) : Move w w' none
  | outcome (o : Outcome) (hb : w'.breaker = (w.record o).breaker) (ht : w'.now = w.now) :
      Move w w' (some o)

theorem Touch.move {w w' : World τ} {o : Option Outcome} (h : Touch w w' o) : Move w w' o := by
  cases h with
  | quiet hb _ ht => exact .clock hb ht
  | read hb _ ht => exact .read hb ht
  | outcome o hb _ ht => exact .outcome o hb ht

theorem step_move {w w' : World τ} {e : Event τ} (h : step w e = some w') :
    Move w w' (w.outcome e) := by
  rcases step_cases h with ⟨i, r, rfl, rfl⟩ | ⟨_, ht⟩
  · -- an arrival reads the breaker and records nothing
    exact .read (arrive_cases w i r).1 (arrive_now w i r)
  · exact ht.move

/-- No step changes the timeout. -/
theorem step_recoveryTimeout {w w' : World τ} {e : Event τ} (h : step w e = some w') :
    w'.breaker.recoveryTimeout = w.breaker.recoveryTimeout := by
  have hmove := step_move h
  revert hmove
  cases w.outcome e with
  | none =>
      intro hmove
      cases hmove with
      | clock hb _ => rw [hb]
      | read hb _ =>
          rw [hb]
          rcases observe_cases w.breaker w.now with ⟨_, he⟩ | ⟨_, he⟩
          · rw [he]
          · rw [he]
  | some o =>
      intro hmove
      cases hmove with
      | outcome _ hb _ =>
          rw [hb]
          cases o <;> rfl

/-! ## Where the state goes -/

/-- A read finds the state a read before it, at the same time, has left. -/
theorem observe_observe (b : CircuitBreaker τ) (now : τ) :
    (b.observe now).observe now = b.observe now := by
  rcases observe_cases b now with ⟨_, he⟩ | ⟨_, he⟩
  · exact observe_of_halfOpen (by rw [he]) now
  · rw [he, he]

/-- The state after a success is `CLOSED`. -/
theorem state_success {w w' : World τ} (hb : w'.breaker = w.breaker.recordSuccess) :
    w'.state = .closed := by
  show (w'.breaker.observe w'.now).state_ = .closed
  have hs : w'.breaker.state_ = .closed := by rw [hb, recordSuccess_state]
  rcases observe_cases w'.breaker w'.now with ⟨⟨ho, _⟩, _⟩ | ⟨_, he⟩
  · rw [hs] at ho; cases ho
  · rw [he, hs]

/-- Just after a failure no recovery window has elapsed: a read finds the flag as it is. -/
theorem state_failure {w w' : World τ} (htimeout : 0 < w.breaker.recoveryTimeout)
    (hb : w'.breaker = w.breaker.recordFailure w.now) (ht : w'.now = w.now) :
    w'.state = (w.breaker.recordFailure w.now).state_ := by
  show (w'.breaker.observe w'.now).state_ = _
  rw [hb, ht]
  rcases observe_cases (w.breaker.recordFailure w.now) w.now with ⟨⟨_, t, hl, hle⟩, _⟩ | ⟨_, he⟩
  · -- the window would have to be elapsed at its very beginning
    cases hl
    rw [sub_self] at hle
    exact absurd htimeout (not_lt_of_ge hle)
  · rw [he]

theorem edge_failure {w : World τ} (elapsed : Prop) :
    Edge elapsed w.state (w.breaker.recordFailure w.now).state_ := by
  show Edge elapsed (w.breaker.observe w.now).state_ _
  unfold CircuitBreaker.recordFailure
  dsimp only
  rcases observe_cases w.breaker w.now with ⟨⟨ho, _⟩, he⟩ | ⟨_, he⟩
  · -- the window has elapsed unread: the flag still says `OPEN`, and goes on saying it
    rw [he, if_neg (by rw [ho]; exact CircuitState.noConfusion), ho, ite_self]
    exact .probeFails
  · rw [he]
    cases hs : w.breaker.state_ with
    | closed =>
        rw [if_neg CircuitState.noConfusion]
        split
        · exact .trips
        · exact .stays _
    | opened =>
        rw [if_neg CircuitState.noConfusion, ite_self]
        exact .stays _
    | halfOpen =>
        rw [if_pos rfl]
        exact .probeFails

theorem edge_success_iff {s : CircuitState} (elapsed : Prop) :
    Edge elapsed s .closed ↔ s ≠ .opened := by
  constructor
  · intro h
    cases h with
    | stays => exact CircuitState.noConfusion
    | probeSucceeds => exact CircuitState.noConfusion
  · intro h
    cases s with
    | closed => exact .stays _
    | opened => exact absurd rfl h
    | halfOpen => exact .probeSucceeds

variable [IsOrderedAddMonoid τ]

/-- The clock may end the recovery window, and does nothing else. -/
theorem edge_clock {w w' : World τ} (hb : w'.breaker = w.breaker) (ht : w.now ≤ w'.now) :
    DocumentedMove w w' := by
  show Edge _ (w.breaker.observe w.now).state_ (w'.breaker.observe w'.now).state_
  unfold World.Elapsed
  rw [hb]
  rcases observe_cases w.breaker w.now with ⟨⟨ho, t, hl, hle⟩, he⟩ | ⟨hn, he⟩
  · -- it had elapsed before, and still has
    have hrec : w.breaker.recovered w'.now :=
      ⟨ho, t, hl, le_trans hle (sub_le_sub_right ht t)⟩
    rcases observe_cases w.breaker w'.now with ⟨_, he'⟩ | ⟨hn', _⟩
    · rw [he, he']; exact .stays _
    · exact absurd hrec hn'
  · rcases observe_cases w.breaker w'.now with ⟨⟨ho, helapsed⟩, he'⟩ | ⟨_, he'⟩
    · rw [he, he', ho]; exact .recovers helapsed
    · rw [he, he']; exact .stays _

/-- **A step moves along a documented edge iff it records no success while the breaker is open.** -/
theorem documentedMove_iff {w w' : World τ} {e : Event τ}
    (htimeout : 0 < w.breaker.recoveryTimeout) (h : step w e = some w') :
    DocumentedMove w w' ↔ NoSuccessWhileOpen w e := by
  have hmove := step_move h
  unfold NoSuccessWhileOpen
  revert hmove
  cases w.outcome e with
  | none =>
      intro hmove
      refine iff_of_true ?_ (by intro ho; cases ho)
      cases hmove with
      | clock hb ht => exact edge_clock hb ht
      | read hb ht =>
          -- the state is what a read would find, so reading it does not move it
          show Edge _ (w.breaker.observe w.now).state_ (w'.breaker.observe w'.now).state_
          rw [hb, ht, observe_observe]
          exact .stays _
  | some o =>
      intro hmove
      cases hmove with
      | outcome _ hb ht =>
          cases o with
          | success =>
              rw [DocumentedMove, state_success hb, edge_success_iff]
              exact ⟨fun hne _ => hne, fun hne => hne rfl⟩
          | failure =>
              refine iff_of_true ?_ (by intro ho; cases ho)
              rw [DocumentedMove, state_failure htimeout hb ht]
              exact edge_failure _

/--
**The breaker moves along its documented edges exactly when nobody succeeds while it is open.**

For every schedule of calls to one upstream, every threshold and positive timeout
and every non-decreasing clock.
-/
theorem documented_edges_iff (name : String) (threshold : Nat) (timeout now : τ)
    (htimeout : 0 < timeout) (es : List (Event τ)) :
    Steps step DocumentedMove (World.init name threshold timeout now) es
      ↔ Meets step NoSuccessWhileOpen (World.init name threshold timeout now) es := by
  refine steps_iff_meets (I := fun w => 0 < w.breaker.recoveryTimeout) ?_ ?_ htimeout
  · intro w e w' hw hs
    rw [step_recoveryTimeout hs]
    exact hw
  · intro w e w' hw hs
    exact documentedMove_iff hw hs

/-- Five calls let through, four that fail, one that succeeds. -/
theorem documented_edges_four_failures :
    Steps step DocumentedMove (World.init "task-service" 5 (30 : Int) 0)
      [.arrive 0 (.buffered false), .arrive 1 (.buffered false), .arrive 2 (.buffered false),
       .arrive 3 (.buffered false), .arrive 4 (.buffered false),
       .reply 0 (.raised .connectError), .reply 1 (.raised .connectError),
       .reply 2 (.raised .connectError), .reply 3 (.raised .connectError),
       .reply 4 (.response 200)] := by
  refine (documented_edges_iff "task-service" 5 (30 : Int) 0 (by decide) _).mpr ?_
  decide

/-- Six calls let through; five of them fail, and the circuit opens. -/
def openedWithOneOut : List (Event Int) :=
  [.arrive 0 (.buffered false), .arrive 1 (.buffered false), .arrive 2 (.buffered false),
   .arrive 3 (.buffered false), .arrive 4 (.buffered false), .arrive 5 (.buffered false),
   .reply 0 (.raised .connectError), .reply 1 (.raised .connectError),
   .reply 2 (.raised .connectError), .reply 3 (.raised .connectError),
   .reply 4 (.raised .connectError)]

/-- **The late success of the sixth takes the breaker from `OPEN` to `CLOSED`.** -/
theorem late_success_closes_open_breaker :
    ∃ w w', exec step (World.init "task-service" 5 (30 : Int) 0) openedWithOneOut = some w
      ∧ step w (.reply 5 (.response 200)) = some w'
      ∧ w.state = .opened ∧ w'.state = .closed ∧ ¬ DocumentedMove w w' := by
  refine ⟨_, _, rfl, rfl, by decide, by decide, fun h => ?_⟩
  exact (edge_success_iff _).mp h (by decide)

end Microservices.Gateway
