import Mathlib.Algebra.Order.Group.Defs

/-!
# The circuit breaker

One `CircuitBreaker` as `circuit_breaker.py` writes it: three fields mutated in
place, and an `OPEN → HALF_OPEN` transition that happens only when somebody reads
the `state` property. A read is therefore a function from a breaker to a value
*and* a breaker, and so are `isOpen` and `allowProbe`.

The monotonic clock takes values in any ordered group.
-/

namespace Microservices.Gateway

/-- `CircuitState`. `opened` is the source's `OPEN`. -/
inductive CircuitState where
  | closed
  | opened
  | halfOpen
  deriving DecidableEq, Repr

/-- `CircuitBreaker`; `state_` is the private field `_state`, not the property. -/
structure CircuitBreaker (τ : Type) where
  serviceName : String
  failureThreshold : Nat
  recoveryTimeout : τ
  state_ : CircuitState := .closed
  failureCount : Nat := 0
  lastFailureTime : Option τ := none

namespace CircuitBreaker

variable {τ : Type}

/-- `record_success()`. -/
def recordSuccess (b : CircuitBreaker τ) : CircuitBreaker τ :=
  { b with failureCount := 0, lastFailureTime := none, state_ := .closed }

/-- `record_failure()`. -/
def recordFailure (b : CircuitBreaker τ) (now : τ) : CircuitBreaker τ :=
  { b with
    failureCount := b.failureCount + 1
    lastFailureTime := some now
    state_ :=
      if b.state_ = .halfOpen then .opened
      else if b.failureThreshold ≤ b.failureCount + 1 then .opened
      else b.state_ }

@[simp] theorem recordSuccess_state (b : CircuitBreaker τ) : b.recordSuccess.state_ = .closed := rfl

/-- No outcome leaves a breaker half-open. -/
theorem recordFailure_ne_halfOpen (b : CircuitBreaker τ) (now : τ) :
    (b.recordFailure now).state_ ≠ .halfOpen := by
  unfold recordFailure
  dsimp only
  split
  · exact CircuitState.noConfusion
  · split
    · exact CircuitState.noConfusion
    · assumption

/-! ## Reading the state -/

variable [LinearOrder τ] [AddCommGroup τ]

/-- `OPEN`, and the recovery window has elapsed since the last failure. -/
def recovered (b : CircuitBreaker τ) (now : τ) : Prop :=
  b.state_ = .opened ∧ ∃ t, b.lastFailureTime = some t ∧ b.recoveryTimeout ≤ now - t

instance (b : CircuitBreaker τ) (now : τ) : Decidable (b.recovered now) :=
  match h : b.lastFailureTime with
  | none => .isFalse (by simp [recovered, h])
  | some t => decidable_of_iff (b.state_ = .opened ∧ b.recoveryTimeout ≤ now - t)
      (by simp [recovered, h])

/-- What reading the `state` property at time `now` leaves behind. -/
def observe (b : CircuitBreaker τ) (now : τ) : CircuitBreaker τ :=
  if b.recovered now then { b with state_ := .halfOpen } else b

/-- The `state` property. -/
def state (b : CircuitBreaker τ) (now : τ) : CircuitState × CircuitBreaker τ :=
  ((b.observe now).state_, b.observe now)

/-- `is_open()`. -/
def isOpen (b : CircuitBreaker τ) (now : τ) : Bool × CircuitBreaker τ :=
  ((b.state now).1 == .opened, (b.state now).2)

/-- `allow_probe()`. No caller in the gateway uses it. -/
def allowProbe (b : CircuitBreaker τ) (now : τ) : Bool × CircuitBreaker τ :=
  ((b.state now).1 == .halfOpen, (b.state now).2)

theorem isOpen_fst (b : CircuitBreaker τ) (now : τ) :
    (b.isOpen now).1 = true ↔ (b.observe now).state_ = .opened := by
  simp [isOpen, state]

/-- A read either moves an `OPEN` breaker to `HALF_OPEN` or changes nothing. -/
theorem observe_cases (b : CircuitBreaker τ) (now : τ) :
    (b.recovered now ∧ b.observe now = { b with state_ := .halfOpen })
      ∨ (¬ b.recovered now ∧ b.observe now = b) := by
  unfold observe
  split
  · rename_i h; exact Or.inl ⟨h, rfl⟩
  · rename_i h; exact Or.inr ⟨h, rfl⟩

/-- A half-open breaker stays half-open however often it is read. -/
theorem observe_of_halfOpen {b : CircuitBreaker τ} (h : b.state_ = .halfOpen) (now : τ) :
    b.observe now = b := by
  rcases observe_cases b now with ⟨⟨ho, _⟩, _⟩ | ⟨_, he⟩
  · rw [h] at ho; exact CircuitState.noConfusion ho
  · exact he

end CircuitBreaker

end Microservices.Gateway
