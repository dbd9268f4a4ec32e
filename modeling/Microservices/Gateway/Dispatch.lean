import Mathlib.Logic.Function.Basic
import Microservices.Http
import Microservices.Lib.Schedule
import Microservices.Gateway.CircuitBreaker

/-!
# Proxied requests to one upstream

`_dispatch_with_retry` and the SSE branch of `proxy` as coroutines on one event
loop. Between two `await`s nothing else runs, so every event below is one stretch
of code from the point where a call resumes to its next `await`: reaching the
breaker, an answer from `client.request`, the end of a backoff sleep, the stages
of a stream. Which call moves next, and when the clock moves, is up to the
schedule.

The ghost `log` records, newest first, what happened at the breaker: it became
half-open, it let a call through, it turned one away, an outcome was recorded.
-/

namespace Microservices.Gateway

open CircuitBreaker

/-! ## One call -/

/-- The two transport errors `_dispatch_with_retry` catches. -/
inductive UpstreamExc where
  | connectError
  | timeoutException
  deriving DecidableEq, Repr

/-- How one `await client.request(...)` ends. -/
inductive Reply where
  | response (statusCode : Nat)
  | raised (exc : UpstreamExc)
  /-- Any exception the two `except` clauses do not name. -/
  | raisedOther
  deriving DecidableEq, Repr

/-- An outcome recorded on the breaker. -/
inductive Outcome where
  | success
  | failure
  deriving DecidableEq, Repr

/-- `_RETRYABLE_STATUS`. -/
def retryableStatus : List Nat := [502, 503, 504]

/-- `_MAX_ATTEMPTS`, the length of `_BACKOFF_SCHEDULE`. -/
def maxAttempts : Nat := 3

/-- `attempts`: three for an idempotent request, one otherwise. -/
def attemptsFor (isIdempotent : Bool) : Nat := if isIdempotent then maxAttempts else 1

/-- What the retry loop does when an attempt has ended. -/
inductive Next where
  /-- `continue`, or falling off the `except` clause, with attempts left. -/
  | again
  /-- `return response`, after recording the outcome. -/
  | ret (outcome : Outcome) (statusCode : Nat)
  /-- The code after the loop: `record_failure()`, then an `HTTPException`. -/
  | exhausted (error : HTTPException)
  /-- An exception nothing in the function catches. -/
  | propagates
  deriving DecidableEq, Repr

/--
The exception the code after the loop raises, by `last_exc`. The last case is
never reached: a retryable status on the last attempt is returned, not raised.
-/
def exhaustedError (serviceName : String) (attempts : Nat) : Option UpstreamExc → HTTPException
  | some .connectError => { statusCode := 503, detail := "Upstream service unreachable" }
  | some .timeoutException => { statusCode := 504, detail := "Upstream service timed out" }
  | none =>
      { statusCode := 503
        detail := "Service '" ++ serviceName ++ "' returned an error after "
          ++ toString attempts ++ " attempts" }

/-- The body of the loop from the end of `client.request` on, for attempt number `attempt`. -/
def afterAttempt (serviceName : String) (isIdempotent : Bool) (attempt : Nat) : Reply → Next
  | .response statusCode =>
      if statusCode ∈ retryableStatus ∧ isIdempotent ∧ attempt + 1 < attemptsFor isIdempotent then
        .again
      else if statusCode < 500 ∨ statusCode ∉ retryableStatus then .ret .success statusCode
      else .ret .failure statusCode
  | .raised exc =>
      if attempt + 1 < attemptsFor isIdempotent then .again
      else .exhausted (exhaustedError serviceName (attemptsFor isIdempotent) (some exc))
  | .raisedOther => .propagates

/-- How the gateway handles a call once it has been routed. -/
inductive Route where
  /-- `_dispatch_with_retry`, with `is_idempotent`. -/
  | buffered (isIdempotent : Bool)
  /-- The SSE branch. -/
  | sse
  deriving DecidableEq, Repr

/-- Where a call is suspended, or how it ended. -/
inductive Phase where
  /-- Not at the breaker yet. -/
  | routed
  /-- Awaiting `client.request`, attempt number `attempt`. -/
  | requesting (isIdempotent : Bool) (attempt : Nat)
  /-- Awaiting `asyncio.sleep` before attempt number `attempt`. -/
  | backingOff (isIdempotent : Bool) (attempt : Nat)
  /-- The response has been handed out; its generator is opening the upstream stream. -/
  | opening
  /-- Inside `async for chunk in resp.aiter_bytes()`. -/
  | streaming
  /-- Answered with a relayed status. -/
  | returned (statusCode : Nat)
  /-- Ended by an `HTTPException`. -/
  | raised (error : HTTPException)
  /-- Ended by an exception the proxy does not catch. -/
  | crashed
  /-- The event stream is over. -/
  | closed
  deriving DecidableEq, Repr

/-- The rejection of an open breaker: the two paths word it differently. -/
def rejection (serviceName : String) : Route → HTTPException
  | .buffered _ =>
      { statusCode := 503
        detail := "Service '" ++ serviceName
          ++ "' is temporarily unavailable. Please retry shortly."
        headers := [("Retry-After", "30")] }
  | .sse => { statusCode := 503, detail := "Service '" ++ serviceName ++ "' unavailable" }

/-- Where a call is suspended first, once the breaker has let it through. -/
def firstAwait : Route → Phase
  | .buffered isIdempotent => .requesting isIdempotent 0
  | .sse => .opening

/-! ## All calls to one upstream -/

/-- What the ghost log records. -/
inductive LogEntry where
  | becameHalfOpen
  | admitted (call : Nat)
  | rejected (call : Nat) (error : HTTPException)
  | recorded (outcome : Outcome)
  deriving DecidableEq, Repr

/-- The gateway's view of one upstream: the clock, the breaker, every call, the ghost log. -/
structure World (τ : Type) where
  now : τ
  breaker : CircuitBreaker τ
  calls : Nat → Phase
  log : List LogEntry

/-- What a schedule may do next. -/
inductive Event (τ : Type) where
  /-- The monotonic clock advances. -/
  | tick (t : τ)
  /-- `registry.all_states()`, from the readiness endpoint. -/
  | readState
  /-- A call reaches `breaker.is_open()`. -/
  | arrive (call : Nat) (route : Route)
  /-- `client.request` ends. -/
  | reply (call : Nat) (reply : Reply)
  /-- The backoff sleep is over. -/
  | wake (call : Nat)
  /-- `client.stream` has connected, with any status. -/
  | connected (call : Nat)
  /-- Opening or reading the stream raises. -/
  | streamError (call : Nat)
  /-- The stream ends, or the client goes away. -/
  | streamEnd (call : Nat)

variable {τ : Type}

/-- A fresh breaker and no call at it. -/
def World.init (serviceName : String) (failureThreshold : Nat) (recoveryTimeout now : τ) :
    World τ where
  now := now
  breaker := { serviceName, failureThreshold, recoveryTimeout }
  calls := fun _ => .routed
  log := []

/-- Suspend or end a call. -/
def World.setCall (w : World τ) (i : Nat) (p : Phase) : World τ :=
  { w with calls := Function.update w.calls i p }

/-- `record_success()` or `record_failure()`. -/
def World.record (w : World τ) : Outcome → World τ
  | .success => { w with breaker := w.breaker.recordSuccess, log := .recorded .success :: w.log }
  | .failure =>
      { w with breaker := w.breaker.recordFailure w.now, log := .recorded .failure :: w.log }

section Reads

variable [LinearOrder τ] [AddCommGroup τ]

/-- A read of the breaker's state, logging the transition it may cause. -/
def World.observe (w : World τ) : World τ :=
  { w with
    breaker := w.breaker.observe w.now
    log := if w.breaker.recovered w.now then .becameHalfOpen :: w.log else w.log }

/-- `if breaker.is_open(): raise …`, and on to the first `await` otherwise. -/
def World.arrive (w : World τ) (i : Nat) (r : Route) : World τ :=
  if (w.breaker.isOpen w.now).1 then
    let e := rejection w.breaker.serviceName r
    { w.observe.setCall i (.raised e) with log := .rejected i e :: w.observe.log }
  else
    { w.observe.setCall i (firstAwait r) with log := .admitted i :: w.observe.log }

/-- The loop goes on, or the call ends with its outcome recorded. -/
def World.resume (w : World τ) (i : Nat) (isIdempotent : Bool) (attempt : Nat) : Next → World τ
  | .again => w.setCall i (.backingOff isIdempotent (attempt + 1))
  | .ret outcome statusCode => (w.record outcome).setCall i (.returned statusCode)
  | .exhausted error => (w.record .failure).setCall i (.raised error)
  | .propagates => w.setCall i .crashed

/-- One step of the event loop. -/
def step (w : World τ) : Event τ → Option (World τ)
  | .tick t => if w.now ≤ t then some { w with now := t } else none
  | .readState => some w.observe
  | .arrive i r =>
      match w.calls i with
      | .routed => some (w.arrive i r)
      | _ => none
  | .reply i r =>
      match w.calls i with
      | .requesting isIdempotent attempt =>
          some (w.resume i isIdempotent attempt
            (afterAttempt w.breaker.serviceName isIdempotent attempt r))
      | _ => none
  | .wake i =>
      match w.calls i with
      | .backingOff isIdempotent attempt => some (w.setCall i (.requesting isIdempotent attempt))
      | _ => none
  | .connected i =>
      match w.calls i with
      | .opening => some ((w.record .success).setCall i .streaming)
      | _ => none
  | .streamError i =>
      match w.calls i with
      | .opening => some ((w.record .failure).setCall i .closed)
      | .streaming => some ((w.record .failure).setCall i .closed)
      | _ => none
  | .streamEnd i =>
      match w.calls i with
      | .opening => some (w.setCall i .closed)
      | .streaming => some (w.setCall i .closed)
      | _ => none

end Reads

/-! ## What a step does at the breaker -/

/-- The outcome the loop records when it ends here, if it does. -/
def Next.outcome : Next → Option Outcome
  | .again => none
  | .ret outcome _ => some outcome
  | .exhausted _ => some .failure
  | .propagates => none

/-- The outcome an event records on the breaker, if any. -/
def World.outcome (w : World τ) : Event τ → Option Outcome
  | .reply i r =>
      match w.calls i with
      | .requesting isIdempotent attempt =>
          (afterAttempt w.breaker.serviceName isIdempotent attempt r).outcome
      | _ => none
  | .connected i =>
      match w.calls i with
      | .opening => some .success
      | _ => none
  | .streamError i =>
      match w.calls i with
      | .opening | .streaming => some .failure
      | _ => none
  | _ => none

section Steps

variable [LinearOrder τ] [AddCommGroup τ]

/-- What an arrival leaves at the breaker: the read, and one more log entry. -/
theorem arrive_cases (w : World τ) (i : Nat) (r : Route) :
    (w.arrive i r).breaker = w.observe.breaker
      ∧ ((w.observe.breaker.state_ = .opened
            ∧ (w.arrive i r).log
                = .rejected i (rejection w.breaker.serviceName r) :: w.observe.log)
          ∨ (w.observe.breaker.state_ ≠ .opened
            ∧ (w.arrive i r).log = .admitted i :: w.observe.log)) := by
  unfold World.arrive
  by_cases ho : (w.breaker.isOpen w.now).1 = true
  · rw [if_pos ho]
    exact ⟨rfl, Or.inl ⟨(CircuitBreaker.isOpen_fst _ _).mp ho, rfl⟩⟩
  · rw [if_neg ho]
    exact ⟨rfl, Or.inr ⟨fun hc => ho ((CircuitBreaker.isOpen_fst _ _).mpr hc), rfl⟩⟩

theorem arrive_now (w : World τ) (i : Nat) (r : Route) : (w.arrive i r).now = w.now := by
  unfold World.arrive
  split
  · rfl
  · rfl

/-- A step that is not an arrival leaves the breaker alone, reads it, or records an outcome. -/
inductive Touch (w w' : World τ) : Option Outcome → Prop where
  | quiet (hb : w'.breaker = w.breaker) (hl : w'.log = w.log) (ht : w.now ≤ w'.now) :
      Touch w w' none
  | read (hb : w'.breaker = w.observe.breaker) (hl : w'.log = w.observe.log)
      (ht : w'.now = w.now) : Touch w w' none
  | outcome (o : Outcome) (hb : w'.breaker = (w.record o).breaker) (hl : w'.log = (w.record o).log)
      (ht : w'.now = w.now) : Touch w w' (some o)

theorem resume_touch (w : World τ) (i : Nat) (isIdempotent : Bool) (attempt : Nat) (x : Next) :
    Touch w (w.resume i isIdempotent attempt x) x.outcome := by
  cases x with
  | again => exact .quiet rfl rfl (le_refl _)
  | ret o s => cases o <;> exact .outcome _ rfl rfl rfl
  | exhausted e => exact .outcome .failure rfl rfl rfl
  | propagates => exact .quiet rfl rfl (le_refl _)

/-- **Every step is an arrival or one of the three touches.** -/
theorem step_cases {w w' : World τ} {e : Event τ} (h : step w e = some w') :
    (∃ i r, e = .arrive i r ∧ w' = w.arrive i r)
      ∨ ((∀ i r, e ≠ .arrive i r) ∧ Touch w w' (w.outcome e)) := by
  cases e with
  | arrive i r =>
      rw [step] at h
      split at h
      · exact Or.inl ⟨i, r, rfl, (Option.some.inj h).symm⟩
      · cases h
  | tick t =>
      refine Or.inr ⟨fun _ _ => nofun, ?_⟩
      rw [step] at h
      split at h
      · rename_i ht; cases h; exact .quiet rfl rfl ht
      · cases h
  | readState =>
      refine Or.inr ⟨fun _ _ => nofun, ?_⟩
      cases h; exact .read rfl rfl rfl
  | reply i r =>
      refine Or.inr ⟨fun _ _ => nofun, ?_⟩
      rw [step] at h
      split at h
      · rename_i isIdempotent attempt hp
        cases h
        -- the outcome is read off the loop, which this call is suspended in
        have hout : w.outcome (.reply i r)
            = (afterAttempt w.breaker.serviceName isIdempotent attempt r).outcome := by
          simp only [World.outcome, hp]
        rw [hout]
        exact resume_touch w i isIdempotent attempt _
      · cases h
  | wake i =>
      refine Or.inr ⟨fun _ _ => nofun, ?_⟩
      rw [step] at h
      split at h
      · cases h; exact .quiet rfl rfl (le_refl _)
      · cases h
  | connected i =>
      refine Or.inr ⟨fun _ _ => nofun, ?_⟩
      rw [step] at h
      split at h
      · rename_i hp
        cases h
        have hout : w.outcome (.connected i) = some .success := by simp only [World.outcome, hp]
        rw [hout]
        exact .outcome .success rfl rfl rfl
      · cases h
  | streamError i =>
      refine Or.inr ⟨fun _ _ => nofun, ?_⟩
      -- a stream fails while it opens or later, and either is recorded
      have hfailure : w.calls i = .opening ∨ w.calls i = .streaming →
          w.outcome (.streamError i) = some .failure := by
        rintro (hp | hp)
        · simp only [World.outcome, hp]
        · simp only [World.outcome, hp]
      rw [step] at h
      split at h
      · rename_i hp
        cases h
        rw [hfailure (Or.inl hp)]
        exact .outcome .failure rfl rfl rfl
      · rename_i hp
        cases h
        rw [hfailure (Or.inr hp)]
        exact .outcome .failure rfl rfl rfl
      · cases h
  | streamEnd i =>
      refine Or.inr ⟨fun _ _ => nofun, ?_⟩
      rw [step] at h
      split at h
      · cases h; exact .quiet rfl rfl (le_refl _)
      · cases h; exact .quiet rfl rfl (le_refl _)
      · cases h

end Steps

end Microservices.Gateway
