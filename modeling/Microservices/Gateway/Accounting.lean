import Mathlib.Algebra.Order.Group.Int
import Microservices.Gateway.Dispatch

/-!
# What an admitted call tells the breaker

`is_open()` before a request and one `record_…()` after it is how the breaker learns what
happened. The retry loop of `_dispatch_with_retry` ends in a `return`, behind the loop or
in an exception it does not catch, and on the last of these it tells the breaker nothing.

One call is followed here through any run of the event loop.
-/

namespace Microservices.Gateway

open CircuitBreaker Schedule

variable {τ : Type}

/-- `method.upper() == "GET"`. -/
def isIdempotent (method : String) : Bool := method.toUpper = "GET"

/-- `return`, or an exception that leaves `_dispatch_with_retry`. -/
def Phase.ended : Phase → Bool
  | .returned _ | .raised _ | .crashed => true
  | _ => false

/-- The call that moves. -/
def Event.call? : Event τ → Option Nat
  | .tick _ | .readState => none
  | .arrive i _ | .reply i _ | .wake i | .connected i | .streamError i | .streamEnd i => some i

/-- What the step records for the call. -/
def recordedIn (i : Nat) (w : World τ) : Event τ → List Outcome
  | .reply j r => if j = i then (w.outcome (.reply j r)).toList else []
  | _ => []

/-- A failure is due when the upstream has not answered, or with a retryable status. -/
def Phase.failed : Phase → Bool
  | .returned statusCode => decide (statusCode ∈ retryableStatus)
  | _ => true

/-- **What is to be recorded by the end of a call.** -/
def RecordedOnce (recorded : List Outcome) (p : Phase) : Prop :=
  ∃ o, recorded = [o] ∧ (p.failed = true → o = .failure)

/-- What a buffered call has recorded when it is here. -/
def Accounted (recorded : List Outcome) : Phase → Prop
  | .requesting _ _ | .backingOff _ _ | .crashed => recorded = []
  | .returned statusCode => RecordedOnce recorded (.returned statusCode)
  | .raised error => RecordedOnce recorded (.raised error)
  | .routed | .opening | .streaming | .closed => False

/-! ## One attempt -/

/-- A retryable status is not returned as a success. -/
theorem failure_of_ret {name : String} {isIdempotent : Bool} {attempt : Nat} {r : Reply} {o : Outcome}
    {statusCode : Nat} (h : afterAttempt name isIdempotent attempt r = .ret o statusCode)
    (hretryable : statusCode ∈ retryableStatus) : o = .failure := by
  have hge : ¬ statusCode < 500 := by
    have hall : ∀ s ∈ retryableStatus, ¬ s < 500 := by decide
    exact hall statusCode hretryable
  cases r with
  | response s =>
      rw [afterAttempt] at h
      split at h
      · cases h
      · split at h
        · rename_i hsuccess
          cases h
          exact absurd hretryable (hsuccess.resolve_left hge)
        · cases h
          rfl
  | raised exc =>
      rw [afterAttempt] at h
      split at h <;> cases h
  | raisedOther => cases h

theorem propagates_iff (name : String) (isIdempotent : Bool) (attempt : Nat) {r : Reply} :
    afterAttempt name isIdempotent attempt r = .propagates ↔ r = .raisedOther := by
  cases r with
  | response s =>
      rw [afterAttempt]
      refine iff_of_false ?_ (by simp)
      split
      · exact nofun
      · split <;> exact nofun
  | raised exc =>
      rw [afterAttempt]
      refine iff_of_false ?_ (by simp)
      split <;> exact nofun
  | raisedOther => exact iff_of_true rfl rfl

theorem accounted_resume (w : World τ) (i : Nat) (isIdempotent : Bool) (attempt : Nat) (r : Reply) :
    Accounted (afterAttempt w.breaker.serviceName isIdempotent attempt r).outcome.toList
      ((w.resume i isIdempotent attempt
        (afterAttempt w.breaker.serviceName isIdempotent attempt r)).calls i) := by
  cases hnext : afterAttempt w.breaker.serviceName isIdempotent attempt r with
  | again =>
      show Accounted [] (Function.update w.calls i _ i)
      rw [Function.update_self]
      rfl
  | ret o statusCode =>
      show Accounted [o] (Function.update (w.record o).calls i _ i)
      rw [Function.update_self]
      exact ⟨o, rfl, fun hfailed => failure_of_ret hnext (of_decide_eq_true hfailed)⟩
  | exhausted error =>
      show Accounted [.failure] (Function.update (w.record .failure).calls i _ i)
      rw [Function.update_self]
      exact ⟨.failure, rfl, fun _ => rfl⟩
  | propagates =>
      show Accounted [] (Function.update w.calls i _ i)
      rw [Function.update_self]
      rfl

/-- The call has crashed if it had, or an exception has got past it. -/
theorem crashed_resume (w : World τ) (i : Nat) (isIdempotent : Bool) (attempt : Nat) (r : Reply) :
    (w.resume i isIdempotent attempt
        (afterAttempt w.breaker.serviceName isIdempotent attempt r)).calls i = .crashed
      ↔ r = .raisedOther := by
  rw [← propagates_iff w.breaker.serviceName isIdempotent attempt]
  cases afterAttempt w.breaker.serviceName isIdempotent attempt r with
  | again =>
      show Function.update w.calls i _ i = _ ↔ _
      simp
  | ret o statusCode =>
      show Function.update (w.record o).calls i _ i = _ ↔ _
      simp
  | exhausted error =>
      show Function.update (w.record .failure).calls i _ i = _ ↔ _
      simp
  | propagates =>
      show Function.update w.calls i _ i = _ ↔ _
      simp

/-! ## One step -/

theorem calls_setCall_ne (w : World τ) {i j : Nat} (hj : j ≠ i) (p : Phase) :
    (w.setCall j p).calls i = w.calls i := Function.update_of_ne (Ne.symm hj) ..

theorem recordedIn_other {w : World τ} {e : Event τ} {i : Nat} (hother : e.call? ≠ some i) :
    recordedIn i w e = [] := by
  cases e with
  | reply j r => exact if_neg fun h => hother (congrArg some h)
  | _ => rfl

section Steps

variable [LinearOrder τ] [AddCommGroup τ]

/-- Another call's move leaves the call alone. -/
theorem calls_other {w w' : World τ} {e : Event τ} {i : Nat} (hs : step w e = some w')
    (hother : e.call? ≠ some i) : w'.calls i = w.calls i := by
  have hne : ∀ {j : Nat}, e.call? = some j → j ≠ i := by
    rintro j hj rfl
    exact hother hj
  cases e with
  | tick t =>
      rw [step] at hs
      split at hs
      · cases hs
        rfl
      · cases hs
  | readState =>
      cases hs
      rfl
  | arrive j route =>
      rw [step] at hs
      split at hs
      · cases hs
        unfold World.arrive
        split
        · exact calls_setCall_ne w.observe (hne rfl) _
        · exact calls_setCall_ne w.observe (hne rfl) _
      · cases hs
  | reply j r =>
      rw [step] at hs
      split at hs
      · rename_i isIdempotent attempt _
        cases hs
        cases afterAttempt w.breaker.serviceName isIdempotent attempt r with
        | again => exact calls_setCall_ne w (hne rfl) _
        | ret o statusCode =>
            refine (calls_setCall_ne (w.record o) (hne rfl) _).trans ?_
            cases o <;> rfl
        | exhausted error => exact calls_setCall_ne (w.record .failure) (hne rfl) _
        | propagates => exact calls_setCall_ne w (hne rfl) _
      · cases hs
  | wake j =>
      rw [step] at hs
      split at hs
      · cases hs
        exact calls_setCall_ne w (hne rfl) _
      · cases hs
  | connected j =>
      rw [step] at hs
      split at hs
      · cases hs
        exact calls_setCall_ne (w.record .success) (hne rfl) _
      · cases hs
  | streamError j =>
      rw [step] at hs
      split at hs
      · cases hs
        exact calls_setCall_ne (w.record .failure) (hne rfl) _
      · cases hs
        exact calls_setCall_ne (w.record .failure) (hne rfl) _
      · cases hs
  | streamEnd j =>
      rw [step] at hs
      split at hs
      · cases hs
        exact calls_setCall_ne w (hne rfl) _
      · cases hs
        exact calls_setCall_ne w (hne rfl) _
      · cases hs

/-- **A buffered call stays accounted for.** -/
theorem accounted_step {w w' : World τ} {e : Event τ} {i : Nat} {recorded : List Outcome}
    (h : Accounted recorded (w.calls i)) (hs : step w e = some w') :
    Accounted (recorded ++ recordedIn i w e) (w'.calls i)
      ∧ (w'.calls i = .crashed ↔ w.calls i = .crashed ∨ e = .reply i .raisedOther) := by
  by_cases hcall : e.call? = some i
  · cases e with
    | tick t => cases hcall
    | readState => cases hcall
    | arrive j route | connected j =>
        cases hcall
        rw [step] at hs
        split at hs
        · rename_i hp
          rw [hp] at h
          exact h.elim
        · cases hs
    | streamError j | streamEnd j =>
        cases hcall
        rw [step] at hs
        split at hs
        · rename_i hp
          rw [hp] at h
          exact h.elim
        · rename_i hp
          rw [hp] at h
          exact h.elim
        · cases hs
    | wake j =>
        cases hcall
        rw [step] at hs
        split at hs
        · rename_i isIdempotent attempt hp
          cases hs
          rw [hp] at h
          have hcalls : (w.setCall i (.requesting isIdempotent attempt)).calls i
              = .requesting isIdempotent attempt := Function.update_self ..
          rw [hcalls, hp]
          exact ⟨(List.append_nil recorded).trans h, by simp⟩
        · cases hs
    | reply j r =>
        cases hcall
        rw [step] at hs
        split at hs
        · rename_i isIdempotent attempt hp
          cases hs
          rw [hp] at h
          have hnow : recordedIn i w (.reply i r)
              = (afterAttempt w.breaker.serviceName isIdempotent attempt r).outcome.toList := by
            simp only [recordedIn, if_true, World.outcome, hp]
          have hnone : recorded = [] := h
          rw [hnow, hnone, List.nil_append, crashed_resume, hp]
          exact ⟨accounted_resume w i isIdempotent attempt r, by simp⟩
        · cases hs
  · rw [calls_other hs hcall, recordedIn_other hcall, List.append_nil]
    refine ⟨h, ?_⟩
    rw [or_iff_left]
    rintro rfl
    exact hcall rfl

/-! ## One call -/

/-- What a run records for the call. -/
def recordedRun (i : Nat) : World τ → List (Event τ) → List Outcome
  | _, [] => []
  | w, e :: es =>
      recordedIn i w e ++
        match step w e with
        | none => []
        | some w' => recordedRun i w' es

theorem accounted_run {w w' : World τ} {es : List (Event τ)} {i : Nat} {recorded : List Outcome}
    (h : Accounted recorded (w.calls i)) (hrun : exec step w es = some w') :
    Accounted (recorded ++ recordedRun i w es) (w'.calls i)
      ∧ (w'.calls i = .crashed ↔ w.calls i = .crashed ∨ .reply i .raisedOther ∈ es) := by
  induction es generalizing w recorded with
  | nil =>
      cases hrun
      rw [recordedRun, List.append_nil]
      exact ⟨h, by simp⟩
  | cons e es ih =>
      obtain ⟨w₁, hs, hlater⟩ := exec_cons_inv hrun
      obtain ⟨hnow, hcrashed⟩ := accounted_step h hs
      obtain ⟨hthen, hcrashed'⟩ := ih hnow hlater
      rw [recordedRun, hs, ← List.append_assoc]
      refine ⟨hthen, ?_⟩
      rw [hcrashed', hcrashed, List.mem_cons, or_assoc]
      exact or_congr_right (or_congr_left eq_comm)

/--
**An admitted call records one outcome exactly when no exception gets past it.**

The call is admitted in any state of its breaker, with any other calls under way, and any
events come before it returns or raises.
-/
theorem recorded_once_iff {w w' : World τ} {i : Nat} (method : String) (hrouted : w.calls i = .routed)
    (hadmits : (w.breaker.isOpen w.now).1 = false) (es : List (Event τ))
    (hrun : exec step w (.arrive i (.buffered (isIdempotent method)) :: es) = some w')
    (hended : (w'.calls i).ended = true) :
    RecordedOnce (recordedRun i w (.arrive i (.buffered (isIdempotent method)) :: es)) (w'.calls i)
      ↔ .reply i .raisedOther ∉ es := by
  obtain ⟨w₁, hs, hlater⟩ := exec_cons_inv hrun
  have hcalls : w₁.calls i = .requesting (isIdempotent method) 0 := by
    rw [step, hrouted] at hs
    cases hs
    unfold World.arrive
    rw [hadmits]
    exact Function.update_self ..
  have hstart : Accounted [] (w₁.calls i) := by
    rw [hcalls]
    rfl
  obtain ⟨haccounted, hcrashed⟩ := accounted_run hstart hlater
  rw [List.nil_append] at haccounted
  rw [hcalls, or_iff_right (by simp)] at hcrashed
  rw [← hcrashed, recordedRun, hs]
  show RecordedOnce (recordedRun i w₁ es) _ ↔ _
  cases hp : w'.calls i with
  | returned statusCode | raised error =>
      rw [hp] at haccounted
      exact iff_of_true haccounted (by simp)
  | crashed =>
      rw [hp] at haccounted
      have hnone : recordedRun i w₁ es = [] := haccounted
      refine iff_of_false ?_ (by simp)
      rintro ⟨o, ho, _⟩
      rw [hnone] at ho
      cases ho
  | routed | requesting _ _ | backingOff _ _ | opening | streaming | closed =>
      rw [hp] at hended
      cases hended

end Steps

/-- An upstream that has had no call yet. -/
def firstContact : World Int := World.init "user-service" 5 30 0

/-- A `GET` that is answered at the third attempt. -/
def thirdTime : List (Event Int) :=
  [.reply 0 (.response 503), .wake 0, .reply 0 (.raised .timeoutException), .tick 1, .wake 0,
    .reply 0 (.response 200)]

theorem thirdTime_recorded : ∃ w', exec step firstContact (.arrive 0 (.buffered (isIdempotent "GET")) :: thirdTime)
      = some w'
    ∧ RecordedOnce (recordedRun 0 firstContact (.arrive 0 (.buffered (isIdempotent "GET")) :: thirdTime))
      (w'.calls 0) := by
  have hends : (exec step firstContact (.arrive 0 (.buffered (isIdempotent "GET")) :: thirdTime)).any
      (fun w' => (w'.calls 0).ended) = true := by decide +kernel
  obtain ⟨w', hrun, hended⟩ := (Option.any_eq_true _ _).mp hends
  exact ⟨w', hrun, (recorded_once_iff "GET" rfl (by decide +kernel) thirdTime hrun hended).mpr
    (by simp [thirdTime])⟩

/-- **A connection that breaks off while it is read** leaves no trace on the breaker. -/
theorem readError_unrecorded :
    ∃ w', exec step firstContact [.arrive 0 (.buffered (isIdempotent "GET")), .reply 0 .raisedOther] = some w'
      ∧ (w'.calls 0).ended = true
      ∧ recordedRun 0 firstContact [.arrive 0 (.buffered (isIdempotent "GET")), .reply 0 .raisedOther] = [] := by
  have hends : (exec step firstContact [.arrive 0 (.buffered (isIdempotent "GET")), .reply 0 .raisedOther]).any
      (fun w' => (w'.calls 0).ended) = true := by decide +kernel
  obtain ⟨w', hrun, hended⟩ := (Option.any_eq_true _ _).mp hends
  exact ⟨w', hrun, hended, by decide +kernel⟩

end Microservices.Gateway
