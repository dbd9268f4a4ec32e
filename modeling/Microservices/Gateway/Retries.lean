import Microservices.Gateway.Accounting

/-!
# How often a request is sent

A `GET` may be sent three times, any other request once, and none while the breaker is
open. The loop of `_dispatch_with_retry` bounds this by its `range(attempts)`; here it
is followed through the schedule, whatever other calls do in between.

A call that is let through moves at most twice for each attempt: a request goes out as it
arrives or wakes up, and comes back once.
-/

namespace Microservices.Gateway

open CircuitBreaker Schedule

variable {τ : Type}

/-- The call moves. -/
def ownIn (i : Nat) (e : Event τ) : Nat := if e.call? = some i then 1 else 0

/-- How often the call moves in a run. -/
def ownRun (i : Nat) : List (Event τ) → Nat
  | [] => 0
  | e :: es => ownIn i e + ownRun i es

/-- What a buffered call has sent, and how often it has moved, when it is here. -/
def Tallied (isIdempotent : Bool) (requests own : Nat) : Phase → Prop
  | .requesting idempotent attempt =>
      idempotent = isIdempotent ∧ attempt < attemptsFor isIdempotent ∧ requests = attempt + 1
        ∧ own = 2 * attempt + 1
  | .backingOff idempotent attempt =>
      idempotent = isIdempotent ∧ attempt < attemptsFor isIdempotent ∧ requests = attempt
        ∧ own = 2 * attempt
  | .returned statusCode =>
      requests ≤ attemptsFor isIdempotent ∧ own = 2 * requests
        ∧ (statusCode ∈ retryableStatus → requests = attemptsFor isIdempotent)
  | .raised _ => requests = attemptsFor isIdempotent ∧ own = 2 * requests
  | .crashed => requests ≤ attemptsFor isIdempotent ∧ own = 2 * requests
  | .routed | .opening | .streaming | .closed => False

/-! ## One attempt -/

/-- The loop goes on only with an attempt left. -/
theorem again_attempts {name : String} {isIdempotent : Bool} {attempt : Nat} {r : Reply}
    (h : afterAttempt name isIdempotent attempt r = .again) :
    attempt + 1 < attemptsFor isIdempotent := by
  cases r with
  | response s =>
      rw [afterAttempt] at h
      split at h
      · rename_i hagain
        exact hagain.2.2
      · split at h <;> cases h
  | raised exc =>
      rw [afterAttempt] at h
      split at h
      · assumption
      · cases h
  | raisedOther => cases h

/-- It gives up only with none left. -/
theorem exhausted_attempts {name : String} {isIdempotent : Bool} {attempt : Nat} {r : Reply}
    {error : HTTPException} (h : afterAttempt name isIdempotent attempt r = .exhausted error) :
    attemptsFor isIdempotent ≤ attempt + 1 := by
  cases r with
  | response s =>
      rw [afterAttempt] at h
      split at h
      · cases h
      · split at h <;> cases h
  | raised exc =>
      rw [afterAttempt] at h
      split at h
      · cases h
      · rename_i hlast
        exact Nat.le_of_not_lt hlast
  | raisedOther => cases h

/-- It returns a retryable status only with none left. -/
theorem ret_attempts {name : String} {isIdempotent : Bool} {attempt : Nat} {r : Reply} {o : Outcome}
    {statusCode : Nat} (h : afterAttempt name isIdempotent attempt r = .ret o statusCode)
    (hretryable : statusCode ∈ retryableStatus) : attemptsFor isIdempotent ≤ attempt + 1 := by
  cases r with
  | response s =>
      rw [afterAttempt] at h
      split at h
      · cases h
      · rename_i hlast
        have hs : s = statusCode := by
          split at h <;> cases h <;> rfl
        rw [hs] at hlast
        -- a request that is not idempotent has one attempt anyway
        cases isIdempotent with
        | false => exact Nat.le_add_left 1 attempt
        | true => exact Nat.le_of_not_lt fun hmore => hlast ⟨hretryable, rfl, hmore⟩
  | raised exc =>
      rw [afterAttempt] at h
      split at h <;> cases h
  | raisedOther => cases h

theorem tallied_resume (w : World τ) (i : Nat) {isIdempotent : Bool} {attempt : Nat} (r : Reply)
    (hattempt : attempt < attemptsFor isIdempotent) :
    Tallied isIdempotent (attempt + 1) (2 * attempt + 2)
      ((w.resume i isIdempotent attempt
        (afterAttempt w.breaker.serviceName isIdempotent attempt r)).calls i) := by
  cases hnext : afterAttempt w.breaker.serviceName isIdempotent attempt r with
  | again =>
      show Tallied _ _ _ (Function.update w.calls i _ i)
      rw [Function.update_self]
      exact ⟨rfl, again_attempts hnext, rfl, rfl⟩
  | ret o statusCode =>
      show Tallied _ _ _ (Function.update (w.record o).calls i _ i)
      rw [Function.update_self]
      exact ⟨hattempt, rfl, fun hretryable =>
        Nat.le_antisymm hattempt (ret_attempts hnext hretryable)⟩
  | exhausted error =>
      show Tallied _ _ _ (Function.update (w.record .failure).calls i _ i)
      rw [Function.update_self]
      exact ⟨Nat.le_antisymm hattempt (exhausted_attempts hnext), rfl⟩
  | propagates =>
      show Tallied _ _ _ (Function.update w.calls i _ i)
      rw [Function.update_self]
      exact ⟨hattempt, rfl⟩

/-! ## One step -/

section

variable [LinearOrder τ] [AddCommGroup τ]

/-- The requests of the call that a step sends: as it is let through, and as it wakes up. -/
def requestsIn (i : Nat) (w : World τ) : Event τ → Nat
  | .arrive j _ => if j = i ∧ (w.breaker.isOpen w.now).1 = false then 1 else 0
  | .wake j => if j = i then 1 else 0
  | _ => 0

/-- The requests of the call that a run sends. -/
def requestsRun (i : Nat) : World τ → List (Event τ) → Nat
  | _, [] => 0
  | w, e :: es =>
      requestsIn i w e +
        match step w e with
        | none => 0
        | some w' => requestsRun i w' es

theorem requestsIn_other {w : World τ} {e : Event τ} {i : Nat} (hother : e.call? ≠ some i) :
    requestsIn i w e = 0 := by
  cases e with
  | arrive j route => exact if_neg fun h => hother (congrArg some h.1)
  | wake j => exact if_neg fun h => hother (congrArg some h)
  | _ => rfl

/-- **A call that has been let through stays within its attempts.** -/
theorem tallied_step {w w' : World τ} {e : Event τ} {i requests own : Nat} {isIdempotent : Bool}
    (h : Tallied isIdempotent requests own (w.calls i)) (hs : step w e = some w') :
    Tallied isIdempotent (requests + requestsIn i w e) (own + ownIn i e) (w'.calls i) := by
  by_cases hcall : e.call? = some i
  · have hown : ownIn i e = 1 := if_pos hcall
    rw [hown]
    cases e with
    | tick t => cases hcall
    | readState => cases hcall
    | arrive j route | connected j =>
        cases hcall
        rw [step] at hs
        split at hs
        · rename_i hp
          rw [hp] at h
          exact h.elim
        · cases hs
    | streamError j | streamEnd j =>
        cases hcall
        rw [step] at hs
        split at hs
        · rename_i hp
          rw [hp] at h
          exact h.elim
        · rename_i hp
          rw [hp] at h
          exact h.elim
        · cases hs
    | wake j =>
        cases hcall
        rw [step] at hs
        split at hs
        · rename_i idempotent attempt hp
          cases hs
          rw [hp] at h
          obtain ⟨rfl, hattempt, rfl, rfl⟩ := h
          have hcalls : (w.setCall i (.requesting idempotent requests)).calls i
              = .requesting idempotent requests := Function.update_self ..
          have hrequests : requestsIn i w (.wake i) = 1 := if_pos rfl
          rw [hcalls, hrequests]
          exact ⟨rfl, hattempt, rfl, rfl⟩
        · cases hs
    | reply j r =>
        cases hcall
        rw [step] at hs
        split at hs
        · rename_i idempotent attempt hp
          cases hs
          rw [hp] at h
          obtain ⟨rfl, hattempt, rfl, rfl⟩ := h
          exact tallied_resume w i r hattempt
        · cases hs
  · have hown : ownIn i e = 0 := if_neg hcall
    rw [calls_other hs hcall, requestsIn_other hcall, hown]
    exact h

/-- A call that has ended does not move any more. -/
theorem ended_step {w w' : World τ} {e : Event τ} {i : Nat} (h : (w.calls i).ended = true)
    (hs : step w e = some w') : e.call? ≠ some i := by
  intro hcall
  cases e with
  | tick t => cases hcall
  | readState => cases hcall
  | arrive j route | connected j | wake j | reply j r =>
      cases hcall
      rw [step] at hs
      split at hs
      · rename_i hp
        rw [hp] at h
        cases h
      · cases hs
  | streamError j | streamEnd j =>
      cases hcall
      rw [step] at hs
      split at hs
      · rename_i hp
        rw [hp] at h
        cases h
      · rename_i hp
        rw [hp] at h
        cases h
      · cases hs

/-! ## One call -/

theorem tallied_run {w w' : World τ} {es : List (Event τ)} {i requests own : Nat}
    {isIdempotent : Bool} (h : Tallied isIdempotent requests own (w.calls i))
    (hrun : exec step w es = some w') :
    Tallied isIdempotent (requests + requestsRun i w es) (own + ownRun i es)
      (w'.calls i) := by
  induction es generalizing w requests own with
  | nil =>
      cases hrun
      exact h
  | cons e es ih =>
      obtain ⟨w₁, hs, hlater⟩ := exec_cons_inv hrun
      have hrest := ih (tallied_step h hs) hlater
      rw [requestsRun, hs, ownRun, ← Nat.add_assoc, ← Nat.add_assoc]
      exact hrest

theorem ended_run {w w' : World τ} {es : List (Event τ)} {i : Nat} (h : (w.calls i).ended = true)
    (hrun : exec step w es = some w') :
    requestsRun i w es = 0 ∧ ownRun i es = 0 ∧ w'.calls i = w.calls i := by
  induction es generalizing w with
  | nil =>
      cases hrun
      exact ⟨rfl, rfl, rfl⟩
  | cons e es ih =>
      obtain ⟨w₁, hs, hlater⟩ := exec_cons_inv hrun
      have hother := ended_step h hs
      have hcalls := calls_other hs hother
      obtain ⟨hrequests, hown, hend⟩ := ih (by rw [hcalls]; exact h) hlater
      have hnow : ownIn i e = 0 := if_neg hother
      refine ⟨?_, ?_, hend.trans hcalls⟩
      · rw [requestsRun, hs, requestsIn_other hother]
        exact (Nat.zero_add _).trans hrequests
      · rw [ownRun, hnow, hown]

theorem Tallied.bounds {isIdempotent : Bool} {requests own : Nat} {p : Phase}
    (h : Tallied isIdempotent requests own p) :
    requests ≤ attemptsFor isIdempotent ∧ own ≤ 2 * attemptsFor isIdempotent
      ∧ (own = 2 * attemptsFor isIdempotent → p.ended = true) := by
  cases p with
  | requesting idempotent attempt =>
      obtain ⟨-, hattempt, rfl, rfl⟩ := h
      exact ⟨hattempt, by omega, by omega⟩
  | backingOff idempotent attempt =>
      obtain ⟨-, hattempt, rfl, rfl⟩ := h
      exact ⟨hattempt.le, by omega, by omega⟩
  | returned statusCode =>
      obtain ⟨hrequests, rfl, -⟩ := h
      exact ⟨hrequests, by omega, fun _ => rfl⟩
  | raised error =>
      obtain ⟨rfl, rfl⟩ := h
      exact ⟨le_refl _, le_refl _, fun _ => rfl⟩
  | crashed =>
      obtain ⟨hrequests, rfl⟩ := h
      exact ⟨hrequests, by omega, fun _ => rfl⟩
  | routed | opening | streaming | closed => exact h.elim

/-- A failure is told to the client when there is no attempt left. -/
theorem Tallied.all_used {isIdempotent : Bool} {requests own : Nat} {p : Phase}
    (h : Tallied isIdempotent requests own p) (hended : p.ended = true) (hcrashed : p ≠ .crashed)
    (hfailed : p.failed = true) : requests = attemptsFor isIdempotent := by
  cases p with
  | returned statusCode => exact h.2.2 (of_decide_eq_true hfailed)
  | raised error => exact h.1
  | crashed => exact absurd rfl hcrashed
  | routed | opening | streaming | closed => exact h.elim
  | requesting idempotent attempt | backingOff idempotent attempt => cases hended

end

end Microservices.Gateway
