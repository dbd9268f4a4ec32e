import Mathlib.Algebra.Order.Group.Int
import Microservices.Gateway.Dispatch

/-!
# The event-stream branch against the buffered one

A `GET` takes the event-stream branch of `proxy` when its `Accept` header says so,
whatever its route. That branch hands out its response before the upstream has
answered, and records a success as soon as it has, with any status; a stream that
breaks off afterwards records a failure as well.

Both branches are run here from one world on one upstream answer. The buffered one
may go on to ask again, and is given the later replies too.
-/

namespace Microservices.Gateway

open CircuitBreaker Schedule

/-- How the body breaks off. -/
inductive BodyExc where
  | timeoutException
  | other
  deriving DecidableEq, Repr

/-- The upstream's answer to the first attempt: a status, and a body that may break off. -/
structure Upstream where
  statusCode : Nat
  failure : Option BodyExc
  deriving DecidableEq, Repr

/-- `client.request` reads the whole body before it returns. -/
def Upstream.reply (u : Upstream) : Reply :=
  match u.failure with
  | none => .response u.statusCode
  | some .timeoutException => .raised .timeoutException
  | some .other => .raisedOther

/-- The replies to one call after the other, with the backoff sleeps between them. -/
def replies (τ : Type) (i : Nat) : List Reply → List (Event τ)
  | [] => []
  | r :: later => .wake i :: .reply i r :: replies τ i later

/-- A buffered `GET`. -/
def bufferedRun (τ : Type) (i : Nat) (u : Upstream) (later : List Reply) : List (Event τ) :=
  .arrive i (.buffered true) :: .reply i u.reply :: replies τ i later

/-- A streamed `GET`. -/
def sseRun (τ : Type) (i : Nat) (u : Upstream) : List (Event τ) :=
  [.arrive i .sse, .connected i, if u.failure = none then .streamEnd i else .streamError i]

/-- The status the client has been sent. A `StreamingResponse` starts with its own, 200. -/
def Phase.status : Phase → Option Nat
  | .routed | .requesting _ _ | .backingOff _ _ | .crashed => none
  | .opening | .streaming | .closed => some 200
  | .returned statusCode => some statusCode
  | .raised error => some error.statusCode

/-- The outcomes in a log, newest first. -/
def outcomes (log : List LogEntry) : List Outcome :=
  log.filterMap fun
    | .recorded o => some o
    | _ => none

/-- The buffered branch, from `w` to `wb`, and the streamed one, from `w` to `ws`, agree. -/
structure PathsAgree {τ : Type} (i : Nat) (u : Upstream) (w wb ws : World τ) : Prop where
  status : (wb.calls i).status = (ws.calls i).status
  /-- Each has recorded one outcome, the same. -/
  outcome : ∃ o, outcomes wb.log = o :: outcomes w.log ∧ outcomes ws.log = o :: outcomes w.log
  /-- Neither records a retryable status as a success. -/
  retryable : u.statusCode ∈ retryableStatus →
    .success ∉ (outcomes ws.log).take ((outcomes ws.log).length - (outcomes w.log).length)
      ∧ ∀ attempt, (afterAttempt w.breaker.serviceName true attempt (.response u.statusCode))
          ≠ .ret .success u.statusCode

variable {τ : Type}

theorem setCall_calls (w : World τ) (i : Nat) (p : Phase) : (w.setCall i p).calls i = p :=
  Function.update_self ..

/-- Any other status is returned, and recorded as a success, at the first attempt. -/
theorem afterAttempt_final (name : String) {statusCode : Nat} (h : statusCode ∉ retryableStatus) :
    afterAttempt name true 0 (.response statusCode) = .ret .success statusCode := by
  rw [afterAttempt, if_neg (fun hc => h hc.1), if_pos (Or.inr h)]

variable [LinearOrder τ] [AddCommGroup τ]

theorem outcomes_observe (w : World τ) : outcomes w.observe.log = outcomes w.log := by
  unfold World.observe
  dsimp only
  split
  · rfl
  · rfl

/-- A call that the breaker lets through records nothing yet. -/
theorem arrive_admitted {w w₁ : World τ} {i : Nat} {r : Route} (h : step w (.arrive i r) = some w₁) :
    (∃ e, w₁.calls i = .raised e)
      ∨ (w₁.calls i = firstAwait r ∧ outcomes w₁.log = outcomes w.log
        ∧ w₁.breaker.serviceName = w.breaker.serviceName) := by
  rw [step] at h
  split at h
  · cases h
    unfold World.arrive
    split
    · exact Or.inl ⟨_, setCall_calls ..⟩
    · refine Or.inr ⟨setCall_calls .., outcomes_observe w, ?_⟩
      show (w.breaker.observe w.now).serviceName = _
      rcases observe_cases w.breaker w.now with ⟨_, he⟩ | ⟨_, he⟩
      · rw [he]
      · rw [he]
  · cases h

/-- **The streamed branch**: 200, a success, and a failure on top if the body breaks off. -/
theorem exec_sseRun {w ws : World τ} {i : Nat} {u : Upstream}
    (h : exec step w (sseRun τ i u) = some ws) :
    (ws.calls i).status = some 200
      ∧ outcomes ws.log
        = (if u.failure = none then [.success] else [.failure, .success]) ++ outcomes w.log := by
  obtain ⟨w₁, harrive, h⟩ := exec_cons_inv h
  obtain ⟨w₂, hconnect, h⟩ := exec_cons_inv h
  obtain ⟨w₃, hend, h⟩ := exec_cons_inv h
  cases h
  rcases arrive_admitted harrive with ⟨e, he⟩ | ⟨hcall, hlog, _⟩
  · -- the breaker has turned it away, so nothing connects
    rw [step, he] at hconnect
    cases hconnect
  · rw [step, hcall] at hconnect
    cases hconnect
    rw [← hlog]
    have hstreaming : ((w₁.record .success).setCall i .streaming).calls i = .streaming :=
      setCall_calls ..
    by_cases hf : u.failure = none
    · rw [if_pos hf] at hend ⊢
      rw [step, hstreaming] at hend
      cases hend
      refine ⟨?_, rfl⟩
      rw [setCall_calls]
      rfl
    · rw [if_neg hf] at hend ⊢
      rw [step, hstreaming] at hend
      cases hend
      refine ⟨?_, rfl⟩
      rw [setCall_calls]
      rfl

/-- **The buffered branch**, on a whole body with a status it does not retry. -/
theorem exec_bufferedRun {w wb : World τ} {i : Nat} {u : Upstream} {later : List Reply}
    (hwhole : u.failure = none) (hstatus : u.statusCode ∉ retryableStatus)
    (h : exec step w (bufferedRun τ i u later) = some wb) :
    (wb.calls i).status = some u.statusCode ∧ outcomes wb.log = .success :: outcomes w.log := by
  obtain ⟨w₁, harrive, h⟩ := exec_cons_inv h
  obtain ⟨w₂, hreply, h⟩ := exec_cons_inv h
  have hu : u.reply = .response u.statusCode := by rw [Upstream.reply, hwhole]
  rcases arrive_admitted harrive with ⟨e, he⟩ | ⟨hcall, hlog, _⟩
  · -- turned away, it is sent nothing and gets no reply
    rw [step, he] at hreply
    cases hreply
  · rw [step, hcall, firstAwait] at hreply
    dsimp only at hreply
    rw [hu, afterAttempt_final _ hstatus] at hreply
    cases hreply
    have hreturned : (w₁.resume i true 0 (.ret .success u.statusCode)).calls i
        = .returned u.statusCode := setCall_calls ..
    cases later with
    | nil =>
        cases h
        rw [hreturned, ← hlog]
        exact ⟨rfl, rfl⟩
    | cons r later =>
        -- the call has been answered, and no backoff sleep is left to wake from
        obtain ⟨w₃, hwake, _⟩ := exec_cons_inv h
        rw [step, hreturned] at hwake
        cases hwake

/--
**The two branches agree exactly on a 200 with a whole body.**

For every world in which both get to their upstream, every status, every way the
body may end and every further reply to the buffered one.
-/
theorem sse_agrees_with_buffered_iff (i : Nat) (u : Upstream) (later : List Reply)
    (w wb ws : World τ) (hb : exec step w (bufferedRun τ i u later) = some wb)
    (hs : exec step w (sseRun τ i u) = some ws) :
    PathsAgree i u w wb ws ↔ u.statusCode = 200 ∧ u.failure = none := by
  obtain ⟨hstatus, houtcomes⟩ := exec_sseRun hs
  by_cases hwhole : u.failure = none
  · rw [if_pos hwhole] at houtcomes
    by_cases hretry : u.statusCode ∈ retryableStatus
    · -- the streamed branch has recorded it as a success
      have hne : u.statusCode ≠ 200 := by
        intro he
        rw [he] at hretry
        exact absurd hretry (by decide)
      refine iff_of_false (fun h => (h.retryable hretry).1 ?_) (fun h => hne h.1)
      rw [houtcomes]
      simp
    · obtain ⟨hstatus', houtcomes'⟩ := exec_bufferedRun hwhole hretry hb
      constructor
      · intro h
        have := h.status
        rw [hstatus, hstatus'] at this
        exact ⟨Option.some.inj this, hwhole⟩
      · rintro ⟨he, _⟩
        refine ⟨by rw [hstatus, hstatus', he], ⟨.success, houtcomes', houtcomes⟩, ?_⟩
        intro hmem
        exact absurd hmem hretry
  · -- two outcomes have been recorded for one stream
    rw [if_neg hwhole] at houtcomes
    refine iff_of_false (fun h => ?_) (fun h => hwhole h.2)
    obtain ⟨o, _, ho⟩ := h.outcome
    rw [houtcomes] at ho
    have := congrArg List.length ho
    simp at this

def calm : World Int := World.init "notification-service" 5 30 0

theorem sse_agrees_on_whole_200 :
    ∃ wb ws, exec step calm (bufferedRun Int 0 ⟨200, none⟩ []) = some wb
      ∧ exec step calm (sseRun Int 0 ⟨200, none⟩) = some ws
      ∧ PathsAgree 0 ⟨200, none⟩ calm wb ws := by
  refine ⟨_, _, rfl, rfl, ?_⟩
  exact (sse_agrees_with_buffered_iff 0 ⟨200, none⟩ [] calm _ _ rfl rfl).mpr ⟨rfl, rfl⟩

/--
**A 503 is streamed as a 200 and recorded as a success**, where the buffered branch
asks twice more, relays the 503 and records a failure; and a 200 whose stream breaks
off is recorded as both.
-/
theorem sse_disagrees_on_503 :
    ∃ wb ws, exec step calm (bufferedRun Int 0 ⟨503, none⟩ [.response 503, .response 503]) = some wb
      ∧ exec step calm (sseRun Int 0 ⟨503, none⟩) = some ws
      ∧ (wb.calls 0).status = some 503 ∧ outcomes wb.log = [.failure]
      ∧ (ws.calls 0).status = some 200 ∧ outcomes ws.log = [.success]
      ∧ ¬ PathsAgree 0 ⟨503, none⟩ calm wb ws
      ∧ ∃ wf, exec step calm (sseRun Int 0 ⟨200, some .other⟩) = some wf
        ∧ outcomes wf.log = [.failure, .success] := by
  refine ⟨_, _, rfl, rfl, rfl, rfl, rfl, rfl, fun h => ?_, _, rfl, rfl⟩
  have := h.status
  revert this
  decide

end Microservices.Gateway
