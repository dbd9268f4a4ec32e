import Mathlib.Algebra.Order.Group.Int
import Microservices.Lib.Dict
import Microservices.Lib.Projection
import Microservices.Gateway.Dispatch

/-!
# The registry of breakers

The gateway has one breaker for each upstream name, made when a call first asks for it,
and one event loop for the calls to all of them. `/health/ready` reads every breaker
there is, and a read can move one from `OPEN` to `HALF_OPEN`.

The calls to one upstream see nothing of this: what the whole gateway does to them is
what `Dispatch` does with a breaker of their own, under the same clock.
-/

namespace Microservices.Gateway

open CircuitBreaker Schedule

variable {τ : Type}

/-! ## `CircuitBreakerRegistry` -/

abbrev Registry (τ : Type) := Dict String (CircuitBreaker τ)

/-- `CircuitBreaker(service_name)`; `timeout` is the default of 30 seconds, on the clock. -/
def newBreaker (timeout : τ) (serviceName : String) : CircuitBreaker τ :=
  { serviceName, failureThreshold := 5, recoveryTimeout := timeout }

/-- `get`. -/
def Registry.get (timeout : τ) (r : Registry τ) (serviceName : String) :
    CircuitBreaker τ × Registry τ :=
  match r.get? serviceName with
  | some b => (b, r)
  | none => (newBreaker timeout serviceName, r.set serviceName (newBreaker timeout serviceName))

section

variable [LinearOrder τ] [AddCommGroup τ]

/-- `all_states`. -/
def Registry.allStates (r : Registry τ) (now : τ) : List (String × CircuitState) × Registry τ :=
  (r.entries.map fun e => (e.1, (e.2.state now).1), r.mapValues fun b => (b.state now).2)

/-! ## `/health/ready` -/

/-- The services `readiness` asks, in its order. -/
def readinessServices : List String := ["user-service", "task-service", "notification-service"]

inductive ReadinessAnswer where
  /-- 503, before the HTTP client is there. -/
  | starting
  /-- 503. -/
  | degraded (unhealthy : List String) (circuitBreakers : List (String × CircuitState))
  | ready (services : List String) (circuitBreakers : List (String × CircuitState))
  deriving DecidableEq, Repr

/-- What `readiness` finds: the HTTP client, and how `GET /health` of a service ends, in a status or in an
exception. -/
structure Probes where
  httpClient : Bool
  health : String → Option Nat

/-- `readiness`. -/
def readiness (probes : Probes) (now : τ) (r : Registry τ) : ReadinessAnswer × Registry τ :=
  if probes.httpClient then
    let unhealthy := readinessServices.filter fun name => probes.health name ≠ some 200
    let (circuitBreakers, r') := r.allStates now
    (if unhealthy = [] then .ready readinessServices circuitBreakers
      else .degraded unhealthy circuitBreakers, r')
  else (.starting, r)

/-! ## All upstreams -/

/-- The gateway's clock and breakers, and the calls to each upstream by its name. -/
structure GatewayWorld (τ : Type) where
  now : τ
  registry : Registry τ
  calls : String → Nat → Phase

/-- What a call can do next. -/
inductive CallEvent where
  | arrive (route : Route)
  | reply (reply : Reply)
  | wake
  | connected
  | streamError
  | streamEnd
  deriving DecidableEq, Repr

/-- The event of call number `i`. -/
def CallEvent.event (i : Nat) : CallEvent → Event τ
  | .arrive r => .arrive i r
  | .reply r => .reply i r
  | .wake => .wake i
  | .connected => .connected i
  | .streamError => .streamError i
  | .streamEnd => .streamEnd i

inductive GatewayEvent (τ : Type) where
  | tick (t : τ)
  | ready (probes : Probes)
  /-- Call number `i` to the upstream goes on. -/
  | call (serviceName : String) (i : Nat) (e : CallEvent)

namespace GatewayWorld

/-- No breaker has been asked for yet. -/
def init (now : τ) : GatewayWorld τ where
  now := now
  registry := Dict.empty
  calls := fun _ _ => .routed

/-- What the calls to one upstream have around them. -/
def upstream (timeout : τ) (g : GatewayWorld τ) (serviceName : String) : World τ where
  now := g.now
  breaker := (g.registry.get timeout serviceName).1
  calls := g.calls serviceName
  log := []

def step (timeout : τ) (g : GatewayWorld τ) : GatewayEvent τ → Option (GatewayWorld τ)
  | .tick t => if g.now ≤ t then some { g with now := t } else none
  | .ready probes => some { g with registry := (readiness probes g.now g.registry).2 }
  | .call serviceName i e =>
      (Gateway.step (g.upstream timeout serviceName) (e.event i)).map fun w =>
        { g with
          registry := (g.registry.get timeout serviceName).2.set serviceName w.breaker
          calls := Function.update g.calls serviceName w.calls }

end GatewayWorld

/-- What the calls to one upstream see of an event. -/
def GatewayEvent.seenBy (name : String) : GatewayEvent τ → Option (Event τ)
  | .tick t => some (.tick t)
  | .ready _ => none
  | .call serviceName i e => if serviceName = name then some (e.event i) else none

end

/-! ## Reading a breaker makes no difference -/

section

variable [LinearOrder τ] [AddCommGroup τ]

theorem observe_serviceName (b : CircuitBreaker τ) (now : τ) :
    (b.observe now).serviceName = b.serviceName := by
  rcases b.observe_cases now with ⟨_, he⟩ | ⟨_, he⟩
  · rw [he]
  · rw [he]

/-- Outcomes are recorded alike on a breaker that has been read and on one that has not. -/
theorem recordSuccess_observe (b : CircuitBreaker τ) (now : τ) :
    (b.observe now).recordSuccess = b.recordSuccess := by
  rcases b.observe_cases now with ⟨_, he⟩ | ⟨_, he⟩
  · rw [he]
    rfl
  · rw [he]

theorem recordFailure_observe (b : CircuitBreaker τ) (now t : τ) :
    (b.observe now).recordFailure t = b.recordFailure t := by
  rcases b.observe_cases now with ⟨⟨ho, _⟩, he⟩ | ⟨_, he⟩
  · rw [he]
    -- half-open or not, the breaker is open after a failure
    unfold recordFailure
    simp [ho]
  · rw [he]

/-- A later reading finds what it would have found. -/
theorem observe_observe_of_le [IsOrderedAddMonoid τ] (b : CircuitBreaker τ) {now now' : τ}
    (h : now ≤ now') :
    (b.observe now).observe now' = b.observe now' := by
  rcases b.observe_cases now with ⟨⟨ho, t, ht, hwait⟩, he⟩ | ⟨_, he⟩
  · have hlater : b.recovered now' := ⟨ho, t, ht, hwait.trans (sub_le_sub_right h t)⟩
    have hhalf : (b.observe now).state_ = .halfOpen := by rw [he]
    rw [observe_of_halfOpen hhalf, he, observe, if_pos hlater]
  · rw [he]

/-- The worlds differ in what their breakers have been read, and in the ghost log. -/
structure Alike (w u : World τ) : Prop where
  now : w.now = u.now
  calls : w.calls = u.calls
  breaker : w.breaker.observe w.now = u.breaker.observe u.now

namespace Alike

variable {w u : World τ}

theorem refl (w : World τ) : Alike w w := ⟨rfl, rfl, rfl⟩

theorem serviceName (h : Alike w u) : w.breaker.serviceName = u.breaker.serviceName := by
  rw [← observe_serviceName w.breaker w.now, h.breaker, observe_serviceName]

theorem withLog (h : Alike w u) (l l' : List LogEntry) :
    Alike { w with log := l } { u with log := l' } := ⟨h.now, h.calls, h.breaker⟩

theorem setCall (h : Alike w u) (i : Nat) (p : Phase) : Alike (w.setCall i p) (u.setCall i p) where
  now := h.now
  calls := by
    show Function.update w.calls i p = Function.update u.calls i p
    rw [h.calls]
  breaker := h.breaker

/-- The same outcome recorded on both leaves one breaker. -/
theorem record (h : Alike w u) (o : Outcome) : Alike (w.record o) (u.record o) := by
  have hbreaker : (w.record o).breaker = (u.record o).breaker := by
    cases o with
    | success =>
        have hsame := congrArg CircuitBreaker.recordSuccess h.breaker
        rwa [recordSuccess_observe, recordSuccess_observe] at hsame
    | failure =>
        have hsame := congrArg (fun b => b.recordFailure w.now) h.breaker
        rw [recordFailure_observe, recordFailure_observe] at hsame
        show w.breaker.recordFailure w.now = u.breaker.recordFailure u.now
        rw [hsame, h.now]
  have hnow : (w.record o).now = (u.record o).now := by
    cases o <;> exact h.now
  refine ⟨hnow, ?_, by rw [hbreaker, hnow]⟩
  cases o <;> exact h.calls

theorem resume (h : Alike w u) (i : Nat) (isIdempotent : Bool) (attempt : Nat) (x : Next) :
    Alike (w.resume i isIdempotent attempt x) (u.resume i isIdempotent attempt x) := by
  cases x with
  | again => exact h.setCall i _
  | ret o statusCode => exact (h.record o).setCall i _
  | exhausted error => exact (h.record .failure).setCall i _
  | propagates => exact h.setCall i _

/-- Reading both changes nothing about that. -/
theorem observe (h : Alike w u) : Alike w.observe u.observe where
  now := h.now
  calls := h.calls
  breaker := by
    show (w.breaker.observe w.now).observe w.now = (u.breaker.observe u.now).observe u.now
    rw [h.breaker, h.now]

theorem arrive (h : Alike w u) (i : Nat) (r : Route) : Alike (w.arrive i r) (u.arrive i r) := by
  have hopen : (w.breaker.isOpen w.now).1 = (u.breaker.isOpen u.now).1 := by
    unfold isOpen state
    dsimp only
    rw [h.breaker]
  unfold World.arrive
  rw [hopen, h.serviceName]
  split
  · exact (h.observe.setCall i _).withLog _ _
  · exact (h.observe.setCall i _).withLog _ _

/-- **Each can do what the other does**, and then they are still alike. -/
theorem step [IsOrderedAddMonoid τ] (h : Alike w u) {e : Event τ} {w' : World τ} (hs : Gateway.step w e = some w') :
    ∃ u', Gateway.step u e = some u' ∧ Alike w' u' := by
  cases e with
  | tick t =>
      rw [Gateway.step] at hs
      split at hs
      · rename_i ht
        cases hs
        refine ⟨{ u with now := t }, ?_, rfl, h.calls, ?_⟩
        · rw [Gateway.step, if_pos (h.now ▸ ht)]
        · show w.breaker.observe t = u.breaker.observe t
          rw [← observe_observe_of_le w.breaker ht, h.breaker, observe_observe_of_le _ (h.now ▸ ht)]
      · cases hs
  | readState =>
      cases hs
      exact ⟨u.observe, rfl, h.observe⟩
  | arrive i r =>
      rw [Gateway.step] at hs ⊢
      rw [← h.calls]
      split at hs
      · cases hs
        exact ⟨_, rfl, h.arrive i r⟩
      · cases hs
  | reply i r =>
      rw [Gateway.step] at hs ⊢
      rw [← h.calls, ← h.serviceName]
      split at hs
      · cases hs
        exact ⟨_, rfl, h.resume i _ _ _⟩
      · cases hs
  | wake i =>
      rw [Gateway.step] at hs ⊢
      rw [← h.calls]
      split at hs
      · cases hs
        exact ⟨_, rfl, h.setCall i _⟩
      · cases hs
  | connected i =>
      rw [Gateway.step] at hs ⊢
      rw [← h.calls]
      split at hs
      · cases hs
        exact ⟨_, rfl, (h.record .success).setCall i _⟩
      · cases hs
  | streamError i =>
      rw [Gateway.step] at hs ⊢
      rw [← h.calls]
      split at hs
      · cases hs
        exact ⟨_, rfl, (h.record .failure).setCall i _⟩
      · cases hs
        exact ⟨_, rfl, (h.record .failure).setCall i _⟩
      · cases hs
  | streamEnd i =>
      rw [Gateway.step] at hs ⊢
      rw [← h.calls]
      split at hs
      · cases hs
        exact ⟨_, rfl, h.setCall i _⟩
      · cases hs
        exact ⟨_, rfl, h.setCall i _⟩
      · cases hs

end Alike

end

/-! ## Upstreams do not meet -/

section

variable {timeout : τ} {r : Registry τ} {name other : String}

theorem Registry.get_set_self (b : CircuitBreaker τ) :
    (Registry.get timeout (r.set name b) name).1 = b := by
  unfold Registry.get
  rw [Dict.get?_set_self]

theorem Registry.get_set_ne (h : other ≠ name) (b : CircuitBreaker τ) :
    (Registry.get timeout (r.set name b) other).1 = (Registry.get timeout r other).1 := by
  unfold Registry.get
  rw [Dict.get?_set_ne h]
  cases r.get? other <;> rfl

/-- Making a breaker leaves the others as they are. -/
theorem Registry.get_get_ne (h : other ≠ name) :
    (Registry.get timeout (Registry.get timeout r name).2 other).1
      = (Registry.get timeout r other).1 := by
  cases hname : r.get? name with
  | some b =>
      have hkept : (Registry.get timeout r name).2 = r := by
        unfold Registry.get
        rw [hname]
      rw [hkept]
  | none =>
      have hmade : (Registry.get timeout r name).2 = r.set name (newBreaker timeout name) := by
        unfold Registry.get
        rw [hname]
      rw [hmade, get_set_ne h]

theorem record_now (w : World τ) (o : Outcome) : (w.record o).now = w.now := by
  cases o <;> rfl

theorem resume_now (w : World τ) (i : Nat) (isIdempotent : Bool) (attempt : Nat) (x : Next) :
    (w.resume i isIdempotent attempt x).now = w.now := by
  cases x with
  | again => rfl
  | ret o statusCode => exact record_now w o
  | exhausted error => rfl
  | propagates => rfl

variable [LinearOrder τ] [AddCommGroup τ]

/-- The clock stands still while a call goes on. -/
theorem CallEvent.keeps_now {w w' : World τ} {i : Nat} {e : CallEvent}
    (h : Gateway.step w (e.event i) = some w') : w'.now = w.now := by
  cases e with
  | arrive r =>
      rw [CallEvent.event, Gateway.step] at h
      split at h
      · cases h
        exact arrive_now w i r
      · cases h
  | reply r =>
      rw [CallEvent.event, Gateway.step] at h
      split at h
      · cases h
        exact resume_now w i _ _ _
      · cases h
  | wake =>
      rw [CallEvent.event, Gateway.step] at h
      split at h <;> cases h
      rfl
  | connected =>
      rw [CallEvent.event, Gateway.step] at h
      split at h <;> cases h
      rfl
  | streamError =>
      rw [CallEvent.event, Gateway.step] at h
      split at h <;> cases h <;> rfl
  | streamEnd =>
      rw [CallEvent.event, Gateway.step] at h
      split at h <;> cases h <;> rfl

/-- A readiness probe reads the breaker, or finds none. -/
theorem observe_get_readiness [IsOrderedAddMonoid τ] (probes : Probes) (now : τ) :
    (Registry.get timeout (readiness probes now r).2 name).1.observe now
      = (Registry.get timeout r name).1.observe now := by
  unfold readiness
  split
  · unfold Registry.get Registry.allStates
    dsimp only
    rw [Dict.get?_mapValues]
    cases r.get? name with
    | none => rfl
    | some b => exact observe_observe_of_le b (le_refl now)
  · rfl

variable [IsOrderedAddMonoid τ]

/-- **The calls to one upstream take their own steps**, and no event but these and the clock shows. -/
theorem projects_upstream (timeout : τ) (name : String) :
    Projects (GatewayWorld.step timeout) Gateway.step (fun _ _ => True)
      (GatewayEvent.seenBy name) (fun g w => Alike (g.upstream timeout name) w) where
  visible := by
    intro g w e e' g' hg _ hlabel hs
    cases e with
    | tick t =>
        cases hlabel
        rw [GatewayWorld.step] at hs
        split at hs
        · rename_i ht
          cases hs
          refine hg.step (e := .tick t) ?_
          exact if_pos ht
        · cases hs
    | ready probes => cases hlabel
    | call serviceName i e =>
        rw [GatewayEvent.seenBy] at hlabel
        split at hlabel
        · rename_i hname
          cases hlabel
          subst hname
          obtain ⟨w₁, hw₁, rfl⟩ := Option.map_eq_some_iff.mp hs
          obtain ⟨w', hw', halike⟩ := hg.step hw₁
          refine ⟨w', hw', ?_⟩
          have hnow : w₁.now = g.now := CallEvent.keeps_now hw₁
          refine ⟨hnow.symm.trans halike.now, ?_, ?_⟩
          · show Function.update g.calls serviceName w₁.calls serviceName = w'.calls
            rw [Function.update_self, halike.calls]
          · show (Registry.get timeout _ serviceName).1.observe g.now = _
            rw [Registry.get_set_self, ← hnow, halike.breaker]
        · cases hlabel
  hidden := by
    intro g w e g' hg _ hlabel hs
    cases e with
    | tick t => cases hlabel
    | ready probes =>
        cases hs
        refine ⟨hg.now, hg.calls, ?_⟩
        rw [← hg.breaker]
        exact observe_get_readiness probes g.now
    | call serviceName i e =>
        rw [GatewayEvent.seenBy] at hlabel
        split at hlabel
        · cases hlabel
        · rename_i hname
          obtain ⟨w₁, _, rfl⟩ := Option.map_eq_some_iff.mp hs
          refine ⟨hg.now, ?_, ?_⟩
          · show Function.update g.calls serviceName w₁.calls name = w.calls
            rw [Function.update_of_ne (Ne.symm hname)]
            exact hg.calls
          · rw [← hg.breaker]
            show (Registry.get timeout _ name).1.observe g.now = _
            rw [Registry.get_set_ne (Ne.symm hname), Registry.get_get_ne (Ne.symm hname)]
            rfl

/--
**Upstreams do not meet.**

After any run of the gateway the calls to an upstream are where they would be with a
breaker of their own and with no events but theirs and the clock's, and the state that a
readiness probe reports for the upstream is the state of that breaker. Neither calls to
other upstreams nor readiness probes make a difference.
-/
theorem upstream_runs_alone (timeout now : τ) {es : List (GatewayEvent τ)} {g : GatewayWorld τ}
    (h : exec (GatewayWorld.step timeout) (GatewayWorld.init now) es = some g) (name : String) :
    ∃ w, exec Gateway.step (World.init name 5 timeout now) (es.filterMap (GatewayEvent.seenBy name))
        = some w
      ∧ g.calls name = w.calls
      ∧ ∀ s, (name, s) ∈ (g.registry.allStates g.now).1 → s = (w.breaker.state w.now).1 := by
  have hstart : Alike ((GatewayWorld.init now).upstream timeout name)
      (World.init name 5 timeout now) := ⟨rfl, rfl, rfl⟩
  obtain ⟨w, hw, halike⟩ := (projects_upstream timeout name).exec hstart (meets_true _ es) h
  refine ⟨w, hw, halike.calls, fun s hs => ?_⟩
  obtain ⟨⟨name', b⟩, hb, heq⟩ := List.mem_map.mp hs
  obtain ⟨hname, hstate⟩ := Prod.mk.inj heq
  subst hname
  have hget : (g.registry.get timeout name').1 = b := by
    unfold Registry.get
    rw [Dict.get?_eq_some_of_mem hb]
  have hbreaker : b.observe g.now = w.breaker.observe w.now := by
    rw [← hget]
    exact halike.breaker
  rw [← hstate]
  exact congrArg state_ hbreaker

end

/-- A stream is opened from one service and a task is fetched from another, with a readiness probe
in between. -/
def twoUpstreams : List (GatewayEvent Int) :=
  [.call "notification-service" 0 (.arrive .sse), .ready ⟨true, fun _ => some 200⟩, .tick 40,
    .call "task-service" 0 (.arrive (.buffered true)), .call "notification-service" 0 .connected]

theorem upstream_runs_alone_two : ∃ g : GatewayWorld Int,
    exec (GatewayWorld.step 30) (GatewayWorld.init 0) twoUpstreams = some g
      ∧ ∃ w, exec Gateway.step (World.init "notification-service" 5 30 0)
          (twoUpstreams.filterMap (GatewayEvent.seenBy "notification-service")) = some w
        ∧ g.calls "notification-service" = w.calls
        ∧ ∀ s, ("notification-service", s) ∈ (g.registry.allStates g.now).1 →
          s = (w.breaker.state w.now).1 :=
  ⟨_, rfl, upstream_runs_alone 30 0 rfl "notification-service"⟩

end Microservices.Gateway
