import Microservices.Chaos.Actions
import Microservices.Lib.Schedule
import Microservices.Lib.Slots

/-!
# Overlapping actions

In scenario mode `_lock` lets every action through, and the event loop switches at the
waits: a step is one action running up to its next wait. Which one is open, so a
schedule is any list of starts and resumptions.

An invariant is proved effect by effect. Between two effects of a step a call is a
`Thread`: its local variables, and what is left of it.
-/

namespace Microservices.Chaos

open Schedule

/-- One call of an action. -/
structure Call where
  action : Action
  /-- What it does after the wait it is in, wait by wait. -/
  rest : List (List Effect)
  locals : Locals := {}
  stopped : Option Stop := none

namespace Call

/-- Up to the next wait. -/
def resume (suffix : Nat → String) (call : Call) (c : Cluster) : Call × Cluster :=
  match call.rest with
  | [] => (call, c)
  | segment :: rest =>
      let out := runEffects suffix segment call.locals c
      ({ call with
          rest := if out.1.isSome then [] else rest
          locals := out.2.1
          stopped := out.1 }, out.2.2)

/-- It has run to its last line. -/
def Completed (call : Call) : Prop := call.rest = [] ∧ call.stopped = none

instance (call : Call) : Decidable call.Completed := inferInstanceAs (Decidable (_ ∧ _))

end Call

structure Scenario where
  cluster : Cluster
  calls : List Call := []

inductive ScenarioEvent where
  | start (a : Action)
  /-- A wait of the call is over. -/
  | resume (i : Nat)
  deriving DecidableEq, Repr

namespace Scenario

/-- Before the first action. -/
def init (suffix : Nat → String) : Scenario := { cluster := Cluster.start suffix }

def step (suffix : Nat → String) (w : Scenario) : ScenarioEvent → Option Scenario
  | .start a =>
      let out := Call.resume suffix { action := a, rest := a.segments } w.cluster
      some { cluster := out.2, calls := w.calls ++ [out.1] }
  | .resume i =>
      match w.calls[i]? with
      | none => none
      | some call =>
          if call.rest = [] then none
          else
            let out := call.resume suffix w.cluster
            some { cluster := out.2, calls := w.calls.set i out.1 }

end Scenario

/-- A call between two effects. -/
structure Thread where
  locals : Locals
  left : List Effect

def Call.thread (call : Call) : Thread := ⟨call.locals, call.rest.flatten⟩

def Scenario.threads (w : Scenario) : List Thread := w.calls.map Call.thread

/-- Every effect is run in a state that satisfies `G`. -/
def Guarded (suffix : Nat → String) (G : Locals → Cluster → Effect → Prop) :
    List Effect → Locals → Cluster → Prop
  | [], _, _ => True
  | e :: es, l, c =>
      G l c e ∧ (e.stops c = none → Guarded suffix G es (e.run suffix l c).1 (e.run suffix l c).2)

/-- The next segment of the call that moves is guarded. -/
def Scenario.StepGuarded (suffix : Nat → String) (G : Locals → Cluster → Effect → Prop)
    (w : Scenario) : ScenarioEvent → Prop
  | .start a => ∀ segment ∈ a.segments.head?, Guarded suffix G segment {} w.cluster
  | .resume i => ∀ call ∈ w.calls[i]?, ∀ segment ∈ call.rest.head?,
      Guarded suffix G segment call.locals w.cluster

variable {suffix : Nat → String} {w w' : Scenario}

/-- Effects that a guard says nothing about. -/
theorem guarded_of_forall {G : Locals → Cluster → Effect → Prop} {es : List Effect}
    (h : ∀ e ∈ es, ∀ l c, G l c e) (l : Locals) (c : Cluster) : Guarded suffix G es l c := by
  induction es generalizing l c with
  | nil => trivial
  | cons e es ih =>
      exact ⟨h e List.mem_cons_self l c, fun _ => ih (fun e' he => h e' (List.mem_cons_of_mem e he)) _ _⟩

/-! ## What a step does -/

/-- The calls that may move in a step: a new one is among them. -/
def Scenario.opened (w : Scenario) : ScenarioEvent → List Call
  | .start a => w.calls ++ [{ action := a, rest := a.segments }]
  | .resume _ => w.calls

theorem Scenario.step_resume {i : Nat} (hs : w.step suffix (.resume i) = some w') :
    ∃ call, w.calls[i]? = some call ∧ call.rest ≠ [] ∧ w'.cluster = (call.resume suffix w.cluster).2
      ∧ w'.calls = w.calls.set i (call.resume suffix w.cluster).1 := by
  unfold Scenario.step at hs
  dsimp only at hs
  cases hcall : w.calls[i]? with
  | none =>
      rw [hcall] at hs
      cases hs
  | some call =>
      rw [hcall] at hs
      dsimp only at hs
      split at hs
      · cases hs
      · rename_i hrest
        cases hs
        exact ⟨call, rfl, hrest, rfl, rfl⟩

/-- **In a step one call goes up to its next wait.** -/
theorem Scenario.step_cases {e : ScenarioEvent} (hs : w.step suffix e = some w') :
    ∃ i call, (w.opened e)[i]? = some call ∧ w'.cluster = (call.resume suffix w.cluster).2
      ∧ w'.calls = (w.opened e).set i (call.resume suffix w.cluster).1
      ∧ ∀ G, w.StepGuarded suffix G e
        ↔ ∀ segment ∈ call.rest.head?, Guarded suffix G segment call.locals w.cluster := by
  cases e with
  | start a =>
      cases hs
      refine ⟨w.calls.length, { action := a, rest := a.segments }, List.getElem?_concat_length, rfl, ?_,
        fun _ => Iff.rfl⟩
      unfold Scenario.opened
      rw [List.set_append_right _ _ le_rfl, Nat.sub_self]
      rfl
  | resume i =>
      obtain ⟨call, hcall, _, hcluster, hcalls⟩ := Scenario.step_resume hs
      refine ⟨i, call, hcall, hcluster, hcalls, fun G => ⟨fun hG => hG call hcall, fun hG call' hcall' => ?_⟩⟩
      cases hcall.symm.trans hcall'
      exact hG

/-- What holds of a new call and is kept by each that moves, holds of all calls. -/
theorem Scenario.forall_step {P : Call → Prop} (hnew : ∀ a, P { action := a, rest := a.segments })
    (hresume : ∀ call c, P call → P (call.resume suffix c).1) {e : ScenarioEvent}
    (h : ∀ call ∈ w.calls, P call) (hs : w.step suffix e = some w') : ∀ call ∈ w'.calls, P call := by
  obtain ⟨i, call, hcall, _, hcalls, _⟩ := Scenario.step_cases hs
  have hopened : ∀ call ∈ w.opened e, P call := by
    cases e with
    | start a =>
        intro call hmem
        rcases List.mem_append.mp hmem with hmem | hmem
        · exact h call hmem
        · cases List.mem_singleton.mp hmem
          exact hnew a
    | resume i => exact h
  rw [hcalls]
  exact Slots.forall_mem_set hopened i (hresume call _ (hopened call (List.mem_of_getElem? hcall)))

/-- What a call has left is the end of the text of its action. -/
theorem Call.rest_resume {call : Call} {c : Cluster} (h : call.rest <:+ call.action.segments) :
    (call.resume suffix c).1.rest <:+ (call.resume suffix c).1.action.segments := by
  unfold Call.resume
  cases hrest : call.rest with
  | nil => exact h
  | cons segment rest =>
      show (if _ then _ else _) <:+ call.action.segments
      split
      · exact List.nil_suffix
      · rw [hrest] at h
        exact (List.suffix_cons segment rest).trans h

theorem Scenario.rest_step {e : ScenarioEvent} (h : ∀ call ∈ w.calls, call.rest <:+ call.action.segments)
    (hs : w.step suffix e = some w') : ∀ call ∈ w'.calls, call.rest <:+ call.action.segments :=
  Scenario.forall_step (P := fun call => call.rest <:+ call.action.segments) (fun _ => List.suffix_rfl)
    (fun _ _ => Call.rest_resume) h hs

/-! ## The invariant rule -/

/-- What the rule needs of an invariant over the cluster and the threads. -/
structure EffectInvariant (suffix : Nat → String) (G : Locals → Cluster → Effect → Prop)
    (I : Cluster → List Thread → Prop) : Prop where
  start : ∀ c ts (a : Action), I c ts → I c (ts ++ [⟨{}, a.effects⟩])
  /-- The thread ends without another effect. -/
  stop : ∀ c ts i l e es stop, ts[i]? = some ⟨l, e :: es⟩ → e.stops c = some stop → I c ts →
    I c (ts.set i ⟨l, []⟩)
  effect : ∀ c ts i l e es, ts[i]? = some ⟨l, e :: es⟩ → e.stops c = none → G l c e → I c ts →
    I (e.run suffix l c).2 (ts.set i ⟨(e.run suffix l c).1, es⟩)

variable {G : Locals → Cluster → Effect → Prop} {I : Cluster → List Thread → Prop}

/-- A segment, effect by effect. -/
theorem EffectInvariant.runEffects (hI : EffectInvariant suffix G I) {segment later : List Effect}
    {ts : List Thread} {i : Nat} {l : Locals} {c : Cluster} (hi : ts[i]? = some ⟨l, segment ++ later⟩)
    (hG : Guarded suffix G segment l c) (h : I c ts) :
    I (runEffects suffix segment l c).2.2
      (ts.set i ⟨(runEffects suffix segment l c).2.1,
        if (runEffects suffix segment l c).1.isSome then [] else later⟩) := by
  induction segment generalizing ts l c with
  | nil =>
      have hsame : ts.set i ⟨l, later⟩ = ts := Slots.set_self hi
      show I c (ts.set i ⟨l, later⟩)
      rw [hsame]
      exact h
  | cons e es ih =>
      unfold Chaos.runEffects
      cases hstops : e.stops c with
      | some stop => exact hI.stop c ts i l e _ stop hi hstops h
      | none =>
          have hlength := (List.getElem?_eq_some_iff.mp hi).1
          have hnext := hI.effect c ts i l e (es ++ later) hi hstops hG.1 h
          have hrest := ih (List.getElem?_set_self hlength) (hG.2 hstops) hnext
          rw [List.set_set] at hrest
          exact hrest

/-- A segment whose effects all go on in the states of the invariant runs to its end. -/
theorem EffectInvariant.runEffects_stop (hI : EffectInvariant suffix G I)
    (hgo : ∀ c ts (e : Effect), I c ts → e.stops c = none) {segment later : List Effect}
    {ts : List Thread} {i : Nat} {l : Locals} {c : Cluster} (hi : ts[i]? = some ⟨l, segment ++ later⟩)
    (hG : Guarded suffix G segment l c) (h : I c ts) : (Chaos.runEffects suffix segment l c).1 = none := by
  induction segment generalizing ts l c with
  | nil => rfl
  | cons e es ih =>
      have hstops := hgo c ts e h
      unfold Chaos.runEffects
      rw [hstops]
      have hlength := (List.getElem?_eq_some_iff.mp hi).1
      exact ih (List.getElem?_set_self hlength) (hG.2 hstops)
        (hI.effect c ts i l e (es ++ later) hi hstops hG.1 h)

theorem Call.thread_resume (call : Call) {c : Cluster} {segment : List Effect}
    {rest : List (List Effect)} (h : call.rest = segment :: rest) :
    (call.resume suffix c).1.thread = ⟨(Chaos.runEffects suffix segment call.locals c).2.1,
        if (Chaos.runEffects suffix segment call.locals c).1.isSome then [] else rest.flatten⟩
      ∧ (call.resume suffix c).2 = (Chaos.runEffects suffix segment call.locals c).2.2 := by
  unfold Call.resume
  rw [h]
  refine ⟨?_, rfl⟩
  unfold Call.thread
  dsimp only
  split <;> rfl

/-- A call that is resumed, among the threads. -/
theorem EffectInvariant.resume (hI : EffectInvariant suffix G I) {ts : List Thread} {i : Nat}
    (call : Call) {c : Cluster} (hi : ts[i]? = some call.thread)
    (hG : ∀ segment ∈ call.rest.head?, Guarded suffix G segment call.locals c) (h : I c ts) :
    I (call.resume suffix c).2 (ts.set i (call.resume suffix c).1.thread) := by
  cases hrest : call.rest with
  | nil =>
      have hsame : call.resume suffix c = (call, c) := by
        unfold Call.resume
        rw [hrest]
      rw [hsame, Slots.set_self hi]
      exact h
  | cons segment rest =>
      obtain ⟨hthread, hcluster⟩ := call.thread_resume hrest
      have hi' : ts[i]? = some ⟨call.locals, segment ++ rest.flatten⟩ := by
        rw [hi, Call.thread, hrest, List.flatten_cons]
      rw [hthread, hcluster]
      exact hI.runEffects hi' (hG segment (by rw [hrest]; rfl)) h

/-- The calls that may move, as threads: a new one is at its first line. -/
theorem EffectInvariant.opened (hI : EffectInvariant suffix G I) (e : ScenarioEvent)
    (h : I w.cluster w.threads) : I w.cluster ((w.opened e).map Call.thread) := by
  cases e with
  | start a =>
      unfold Scenario.opened
      rw [List.map_append]
      exact hI.start _ _ a h
  | resume i => exact h

/-- **Every step keeps an invariant that every effect keeps.** -/
theorem EffectInvariant.step (hI : EffectInvariant suffix G I) {e : ScenarioEvent}
    (hG : w.StepGuarded suffix G e) (h : I w.cluster w.threads) (hs : w.step suffix e = some w') :
    I w'.cluster w'.threads := by
  obtain ⟨i, call, hcall, hcluster, hcalls, hguarded⟩ := Scenario.step_cases hs
  have hplace : ((w.opened e).map Call.thread)[i]? = some call.thread := by
    rw [List.getElem?_map, hcall]
    rfl
  unfold Scenario.threads
  rw [hcluster, hcalls, List.map_set]
  exact hI.resume call hplace ((hguarded G).mp hG) (hI.opened e h)

theorem EffectInvariant.resume_stop (hI : EffectInvariant suffix G I)
    (hgo : ∀ c ts (e : Effect), I c ts → e.stops c = none) {ts : List Thread} {i : Nat}
    (call : Call) {c : Cluster} (hi : ts[i]? = some call.thread)
    (hG : ∀ segment ∈ call.rest.head?, Guarded suffix G segment call.locals c) (h : I c ts)
    (hnone : call.stopped = none) : (call.resume suffix c).1.stopped = none := by
  unfold Call.resume
  cases hrest : call.rest with
  | nil => exact hnone
  | cons segment rest =>
      have hi' : ts[i]? = some ⟨call.locals, segment ++ rest.flatten⟩ := by
        rw [hi, Call.thread, hrest, List.flatten_cons]
      exact hI.runEffects_stop hgo hi' (hG segment (by rw [hrest]; rfl)) h

/-- Where every effect goes on in the states of the invariant, no call ends early. -/
theorem EffectInvariant.step_stop (hI : EffectInvariant suffix G I)
    (hgo : ∀ c ts (e : Effect), I c ts → e.stops c = none) {e : ScenarioEvent}
    (hG : w.StepGuarded suffix G e) (h : I w.cluster w.threads)
    (hnone : ∀ call ∈ w.calls, call.stopped = none) (hs : w.step suffix e = some w') :
    ∀ call ∈ w'.calls, call.stopped = none := by
  obtain ⟨i, call, hcall, _, hcalls, hguarded⟩ := Scenario.step_cases hs
  have hplace : ((w.opened e).map Call.thread)[i]? = some call.thread := by
    rw [List.getElem?_map, hcall]
    rfl
  have hopened : ∀ call ∈ w.opened e, call.stopped = none := by
    cases e with
    | start a =>
        intro call hmem
        rcases List.mem_append.mp hmem with hmem | hmem
        · exact hnone call hmem
        · cases List.mem_singleton.mp hmem
          rfl
    | resume i => exact hnone
  rw [hcalls]
  exact Slots.forall_mem_set hopened i (hI.resume_stop hgo call hplace ((hguarded G).mp hG) (hI.opened e h)
    (hopened call (List.mem_of_getElem? hcall)))

end Microservices.Chaos
