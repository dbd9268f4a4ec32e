import Mathlib.Data.List.Nodup
import Microservices.Lib.Json
import Microservices.Lib.Mailbox
import Microservices.Lib.Schedule
import Microservices.Lib.Slots

/-!
# The event hub

`publish` has no `await` in it, so it is one step. It puts the line into the queue of each
subscriber, and a queue that is full costs its subscriber more than the line: it is not a
subscriber any more, whatever it reads afterwards.
-/

namespace Microservices.Chaos

open Schedule

/-- `maxsize` of the queues. -/
def queueMaxsize : Nat := 1000

/-- What is published. A float is the text it is written as. -/
structure Event where
  ts : String
  kind : String
  level : String := "info"
  payload : List (String × Json)

def Event.json (event : Event) : Json :=
  .obj [("ts", .float event.ts), ("kind", .str event.kind), ("level", .str event.level),
    ("payload", .obj event.payload)]

def Event.line (event : Event) : String :=
  "data: " ++ String.ofList (Json.dumps event.json) ++ "\n\n"

/-- A queue that `subscribe` has returned. -/
structure Subscription where
  queue : Mailbox String queueMaxsize := Mailbox.empty
  /-- What `stream` has yielded from it. -/
  chunks : List String := []

namespace Subscription

def Full (s : Subscription) : Prop := s.queue.items.length = queueMaxsize

instance (s : Subscription) : Decidable s.Full := inferInstanceAs (Decidable (_ = _))

/-- `q.put_nowait(line)`. -/
def put (line : String) (s : Subscription) : Subscription :=
  match s.queue.put? line with
  | some queue => { s with queue := queue }
  | none => s

end Subscription

/-- Queues are numbered as they come. -/
structure EventHub where
  queues : List Subscription := []
  /-- `_subscribers`. -/
  subscribers : List Nat := []

inductive HubEvent where
  | subscribe
  | unsubscribe (i : Nat)
  | publish (event : Event)
  /-- `stream` gets a line, and yields it. -/
  | get (i : Nat)
  /-- It has waited for 15 s. -/
  | timeout (i : Nat)

namespace EventHub

/-- The queues that `put_nowait` finds full. -/
def dead (hub : EventHub) : List Nat :=
  hub.subscribers.filter fun i => (hub.queues[i]?).any fun s => decide s.Full

def publish (hub : EventHub) (event : Event) : EventHub where
  queues := hub.subscribers.foldl (fun queues i => queues.modify i (Subscription.put event.line)) hub.queues
  subscribers := hub.subscribers.filter fun i => i ∉ hub.dead

def step (hub : EventHub) : HubEvent → Option EventHub
  | .subscribe =>
      some { queues := hub.queues ++ [{}], subscribers := hub.subscribers ++ [hub.queues.length] }
  | .unsubscribe i =>
      if i < hub.queues.length then
        some { hub with subscribers := hub.subscribers.filter fun j => j ≠ i }
      else none
  | .publish event => some (hub.publish event)
  | .get i => hub.queues[i]?.bind fun s => s.queue.get?.map fun r =>
      { hub with queues := hub.queues.set i { queue := r.2, chunks := s.chunks ++ [r.1] } }
  | .timeout i => hub.queues[i]?.map fun s =>
      { hub with queues := hub.queues.set i { s with chunks := s.chunks ++ [": keepalive\n\n"] } }

variable {hub hub' : EventHub} {e : HubEvent} {i : Nat} {s : Subscription} {event : Event}

/-! ## Who is subscribed -/

/-- No queue is in the set twice, and each has been returned by `subscribe`. -/
structure Listed (hub : EventHub) : Prop where
  nodup : hub.subscribers.Nodup
  there : ∀ i ∈ hub.subscribers, i < hub.queues.length

theorem listed_init : Listed {} := ⟨List.nodup_nil, fun i hi => by cases hi⟩

theorem length_publish (hub : EventHub) (event : Event) :
    (hub.publish event).queues.length = hub.queues.length := by
  have hmap := Slots.map_foldl_modify (f := Subscription.put event.line) (g := fun _ => ())
    (fun _ => rfl) hub.subscribers hub.queues
  have hlength := congrArg List.length hmap
  rwa [List.length_map, List.length_map] at hlength

theorem listed_step (h : hub.Listed) (hs : hub.step e = some hub') : hub'.Listed := by
  cases e with
  | subscribe =>
      cases hs
      constructor
      · refine List.nodup_append.mpr ⟨h.nodup, List.nodup_singleton _, fun i hi j hj hij => ?_⟩
        have hlt := h.there i hi
        rw [hij, List.mem_singleton.mp hj] at hlt
        exact Nat.lt_irrefl _ hlt
      · intro i hi
        rw [List.length_append, List.length_singleton]
        rcases List.mem_append.mp hi with hi | hi
        · exact Nat.lt_succ_of_lt (h.there i hi)
        · rw [List.mem_singleton.mp hi]
          exact Nat.lt_succ_self _
  | unsubscribe i =>
      unfold step at hs
      dsimp only at hs
      split at hs
      · cases hs
        exact ⟨h.nodup.filter _, fun j hj => h.there j (List.mem_filter.mp hj).1⟩
      · cases hs
  | publish event =>
      cases hs
      refine ⟨h.nodup.filter _, fun i hi => ?_⟩
      rw [length_publish]
      exact h.there i (List.mem_filter.mp hi).1
  | get i =>
      obtain ⟨s, _, hs⟩ := Option.bind_eq_some_iff.mp hs
      obtain ⟨r, _, hs⟩ := Option.map_eq_some_iff.mp hs
      cases hs
      exact ⟨h.nodup, fun j hj => by rw [List.length_set]; exact h.there j hj⟩
  | timeout i =>
      obtain ⟨s, _, hs⟩ := Option.map_eq_some_iff.mp hs
      cases hs
      exact ⟨h.nodup, fun j hj => by rw [List.length_set]; exact h.there j hj⟩

/-- Nothing is published while the queue is full. -/
def Room (i : Nat) (hub : EventHub) : HubEvent → Prop
  | .publish _ => ∀ s ∈ hub.queues[i]?, ¬ s.Full
  | _ => True

instance (i : Nat) (hub : EventHub) : ∀ e, Decidable (Room i hub e)
  | .publish _ => inferInstanceAs (Decidable (∀ s ∈ hub.queues[i]?, ¬ s.Full))
  | .subscribe | .unsubscribe _ | .get _ | .timeout _ => inferInstanceAs (Decidable True)

/-- If there is such a queue, it is in the set. -/
def Kept (i : Nat) (hub : EventHub) : Prop := i < hub.queues.length → i ∈ hub.subscribers

/-- **A queue stays in the set over a step** if it was there and the step does not find it full. -/
theorem kept_step (he : e ≠ .unsubscribe i) (hs : hub.step e = some hub') :
    Kept i hub' ↔ Kept i hub ∧ Room i hub e := by
  cases e with
  | subscribe =>
      cases hs
      simp only [Kept, Room, and_true, List.length_append, List.length_singleton, List.mem_append,
        List.mem_singleton]
      constructor
      · intro h hlt
        rcases h (by omega) with h | h
        · exact h
        · omega
      · intro h hlt
        by_cases hi : i = hub.queues.length
        · exact Or.inr hi
        · exact Or.inl (h (by omega))
  | unsubscribe j =>
      unfold step at hs
      dsimp only at hs
      split at hs
      · cases hs
        have hij : i ≠ j := fun h => he (by rw [h])
        simp [Kept, Room, List.mem_filter, hij]
      · cases hs
  | publish event =>
      cases hs
      unfold Kept
      rw [length_publish]
      have hmem : i ∈ (hub.publish event).subscribers
          ↔ i ∈ hub.subscribers ∧ ¬ (hub.queues[i]?.any fun s => decide s.Full) = true := by
        simp only [publish, dead, List.mem_filter, decide_eq_true_eq, not_and]
        exact and_congr_right fun hi => ⟨fun h => h hi, fun h _ => h⟩
      have hroom : Room i hub (.publish event)
          ↔ ¬ (hub.queues[i]?.any fun s => decide s.Full) = true := by
        unfold Room
        cases hub.queues[i]? <;> simp
      rw [hmem, hroom]
      constructor
      · intro h
        refine ⟨fun hlt => (h hlt).1, ?_⟩
        by_cases hlt : i < hub.queues.length
        · exact (h hlt).2
        · rw [List.getElem?_eq_none (Nat.not_lt.mp hlt)]
          simp
      · exact fun h hlt => ⟨h.1 hlt, h.2⟩
  | get j =>
      obtain ⟨s, _, hs⟩ := Option.bind_eq_some_iff.mp hs
      obtain ⟨r, _, hs⟩ := Option.map_eq_some_iff.mp hs
      cases hs
      simp only [Kept, Room, and_true, List.length_set]
  | timeout j =>
      obtain ⟨s, _, hs⟩ := Option.map_eq_some_iff.mp hs
      cases hs
      simp only [Kept, Room, and_true, List.length_set]

/-- **Over a run**, as long as nobody takes it out. -/
theorem kept_run {es : List HubEvent} (hopen : .unsubscribe i ∉ es) (hrun : exec step hub es = some hub') :
    Kept i hub' ↔ Kept i hub ∧ Meets step (Room i) hub es := by
  induction es generalizing hub with
  | nil =>
      cases hrun
      exact (and_iff_left trivial).symm
  | cons e es ih =>
      obtain ⟨hub₁, hs, hlater⟩ := exec_cons_inv hrun
      rw [List.mem_cons, not_or] at hopen
      have he : e ≠ .unsubscribe i := fun h => hopen.1 h.symm
      rw [ih hopen.2 hlater, kept_step he hs, and_assoc]
      refine and_congr_right fun _ => ⟨fun h hub₂ hs₂ => ?_, fun h => h hub₁ hs⟩
      cases hs.symm.trans hs₂
      exact h

/-! ## What a publication puts -/

theorem getElem?_publish (h : hub.Listed) (event : Event) (i : Nat) :
    (hub.publish event).queues[i]?
      = hub.queues[i]?.map fun s => if i ∈ hub.subscribers then s.put event.line else s :=
  Slots.getElem?_foldl_modify h.nodup _ _ i

/-- The line is put into the queue. -/
def Puts (hub : EventHub) (event : Event) (i : Nat) (s : Subscription) : Prop :=
  ∃ s', (hub.publish event).queues[i]? = some s' ∧ s'.queue.items = s.queue.items ++ [event.line]

theorem items_put_of_not_full (hroom : ¬ s.Full) (line : String) :
    (s.put line).queue.items = s.queue.items ++ [line] := by
  unfold Subscription.put
  cases hput : s.queue.put? line with
  | some queue => exact (Mailbox.put?_eq_some hput).2
  | none => exact absurd (Nat.le_antisymm s.queue.bounded (Nat.not_lt.mp (Mailbox.put?_eq_none hput))) hroom

theorem puts_iff (h : hub.Listed) (hi : hub.queues[i]? = some s) (hroom : ¬ s.Full) :
    hub.Puts event i s ↔ i ∈ hub.subscribers := by
  unfold Puts
  rw [getElem?_publish h, hi, Option.map_some]
  by_cases hmem : i ∈ hub.subscribers
  · rw [if_pos hmem]
    exact iff_of_true ⟨_, rfl, items_put_of_not_full hroom _⟩ hmem
  · rw [if_neg hmem]
    refine iff_of_false ?_ hmem
    rintro ⟨s', hs', hitems⟩
    cases hs'
    have hlength := congrArg List.length hitems
    rw [List.length_append, List.length_singleton] at hlength
    omega

end EventHub

open EventHub

/--
**A subscription lasts until its queue is found full.**

In every interleaving of publications, reads, subscriptions and their ends: what is published
while a queue has room is put into it, as long as it has not been unsubscribed, if and only if
no publication before has found it full.
-/
theorem put_iff_never_full (es : List HubEvent) {hub : EventHub}
    (hrun : exec EventHub.step {} es = some hub) {i : Nat} {s : Subscription}
    (hi : hub.queues[i]? = some s) (hopen : .unsubscribe i ∉ es) (hroom : ¬ s.Full) (event : Event) :
    hub.Puts event i s ↔ Meets EventHub.step (Room i) {} es := by
  have hlisted : hub.Listed :=
    exec_invariant (I := Listed) (C := fun _ _ => True) (fun _ _ _ h _ hs => listed_step h hs)
      listed_init (meets_true _ _) hrun
  have hthere : i < hub.queues.length := (List.getElem?_eq_some_iff.mp hi).1
  have hkept : i ∈ hub.subscribers ↔ Kept i hub := ⟨fun h _ => h, fun h => h hthere⟩
  have hempty : Kept i {} := fun h => by cases h
  rw [puts_iff hlisted hi hroom, hkept, kept_run hopen hrun, and_iff_right hempty]

/-- An event of the log. -/
def pong : Event := { ts := "0.5", kind := "log", payload := [("msg", .str "pong")] }

/-- A subscriber that has read one of two events. -/
def oneOfTwo : List HubEvent := [.subscribe, .publish pong, .publish pong, .get 0]

theorem oneOfTwo_puts : ∃ hub s, exec EventHub.step {} oneOfTwo = some hub ∧ hub.queues[0]? = some s
    ∧ hub.Puts pong 0 s := by
  have hends : ((exec EventHub.step {} oneOfTwo).bind fun hub =>
      hub.queues[0]?.map fun s => decide s.Full) = some false := by decide +kernel
  obtain ⟨hub, hrun, hends⟩ := Option.bind_eq_some_iff.mp hends
  obtain ⟨s, hi, hroom⟩ := Option.map_eq_some_iff.mp hends
  have hnever : Meets EventHub.step (Room 0) {} oneOfTwo := by decide +kernel
  exact ⟨hub, s, hrun, hi, (put_iff_never_full oneOfTwo hrun hi (by simp [oneOfTwo])
    (of_decide_eq_false hroom) pong).mpr hnever⟩

/-! ## A thousand events later -/

/-- A hub with one queue and its subscriber. -/
def EventHub.single (s : Subscription) : EventHub := { queues := [s], subscribers := [0] }

theorem publish_single_room {s : Subscription} (hroom : ¬ s.Full) (event : Event) :
    (single s).publish event = single (s.put event.line) := by
  simp [EventHub.publish, single, dead, hroom]

theorem publish_single_full {s : Subscription} (hfull : s.Full) (event : Event) :
    (single s).publish event = { queues := [s.put event.line], subscribers := [] } := by
  simp [EventHub.publish, single, dead, hfull]

theorem exec_fill (event : Event) (n : Nat) {s : Subscription}
    (h : s.queue.items.length + n ≤ queueMaxsize) :
    ∃ s', exec EventHub.step (single s) (List.replicate n (.publish event)) = some (single s')
      ∧ s'.queue.items.length = s.queue.items.length + n := by
  induction n generalizing s with
  | zero => exact ⟨s, rfl, rfl⟩
  | succ n ih =>
      have hroom : ¬ s.Full := by
        unfold Subscription.Full
        omega
      have hlength : (s.put event.line).queue.items.length = s.queue.items.length + 1 := by
        rw [items_put_of_not_full hroom, List.length_append, List.length_singleton]
      obtain ⟨s', hrun, hs'⟩ := ih (s := s.put event.line) (by omega)
      have hput : EventHub.step (single s) (.publish event) = some (single (s.put event.line)) :=
        congrArg some (publish_single_room hroom event)
      refine ⟨s', ?_, by omega⟩
      rw [List.replicate_succ, exec_cons _ hput]
      exact hrun

/-- Nobody reads while 1001 events are published; then the first is read. -/
def flood : List HubEvent :=
  .subscribe :: (List.replicate queueMaxsize (.publish pong) ++ [.publish pong, .get 0])

/-- **The subscriber is gone**: its queue has room again, and nothing is put into it. -/
theorem flood_unsubscribes : ∃ hub s, exec EventHub.step {} flood = some hub ∧ .unsubscribe 0 ∉ flood
    ∧ hub.queues[0]? = some s ∧ ¬ s.Full ∧ ¬ hub.Puts pong 0 s := by
  obtain ⟨s₁, hfill, hlength⟩ := exec_fill pong queueMaxsize (s := {}) (by decide)
  have hfull : s₁.Full := hlength.trans (Nat.zero_add _)
  have hdrop : (single s₁).publish pong = { queues := [s₁], subscribers := [] } := by
    rw [publish_single_full hfull]
    unfold Subscription.put
    cases hput : s₁.queue.put? pong.line with
    | none => rfl
    | some queue => exact absurd hfull (Nat.ne_of_lt (Mailbox.put?_eq_some hput).1)
  obtain ⟨⟨items, hbounded⟩, chunks⟩ := s₁
  cases items with
  | nil => cases hfull
  | cons line items =>
      let s : Subscription := { queue := ⟨items, Nat.le_of_succ_le hbounded⟩, chunks := chunks ++ [line] }
      refine ⟨{ queues := [s], subscribers := [] }, s, ?_, ?_, rfl, ?_, ?_⟩
      · have hsubscribe : EventHub.step {} .subscribe = some (single {}) := rfl
        rw [flood, exec_cons _ hsubscribe, exec_append hfill, exec_cons _ rfl, hdrop]
        rfl
      · simp [flood]
      · intro h
        have hone : items.length + 1 = items.length := hfull.trans h.symm
        omega
      · rintro ⟨s', hs', hitems⟩
        cases hs'
        have hone := congrArg List.length hitems
        rw [List.length_append, List.length_singleton] at hone
        exact absurd hone (Nat.ne_of_lt (Nat.lt_succ_self _))

end Microservices.Chaos
