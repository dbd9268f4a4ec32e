import Microservices.Lib.Schedule
import Microservices.Lib.Slots
import Microservices.Notifications.Recipients

/-!
# The shared Service Bus sender

Every publish goes through one module-level sender, made on first use and dropped when a
send fails. A publish gets it, uses it and drops it at different times, and
`_reset_sender` drops whichever one is installed by then.

A lock body does not await, so it is one step here. Whether a lock, a sender or a client
is waited for does not matter: between any two steps of a publish, others may take theirs.
-/

namespace Microservices.Tasks

open Schedule Notifications

structure Settings where
  servicebusConnectionString : String
  servicebusTopicTasks : String := "task-events"

structure ServiceBusMessage where
  body : List UInt8
  contentType : String
  subject : String
  deriving DecidableEq, Repr

/-- The message `_publish_event` makes of an event. -/
def TaskEvent.message (e : TaskEvent) : ServiceBusMessage where
  body := wire e
  contentType := "application/json"
  subject := e.eventType

structure ServiceBusClient where
  connectionString : String
  closed : Bool := false

structure ServiceBusSender where
  /-- The client it was got from. -/
  client : Nat
  topicName : String
  /-- Some send on it has raised. -/
  failed : Bool := false
  closed : Bool := false

/-- Where a `_publish_event` is. Clients and senders are named by the order they were made in. -/
inductive PublishPhase where
  | called
  /-- It found no sender, and goes for the lock. -/
  | locking
  | sending (sender : Nat)
  /-- It is in its `except`, with the sender it had got, and goes for the lock. -/
  | resetting (sender : Option Nat)
  /-- It awaits `old_sender.close()`, and has a client to close after that. -/
  | closingSender (oldClient : Option Nat)
  | closingClient
  | returned
  deriving DecidableEq

structure Publish where
  event : TaskEvent
  phase : PublishPhase := .called

/-- How the lock body of `_get_sender` ends. -/
inductive Building where
  | built
  /-- `from_connection_string` raises. -/
  | clientRaises
  /-- `get_topic_sender` raises. -/
  | senderRaises

structure SenderPool where
  sbClient : Option Nat := none
  sbSender : Option Nat := none
  /-- Every client and every sender ever made. -/
  clients : List ServiceBusClient := []
  senders : List ServiceBusSender := []
  publishes : List Publish := []
  /-- What has been sent. -/
  sent : List ServiceBusMessage := []

inductive PublishStep where
  /-- A background task calls `_publish_event`. -/
  | publish (event : TaskEvent)
  /-- `_get_sender`, up to its lock. -/
  | get (i : Nat)
  /-- The lock body of `_get_sender`. -/
  | lock (i : Nat) (building : Building)
  /-- `send_messages` returns, or raises. -/
  | send (i : Nat) (ok : Bool)
  /-- `_reset_sender`, up to where it first awaits a close. -/
  | reset (i : Nat)
  /-- `old_sender.close()` has come back. -/
  | senderClosed (i : Nat)
  /-- `old_client.close()` has come back. -/
  | clientClosed (i : Nat)

namespace SenderPool

/-- The publish goes on to another phase. -/
def goto (w : SenderPool) (i : Nat) (phase : PublishPhase) : SenderPool :=
  { w with publishes := w.publishes.modify i fun p => { p with phase := phase } }

def phase (w : SenderPool) (i : Nat) : Option PublishPhase := w.publishes[i]?.map Publish.phase

/-- A new client, as the module's own. -/
def newClient (settings : Settings) (w : SenderPool) : SenderPool :=
  { w with
    sbClient := some w.clients.length
    clients := w.clients ++ [{ connectionString := settings.servicebusConnectionString }] }

/-- A new sender of the client, as the module's own. -/
def newSender (settings : Settings) (w : SenderPool) (c : Nat) : SenderPool :=
  { w with
    sbSender := some w.senders.length
    senders := w.senders ++ [{ client := c, topicName := settings.servicebusTopicTasks }] }

/-- `_get_sender` up to its lock. -/
def getSender (settings : Settings) (w : SenderPool) : PublishPhase :=
  if settings.servicebusConnectionString = "" then .returned
  else
    match w.sbSender with
    | some k => .sending k
    | none => .locking

/-- The lock body of `_get_sender`, and what becomes of the publish. -/
def getLocked (settings : Settings) (w : SenderPool) (building : Building) :
    SenderPool × PublishPhase :=
  match w.sbSender, building with
  | some k, _ => (w, .sending k)
  | none, .clientRaises => (w, .resetting none)
  | none, .senderRaises => (newClient settings w, .resetting none)
  | none, .built =>
      (newSender settings (newClient settings w) w.clients.length, .sending w.senders.length)

/-- `sender.close()` is called. -/
def closeSender (w : SenderPool) (k : Nat) : SenderPool :=
  { w with senders := w.senders.modify k fun s => { s with closed := true } }

/-- `client.close()` is called: it shuts the senders down that were got from it. -/
def closeClient (w : SenderPool) (c : Nat) : SenderPool :=
  { w with
    clients := w.clients.modify c fun cl => { cl with closed := true }
    senders := w.senders.map fun s => if s.client = c then { s with closed := true } else s }

/-- A send on the sender raises. -/
def markFailed (w : SenderPool) (k : Nat) : SenderPool :=
  { w with senders := w.senders.modify k fun s => { s with failed := true } }

/-- `if old_client is not None: await old_client.close()`. -/
def dropClient (w : SenderPool) : Option Nat → SenderPool × PublishPhase
  | some c => (w.closeClient c, .closingClient)
  | none => (w, .returned)

/-- `_reset_sender`, up to where it first awaits a close. -/
def resetSender (w : SenderPool) : SenderPool × PublishPhase :=
  let cleared := { w with sbSender := none, sbClient := none }
  match w.sbSender with
  | some k => (cleared.closeSender k, .closingSender w.sbClient)
  | none => cleared.dropClient w.sbClient

/-- A step changes the pool, and then the publish goes on. -/
def andThen (i : Nat) (r : SenderPool × PublishPhase) : SenderPool := r.1.goto i r.2

def step (settings : Settings) (w : SenderPool) : PublishStep → Option SenderPool
  | .publish event => some { w with publishes := w.publishes ++ [{ event := event }] }
  | .get i =>
      match w.phase i with
      | some .called => some (w.goto i (w.getSender settings))
      | _ => none
  | .lock i building =>
      match w.phase i with
      | some .locking => some (andThen i (w.getLocked settings building))
      | _ => none
  | .send i ok =>
      match w.publishes[i]? with
      | some ⟨event, .sending k⟩ =>
          some (if ok then { w.goto i .returned with sent := w.sent ++ [event.message] }
            else (w.markFailed k).goto i (.resetting (some k)))
      | _ => none
  | .reset i =>
      match w.phase i with
      | some (.resetting _) => some (andThen i w.resetSender)
      | _ => none
  | .senderClosed i =>
      match w.phase i with
      | some (.closingSender oldClient) => some (andThen i (w.dropClient oldClient))
      | _ => none
  | .clientClosed i =>
      match w.phase i with
      | some .closingClient => some (w.goto i .returned)
      | _ => none

/-! ## What the publishes rely on -/

/-- Some send on the sender has raised. -/
def HasFailed (w : SenderPool) (k : Nat) : Prop := ∃ s, w.senders[k]? = some s ∧ s.failed = true

/-- **A sender is closed only if a send on it has failed.** -/
def ClosedOnlyIfFailed (w : SenderPool) : Prop :=
  ∀ (k : Nat) s, w.senders[k]? = some s → s.closed = true → s.failed = true

/-- `_reset_sender` finds no sender, or the one whose send has just raised, or one on which some
other send has. -/
def FindsFailed (w : SenderPool) : PublishStep → Prop
  | .reset i => ∀ k, w.sbSender = some k → w.phase i = some (.resetting (some k)) ∨ w.HasFailed k
  | _ => True

/-- What holds of the senders and clients a publish has in hand. -/
def PhaseOk (w : SenderPool) : PublishPhase → Prop
  | .sending k => k < w.senders.length
  | .resetting (some k) => w.HasFailed k
  | .closingSender (some c) =>
      c < w.clients.length ∧ ∀ s ∈ w.senders, s.client = c → s.closed = true
  | _ => True

structure Invariant (w : SenderPool) : Prop where
  /-- A sender that is open is the one that is installed, with its client. -/
  installed : ∀ (k : Nat) s, w.senders[k]? = some s → s.closed = false →
    w.sbSender = some k ∧ w.sbClient = some s.client
  senderKnown : ∀ k, w.sbSender = some k → k < w.senders.length
  clientKnown : ∀ c, w.sbClient = some c → c < w.clients.length
  phases : ∀ p ∈ w.publishes, w.PhaseOk p.phase
  safe : w.ClosedOnlyIfFailed

/-- What becomes of a sender: its client stays, and a failed or closed one stays so. -/
structure Ages (s s' : ServiceBusSender) : Prop where
  client : s'.client = s.client
  failed : s.failed = true → s'.failed = true
  closed : s.closed = true → s'.closed = true

theorem Ages.refl (s : ServiceBusSender) : Ages s s := ⟨rfl, id, id⟩

/-- Senders age, and new ones have new clients. -/
structure Grows (w w' : SenderPool) : Prop where
  kept : ∀ (k : Nat) s, w.senders[k]? = some s → ∃ s', w'.senders[k]? = some s' ∧ Ages s s'
  fresh : ∀ (k : Nat) s', w'.senders[k]? = some s' →
    (∃ s, w.senders[k]? = some s ∧ Ages s s') ∨ w.clients.length ≤ s'.client
  clients : w.clients.length ≤ w'.clients.length

variable {settings : Settings} {w w' : SenderPool} {i k c : Nat} {e : PublishStep}

theorem grows_of_senders (hsenders : w'.senders = w.senders)
    (hclients : w.clients.length ≤ w'.clients.length) : Grows w w' where
  kept := by
    intro k s hs
    exact ⟨s, by rw [hsenders]; exact hs, .refl s⟩
  fresh := by
    intro k s' hs'
    rw [hsenders] at hs'
    exact Or.inl ⟨s', hs', .refl s'⟩
  clients := hclients

/-- Each sender is replaced by one that has aged. -/
theorem grows_of_map {f : Nat → ServiceBusSender → ServiceBusSender} (hf : ∀ k s, Ages s (f k s))
    (hsenders : ∀ k : Nat, w'.senders[k]? = w.senders[k]?.map (f k))
    (hclients : w.clients.length ≤ w'.clients.length) : Grows w w' where
  kept := by
    intro k s hs
    exact ⟨f k s, by rw [hsenders, hs]; rfl, hf k s⟩
  fresh := by
    intro k s' hs'
    rw [hsenders, Option.map_eq_some_iff] at hs'
    obtain ⟨s, hs, rfl⟩ := hs'
    exact Or.inl ⟨s, hs, hf k s⟩
  clients := hclients

theorem HasFailed.grows (h : w.HasFailed k) (hg : Grows w w') : w'.HasFailed k := by
  obtain ⟨s, hs, hfailed⟩ := h
  obtain ⟨s', hs', hages⟩ := hg.kept k s hs
  exact ⟨s', hs', hages.failed hfailed⟩

theorem Grows.length_le (hg : Grows w w') (hk : k < w.senders.length) : k < w'.senders.length := by
  obtain ⟨s', hs', _⟩ := hg.kept k _ (List.getElem?_eq_getElem hk)
  exact (List.getElem?_eq_some_iff.mp hs').1

/-- What a publish relies on is not lost while others take their steps. -/
theorem PhaseOk.grows {phase : PublishPhase} (h : w.PhaseOk phase) (hg : Grows w w') :
    w'.PhaseOk phase := by
  cases phase with
  | sending k => exact hg.length_le h
  | resetting sender =>
      cases sender with
      | none => trivial
      | some k => exact HasFailed.grows h hg
  | closingSender oldClient =>
      cases oldClient with
      | none => trivial
      | some c =>
          obtain ⟨hc, hclosed⟩ := h
          refine ⟨Nat.lt_of_lt_of_le hc hg.clients, fun s' hs' hclient => ?_⟩
          obtain ⟨k, hk⟩ := List.mem_iff_getElem?.mp hs'
          rcases hg.fresh k s' hk with ⟨s, hs, hages⟩ | hnew
          · exact hages.closed (hclosed s (List.mem_of_getElem? hs) (hages.client ▸ hclient))
          · -- a new sender has a client that was not there to be dropped
            omega
  | called => trivial
  | locking => trivial
  | closingClient => trivial
  | returned => trivial

theorem invariant_init : Invariant {} where
  installed := by intro k s hs; cases hs
  senderKnown := by intro k hk; cases hk
  clientKnown := by intro c hc; cases hc
  phases := by intro p hp; cases hp
  safe := by intro k s hs; cases hs

theorem Invariant.goto (h : Invariant w) (phase : PublishPhase) (hphase : w.PhaseOk phase) :
    Invariant (w.goto i phase) where
  installed := h.installed
  senderKnown := h.senderKnown
  clientKnown := h.clientKnown
  phases := by
    intro p hp
    obtain ⟨j, hj⟩ := List.mem_iff_getElem?.mp hp
    rw [SenderPool.goto, List.getElem?_modify, Option.map_eq_map, Option.map_eq_some_iff] at hj
    obtain ⟨q, hq, rfl⟩ := hj
    have hold : w.PhaseOk q.phase := h.phases q (List.mem_of_getElem? hq)
    split
    · exact hphase
    · exact hold
  safe := h.safe

theorem Invariant.phaseOk (h : Invariant w) (phase : PublishPhase) (hi : w.phase i = some phase) :
    w.PhaseOk phase := by
  obtain ⟨p, hp, rfl⟩ := Option.map_eq_some_iff.mp hi
  exact h.phases p (List.mem_of_getElem? hp)

/-- Without an installed sender every sender is closed. -/
theorem Invariant.all_closed (h : Invariant w) (hnone : w.sbSender = none) {s : ServiceBusSender}
    (hs : w.senders[k]? = some s) : s.closed = true := by
  cases hclosed : s.closed with
  | true => rfl
  | false =>
      have hk := (h.installed k s hs hclosed).1
      rw [hnone] at hk
      cases hk

/-! ## One lemma for each change of the pool -/

theorem Invariant.newClient (h : Invariant w) (hnone : w.sbSender = none) :
    Invariant (SenderPool.newClient settings w) where
  installed := by
    intro k s hs hopen
    rw [h.all_closed hnone hs] at hopen
    cases hopen
  senderKnown := h.senderKnown
  clientKnown := by
    intro c hc
    cases hc
    rw [SenderPool.newClient, List.length_append]
    exact Nat.lt_succ_self _
  phases := by
    intro p hp
    refine (h.phases p hp).grows (grows_of_senders rfl ?_)
    rw [SenderPool.newClient, List.length_append]
    exact Nat.le_add_right _ _
  safe := h.safe

theorem grows_built (settings : Settings) (w : SenderPool) :
    Grows w (SenderPool.newSender settings (SenderPool.newClient settings w) w.clients.length) where
  kept := by
    intro k s hs
    exact ⟨s, List.getElem?_append_left (List.getElem?_eq_some_iff.mp hs).1 ▸ hs, .refl s⟩
  fresh := by
    intro k s' hs'
    rcases Slots.getElem?_concat_cases hs' with rfl | hold
    · exact Or.inr (Nat.le_refl _)
    · exact Or.inl ⟨s', hold, .refl s'⟩
  clients := by
    rw [SenderPool.newSender, SenderPool.newClient, List.length_append]
    exact Nat.le_add_right _ _

theorem Invariant.built (h : Invariant w) (hnone : w.sbSender = none) :
    Invariant (SenderPool.newSender settings (SenderPool.newClient settings w)
      w.clients.length) where
  installed := by
    intro k s hs hopen
    rcases Slots.getElem?_concat_place hs with ⟨rfl, rfl⟩ | hold
    · exact ⟨rfl, rfl⟩
    · rw [h.all_closed hnone hold] at hopen
      cases hopen
  senderKnown := by
    intro k hk
    cases hk
    rw [SenderPool.newSender, List.length_append]
    exact Nat.lt_succ_self _
  clientKnown := by
    intro c hc
    cases hc
    rw [SenderPool.newSender, SenderPool.newClient, List.length_append]
    exact Nat.lt_succ_self _
  phases := fun p hp => (h.phases p hp).grows (grows_built settings w)
  safe := by
    intro k s hs hclosed
    rcases Slots.getElem?_concat_cases hs with rfl | hold
    · cases hclosed
    · exact h.safe k s hold hclosed

/-- The lock body of `_get_sender` keeps the invariant, and leaves its publish with a sender. -/
theorem Invariant.getLocked (h : Invariant w) (settings : Settings) (building : Building) :
    Invariant (w.getLocked settings building).1
      ∧ (w.getLocked settings building).1.PhaseOk (w.getLocked settings building).2 := by
  unfold SenderPool.getLocked
  cases hsender : w.sbSender with
  | some k => exact ⟨h, h.senderKnown k hsender⟩
  | none =>
      cases building with
      | clientRaises => exact ⟨h, trivial⟩
      | senderRaises => exact ⟨h.newClient hsender, trivial⟩
      | built =>
          refine ⟨h.built hsender, ?_⟩
          show w.senders.length < (w.senders ++ [_]).length
          rw [List.length_append]
          exact Nat.lt_succ_self _

/-! ### A send fails -/

theorem getElem?_markFailed (w : SenderPool) (k j : Nat) :
    (w.markFailed k).senders[j]?
      = w.senders[j]?.map fun s => if k = j then { s with failed := true } else s :=
  List.getElem?_modify _ _ _ _

theorem grows_markFailed (w : SenderPool) (k : Nat) : Grows w (w.markFailed k) := by
  refine grows_of_map (fun j s => ?_) (getElem?_markFailed w k) (Nat.le_refl _)
  split
  · exact ⟨rfl, fun _ => rfl, id⟩
  · exact .refl s

theorem hasFailed_markFailed (hk : k < w.senders.length) : (w.markFailed k).HasFailed k := by
  refine ⟨{ w.senders[k] with failed := true }, ?_, rfl⟩
  rw [getElem?_markFailed, List.getElem?_eq_getElem hk, Option.map_some, if_pos rfl]

theorem Invariant.markFailed (h : Invariant w) : Invariant (w.markFailed k) where
  installed := by
    intro j s' hs' hopen
    rw [getElem?_markFailed, Option.map_eq_some_iff] at hs'
    obtain ⟨s, hs, rfl⟩ := hs'
    by_cases hkj : k = j
    · rw [if_pos hkj] at hopen ⊢
      exact h.installed j s hs hopen
    · rw [if_neg hkj] at hopen ⊢
      exact h.installed j s hs hopen
  senderKnown := by
    intro j hj
    exact (grows_markFailed w k).length_le (h.senderKnown j hj)
  clientKnown := h.clientKnown
  phases := fun p hp => (h.phases p hp).grows (grows_markFailed w k)
  safe := by
    intro j s' hs' hclosed
    rw [getElem?_markFailed, Option.map_eq_some_iff] at hs'
    obtain ⟨s, hs, rfl⟩ := hs'
    by_cases hkj : k = j
    · rw [if_pos hkj]
    · rw [if_neg hkj] at hclosed ⊢
      exact h.safe j s hs hclosed

/-! ### The reset -/

theorem getElem?_closeSender (w : SenderPool) (k j : Nat) :
    (w.closeSender k).senders[j]?
      = w.senders[j]?.map fun s => if k = j then { s with closed := true } else s :=
  List.getElem?_modify _ _ _ _

/-- The installed sender is dropped, and `close()` called on it. -/
def dropSender (w : SenderPool) (k : Nat) : SenderPool :=
  closeSender { w with sbSender := none, sbClient := none } k

theorem grows_dropSender (w : SenderPool) (k : Nat) : Grows w (w.dropSender k) := by
  refine grows_of_map (fun j s => ?_) (getElem?_closeSender _ k) (Nat.le_refl _)
  split
  · exact ⟨rfl, id, fun _ => rfl⟩
  · exact .refl s

/-- After that no sender is open: only the installed one was. -/
theorem Invariant.closed_dropSender (h : Invariant w) (hsender : w.sbSender = some k) :
    ∀ s ∈ (w.dropSender k).senders, s.closed = true := by
  intro s' hs'
  obtain ⟨j, hj⟩ := List.mem_iff_getElem?.mp hs'
  rw [dropSender, getElem?_closeSender, Option.map_eq_some_iff] at hj
  obtain ⟨s, hs, rfl⟩ := hj
  by_cases hkj : k = j
  · rw [if_pos hkj]
  · rw [if_neg hkj]
    cases hclosed : s.closed with
    | true => rfl
    | false =>
        have hj := (h.installed j s hs hclosed).1
        rw [hsender] at hj
        exact absurd (Option.some.inj hj) hkj

theorem Invariant.dropSender (h : Invariant w) (hsender : w.sbSender = some k)
    (hfailed : w.HasFailed k) : Invariant (w.dropSender k) where
  installed := by
    intro j s hs hopen
    rw [h.closed_dropSender hsender s (List.mem_of_getElem? hs)] at hopen
    cases hopen
  senderKnown := by intro j hj; cases hj
  clientKnown := by intro c hc; cases hc
  phases := fun p hp => (h.phases p hp).grows (grows_dropSender w k)
  safe := by
    intro j s' hs' hclosed
    rw [SenderPool.dropSender, getElem?_closeSender, Option.map_eq_some_iff] at hs'
    obtain ⟨s, hs, rfl⟩ := hs'
    by_cases hkj : k = j
    · subst hkj
      obtain ⟨s₁, hs₁, hfailed₁⟩ := hfailed
      have hsame : s₁ = s := Option.some.inj (hs₁.symm.trans hs)
      rw [if_pos rfl, ← hsame]
      exact hfailed₁
    · rw [if_neg hkj] at hclosed ⊢
      exact h.safe j s hs hclosed

/-- To close a client shuts no sender down that is not closed already. -/
theorem senders_closeClient (hclosed : ∀ s ∈ w.senders, s.client = c → s.closed = true) :
    (w.closeClient c).senders = w.senders := by
  refine (List.map_congr_left fun s hs => ?_).trans (List.map_id _)
  split
  · have := hclosed s hs ‹_›
    cases s
    cases this
    rfl
  · rfl

theorem Invariant.closeClient (h : Invariant w)
    (hclosed : ∀ s ∈ w.senders, s.client = c → s.closed = true) : Invariant (w.closeClient c) := by
  have hsenders := senders_closeClient hclosed
  have hclients : (w.closeClient c).clients.length = w.clients.length := List.length_modify _ _ _
  exact
    { installed := by rw [hsenders]; exact h.installed
      senderKnown := by rw [hsenders]; exact h.senderKnown
      clientKnown := by rw [hclients]; exact h.clientKnown
      phases := fun p hp =>
        (h.phases p hp).grows (grows_of_senders hsenders (Nat.le_of_eq hclients.symm))
      safe := by
        unfold ClosedOnlyIfFailed
        rw [hsenders]
        exact h.safe }

theorem Invariant.dropClient (h : Invariant w) {oldClient : Option Nat}
    (hphase : w.PhaseOk (.closingSender oldClient)) :
    Invariant (w.dropClient oldClient).1
      ∧ (w.dropClient oldClient).1.PhaseOk (w.dropClient oldClient).2 := by
  cases oldClient with
  | none => exact ⟨h, trivial⟩
  | some c => exact ⟨h.closeClient hphase.2, trivial⟩

theorem Invariant.resetSender (h : Invariant w)
    (hfailed : ∀ k, w.sbSender = some k → w.HasFailed k) :
    Invariant w.resetSender.1 ∧ w.resetSender.1.PhaseOk w.resetSender.2 := by
  unfold SenderPool.resetSender
  cases hsender : w.sbSender with
  | some k =>
      refine ⟨h.dropSender hsender (hfailed k hsender), ?_⟩
      cases hclient : w.sbClient with
      | none => trivial
      | some c => exact ⟨h.clientKnown c hclient, fun s hs _ => h.closed_dropSender hsender s hs⟩
  | none =>
      have hclosed : ∀ s ∈ w.senders, s.closed = true := by
        intro s hs
        obtain ⟨j, hj⟩ := List.mem_iff_getElem?.mp hs
        exact h.all_closed hsender hj
      have hcleared : Invariant { w with sbSender := none, sbClient := none } :=
        { h with
          installed := by
            intro j s hs hopen
            rw [hclosed s (List.mem_of_getElem? hs)] at hopen
            cases hopen
          senderKnown := by intro j hj; cases hj
          clientKnown := by intro c hc; cases hc }
      refine hcleared.dropClient ?_
      cases hclient : w.sbClient with
      | none => trivial
      | some c => exact ⟨h.clientKnown c hclient, fun s hs _ => hclosed s hs⟩

/-! ## Runs -/

/-- A reset that finds a sender on which no send has failed closes it. -/
theorem findsFailed_of_safe (h : Invariant w) (hsafe : ClosedOnlyIfFailed w.resetSender.1) :
    ∀ k, w.sbSender = some k → w.HasFailed k := by
  intro k hk
  have hlt := h.senderKnown k hk
  have hs : w.senders[k]? = some w.senders[k] := List.getElem?_eq_getElem hlt
  refine ⟨w.senders[k], hs, ?_⟩
  have hclosed : w.resetSender.1.senders[k]? = some { w.senders[k] with closed := true } := by
    unfold SenderPool.resetSender
    rw [hk]
    show (closeSender _ k).senders[k]? = _
    rw [getElem?_closeSender]
    show w.senders[k]?.map _ = _
    rw [hs, Option.map_some, if_pos rfl]
  exact hsafe k { w.senders[k] with closed := true } hclosed rfl

theorem phaseOk_getSender (h : Invariant w) : w.PhaseOk (w.getSender settings) := by
  unfold getSender
  split
  · trivial
  · cases hsender : w.sbSender with
    | some k => exact h.senderKnown k hsender
    | none => trivial

theorem invariant_step (h : Invariant w) (hfinds : w.FindsFailed e)
    (hs : step settings w e = some w') : Invariant w' := by
  cases e with
  | publish event =>
      cases hs
      refine { h with phases := ?_ }
      intro p hp
      rcases List.mem_append.mp hp with hold | hnew
      · exact (h.phases p hold).grows (grows_of_senders rfl (Nat.le_refl _))
      · rw [List.mem_singleton.mp hnew]
        trivial
  | get i =>
      simp only [step] at hs
      split at hs
      · cases hs
        exact h.goto _ (phaseOk_getSender h)
      · cases hs
  | lock i building =>
      simp only [step] at hs
      split at hs
      · cases hs
        obtain ⟨hlocked, hphase⟩ := h.getLocked settings building
        exact hlocked.goto _ hphase
      · cases hs
  | send i ok =>
      simp only [step] at hs
      split at hs
      · rename_i event k hi
        have hk : k < w.senders.length :=
          h.phaseOk (.sending k) (by rw [SenderPool.phase, hi]; rfl)
        cases ok with
        | true =>
            cases hs
            exact { h.goto (i := i) .returned trivial with }
        | false =>
            cases hs
            exact h.markFailed.goto _ (hasFailed_markFailed hk)
      · cases hs
  | reset i =>
      simp only [step] at hs
      split at hs
      · rename_i sender hi
        cases hs
        have hfailed : ∀ k, w.sbSender = some k → w.HasFailed k := by
          intro k hk
          rcases hfinds k hk with hown | hfailed
          · exact h.phaseOk _ hown
          · exact hfailed
        obtain ⟨hreset, hphase⟩ := h.resetSender hfailed
        exact hreset.goto _ hphase
      · cases hs
  | senderClosed i =>
      simp only [step] at hs
      split at hs
      · rename_i oldClient hi
        cases hs
        obtain ⟨hdropped, hphase⟩ := h.dropClient (h.phaseOk _ hi)
        exact hdropped.goto _ hphase
      · cases hs
  | clientClosed i =>
      simp only [step] at hs
      split at hs
      · cases hs
        exact h.goto _ trivial
      · cases hs

theorem findsFailed_step (h : Invariant w) (hs : step settings w e = some w')
    (hsafe : w'.ClosedOnlyIfFailed) : w.FindsFailed e := by
  cases e with
  | reset i =>
      simp only [step] at hs
      split at hs
      · cases hs
        exact fun k hk => Or.inr (findsFailed_of_safe h hsafe k hk)
      · cases hs
  | publish event => trivial
  | get i => trivial
  | lock i building => trivial
  | send i ok => trivial
  | senderClosed i => trivial
  | clientClosed i => trivial

/--
**A run closes only senders that have failed just if every reset finds one that has.**

A reset closes what is installed when it comes to its lock. That is the sender its own
publish has failed on, unless another publish has reset it, and a third has made a new one.
-/
theorem closed_only_if_failed_iff (settings : Settings) (steps : List PublishStep) :
    Always (step settings) ClosedOnlyIfFailed {} steps ↔
      Meets (step settings) FindsFailed {} steps :=
  always_iff_meets (fun _ h => h.safe)
    (fun _ _ _ h hfinds hs => invariant_step h hfinds hs)
    (fun _ _ _ h hs hsafe => findsFailed_step h hs hsafe) invariant_init

/-! ## Two publishes fail on one sender -/

def someEvent : TaskEvent := { eventType := "task.deleted", data := [] }

/-- The first two share a sender, and both fail on it. In between, a third makes a new one. -/
def lateFailure : List PublishStep :=
  [.publish someEvent, .publish someEvent, .publish someEvent,
    .get 0, .lock 0 .built, .get 1,
    .send 0 false, .reset 0,
    .get 2, .lock 2 .built,
    .send 1 false, .reset 1]

def settings₀ : Settings := { servicebusConnectionString := "Endpoint=sb://localhost" }

/-- The third publish is sending on a sender that is closed, and never failed. -/
theorem late_failure_closes_healthy_sender :
    (∃ w s, exec (step settings₀) {} lateFailure = some w ∧ w.phase 2 = some (.sending 1)
        ∧ w.senders[1]? = some s ∧ s.failed = false ∧ s.closed = true)
      ∧ ¬ Always (step settings₀) ClosedOnlyIfFailed {} lateFailure := by
  have hrun : ∃ w s, exec (step settings₀) {} lateFailure = some w
      ∧ w.phase 2 = some (.sending 1) ∧ w.senders[1]? = some s ∧ s.failed = false
      ∧ s.closed = true := ⟨_, _, rfl, rfl, rfl, rfl, rfl⟩
  refine ⟨hrun, ?_⟩
  intro halways
  obtain ⟨w, s, hexec, _, hs, hfailed, hclosed⟩ := hrun
  have hfails := halways.last hexec 1 s hs hclosed
  rw [hfailed] at hfails
  cases hfails

end SenderPool

end Microservices.Tasks
