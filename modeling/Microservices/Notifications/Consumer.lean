import Microservices.Lib.Effects
import Microservices.Lib.JsonText

/-!
# The Service Bus consumer

A message is read as JSON, its handler says which users to tell, the message is
completed, and the event is broadcast. All of this is in one `try`: whichever step
raises, the message is abandoned. To raise is to raise an `Exception`; a cancellation
ends the receiver, and leaves the message to its lock.
-/

namespace Microservices.Notifications

open Effects

/-! ## Values of `json.loads` -/

/-- `float(text) == 0.0`: what is at most half the least positive float rounds to zero. -/
def roundsToZero (text : String) : Bool :=
  let cs := text.toList.dropWhile (· == '-')
  let mantissa := cs.takeWhile fun c => c.isDigit || c == '.'
  let digits := mantissa.filter Char.isDigit
  let places := (mantissa.dropWhile Char.isDigit).length - 1
  let scale := cs.drop (mantissa.length + 1)
  let exponent := Nat.ofDigitChars 10 (scale.filter Char.isDigit) 0
  let n := Nat.ofDigitChars 10 digits 0
  let small :=
    if scale.head? = some '-' then n * 2 ^ 1075 ≤ 10 ^ (places + exponent)
    else n * 10 ^ exponent * 2 ^ 1075 ≤ 10 ^ places
  -- `NaN` and the infinities have no digits
  !digits.isEmpty && decide small

/-- `bool(v)`. -/
def truthy : Json → Bool
  | .null => false
  | .bool b => b
  | .int i => i ≠ 0
  | .float text => !roundsToZero text
  | .str s => s ≠ ""
  | .arr items => !items.isEmpty
  | .obj members => !members.isEmpty

/-- `v.get(name, default)`; `none` is `AttributeError`. -/
def dictGet (v : Json) (name : String) (default : Json) : Option Json :=
  match v with
  | .obj _ => some ((v.get? name).getD default)
  | _ => none

/-! ## Targets -/

/-- One turn of the loop of `_collect_targets`. Numbers and `true` are left out, as no connection
is registered under one. -/
def addTarget (result : List String) (uid : Json) : Option (List String) :=
  if truthy uid then
    match uid with
    | .str s => some (if s ∈ result then result else result ++ [s])
    | .arr _ | .obj _ => none
    | _ => some result
  else some result

/-- `_collect_targets`; `none` is `TypeError`, as arrays and objects have no hash. -/
def collectTargets (ids : List Json) : Option (List String) := ids.foldlM addTarget []

/-- Which of the operations raise. -/
structure Faults where
  handler : Bool := false
  send : Bool := false
  complete : Bool := false
  broadcast : Bool := false

/-- `_on_task_created`; `none` is any exception. An assignee is sent a notification. -/
def onTaskCreated (f : Faults) (data : Json) : Option (List String) := do
  let assigneeId ← dictGet data "assignee_id" .null
  let creatorId ← dictGet data "creator_id" .null
  if truthy assigneeId && f.send then none else collectTargets [assigneeId, creatorId]

/-- The creator and the assignee, if there is one. -/
def stakeholders (data : Json) : Option (List String) := do
  let creatorId ← dictGet data "creator_id" .null
  let assigneeId ← dictGet data "assignee_id" .null
  collectTargets [creatorId, assigneeId]

/-- `_on_task_status_changed`. -/
def onTaskStatusChanged (data : Json) : Option (List String) := stakeholders data

/-- `_on_task_deleted`. -/
def onTaskDeleted (data : Json) : Option (List String) := stakeholders data

/-- `self._handlers`. -/
def handlers : List (String × (Faults → Json → Option (List String))) := [
  ("task.created", onTaskCreated),
  ("task.status_changed", fun _ => onTaskStatusChanged),
  ("task.deleted", fun _ => onTaskDeleted)]

/-- `self._handlers.get(event_type)`, and `await handler(data)` if there is one. -/
def handle (f : Faults) (eventType data : Json) : Option (List String) :=
  match eventType with
  | .arr _ | .obj _ => none
  | .str name =>
      match handlers.lookup name with
      | some handler => if f.handler then none else handler f data
      | none => some []
  | _ => some []

/-! ## Messages -/

inductive Settlement where
  | completed
  /-- `complete_message` raised. -/
  | completeFailed
  | abandoned
  deriving DecidableEq, Repr

/-- A call of `broadcaster.broadcast`. -/
structure Broadcast where
  eventType : Json
  data : Json
  targetUserIds : List String

/-- What processing a message has done so far. -/
structure Processing where
  /-- The variable of that name. -/
  eventType : Json := .str "unknown"
  settlements : List Settlement := []
  /-- The label values counted. -/
  metrics : List (Json × String) := []
  broadcasts : List Broadcast := []

def Processing.settle (p : Processing) (s : Settlement) : Processing :=
  { p with settlements := p.settlements ++ [s] }

def Processing.count (p : Processing) (status : String) : Processing :=
  { p with metrics := p.metrics ++ [(p.eventType, status)] }

abbrev Consumer := EStateM Unit Processing

def orRaise {α : Type} : Option α → Consumer α
  | some a => pure a
  | none => throw ()

/-- `event_type = ...` -/
def setEventType (eventType : Json) : Consumer Unit :=
  modify fun p => { p with eventType := eventType }

def completeMessage (f : Faults) : Consumer Unit := do
  if f.complete then
    modify fun p => p.settle .completeFailed
    throw ()
  else modify fun p => p.settle .completed

def broadcast (f : Faults) (b : Broadcast) : Consumer Unit := do
  if f.broadcast then throw ()
  else modify fun p => { p with broadcasts := p.broadcasts ++ [b] }

/-- The last part of the `try`: the message is completed before the broadcast. -/
def deliver (f : Faults) (b : Broadcast) : Consumer Unit := do
  completeMessage f
  modify fun p => p.count "success"
  broadcast f b

/-- The `try` of `_process_message`. -/
def attempt (f : Faults) (messageBody : List (List UInt8)) : Consumer Unit := do
  let body ← orRaise (Json.loads messageBody.flatten)
  let eventType ← orRaise (dictGet body "event_type" (.str "unknown"))
  setEventType eventType
  let data ← orRaise (dictGet body "data" (.obj []))
  let targetUserIds ← orRaise (handle f eventType data)
  deliver f ⟨eventType, data, targetUserIds⟩

/-- `_process_message`. -/
def processMessage (f : Faults) (messageBody : List (List UInt8)) : Consumer Unit :=
  tryCatch (attempt f messageBody) fun _ => do
    modify fun p => p.settle .abandoned
    modify fun p => p.count "failure"

/-! ## What becomes of a message -/

variable {f : Faults} {messageBody : List (List UInt8)} {p p' : Processing} {b : Broadcast}

theorem orRaise_some {α : Type} {o : Option α} {a : α} (h : o = some a) :
    (orRaise o).run p = .ok a p := by
  rw [h]
  rfl

theorem orRaise_none {α : Type} {o : Option α} (h : o = none) :
    (orRaise o).run p = .error () p := by
  rw [h]
  rfl

theorem setEventType_run (eventType : Json) :
    (setEventType eventType).run p = .ok () { p with eventType := eventType } := rfl

/-- `event_type` and `data`. -/
def readMessage (messageBody : List (List UInt8)) : Option (Json × Json) := do
  let body ← Json.loads messageBody.flatten
  let eventType ← dictGet body "event_type" (.str "unknown")
  let data ← dictGet body "data" (.obj [])
  some (eventType, data)

/-- The broadcast a message comes to; `none` if it cannot be read, or its handler raises. -/
def handled (f : Faults) (messageBody : List (List UInt8)) : Option Broadcast := do
  let (eventType, data) ← readMessage messageBody
  let targetUserIds ← handle f eventType data
  some ⟨eventType, data, targetUserIds⟩

theorem attempt_of_handled (h : handled f messageBody = some b) :
    (attempt f messageBody).run p = (deliver f b).run { p with eventType := b.eventType } := by
  obtain ⟨⟨eventType, data⟩, hread, h⟩ := Option.bind_eq_some_iff.mp h
  obtain ⟨targetUserIds, hhandle, h⟩ := Option.bind_eq_some_iff.mp h
  obtain ⟨body, hloads, hread⟩ := Option.bind_eq_some_iff.mp hread
  obtain ⟨eventType', htype, hread⟩ := Option.bind_eq_some_iff.mp hread
  obtain ⟨data', hdata, hread⟩ := Option.bind_eq_some_iff.mp hread
  cases hread
  cases h
  unfold attempt
  rw [run_bind_ok (orRaise_some hloads), run_bind_ok (orRaise_some htype),
    run_bind_ok (setEventType_run eventType), run_bind_ok (orRaise_some hdata), run_bind_ok (orRaise_some hhandle)]

theorem attempt_of_not_handled (h : handled f messageBody = none) :
    ∃ eventType, (attempt f messageBody).run p = .error () { p with eventType := eventType } := by
  unfold attempt
  cases hloads : Json.loads messageBody.flatten with
  | none => exact ⟨_, run_bind_error (orRaise_none rfl) _⟩
  | some body =>
      rw [run_bind_ok (orRaise_some rfl)]
      cases htype : dictGet body "event_type" (.str "unknown") with
      | none => exact ⟨_, run_bind_error (orRaise_none rfl) _⟩
      | some eventType =>
          refine ⟨eventType, ?_⟩
          rw [run_bind_ok (orRaise_some rfl), run_bind_ok (setEventType_run eventType)]
          cases hdata : dictGet body "data" (.obj []) with
          | none => exact run_bind_error (orRaise_none rfl) _
          | some data =>
              rw [run_bind_ok (orRaise_some rfl)]
              cases hhandle : handle f eventType data with
              | none => exact run_bind_error (orRaise_none rfl) _
              | some targetUserIds =>
                  unfold handled readMessage at h
                  simp only [hloads, htype, hdata, hhandle, Option.bind_eq_bind, Option.bind_some] at h
                  cases h

theorem processMessage_of_ok (h : (attempt f messageBody).run p = .ok () p') :
    (processMessage f messageBody).run p = .ok () p' := by
  show EStateM.tryCatch _ _ p = _
  unfold EStateM.tryCatch
  change attempt f messageBody p = _ at h
  rw [h]

theorem processMessage_of_error (h : (attempt f messageBody).run p = .error () p') :
    (processMessage f messageBody).run p = .ok () ((p'.settle .abandoned).count "failure") := by
  show EStateM.tryCatch _ _ p = _
  unfold EStateM.tryCatch
  change attempt f messageBody p = _ at h
  rw [h]
  rfl

theorem deliver_run (f : Faults) (b : Broadcast) (p : Processing) :
    (deliver f b).run p =
      if f.complete then .error () (p.settle .completeFailed)
      else if f.broadcast then .error () ((p.settle .completed).count "success")
      else .ok () { (p.settle .completed).count "success" with broadcasts := p.broadcasts ++ [b] } := by
  unfold deliver completeMessage broadcast
  cases f.complete with
  | true => rfl
  | false => cases f.broadcast <;> rfl

/-- **What becomes of a message** is up to whether it is handled, completed and broadcast. -/
theorem processMessage_run (f : Faults) (messageBody : List (List UInt8)) :
    ∃ p, (processMessage f messageBody).run {} = .ok () p
      ∧ match handled f messageBody with
        | none => p.settlements = [.abandoned] ∧ p.broadcasts = []
        | some b =>
            if f.complete then p.settlements = [.completeFailed, .abandoned] ∧ p.broadcasts = []
            else if f.broadcast then p.settlements = [.completed, .abandoned] ∧ p.broadcasts = []
            else p.settlements = [.completed] ∧ p.broadcasts = [b] := by
  cases hhandled : handled f messageBody with
  | none =>
      obtain ⟨eventType, hattempt⟩ := attempt_of_not_handled hhandled
      exact ⟨_, processMessage_of_error hattempt, rfl, rfl⟩
  | some b =>
      have hattempt := attempt_of_handled (p := {}) hhandled
      rw [deliver_run] at hattempt
      dsimp only
      split_ifs at hattempt ⊢
      · exact ⟨_, processMessage_of_error hattempt, rfl, rfl⟩
      · exact ⟨_, processMessage_of_error hattempt, rfl, rfl⟩
      · exact ⟨_, processMessage_of_ok hattempt, rfl, rfl⟩

end Microservices.Notifications
