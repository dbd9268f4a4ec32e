import Microservices.Lib.History
import Microservices.Notifications.Delivery
import Microservices.Notifications.Recipients
import Microservices.Tasks.Separation

/-!
# From the task service to a stream

The task service, the topic, the consumer and the streams as one system. A request
publishes its events, if the Service Bus takes them. From then on the topic may hand a
message to the consumer at any time, in any order, as often as it likes or never. The
consumer works out whom to tell, and broadcasts later.

Nothing of that is trusted to be in order. What keeps a stream private is that every
message was made by a request, and that whom it names could view the task then.
-/

namespace Microservices.Notifications

open Effects Schedule Tasks

structure Pipeline where
  service : TaskService := TaskService.start
  /-- The bodies of the messages the topic has taken. -/
  topic : List (List UInt8) := []
  /-- What the consumer is about to broadcast. -/
  due : List Broadcast := []
  broadcaster : Broadcaster := {}

inductive PipelineEvent where
  /-- `sent`: whether the Service Bus takes what the request publishes. -/
  | request (env : Surroundings) (callerId : UUID) (request : ServiceRequest) (sent : Bool)
  | expire (key : String)
  /-- The topic hands over a message, for the first time or again. -/
  | receive (messageBody : List (List UInt8)) (f : Faults)
  | broadcast (j : Nat)
  | stream (e : StreamEvent)

def StreamEvent.isBroadcast : StreamEvent → Bool
  | .broadcast _ _ _ => true
  | _ => false

namespace Pipeline

def step (w : Pipeline) : PipelineEvent → Option Pipeline
  | .request env callerId request sent =>
      some { w with
        service := (w.service.respond env callerId request).2
        topic := if sent then w.topic ++ (w.service.served env callerId request).events.map wire
          else w.topic }
  | .expire key => some { w with
      service :=
        { w.service with redis := fun k => if k = key then none else w.service.redis k } }
  | .receive messageBody f =>
      if messageBody.flatten ∈ w.topic then
        some { w with due := w.due ++ (final ((processMessage f messageBody).run {})).broadcasts }
      else none
  | .broadcast j => w.due[j]?.map fun b =>
      { w with
        due := w.due.eraseIdx j
        broadcaster := w.broadcaster.broadcast b.eventType b.data b.targetUserIds }
  | .stream e =>
      -- only the consumer broadcasts
      if e.isBroadcast then none
      else (w.broadcaster.step e).map fun b => { w with broadcaster := b }

end Pipeline

/-- What a step does to the streams. -/
def streamed : Pipeline × PipelineEvent → List StreamEvent
  | (_, .stream e) => [e]
  | (w, .broadcast j) =>
      (w.due[j]?.map fun b => .broadcast b.eventType b.data b.targetUserIds).toList
  | _ => []

/-- **Why there is a broadcast**: a request of the past has published the event, and whoever is told
could view its task after the request, or before it if that deleted the task. -/
structure Warranted (past : List (Pipeline × PipelineEvent)) (b : Broadcast) : Prop where
  nodup : b.targetUserIds.Nodup
  event : ∃ w env callerId request sent, (w, .request env callerId request sent) ∈ past
    ∧ ∃ e ∈ (w.service.served env callerId request).events,
      b.eventType = .str e.eventType ∧ b.data = eventData e
        ∧ ∃ taskId, e.field "task_id" = some (UUID.text taskId)
          ∧ ∀ x ∈ b.targetUserIds, ∃ uid, x = UUID.text uid
            ∧ CanView (tableFor e w.service (w.service.respond env callerId request).2) taskId uid

/-- A request of the past has published what the message says. -/
def Published (past : List (Pipeline × PipelineEvent)) (body : List UInt8) : Prop :=
  ∃ w env callerId request sent, (w, .request env callerId request sent) ∈ past
    ∧ ∃ e ∈ (w.service.served env callerId request).events, body = wire e

/-- Messages come from requests, and broadcasts from messages. -/
structure Sourced (past : List (Pipeline × PipelineEvent)) (w : Pipeline) : Prop where
  topic : ∀ body ∈ w.topic, Published past body
  due : ∀ b ∈ w.due, Warranted past b
  streams : ∀ eventType data targetUserIds,
    .broadcast eventType data targetUserIds ∈ past.flatMap streamed →
      Warranted past ⟨eventType, data, targetUserIds⟩

variable {past : List (Pipeline × PipelineEvent)} {w w' : Pipeline} {f : Faults}

theorem Warranted.mono {b : Broadcast} (h : Warranted past b) (x : Pipeline × PipelineEvent) :
    Warranted (past ++ [x]) b where
  nodup := h.nodup
  event := by
    obtain ⟨w, env, callerId, request, sent, hmem, hevent⟩ := h.event
    exact ⟨w, env, callerId, request, sent, List.mem_append_left _ hmem, hevent⟩

theorem Published.mono {body : List UInt8} (h : Published past body)
    (x : Pipeline × PipelineEvent) : Published (past ++ [x]) body := by
  obtain ⟨w, env, callerId, request, sent, hmem, hevent⟩ := h
  exact ⟨w, env, callerId, request, sent, List.mem_append_left _ hmem, hevent⟩

/-! ## A message -/

theorem onTaskCreated_of_faults {data : Json} {ids : List String}
    (h : onTaskCreated f data = some ids) : onTaskCreated {} data = some ids := by
  unfold onTaskCreated at *
  obtain ⟨assigneeId, hassignee, h⟩ := Option.bind_eq_some_iff.mp h
  obtain ⟨creatorId, hcreator, h⟩ := Option.bind_eq_some_iff.mp h
  rw [hassignee, hcreator]
  show (if (truthy assigneeId && false) = true then none else _) = _
  rw [Bool.and_false, if_neg Bool.false_ne_true]
  split at h
  · cases h
  · exact h

/-- What a handler returns despite faults is what it returns without. -/
theorem handle_of_faults {eventType data : Json} {ids : List String}
    (h : handle f eventType data = some ids) : handle {} eventType data = some ids := by
  cases eventType with
  | str name =>
      unfold handle at *
      dsimp only at *
      cases hlookup : handlers.lookup name with
      | none =>
          rw [hlookup] at h
          exact h
      | some handler =>
          rw [hlookup] at h
          dsimp only at h ⊢
          obtain ⟨before, after, hhandlers, -⟩ := List.lookup_eq_some_iff.mp hlookup
          have hmem : (name, handler) ∈ handlers := by
            rw [hhandlers]
            exact List.mem_append_right _ List.mem_cons_self
          have hreturns : ∀ m ∈ handlers, m.2 f data = some ids → m.2 {} data = some ids := by
            intro m hm
            rcases List.mem_cons.mp hm with rfl | hm
            · exact onTaskCreated_of_faults
            · rcases List.mem_cons.mp hm with rfl | hm
              · exact id
              · rw [List.mem_singleton.mp hm]
                exact id
          split at h
          · cases h
          · exact hreturns _ hmem h
  | _ => exact h

theorem handled_of_faults {messageBody : List (List UInt8)} {b : Broadcast}
    (h : handled f messageBody = some b) : handled {} messageBody = some b := by
  obtain ⟨⟨eventType, data⟩, hread, h⟩ := Option.bind_eq_some_iff.mp h
  obtain ⟨targetUserIds, hhandle, h⟩ := Option.bind_eq_some_iff.mp h
  cases h
  unfold handled
  rw [hread]
  show (handle {} eventType data).bind _ = _
  rw [handle_of_faults hhandle]
  rfl

theorem broadcasts_processMessage {messageBody : List (List UInt8)} {b : Broadcast}
    (h : b ∈ (final ((processMessage f messageBody).run {})).broadcasts) :
    handled f messageBody = some b := by
  obtain ⟨p, hrun, hp⟩ := processMessage_run f messageBody
  rw [hrun] at h
  change b ∈ p.broadcasts at h
  cases hhandled : handled f messageBody with
  | none =>
      rw [hhandled] at hp
      rw [hp.2] at h
      cases h
  | some b' =>
      rw [hhandled] at hp
      dsimp only at hp
      split_ifs at hp
      · rw [hp.2] at h
        cases h
      · rw [hp.2] at h
        cases h
      · rw [hp.2] at h
        rw [List.mem_singleton.mp h]

theorem reaches_served {s : TaskService} {env : Surroundings} {callerId : UUID}
    {request : ServiceRequest} {e : TaskEvent} (h : e ∈ (s.served env callerId request).events) :
    ReachesViewers (tableFor e s (s.respond env callerId request).2) e := by
  unfold TaskService.served TaskService.respond at *
  cases request with
  | createProject body => cases h
  | project request => cases h
  | task request =>
      dsimp only at *
      cases hvalid : request.modelValidate with
      | error invalid =>
          rw [hvalid] at h
          cases h
      | ok accepted =>
          rw [hvalid] at h
          exact reaches_handle h

/-- **What is made of a message** is a broadcast that its event warrants. -/
theorem warranted_of_message {messageBody : List (List UInt8)} {b : Broadcast}
    (h : Published past messageBody.flatten) (hb : handled f messageBody = some b) :
    Warranted past b := by
  obtain ⟨w, env, callerId, request, sent, hmem, e, he, hbody⟩ := h
  obtain ⟨taskId, targetUserIds, hfield, hnodup, htargets, hprocessed⟩ := reaches_served he
  have hsame : b = ⟨.str e.eventType, eventData e, targetUserIds⟩ := by
    obtain ⟨p, hrun, -, hbroadcasts⟩ := hprocessed messageBody hbody
    have hmade : (⟨.str e.eventType, eventData e, targetUserIds⟩ : Broadcast)
        ∈ (final ((processMessage {} messageBody).run {})).broadcasts := by
      rw [hrun]
      show _ ∈ p.broadcasts
      rw [hbroadcasts]
      exact List.mem_singleton_self _
    exact Option.some.inj ((handled_of_faults hb).symm.trans (broadcasts_processMessage hmade))
  subst hsame
  exact ⟨hnodup, w, env, callerId, request, sent, hmem, e, he, rfl, rfl, taskId, hfield,
    fun x hx => (htargets x).mp hx⟩

/-! ## Every run -/

theorem sourced_start : Sourced [] {} where
  topic := by
    intro body h
    cases h
  due := by
    intro b h
    cases h
  streams := by
    intro eventType data targetUserIds h
    cases h

/-- What holds of the past holds of it with one more step that streams nothing by itself. -/
theorem Sourced.quiet (h : Sourced past w) (x : Pipeline × PipelineEvent)
    (hquiet : ∀ eventType data targetUserIds,
      .broadcast eventType data targetUserIds ∉ streamed x) : Sourced (past ++ [x]) w where
  topic := fun body hbody => (h.topic body hbody).mono x
  due := fun b hb => (h.due b hb).mono x
  streams := by
    intro eventType data targetUserIds hmem
    rw [List.flatMap_append, List.mem_append] at hmem
    rcases hmem with hold | hnow
    · exact (h.streams _ _ _ hold).mono x
    · rw [List.flatMap_singleton] at hnow
      exact absurd hnow (hquiet _ _ _)

/-- A stream moves by itself, and does not broadcast. -/
theorem step_stream {e : StreamEvent} (hs : w.step (.stream e) = some w') :
    (∀ eventType data targetUserIds, e ≠ .broadcast eventType data targetUserIds)
      ∧ ∃ b, w.broadcaster.step e = some b ∧ w' = { w with broadcaster := b } := by
  rw [Pipeline.step] at hs
  split at hs
  · cases hs
  · rename_i hother
    obtain ⟨b, hb, rfl⟩ := Option.map_eq_some_iff.mp hs
    refine ⟨?_, b, hb, rfl⟩
    rintro eventType data targetUserIds rfl
    exact hother rfl

theorem sourced_step {e : PipelineEvent} (h : Sourced past w) (hs : w.step e = some w') :
    Sourced (past ++ [(w, e)]) w' := by
  have hnothing : ∀ eventType data targetUserIds, StreamEvent.broadcast eventType data targetUserIds
      ∉ ([] : List StreamEvent) := fun _ _ _ => List.not_mem_nil
  cases e with
  | expire key =>
      cases hs
      exact { h.quiet (w, .expire key) hnothing with }
  | request env callerId request sent =>
      cases hs
      have hpast := h.quiet (w, .request env callerId request sent) hnothing
      refine { hpast with topic := ?_ }
      intro body hbody
      dsimp only at hbody
      split at hbody
      · rcases List.mem_append.mp hbody with hold | hnew
        · exact hpast.topic body hold
        · obtain ⟨event, hevent, rfl⟩ := List.mem_map.mp hnew
          exact ⟨w, env, callerId, request, sent, List.mem_append_right _ (List.mem_singleton_self _),
            event, hevent, rfl⟩
      · exact hpast.topic body hbody
  | receive messageBody f =>
      rw [Pipeline.step] at hs
      split at hs
      · rename_i hbody
        cases hs
        have hpast := h.quiet (w, .receive messageBody f) hnothing
        refine { hpast with due := ?_ }
        intro b hb
        rcases List.mem_append.mp hb with hold | hnew
        · exact hpast.due b hold
        · exact warranted_of_message (hpast.topic _ hbody) (broadcasts_processMessage hnew)
      · cases hs
  | broadcast j =>
      obtain ⟨b, hb, hs⟩ := Option.map_eq_some_iff.mp hs
      cases hs
      have hdue := List.mem_of_getElem? hb
      refine ⟨fun body hbody => (h.topic body hbody).mono _, ?_, ?_⟩
      · intro b' hb'
        exact (h.due b' (List.mem_of_mem_eraseIdx hb')).mono _
      · intro eventType data targetUserIds hmem
        rw [List.flatMap_append, List.mem_append] at hmem
        rcases hmem with hold | hnow
        · exact (h.streams _ _ _ hold).mono _
        · rw [List.flatMap_singleton, streamed, hb] at hnow
          cases List.mem_singleton.mp hnow
          exact (h.due b hdue).mono _
  | stream e =>
      obtain ⟨hother, b, -, rfl⟩ := step_stream hs
      refine { h.quiet (w, .stream e) ?_ with }
      intro eventType data targetUserIds hmem
      exact hother _ _ _ (List.mem_singleton.mp hmem).symm

/-- The broadcaster takes each event's part in the streams. -/
theorem streamed_step {e : PipelineEvent} (hs : Pipeline.step w e = some w') :
    exec Broadcaster.step w.broadcaster (streamed (w, e)) = some w'.broadcaster := by
  cases e with
  | expire key | request env callerId request sent =>
      cases hs
      rfl
  | receive messageBody f =>
      rw [Pipeline.step] at hs
      split at hs
      · cases hs
        rfl
      · cases hs
  | broadcast j =>
      obtain ⟨d, hd, hs⟩ := Option.map_eq_some_iff.mp hs
      cases hs
      rw [streamed, hd]
      rfl
  | stream e =>
      obtain ⟨-, b, hb, rfl⟩ := step_stream hs
      exact exec_cons [] hb

/-- The streams of a run are a run of the broadcaster. -/
theorem streams_run {es : List PipelineEvent} (hrun : exec Pipeline.step {} es = some w) :
    exec Broadcaster.step {} ((trace Pipeline.step {} es).flatMap streamed) = some w.broadcaster := by
  obtain ⟨b, hb, rfl⟩ : ∃ b, exec Broadcaster.step {}
      ((trace Pipeline.step {} es).flatMap streamed) = some b ∧ w.broadcaster = b := by
    refine exec_emitted (R := fun _ w b => w.broadcaster = b) ?_ rfl hrun
    rintro e es w w' b rfl hs
    exact ⟨_, streamed_step hs, rfl⟩
  exact hb

/-- A request of the past has published the event of this text, and the user could view its task. -/
def ViewableTo (past : List (Pipeline × PipelineEvent)) (userId text : String) : Prop :=
  ∃ w env callerId request sent, (w, .request env callerId request sent) ∈ past
    ∧ ∃ e ∈ (w.service.served env callerId request).events,
      text = payload (.str e.eventType) (eventData e)
        ∧ ∃ taskId uid, e.field "task_id" = some (UUID.text taskId) ∧ userId = UUID.text uid
          ∧ CanView (tableFor e w.service (w.service.respond env callerId request).2) taskId uid

/-- Ann watches, and creates a task in her project. -/
def annWatches : List PipelineEvent := [
  .request { newId := UUID.ofNat 4, now := noon } ann (.createProject { name := "Launch" }) true,
  .stream (.subscribe ann.text),
  .stream (.start 0),
  .request { newId := UUID.ofNat 6, now := noon } ann
    (.task (.create none { title := "Plan", projectId := UUID.ofNat 4 })) true,
  .receive [wire (taskCreated
    ({ title := "Plan", projectId := UUID.ofNat 4 : TaskCreate }.toTask ann (UUID.ofNat 6) noon))] {},
  .broadcast 0,
  .stream (.read 0)]

end Microservices.Notifications
