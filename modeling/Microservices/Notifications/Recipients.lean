import Microservices.Notifications.Consumer
import Microservices.Tasks.Markup

/-!
# Events go to those who may see the task

The task service writes the creator and the assignee into each of its events, and the
consumer reads them out again. A request can set, change or clear the assignee as it
publishes. Whom the consumer tells is checked here against the table: after the request,
or before it if that deletes the task.
-/

namespace Microservices.Notifications

open Effects Schedule Tasks

/-! ## On the wire -/

/-- `null` for `None`. -/
def textOrNull : Option String → Json
  | none => .null
  | some s => .str s

/-- `data`, as the consumer reads it. -/
def eventData (e : TaskEvent) : Json := .obj (e.data.map fun m => (m.1, textOrNull m.2))

/-- `json.dumps({"event_type": event_type, "data": data})`, as the bytes of the message. -/
def wire (e : TaskEvent) : List UInt8 :=
  Unicode.encodeUtf8 (Json.dumps (.obj [("event_type", .str e.eventType), ("data", eventData e)]))

theorem readable_members (data : List (String × Option String)) :
    Json.readableMembers (data.map fun m => (m.1, textOrNull m.2)) = true := by
  induction data with
  | nil => rfl
  | cons m data ih =>
      rw [List.map_cons, Json.readableMembers, ih, Bool.and_true]
      cases m.2 <;> rfl

theorem loads_wire (e : TaskEvent) :
    Json.loads (wire e) = some (.obj [("event_type", .str e.eventType), ("data", eventData e)]) := by
  refine Json.loads_dumps ?_
  simp only [Json.readable, Json.readableMembers, eventData, readable_members, Bool.and_true]

/-- A message with the event, however its body is cut. -/
theorem readMessage_wire {e : TaskEvent} {messageBody : List (List UInt8)}
    (h : messageBody.flatten = wire e) :
    readMessage messageBody = some (.str e.eventType, eventData e) := by
  unfold readMessage
  rw [h, loads_wire]
  rfl

/-! ## Targets -/

theorem addTarget_textOrNull (result : List String) (o : Option String) :
    ∃ result', addTarget result (textOrNull o) = some result' ∧ (result.Nodup → result'.Nodup)
      ∧ ∀ x, x ∈ result' ↔ x ∈ result ∨ (o = some x ∧ x ≠ "") := by
  cases o with
  | none => exact ⟨result, rfl, id, by simp⟩
  | some s =>
      unfold addTarget textOrNull truthy
      by_cases hs : s = ""
      · refine ⟨result, by simp [hs], id, ?_⟩
        intro x
        constructor
        · exact Or.inl
        · rintro (h | ⟨h, hx⟩)
          · exact h
          · cases h
            exact absurd hs hx
      · by_cases hmem : s ∈ result
        · refine ⟨result, by simp [hs, hmem], id, ?_⟩
          intro x
          constructor
          · exact Or.inl
          · rintro (h | ⟨h, _⟩)
            · exact h
            · cases h
              exact hmem
        · refine ⟨result ++ [s], by simp [hs, hmem], ?_, ?_⟩
          · intro h
            exact List.nodup_append.mpr ⟨h, List.nodup_singleton s, by
              intro a ha b hb hab
              rw [List.mem_singleton.mp hb] at hab
              exact hmem (hab ▸ ha)⟩
          · intro x
            rw [List.mem_append, List.mem_singleton, Option.some.injEq]
            constructor
            · rintro (h | rfl)
              · exact Or.inl h
              · exact Or.inr ⟨rfl, hs⟩
            · rintro (h | ⟨h, _⟩)
              · exact Or.inl h
              · exact Or.inr h.symm

theorem foldlM_addTarget (os : List (Option String)) (result : List String) :
    ∃ targets, (os.map textOrNull).foldlM addTarget result = some targets
      ∧ (result.Nodup → targets.Nodup)
      ∧ ∀ x, x ∈ targets ↔ x ∈ result ∨ (some x ∈ os ∧ x ≠ "") := by
  induction os generalizing result with
  | nil => exact ⟨result, rfl, id, by simp⟩
  | cons o os ih =>
      obtain ⟨result', hadd, hnodup, hmem⟩ := addTarget_textOrNull result o
      obtain ⟨targets, hfold, hnodup', hmem'⟩ := ih result'
      refine ⟨targets, ?_, fun h => hnodup' (hnodup h), ?_⟩
      · rw [List.map_cons, List.foldlM_cons, hadd]
        exact hfold
      · intro x
        rw [hmem', hmem, or_assoc, List.mem_cons, eq_comm (a := o), or_and_right]

/-- **Targets are distinct, and they are the ids that are there.** -/
theorem collectTargets_spec (os : List (Option String)) :
    ∃ targets, collectTargets (os.map textOrNull) = some targets ∧ targets.Nodup
      ∧ ∀ x, x ∈ targets ↔ some x ∈ os ∧ x ≠ "" := by
  obtain ⟨targets, hfold, hnodup, hmem⟩ := foldlM_addTarget os []
  refine ⟨targets, hfold, hnodup List.nodup_nil, ?_⟩
  intro x
  rw [hmem]
  exact or_iff_right List.not_mem_nil

/-! ## Each event names the creator and the assignee -/

/-- The event tells of the task, and its handler collects the task's creator and assignee. -/
def Addresses (t : Task) (e : TaskEvent) : Prop :=
  e.field "task_id" = some t.id.text
    ∧ ∃ os : List (Option String), handle {} (.str e.eventType) (eventData e)
        = collectTargets (os.map textOrNull)
      ∧ ∀ o, o ∈ os ↔ o = some t.creatorId.text ∨ o = t.assigneeId.map UUID.text

/-- Of distinct names the last is the first. -/
theorem get?_members {data : List (String × Option String)} (hdistinct : (data.map Prod.fst).Nodup)
    (name : String) :
    ((Json.obj (data.map fun m => (m.1, textOrNull m.2))).get? name).getD .null
      = textOrNull (data.lookup name).join := by
  induction data with
  | nil => rfl
  | cons m data ih =>
      obtain ⟨k, v⟩ := m
      rw [List.map_cons, List.nodup_cons] at hdistinct
      have hlater := ih hdistinct.2
      unfold Json.get? at hlater ⊢
      dsimp only at hlater ⊢
      rw [List.map_cons, List.reverse_cons, List.find?_append]
      by_cases hk : k = name
      · subst hk
        have hnone : (data.map fun m => (m.1, textOrNull m.2)).reverse.find? (fun m => m.1 = k)
            = none := by
          rw [List.find?_eq_none]
          intro m hm hmk
          obtain ⟨m', hm', rfl⟩ := List.mem_map.mp (List.mem_reverse.mp hm)
          exact hdistinct.1 (List.mem_map.mpr ⟨m', hm', of_decide_eq_true hmk⟩)
        rw [hnone]
        simp
      · have hlookup : List.lookup name ((k, v) :: data) = data.lookup name := by
          rw [List.lookup_cons, beq_false_of_ne (Ne.symm hk)]
        rw [hlookup, ← hlater, List.find?_cons_of_neg (by simpa using hk)]
        simp

/-- The consumer reads a field as the service wrote it. -/
theorem dictGet_eventData {e : TaskEvent} (hdistinct : (e.data.map Prod.fst).Nodup) (name : String) :
    dictGet (eventData e) name .null = some (textOrNull (e.field name)) :=
  congrArg some (get?_members hdistinct name)

theorem stakeholders_eventData {e : TaskEvent} (hdistinct : (e.data.map Prod.fst).Nodup) :
    stakeholders (eventData e)
      = collectTargets ([e.field "creator_id", e.field "assignee_id"].map textOrNull) := by
  unfold stakeholders
  rw [dictGet_eventData hdistinct, dictGet_eventData hdistinct]
  rfl

theorem addresses_created (t : Task) : Addresses t (taskCreated t) := by
  have hdistinct : ((taskCreated t).data.map Prod.fst).Nodup := by
    simp [taskCreated]
  refine ⟨rfl, [t.assigneeId.map UUID.text, some t.creatorId.text], ?_, ?_⟩
  · have hhandle : handle {} (.str (taskCreated t).eventType) (eventData (taskCreated t))
        = onTaskCreated {} (eventData (taskCreated t)) := by
      simp [handle, handlers, taskCreated]
    rw [hhandle, onTaskCreated, dictGet_eventData hdistinct, dictGet_eventData hdistinct]
    simp [taskCreated, TaskEvent.field, List.lookup_cons]
  · intro o
    simp [or_comm]

/-- An event whose handler tells the stakeholders. -/
theorem addresses_of_stakeholders {t : Tasks.Task} {e : TaskEvent}
    (hhandle : handle {} (.str e.eventType) (eventData e) = stakeholders (eventData e))
    (hdistinct : (e.data.map Prod.fst).Nodup) (htask : e.field "task_id" = some t.id.text)
    (hcreator : e.field "creator_id" = some t.creatorId.text)
    (hassignee : e.field "assignee_id" = t.assigneeId.map UUID.text) : Addresses t e := by
  refine ⟨htask, [some t.creatorId.text, t.assigneeId.map UUID.text], ?_, ?_⟩
  · rw [hhandle, stakeholders_eventData hdistinct, hcreator, hassignee]
  · intro o
    simp

theorem addresses_statusChanged (t : Task) (oldStatus : TaskStatus) (callerId : UUID) :
    Addresses t (taskStatusChanged t oldStatus callerId) := by
  refine addresses_of_stakeholders ?_ (by simp [taskStatusChanged]) rfl ?_ ?_
  · simp [handle, handlers, taskStatusChanged, onTaskStatusChanged, List.lookup_cons]
  · simp [taskStatusChanged, TaskEvent.field, List.lookup_cons]
  · simp [taskStatusChanged, TaskEvent.field, List.lookup_cons]

theorem addresses_deleted (t : Task) : Addresses t (taskDeleted t) := by
  refine addresses_of_stakeholders ?_ (by simp [taskDeleted]) rfl ?_ ?_
  · simp [handle, handlers, taskDeleted, onTaskDeleted, List.lookup_cons]
  · simp [taskDeleted, TaskEvent.field, List.lookup_cons]
  · simp [taskDeleted, TaskEvent.field, List.lookup_cons]

/-! ## Whom the consumer tells -/

/-- The user is shown the task. -/
def CanView (s : TaskService) (taskId uid : UUID) : Prop :=
  ∃ t, getAuthorizedTask (s.tasks.find? taskId) uid false = .ok t

/-- **The event goes to those who can view its task.** The consumer completes its message, and
broadcasts it to them and to nobody else, each named once. -/
def ReachesViewers (s : TaskService) (e : TaskEvent) : Prop :=
  ∃ taskId targetUserIds,
    e.field "task_id" = some (UUID.text taskId)
      ∧ targetUserIds.Nodup
      ∧ (∀ x, x ∈ targetUserIds ↔ ∃ uid, x = UUID.text uid ∧ CanView s taskId uid)
      ∧ ∀ messageBody, messageBody.flatten = wire e →
        ∃ p, (processMessage {} messageBody).run {} = .ok () p
          ∧ p.settlements = [.completed]
          ∧ p.broadcasts = [⟨.str e.eventType, eventData e, targetUserIds⟩]

theorem canView_iff {s : TaskService} {t : Tasks.Task} (h : t ∈ s.tasks.rows) (uid : UUID) :
    CanView s t.id uid ↔ t.creatorId = uid ∨ t.assigneeId = some uid := by
  have hfind : s.tasks.find? t.id = some t := Table.find?_eq_some_iff.mpr ⟨h, rfl⟩
  unfold CanView getAuthorizedTask
  rw [hfind]
  dsimp only
  have hvisible : t.visibleTo uid = true ↔ t.creatorId = uid ∨ t.assigneeId = some uid := by
    simp [Tasks.Task.visibleTo]
  rw [← hvisible]
  cases t.visibleTo uid with
  | true => exact iff_of_true ⟨t, rfl⟩ rfl
  | false => exact iff_of_false (by rintro ⟨t', h'⟩; cases h') Bool.false_ne_true

/-- An event that addresses a task of the table reaches those who can view that. -/
theorem reachesViewers_of_addresses {s : TaskService} {t : Tasks.Task} {e : TaskEvent}
    (ht : t ∈ s.tasks.rows) (h : Addresses t e) : ReachesViewers s e := by
  obtain ⟨htask, os, hhandle, hos⟩ := h
  obtain ⟨targetUserIds, hcollect, hnodup, hmem⟩ := collectTargets_spec os
  refine ⟨t.id, targetUserIds, htask, hnodup, ?_, ?_⟩
  · intro x
    rw [hmem, hos]
    constructor
    · rintro ⟨hcreator | hassignee, _⟩
      · exact ⟨t.creatorId, Option.some.inj hcreator, (canView_iff ht _).mpr (Or.inl rfl)⟩
      · obtain ⟨uid, huid, rfl⟩ := Option.map_eq_some_iff.mp hassignee.symm
        exact ⟨uid, rfl, (canView_iff ht _).mpr (Or.inr huid)⟩
    · rintro ⟨uid, rfl, hview⟩
      have hne : uid.text ≠ "" := by
        intro hempty
        have hlength := UUID.length_text uid
        rw [hempty] at hlength
        exact absurd hlength (by decide)
      rcases (canView_iff ht uid).mp hview with rfl | hassignee
      · exact ⟨Or.inl rfl, hne⟩
      · exact ⟨Or.inr (by rw [hassignee]; rfl), hne⟩
  · intro messageBody hbody
    have hhandled : handled {} messageBody
        = some ⟨.str e.eventType, eventData e, targetUserIds⟩ := by
      unfold handled
      rw [readMessage_wire hbody]
      simp only [hhandle, hcollect, Option.bind_eq_bind, Option.bind_some]
    obtain ⟨p, hrun, hp⟩ := processMessage_run {} messageBody
    rw [hhandled] at hp
    exact ⟨p, hrun, hp.1, hp.2⟩

/-! ## What the requests publish -/

/-- The events a request publishes; a 422 publishes nothing. -/
def publishes (s : TaskService) (env : Surroundings) (callerId : UUID) (request : TaskRequest) :
    List TaskEvent :=
  match request.modelValidate with
  | .error _ => []
  | .ok accepted => (s.handle env callerId accepted).events

/-- The table in which the event's task is still, or again, to be found. -/
def tableFor (e : TaskEvent) (before after : TaskService) : TaskService :=
  if e.eventType = "task.deleted" then before else after

variable {s : TaskService} {env : Surroundings} {callerId : UUID} {e : TaskEvent}

theorem tableFor_created (t : Tasks.Task) (before after : TaskService) :
    tableFor (taskCreated t) before after = after := by
  simp [tableFor, taskCreated]

theorem tableFor_statusChanged (t : Tasks.Task) (oldStatus : TaskStatus)
    (before after : TaskService) :
    tableFor (taskStatusChanged t oldStatus callerId) before after = after := by
  simp [tableFor, taskStatusChanged]

theorem tableFor_deleted (t : Tasks.Task) (before after : TaskService) :
    tableFor (taskDeleted t) before after = before := by
  simp [tableFor, taskDeleted]

theorem reaches_insertTask {key : Option String} {payload : TaskCreate}
    (h : e ∈ (s.insertTask env callerId key payload).events) :
    ReachesViewers (tableFor e s (s.insertTask env callerId key payload).state) e := by
  unfold TaskService.insertTask at *
  cases howned : getOwnedProject s.projects.rows payload.projectId callerId with
  | error refusal =>
      rw [howned] at h
      cases h
  | ok p =>
      rw [howned] at h
      dsimp only at h ⊢
      by_cases hnew : (payload.toTask callerId env.newId env.now).id ∈ s.tasks.rows.map Tasks.Task.id
      · rw [dif_pos hnew] at h
        cases h
      · rw [dif_neg hnew] at h ⊢
        have hmem : payload.toTask callerId env.newId env.now ∈ (s.tasks.insert _ hnew).rows :=
          Table.mem_insert.mpr (Or.inl rfl)
        rw [List.mem_singleton.mp h, tableFor_created]
        exact reachesViewers_of_addresses hmem (addresses_created _)

theorem reaches_createTask {key : Option String} {payload : TaskCreate}
    (h : e ∈ (s.createTask env callerId key payload).events) :
    ReachesViewers (tableFor e s (s.createTask env callerId key payload).state) e := by
  unfold TaskService.createTask at *
  dsimp only at *
  cases hcached : (key.filter (· ≠ "")).bind (getCachedResponse env.redisReads s.redis callerId) with
  | some cached =>
      rw [hcached] at h
      cases h
  | none =>
      rw [hcached] at h
      exact reaches_insertTask h

theorem reaches_updateTask {taskId : UUID} {payload : TaskUpdate}
    (h : e ∈ (s.updateTask env callerId taskId payload).events) :
    ReachesViewers (tableFor e s (s.updateTask env callerId taskId payload).state) e := by
  unfold TaskService.updateTask at *
  cases hrow : getAuthorizedTask (s.tasks.find? taskId) callerId true with
  | error refusal =>
      rw [hrow] at h
      cases h
  | ok t =>
      rw [hrow] at h
      dsimp only at h ⊢
      cases hchanges : payload.changes t with
      | none =>
          rw [hchanges] at h
          cases h
      | some c =>
          rw [hchanges] at h
          dsimp only at h ⊢
          obtain ⟨hfind, _⟩ := getAuthorizedTask_ok hrow
          obtain ⟨ht, _⟩ := Table.key_of_find? hfind
          generalize htask : (if c.isEmpty then t else c.apply t env.now) = task at h ⊢
          have hid : task.id = t.id := by
            rw [← htask]
            split <;> rfl
          unfold statusEvent at h
          split at h
          · have he : e = taskStatusChanged task t.status callerId := by simpa using h
            have hmem : task ∈ (s.tasks.update task).rows :=
              Table.mem_update.mpr (Or.inr ⟨rfl, t, ht, hid.symm⟩)
            rw [he, tableFor_statusChanged]
            exact reachesViewers_of_addresses hmem (addresses_statusChanged task t.status callerId)
          · cases h

theorem reaches_deleteTask {taskId : UUID} (h : e ∈ (s.deleteTask callerId taskId).events) :
    ReachesViewers (tableFor e s (s.deleteTask callerId taskId).state) e := by
  unfold TaskService.deleteTask at *
  cases hrow : getAuthorizedTask (s.tasks.find? taskId) callerId true with
  | error refusal =>
      rw [hrow] at h
      cases h
  | ok t =>
      rw [hrow] at h
      obtain ⟨hfind, _⟩ := getAuthorizedTask_ok hrow
      rw [List.mem_singleton.mp h, tableFor_deleted]
      exact reachesViewers_of_addresses (Table.key_of_find? hfind).1 (addresses_deleted t)

theorem reaches_handle {request : TaskRequest} (h : e ∈ (s.handle env callerId request).events) :
    ReachesViewers (tableFor e s (s.handle env callerId request).state) e := by
  cases request with
  | create key payload => exact reaches_createTask h
  | update taskId payload => exact reaches_updateTask h
  | delete taskId => exact reaches_deleteTask h
  | get taskId =>
      change e ∈ (s.getTask callerId taskId).events at h
      unfold TaskService.getTask at h
      split at h <;> cases h
  | list projectId statusFilter limit cursor =>
      change e ∈ (s.listTasks callerId projectId statusFilter limit cursor).events at h
      unfold TaskService.listTasks at h
      split at h <;> cases h

/-- Each event the step publishes reaches those who can view its task. -/
def ToViewers (s : TaskService) : WriteEvent → Prop
  | .request env callerId request => ∀ e ∈ publishes s env callerId request,
      ReachesViewers (tableFor e s (s.receive env callerId request)) e
  | .projectsChange _ => True

theorem toViewers_step (s : TaskService) (step : WriteEvent) : ToViewers s step := by
  cases step with
  | projectsChange projects => trivial
  | request env callerId request =>
      intro e he
      unfold publishes TaskService.receive at *
      cases hvalid : request.modelValidate with
      | error invalid =>
          rw [hvalid] at he
          cases he
      | ok accepted =>
          rw [hvalid] at he
          exact reaches_handle he

/--
**Events go to exactly those who may see the task.**

In every run of requests, whoever makes them and whatever becomes of the projects, each
event that is published reaches those who can view its task once the request is done, or,
if it tells of a deletion, those who could before.
-/
theorem events_reach_viewers (s : TaskService) (es : List WriteEvent) :
    Meets TaskService.step ToViewers s es := by
  induction es generalizing s with
  | nil => trivial
  | cons e es ih =>
      intro s' _
      exact ⟨toViewers_step s e, ih s'⟩

end Microservices.Notifications
