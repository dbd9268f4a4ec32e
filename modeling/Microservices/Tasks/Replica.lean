import Microservices.Tasks.Separation

/-!
# A replica kept from the events

Somebody who only reads the tasks topic, from its beginning and in order, knows of every
task whether it is there, its project, its creator and its status. Each event fits what
was known before it: a task is created once, a change of status starts from the status
that was told last and is made by the creator, and nothing is told of a task that is
gone.

Requests are taken one at a time here. Where updates of one task overlap, the events
need not fit.
-/

namespace Microservices.Tasks

open Schedule

/-- What the events tell of a task that is there. -/
structure Shown where
  projectId : String
  creatorId : String
  status : TaskStatus
  deriving DecidableEq, Repr

inductive Known where
  | unheard
  | there (task : Shown)
  | gone
  deriving DecidableEq, Repr

/-- `TaskStatus(value)`. -/
def TaskStatus.ofValue? (value : String) : Option TaskStatus :=
  [.todo, .inProgress, .inReview, .done, .cancelled].find? fun s => s.value = value

/-- What is known of a task after one more event of it; `none` if the event does not fit. -/
def Known.next : Known → TaskEvent → Option Known
  | .unheard, e =>
      if e.eventType = "task.created" then do
        let projectId ← e.field "project_id"
        let creatorId ← e.field "creator_id"
        return .there ⟨projectId, creatorId, .todo⟩
      else none
  | .there task, e =>
      if e.field "creator_id" = some task.creatorId then
        if e.eventType = "task.deleted" then some .gone
        else if e.eventType = "task.status_changed"
            ∧ e.field "old_status" = some task.status.value
            ∧ e.field "updated_by" = some task.creatorId then do
          let value ← e.field "new_status"
          let status ← TaskStatus.ofValue? value
          if status = task.status then none else return .there { task with status := status }
        else none
      else none
  | .gone, _ => none

/-- The replica, by `task_id`. -/
abbrev Replica := String → Known

def Replica.next (b : Replica) (e : TaskEvent) : Option Replica := do
  let taskId ← e.field "task_id"
  let known ← (b taskId).next e
  return Function.update b taskId known

/-- Nothing has been heard. -/
def Replica.init : Replica := fun _ => .unheard

/-- What a step publishes. -/
def publishedBy : TaskService × ServiceEvent → List TaskEvent
  | (s, .request env callerId request) => (s.served env callerId request).events
  | (_, .expire _) => []

def Task.shown (t : Task) : Shown := ⟨t.projectId.text, t.creatorId.text, t.status⟩

/-- **The replica knows the table.** -/
def Tracks (s : TaskService) (b : Replica) : Prop :=
  ∀ taskId, match s.tasks.find? taskId with
    | some t => b taskId.text = .there t.shown
    | none => b taskId.text = .unheard ∨ b taskId.text = .gone

/-- The id a request would insert under. -/
def ServiceEvent.newId? : ServiceEvent → Option UUID
  | .request env _ _ => some env.newId
  | .expire _ => none

/-- The replica knows the table, and nothing of the ids that are still to be used. -/
def TracksUntil (es : List ServiceEvent) (s : TaskService) (b : Replica) : Prop :=
  Tracks s b ∧ (es.filterMap ServiceEvent.newId?).Nodup
    ∧ ∀ taskId ∈ es.filterMap ServiceEvent.newId?, b taskId.text = .unheard

theorem TaskStatus.ofValue?_value (s : TaskStatus) : TaskStatus.ofValue? s.value = some s := by
  cases s <;> decide

variable {s : TaskService} {env : Surroundings} {callerId : UUID} {b : Replica}

theorem Tracks.of_mem (h : Tracks s b) {t : Task} (ht : t ∈ s.tasks.rows) :
    b t.id.text = .there t.shown := by
  have hrow := h t.id
  rw [Table.find?_eq_some_iff.mpr ⟨ht, rfl⟩] at hrow
  exact hrow

theorem Tracks.of_not_mem (h : Tracks s b) {taskId : UUID}
    (hnot : taskId ∉ s.tasks.rows.map Task.id) :
    b taskId.text = .unheard ∨ b taskId.text = .gone := by
  have hrow := h taskId
  cases hfind : s.tasks.find? taskId with
  | none =>
      rw [hfind] at hrow
      exact hrow
  | some t =>
      obtain ⟨ht, hid⟩ := Table.find?_eq_some_iff.mp hfind
      exact absurd (List.mem_map.mpr ⟨t, ht, hid⟩) hnot

/-- To know of each row and of each absent id is to know the table. -/
theorem tracks_of (hrows : ∀ t ∈ s.tasks.rows, b t.id.text = .there t.shown)
    (habsent : ∀ taskId, taskId ∉ s.tasks.rows.map Task.id →
      b taskId.text = .unheard ∨ b taskId.text = .gone) : Tracks s b := by
  intro taskId
  cases hfind : s.tasks.find? taskId with
  | none =>
      refine habsent taskId fun hmem => ?_
      obtain ⟨t, ht, hid⟩ := List.mem_map.mp hmem
      rw [Table.find?_eq_some_iff.mpr ⟨ht, hid⟩] at hfind
      cases hfind
  | some t =>
      obtain ⟨ht, rfl⟩ := Table.find?_eq_some_iff.mp hfind
      exact hrows t ht

/-- What is known of other tasks stays. -/
theorem update_of_ne_id {known : Known} {taskId taskId' : UUID} (h : taskId' ≠ taskId) :
    Function.update b taskId.text known taskId'.text = b taskId'.text :=
  Function.update_of_ne (fun heq => h (UUID.text_injective heq)) ..

/-! ## The three events -/

theorem next_created {t : Task} (hunheard : b t.id.text = .unheard) (htodo : t.status = .todo) :
    b.next (taskCreated t) = some (Function.update b t.id.text (.there t.shown)) := by
  have hid : (taskCreated t).field "task_id" = some t.id.text := rfl
  unfold Replica.next
  rw [hid]
  show ((b t.id.text).next (taskCreated t)).bind _ = _
  rw [hunheard, Task.shown, htodo]
  rfl

theorem known_next_statusChanged {x : Shown} {task : Task} {oldStatus : TaskStatus}
    (hcreator : task.creatorId.text = x.creatorId) (hold : oldStatus = x.status)
    (hcaller : callerId.text = x.creatorId) (hmoved : task.status ≠ x.status) :
    (Known.there x).next (taskStatusChanged task oldStatus callerId)
      = some (.there { x with status := task.status }) := by
  have hnotDeleted : (taskStatusChanged task oldStatus callerId).eventType ≠ "task.deleted" := by
    show "task.status_changed" ≠ "task.deleted"
    decide
  have hcreatorField : (taskStatusChanged task oldStatus callerId).field "creator_id"
      = some x.creatorId := congrArg some hcreator
  have hfields : (taskStatusChanged task oldStatus callerId).eventType = "task.status_changed"
      ∧ (taskStatusChanged task oldStatus callerId).field "old_status" = some x.status.value
      ∧ (taskStatusChanged task oldStatus callerId).field "updated_by" = some x.creatorId :=
    ⟨rfl, congrArg (fun s => some (TaskStatus.value s)) hold, congrArg some hcaller⟩
  unfold Known.next
  dsimp only
  rw [if_pos hcreatorField, if_neg hnotDeleted, if_pos hfields]
  show (TaskStatus.ofValue? task.status.value).bind _ = _
  rw [TaskStatus.ofValue?_value]
  exact if_neg hmoved

theorem next_statusChanged {t task : Task} (hthere : b t.id.text = .there t.shown)
    (hid : task.id = t.id) (hcreator : task.creatorId = t.creatorId)
    (hproject : task.projectId = t.projectId) (hmoved : task.status ≠ t.status)
    (hcaller : t.creatorId = callerId) :
    b.next (taskStatusChanged task t.status callerId)
      = some (Function.update b task.id.text (.there task.shown)) := by
  have htask : (taskStatusChanged task t.status callerId).field "task_id" = some task.id.text := rfl
  have hshown : task.shown = { t.shown with status := task.status } := by
    rw [Task.shown, Task.shown, hcreator, hproject]
  have hnext : (Known.there t.shown).next (taskStatusChanged task t.status callerId)
      = some (.there task.shown) := by
    have hcreatorText : task.creatorId.text = t.shown.creatorId := congrArg UUID.text hcreator
    have hcallerText : callerId.text = t.shown.creatorId := congrArg UUID.text hcaller.symm
    rw [hshown]
    exact known_next_statusChanged hcreatorText rfl hcallerText hmoved
  unfold Replica.next
  rw [htask]
  show ((b task.id.text).next (taskStatusChanged task t.status callerId)).bind _ = _
  rw [hid, hthere, hnext]
  rfl

theorem next_deleted {t : Task} (hthere : b t.id.text = .there t.shown) :
    b.next (taskDeleted t) = some (Function.update b t.id.text .gone) := by
  have htask : (taskDeleted t).field "task_id" = some t.id.text := rfl
  have hnext : (Known.there t.shown).next (taskDeleted t) = some .gone := by
    have hcreator : (taskDeleted t).field "creator_id" = some t.shown.creatorId := rfl
    have hdeleted : (taskDeleted t).eventType = "task.deleted" := rfl
    unfold Known.next
    dsimp only
    rw [if_pos hcreator, if_pos hdeleted]
  unfold Replica.next
  rw [htask]
  show ((b t.id.text).next (taskDeleted t)).bind _ = _
  rw [hthere, hnext]
  rfl

/-! ## One step -/

/-- A status that has changed was asked for. -/
theorem asked_of_moved {payload : TaskUpdate} {t : Task} {now : Timestamp}
    (h : (payload.updated t now).status ≠ t.status) : payload.asked.isSome := by
  unfold TaskUpdate.updated at h
  cases hchanges : payload.changes t with
  | none =>
      rw [hchanges] at h
      exact absurd rfl h
  | some c =>
      rw [hchanges] at h
      dsimp only at h
      split at h
      · exact absurd rfl h
      · have hcolumn : setRequired t.status payload.status = some c.status := by
          unfold TaskUpdate.changes at hchanges
          split at hchanges
          · rename_i title status priority _ hstatus _
            cases hchanges
            exact hstatus
          · cases hchanges
        unfold TaskUpdate.asked
        cases hasked : payload.status with
        | none =>
            rw [hasked] at hcolumn
            have hkept : c.status = none := (Option.some.inj hcolumn).symm
            exact absurd (congrArg (fun o => o.getD t.status) hkept) h
        | some asked =>
            cases asked with
            | none =>
                rw [hasked] at hcolumn
                cases hcolumn
            | some status => rfl

theorem tracks_insert (h : Tracks s b) {t : Task} (hnew : t.id ∉ s.tasks.rows.map Task.id)
    {redis : IdempotencyStore} :
    Tracks { s with tasks := s.tasks.insert t hnew, redis := redis }
      (Function.update b t.id.text (.there t.shown)) := by
  refine tracks_of ?_ ?_
  · intro x hx
    rcases (Table.mem_insert (h := hnew)).mp hx with rfl | hold
    · exact Function.update_self ..
    · have hne : x.id ≠ t.id := fun heq => hnew (List.mem_map.mpr ⟨x, hold, heq⟩)
      rw [update_of_ne_id hne]
      exact h.of_mem hold
  · intro taskId hnot
    have hnot' : taskId ∉ t.id :: s.tasks.rows.map Task.id := hnot
    rw [List.mem_cons, not_or] at hnot'
    rw [update_of_ne_id hnot'.1]
    exact h.of_not_mem hnot'.2

theorem tracks_update (h : Tracks s b) {t task : Task} (ht : t ∈ s.tasks.rows)
    (hid : task.id = t.id) :
    Tracks { s with tasks := s.tasks.update task }
      (Function.update b task.id.text (.there task.shown)) := by
  refine tracks_of ?_ ?_
  · intro x hx
    rcases Table.mem_update.mp hx with ⟨hold, hne⟩ | ⟨rfl, -⟩
    · rw [update_of_ne_id hne]
      exact h.of_mem hold
    · exact Function.update_self ..
  · intro taskId hnot
    have hkeys : (s.tasks.update task).rows.map Task.id = s.tasks.rows.map Task.id :=
      Table.map_key_overwrite ..
    have hnot' : taskId ∉ s.tasks.rows.map Task.id := hkeys ▸ hnot
    have hne : taskId ≠ task.id := by
      rintro rfl
      exact hnot' (List.mem_map.mpr ⟨t, ht, hid.symm⟩)
    rw [update_of_ne_id hne]
    exact h.of_not_mem hnot'

theorem tracks_delete (h : Tracks s b) (taskId : UUID) :
    Tracks { s with tasks := s.tasks.delete taskId } (Function.update b taskId.text .gone) := by
  refine tracks_of ?_ ?_
  · intro x hx
    obtain ⟨hold, hne⟩ := Table.mem_delete.mp hx
    rw [update_of_ne_id hne]
    exact h.of_mem hold
  · intro taskId' hnot
    by_cases heq : taskId' = taskId
    · rw [heq]
      exact Or.inr (Function.update_self ..)
    · rw [update_of_ne_id heq]
      refine h.of_not_mem fun hmem => hnot ?_
      obtain ⟨x, hx, rfl⟩ := List.mem_map.mp hmem
      exact List.mem_map.mpr ⟨x, Table.mem_delete.mpr ⟨hx, heq⟩, rfl⟩

/-- Nothing but the table of tasks matters. -/
theorem Tracks.of_tasks {s' : TaskService} (h : Tracks s b) (htasks : s'.tasks = s.tasks) :
    Tracks s' b := by
  intro taskId
  rw [htasks]
  exact h taskId

/-- **A task request and its events.** What it tells of is its new id, or a row that was there. -/
theorem tracks_handled {request : TaskRequest} {o : Outcome} (h : Tracks s b)
    (hnew : b env.newId.text = .unheard) (ho : Handled s env callerId request o) :
    ∃ b', exec Replica.next b o.events = some b' ∧ Tracks o.state b'
      ∧ ∀ taskId, taskId ≠ env.newId → b taskId.text = .unheard → b' taskId.text = .unheard := by
  have hone : ∀ {e b'}, b.next e = some b' → exec Replica.next b [e] = some b' := by
    intro e b' hnext
    rw [exec_cons [] hnext]
    rfl
  have hthere : ∀ {t : Task}, t ∈ s.tasks.rows → ∀ {taskId : UUID}, b taskId.text = .unheard →
      taskId ≠ t.id := by
    rintro t ht taskId hunheard rfl
    rw [h.of_mem ht] at hunheard
    cases hunheard
  cases ho with
  | answered request answer => exact ⟨b, rfl, h, fun _ _ hunheard => hunheard⟩
  | created key payload hp hid howner hfresh =>
      refine ⟨_, hone (next_created hnew rfl), tracks_insert h hfresh, ?_⟩
      intro taskId hne hunheard
      exact (update_of_ne_id hne).trans hunheard
  | @updated payload t hrow hcreator hchanges =>
      have hid := id_updated payload t env.now
      have htracks := tracks_update h hrow hid
      by_cases hmoved : (payload.updated t env.now).status = t.status
      · -- no event, and nothing of the row that the replica knows has changed
        have hnone : statusEvent payload callerId t.status (payload.updated t env.now) = none :=
          if_neg fun hboth => hboth.2 hmoved
        have hshown : (payload.updated t env.now).shown = t.shown := by
          rw [Task.shown, Task.shown, creator_updated, project_updated, hmoved]
        have hsame : Function.update b (payload.updated t env.now).id.text
            (.there (payload.updated t env.now).shown) = b := by
          rw [hid, hshown, ← h.of_mem hrow, Function.update_eq_self]
        rw [hsame] at htracks
        rw [hnone]
        exact ⟨b, rfl, htracks, fun _ _ hunheard => hunheard⟩
      · have hsome : statusEvent payload callerId t.status (payload.updated t env.now)
            = some (taskStatusChanged (payload.updated t env.now) t.status callerId) :=
          if_pos ⟨asked_of_moved hmoved, hmoved⟩
        rw [hsome]
        refine ⟨_, hone (next_statusChanged (h.of_mem hrow) hid (creator_updated ..)
          (project_updated ..) hmoved hcreator), htracks, ?_⟩
        intro taskId _ hunheard
        rw [hid]
        exact (update_of_ne_id (hthere hrow hunheard)).trans hunheard
  | @deleted t hrow hcreator =>
      refine ⟨_, hone (next_deleted (h.of_mem hrow)), tracks_delete h t.id, ?_⟩
      intro taskId _ hunheard
      exact (update_of_ne_id (hthere hrow hunheard)).trans hunheard

theorem tracks_step {e : ServiceEvent} {es : List ServiceEvent} {t : TaskService}
    (h : TracksUntil (e :: es) s b) (hs : s.advance e = some t) :
    ∃ b', exec Replica.next b (publishedBy (s, e)) = some b' ∧ TracksUntil es t b' := by
  obtain ⟨htracks, hdistinct, hunheard⟩ := h
  cases e with
  | expire key =>
      cases hs
      exact ⟨b, rfl, htracks.of_tasks rfl, hdistinct, hunheard⟩
  | request env callerId request =>
      cases hs
      have hids : (ServiceEvent.request env callerId request :: es).filterMap ServiceEvent.newId?
          = env.newId :: es.filterMap ServiceEvent.newId? := rfl
      rw [hids] at hdistinct hunheard
      obtain ⟨hfresh, hdistinct⟩ := List.nodup_cons.mp hdistinct
      have hnew := hunheard _ List.mem_cons_self
      have hlater : ∀ taskId ∈ es.filterMap ServiceEvent.newId?, b taskId.text = .unheard :=
        fun taskId hmem => hunheard taskId (List.mem_cons_of_mem _ hmem)
      unfold publishedBy TaskService.served TaskService.respond
      cases request with
      | createProject body =>
          dsimp only
          refine ⟨b, rfl, ?_, hdistinct, hlater⟩
          split
          · exact htracks
          · unfold TaskService.createProject
            dsimp only
            split
            · exact htracks
            · exact htracks.of_tasks rfl
      | project request => exact ⟨b, rfl, htracks.of_tasks rfl, hdistinct, hlater⟩
      | task request =>
          dsimp only
          cases hvalid : request.modelValidate with
          | error e => exact ⟨b, rfl, htracks, hdistinct, hlater⟩
          | ok accepted =>
              obtain ⟨b', hevents, hstate, hkeeps⟩ :=
                tracks_handled htracks hnew (handled_handle s env callerId accepted)
              refine ⟨b', hevents, hstate, hdistinct, fun taskId hmem => ?_⟩
              refine hkeeps taskId ?_ (hlater taskId hmem)
              rintro rfl
              exact hfresh hmem

end Microservices.Tasks
