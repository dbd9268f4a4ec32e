import Microservices.Tasks.Ownership

/-!
# What a task request comes to

A request is answered and changes nothing, or it inserts one task, updates one, or
deletes one. `Handled` says for each of these what is answered, what is published and
what is left, so that what follows is a case analysis over the four.
-/

namespace Microservices.Tasks

variable {s : TaskService} {env : Surroundings} {callerId : UUID}

/-- Who may change a task has created it. -/
theorem getAuthorizedTask_creator {row : Option Task} {t : Task}
    (h : getAuthorizedTask row callerId true = .ok t) : t.creatorId = callerId := by
  obtain ⟨rfl, hvisible⟩ := getAuthorizedTask_ok h
  unfold getAuthorizedTask at h
  dsimp only at h
  rw [hvisible] at h
  by_contra hne
  have hother : (t.creatorId != callerId) = true := bne_iff_ne.mpr hne
  rw [hother] at h
  cases h

/-- The row under the id of a task that the caller may change. -/
theorem getAuthorizedTask_row {taskId : UUID} {t : Task}
    (h : getAuthorizedTask (s.tasks.find? taskId) callerId true = .ok t) :
    t ∈ s.tasks.rows ∧ t.id = taskId ∧ t.creatorId = callerId :=
  have hfound := Table.key_of_find? (getAuthorizedTask_ok h).1
  ⟨hfound.1, hfound.2, getAuthorizedTask_creator h⟩

/-- The entry `create_task` leaves for the next request with its key. -/
def TaskService.remembered (s : TaskService) (env : Surroundings) (callerId : UUID)
    (idempotencyKey : Option String) (t : Task) : IdempotencyStore :=
  match idempotencyKey.filter (· ≠ "") with
  | some k => cacheResponse env.redisWrites s.redis callerId k (createdResponse t)
  | none => s.redis

/-- The row after an update. -/
def TaskUpdate.updated (payload : TaskUpdate) (t : Task) (now : Timestamp) : Task :=
  match payload.changes t with
  | none => t
  | some c => if c.isEmpty then t else c.apply t now

/-- **What a task request comes to.** -/
inductive Handled (s : TaskService) (env : Surroundings) (callerId : UUID) :
    TaskRequest → Outcome → Prop where
  | answered (request : TaskRequest) (answer : TaskAnswer) :
      Handled s env callerId request (s.answer answer)
  | created (key : Option String) (payload : TaskCreate) {p : Project}
      (project : p ∈ s.projects.rows) (id : p.id = payload.projectId) (owner : p.ownerId = callerId)
      (new : (payload.toTask callerId env.newId env.now).id ∉ s.tasks.rows.map Task.id) :
      Handled s env callerId (.create key payload)
        { answer :=
            .task 201 (TaskResponse.modelValidate (payload.toTask callerId env.newId env.now)) false
          events := [taskCreated (payload.toTask callerId env.newId env.now)]
          state :=
            { s with
              tasks := s.tasks.insert (payload.toTask callerId env.newId env.now) new
              redis :=
                s.remembered env callerId key (payload.toTask callerId env.newId env.now) } }
  | updated (payload : TaskUpdate) {t : Task} (row : t ∈ s.tasks.rows)
      (creator : t.creatorId = callerId) (changes : (payload.changes t).isSome) :
      Handled s env callerId (.update t.id payload)
        { answer := .task 200 (TaskResponse.modelValidate (payload.updated t env.now)) false
          events := (statusEvent payload callerId t.status (payload.updated t env.now)).toList
          state := { s with tasks := s.tasks.update (payload.updated t env.now) } }
  | deleted {t : Task} (row : t ∈ s.tasks.rows) (creator : t.creatorId = callerId) :
      Handled s env callerId (.delete t.id)
        { answer := .noContent
          events := [taskDeleted t]
          state := { s with tasks := s.tasks.delete t.id } }

theorem handled_create (key : Option String) (payload : TaskCreate) :
    Handled s env callerId (.create key payload) (s.createTask env callerId key payload) := by
  unfold TaskService.createTask
  dsimp only
  split
  · exact .answered _ _
  · unfold TaskService.insertTask
    cases hproject : getOwnedProject s.projects.rows payload.projectId callerId with
    | error e => exact .answered _ _
    | ok p =>
        dsimp only
        split
        · exact .answered _ _
        · rename_i hnew
          obtain ⟨hp, hid, howner⟩ := getOwnedProject_ok hproject
          exact .created key payload hp hid howner hnew

theorem handled_update (taskId : UUID) (payload : TaskUpdate) :
    Handled s env callerId (.update taskId payload) (s.updateTask env callerId taskId payload) := by
  unfold TaskService.updateTask
  cases hauth : getAuthorizedTask (s.tasks.find? taskId) callerId true with
  | error e => exact .answered _ _
  | ok t =>
      obtain ⟨hrow, rfl, hcreator⟩ := getAuthorizedTask_row hauth
      cases hchanges : payload.changes t with
      | none =>
          dsimp only
          rw [hchanges]
          exact .answered _ _
      | some c =>
          have hupdated : payload.updated t env.now
              = if c.isEmpty then t else c.apply t env.now := by
            rw [TaskUpdate.updated, hchanges]
          dsimp only
          rw [hchanges]
          dsimp only
          rw [← hupdated]
          exact .updated payload hrow hcreator (by rw [hchanges]; rfl)

theorem handled_delete (taskId : UUID) :
    Handled s env callerId (.delete taskId) (s.deleteTask callerId taskId) := by
  unfold TaskService.deleteTask
  cases hauth : getAuthorizedTask (s.tasks.find? taskId) callerId true with
  | error e => exact .answered _ _
  | ok t =>
      obtain ⟨hrow, rfl, hcreator⟩ := getAuthorizedTask_row hauth
      exact .deleted hrow hcreator

theorem handled_handle (s : TaskService) (env : Surroundings) (callerId : UUID)
    (request : TaskRequest) : Handled s env callerId request (s.handle env callerId request) := by
  unfold TaskService.handle
  cases request with
  | create key payload => exact handled_create key payload
  | update taskId payload => exact handled_update taskId payload
  | delete taskId => exact handled_delete taskId
  | get taskId =>
      dsimp only
      unfold TaskService.getTask
      split
      · exact .answered _ _
      · exact .answered _ _
  | list projectId statusFilter limit cursor =>
      dsimp only
      unfold TaskService.listTasks
      split
      · exact .answered _ _
      · exact .answered _ _

/-! ## The updated row -/

variable (payload : TaskUpdate) (t : Task) (now : Timestamp)

theorem id_updated : (payload.updated t now).id = t.id := by
  unfold TaskUpdate.updated
  split
  · rfl
  · split <;> rfl

theorem creator_updated : (payload.updated t now).creatorId = t.creatorId := by
  unfold TaskUpdate.updated
  split
  · rfl
  · split <;> rfl

theorem project_updated : (payload.updated t now).projectId = t.projectId := by
  unfold TaskUpdate.updated
  split
  · rfl
  · split <;> rfl

/-- An update keeps the assignee, or sets the one it asks for. -/
theorem assignee_updated : (payload.updated t now).assigneeId = t.assigneeId
    ∨ payload.assigneeId = some (payload.updated t now).assigneeId := by
  unfold TaskUpdate.updated
  split
  · exact Or.inl rfl
  · rename_i c hchanges
    split
    · exact Or.inl rfl
    · have hcolumn : c.assigneeId = setNullable t.assigneeId payload.assigneeId := by
        unfold TaskUpdate.changes at hchanges
        split at hchanges
        · cases hchanges
          rfl
        · cases hchanges
      show c.assigneeId.getD t.assigneeId = _ ∨ payload.assigneeId = some (c.assigneeId.getD t.assigneeId)
      rw [hcolumn, setNullable]
      cases hasked : payload.assigneeId with
      | none => exact Or.inl rfl
      | some assigned =>
          by_cases hsame : assigned = t.assigneeId
          · exact Or.inl (by simp [Option.filter, hsame])
          · exact Or.inr (by simp [Option.filter, hsame])

end Microservices.Tasks
