import Microservices.Http
import Microservices.Lib.Datetime
import Microservices.Lib.Uuid

/-!
# Projects and tasks

The rows of the task service's two tables, the payloads its routes take and the
answers they give. A payload is what its schema has let through.
-/

namespace Microservices.Tasks

inductive TaskStatus where
  | todo | inProgress | inReview | done | cancelled
  deriving DecidableEq, Repr

/-- `status.value`. -/
def TaskStatus.value : TaskStatus → String
  | .todo => "todo"
  | .inProgress => "in_progress"
  | .inReview => "in_review"
  | .done => "done"
  | .cancelled => "cancelled"

theorem TaskStatus.value_injective : Function.Injective TaskStatus.value := by
  intro s t h
  cases s <;> cases t <;> first | rfl | exact absurd h (by decide)

inductive TaskPriority where
  | low | medium | high | critical
  deriving DecidableEq, Repr

structure Project where
  id : UUID
  name : String
  description : Option String
  ownerId : UUID
  isActive : Bool := true
  createdAt : Timestamp
  deriving DecidableEq, Repr

structure Task where
  id : UUID
  title : String
  description : Option String
  status : TaskStatus
  priority : TaskPriority
  projectId : UUID
  creatorId : UUID
  assigneeId : Option UUID
  dueDate : Option AwareDatetime
  createdAt : Timestamp
  updatedAt : Timestamp
  deriving DecidableEq, Repr

structure TaskCreate where
  title : String
  description : Option String := none
  priority : TaskPriority := .medium
  projectId : UUID
  assigneeId : Option UUID := none
  dueDate : Option Datetime := none
  deriving DecidableEq, Repr

/-- `Task(**payload.model_dump(), creator_id=caller_id, status=TaskStatus.TODO)`, as inserted
under `id` at `now`. -/
def TaskCreate.toTask (payload : TaskCreate) (callerId id : UUID) (now : Timestamp) : Task where
  id := id
  title := payload.title
  description := payload.description
  status := .todo
  priority := payload.priority
  projectId := payload.projectId
  creatorId := callerId
  assigneeId := payload.assigneeId
  dueDate := payload.dueDate.map Datetime.stored
  createdAt := now
  updatedAt := now

structure TaskResponse where
  id : UUID
  title : String
  description : Option String
  status : TaskStatus
  priority : TaskPriority
  projectId : UUID
  creatorId : UUID
  assigneeId : Option UUID
  dueDate : Option AwareDatetime
  createdAt : Timestamp
  updatedAt : Timestamp
  deriving DecidableEq, Repr

/-- `TaskResponse.model_validate(task)`. -/
def TaskResponse.modelValidate (t : Task) : TaskResponse where
  id := t.id
  title := t.title
  description := t.description
  status := t.status
  priority := t.priority
  projectId := t.projectId
  creatorId := t.creatorId
  assigneeId := t.assigneeId
  dueDate := t.dueDate
  createdAt := t.createdAt
  updatedAt := t.updatedAt

structure ProjectResponse where
  id : UUID
  name : String
  description : Option String
  ownerId : UUID
  isActive : Bool
  createdAt : Timestamp
  deriving DecidableEq, Repr

/-- `ProjectResponse.model_validate(project)`. -/
def ProjectResponse.modelValidate (p : Project) : ProjectResponse where
  id := p.id
  name := p.name
  description := p.description
  ownerId := p.ownerId
  isActive := p.isActive
  createdAt := p.createdAt

/-- A message of the tasks topic: its `event_type` and the fields of its `data`. -/
structure TaskEvent where
  eventType : String
  data : List (String × Option String)
  deriving DecidableEq, Repr

/-- `data[name]`. -/
def TaskEvent.field (e : TaskEvent) (name : String) : Option String := (e.data.lookup name).join

/-- The `task.created` event of `create_task`. -/
def taskCreated (t : Task) : TaskEvent where
  eventType := "task.created"
  data := [
    ("task_id", some t.id.text),
    ("title", some t.title),
    ("project_id", some t.projectId.text),
    ("creator_id", some t.creatorId.text),
    ("assignee_id", t.assigneeId.map UUID.text)]

/-- The `task.status_changed` event of `update_task`. -/
def taskStatusChanged (t : Task) (oldStatus : TaskStatus) (callerId : UUID) : TaskEvent where
  eventType := "task.status_changed"
  data := [
    ("task_id", some t.id.text),
    ("old_status", some oldStatus.value),
    ("new_status", some t.status.value),
    ("updated_by", some callerId.text),
    ("creator_id", some t.creatorId.text),
    ("assignee_id", t.assigneeId.map UUID.text)]

/-! ## Who may do what -/

def projectNotFound : HTTPException := { statusCode := 404, detail := "Project not found" }

def taskNotFound : HTTPException := { statusCode := 404, detail := "Task not found" }

def notTheCreator : HTTPException :=
  { statusCode := 403, detail := "Only the task creator can perform this action" }

/-- `_get_owned_project`. -/
def getOwnedProject (projects : List Project) (projectId callerId : UUID) :
    Except HTTPException Project :=
  match projects.find? (fun p => p.id == projectId) with
  | none => .error projectNotFound
  | some p => if p.ownerId ≠ callerId then .error projectNotFound else .ok p

/-- The caller is the task's creator or its assignee. -/
def Task.visibleTo (t : Task) (callerId : UUID) : Bool :=
  t.creatorId == callerId || t.assigneeId == some callerId

/-- `_get_authorized_task`, with the row that `task_id` names. -/
def getAuthorizedTask (row : Option Task) (callerId : UUID) (requireOwner : Bool) :
    Except HTTPException Task :=
  match row with
  | none => .error taskNotFound
  | some t =>
      if !t.visibleTo callerId then .error taskNotFound
      else if requireOwner && t.creatorId != callerId then .error notTheCreator
      else .ok t

/-! ## Ann's project -/

def ann : UUID := UUID.ofNat 1

def noon : Timestamp where
  datetime :=
    { date := ⟨2024, 1, 15, by decide, by decide, by decide⟩
      time :=
        ⟨12, 0, 0, 0, by decide, midnight.minute_valid, midnight.second_valid,
          midnight.microsecond_valid⟩
      offset := some UtcOffset.utc }
  utc := rfl

def annsProject : Project where
  id := UUID.ofNat 2
  name := "Launch"
  description := none
  ownerId := ann
  createdAt := noon

def launchTask : TaskCreate := { title := "Write release notes", projectId := UUID.ofNat 2 }

def launchTaskId : UUID := UUID.ofNat 10

end Microservices.Tasks
