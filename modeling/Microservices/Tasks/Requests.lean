import Microservices.Lib.Table
import Microservices.Tasks.Idempotency
import Microservices.Tasks.Listing
import Microservices.Tasks.Patch

/-!
# One task request at a time

The five routes of `tasks.py`, each as one step on the tables and the idempotency
entries: what is answered, which events go out after it, and the state it leaves.
Requests by other callers do not come in between.
-/

namespace Microservices.Tasks

abbrev Projects := Table Project.id

abbrev TaskTable := Table Task.id

structure TaskService where
  projects : Projects
  tasks : TaskTable
  redis : IdempotencyStore

/-- What a request finds around it: the id and the time an insertion would use, and whether Redis
answers when it is read and when it is written. -/
structure Surroundings where
  newId : UUID
  now : Timestamp
  redisReads : Bool := true
  redisWrites : Bool := true

inductive TaskRequest where
  | create (idempotencyKey : Option String) (payload : TaskCreate)
  | list (projectId : Option UUID) (statusFilter : Option TaskStatus) (limit : PageLimit)
      (cursor : Option String)
  | get (taskId : UUID)
  | update (taskId : UUID) (payload : TaskUpdate)
  | delete (taskId : UUID)

inductive TaskAnswer where
  /-- `replay`: with `Idempotency-Key-Replay`. -/
  | task (statusCode : Nat) (body : TaskResponse) (replay : Bool)
  | page (page : CursorPage TaskResponse)
  | noContent
  | refused (e : HTTPException)
  /-- 500, and the transaction is rolled back. -/
  | failed

/-- What a request comes to. -/
structure Outcome where
  answer : TaskAnswer
  events : List TaskEvent
  state : TaskService

/-- An answer that changes nothing. -/
def TaskService.answer (s : TaskService) (answer : TaskAnswer) : Outcome := ⟨answer, [], s⟩

/-- The `task.deleted` event of `delete_task`. -/
def taskDeleted (t : Task) : TaskEvent where
  eventType := "task.deleted"
  data := [
    ("task_id", some t.id.text),
    ("creator_id", some t.creatorId.text),
    ("assignee_id", t.assigneeId.map UUID.text)]

namespace TaskService

/-- `create_task`, from the project check on. -/
def insertTask (s : TaskService) (env : Surroundings) (callerId : UUID) (key : Option String)
    (payload : TaskCreate) : Outcome :=
  match getOwnedProject s.projects.rows payload.projectId callerId with
  | .error e => s.answer (.refused e)
  | .ok _ =>
      let t := payload.toTask callerId env.newId env.now
      if h : t.id ∈ s.tasks.rows.map Task.id then s.answer .failed
      else
        { answer := .task 201 (TaskResponse.modelValidate t) false
          events := [taskCreated t]
          state :=
            { s with
              tasks := s.tasks.insert t h
              redis := match key with
                | some k => cacheResponse env.redisWrites s.redis callerId k (createdResponse t)
                | none => s.redis } }

/-- `create_task`. An empty key counts as none. -/
def createTask (s : TaskService) (env : Surroundings) (callerId : UUID)
    (idempotencyKey : Option String) (payload : TaskCreate) : Outcome :=
  let key := idempotencyKey.filter (· ≠ "")
  match key.bind (getCachedResponse env.redisReads s.redis callerId) with
  | some cached => s.answer (.task cached.statusCode cached.body true)
  | none => s.insertTask env callerId key payload

/-- `get_task`. -/
def getTask (s : TaskService) (callerId taskId : UUID) : Outcome :=
  match getAuthorizedTask (s.tasks.find? taskId) callerId false with
  | .error e => s.answer (.refused e)
  | .ok t => s.answer (.task 200 (TaskResponse.modelValidate t) false)

/-- `list_tasks`. -/
def listTasks (s : TaskService) (callerId : UUID) (projectId : Option UUID)
    (statusFilter : Option TaskStatus) (limit : PageLimit) (cursor : Option String) : Outcome :=
  match Tasks.listTasks s.tasks.rows callerId projectId statusFilter limit cursor with
  | .error e => s.answer (.refused e)
  | .ok page => s.answer (.page page)

/-- `update_task`. Nothing is sent if nothing differs. -/
def updateTask (s : TaskService) (env : Surroundings) (callerId taskId : UUID)
    (payload : TaskUpdate) : Outcome :=
  match getAuthorizedTask (s.tasks.find? taskId) callerId true with
  | .error e => s.answer (.refused e)
  | .ok t =>
      match payload.changes t with
      | none => s.answer .failed
      | some c =>
          let task := if c.isEmpty then t else c.apply t env.now
          { answer := .task 200 (TaskResponse.modelValidate task) false
            events := (statusEvent payload callerId t.status task).toList
            state := { s with tasks := s.tasks.update task } }

/-- `delete_task`. -/
def deleteTask (s : TaskService) (callerId taskId : UUID) : Outcome :=
  match getAuthorizedTask (s.tasks.find? taskId) callerId true with
  | .error e => s.answer (.refused e)
  | .ok t => ⟨.noContent, [taskDeleted t], { s with tasks := s.tasks.delete t.id }⟩

/-- The route a request goes to. -/
def handle (s : TaskService) (env : Surroundings) (callerId : UUID) : TaskRequest → Outcome
  | .create key payload => s.createTask env callerId key payload
  | .list projectId statusFilter limit cursor =>
      s.listTasks callerId projectId statusFilter limit cursor
  | .get taskId => s.getTask callerId taskId
  | .update taskId payload => s.updateTask env callerId taskId payload
  | .delete taskId => s.deleteTask callerId taskId

end TaskService

end Microservices.Tasks
