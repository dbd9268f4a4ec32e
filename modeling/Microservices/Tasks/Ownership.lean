import Microservices.Lib.Schedule
import Microservices.Tasks.ProjectRequests
import Microservices.Tasks.Schemas

/-!
# Tasks live in their creator's projects

All routes of the task service, over both its tables: any callers, any order, and
Redis entries that run out in between. A task is inserted under a project that
`_get_owned_project` has found to be the caller's, and no route writes a creator,
a task's project or an owner again. That is all `OwnProjects` needs.
-/

namespace Microservices.Tasks

open Schedule

structure ProjectCreate where
  name : String
  description : Option String := none
  deriving DecidableEq, Repr

def nameError (msg : String) : ValidationError := { loc := ["body", "name"], msg := msg }

/-- `ProjectCreate(**body)`, with `Field(min_length=1, max_length=255)`. -/
def ProjectCreate.modelValidate (body : ProjectCreate) : Except ValidationError ProjectCreate :=
  if body.name.length < 1 then .error (nameError "String should have at least 1 character")
  else if 255 < body.name.length then
    .error (nameError "String should have at most 255 characters")
  else .ok body

/-- `Project(**payload.model_dump(), owner_id=caller_id)`, as inserted under `id` at `now`. -/
def ProjectCreate.toProject (payload : ProjectCreate) (callerId id : UUID) (now : Timestamp) :
    Project where
  id := id
  name := payload.name
  description := payload.description
  ownerId := callerId
  createdAt := now

inductive ServiceRequest where
  | createProject (body : ProjectCreate)
  | project (request : ProjectRequest)
  | task (request : TaskRequest)

inductive ServiceAnswer where
  /-- 201. -/
  | created (body : ProjectResponse)
  | project (answer : ProjectAnswer)
  | task (answer : TaskAnswer)
  /-- 422. -/
  | unprocessable (e : ValidationError)
  /-- 500, and the transaction is rolled back. -/
  | failed

namespace TaskService

/-- `create_project`. -/
def createProject (s : TaskService) (env : Surroundings) (callerId : UUID)
    (payload : ProjectCreate) : ServiceAnswer × TaskService :=
  let p := payload.toProject callerId env.newId env.now
  if h : p.id ∈ s.projects.rows.map Project.id then (.failed, s)
  else
    (.created (ProjectResponse.modelValidate p), { s with projects := s.projects.insert p h })

/-- A request as it comes in, through its schema and to its route. -/
def respond (s : TaskService) (env : Surroundings) (callerId : UUID) :
    ServiceRequest → ServiceAnswer × TaskService
  | .createProject body =>
      match body.modelValidate with
      | .error e => (.unprocessable e, s)
      | .ok payload => s.createProject env callerId payload
  | .project request =>
      let out := handleProject s.projects callerId request
      (.project out.1, { s with projects := out.2 })
  | .task request =>
      match request.modelValidate with
      | .error e => (.unprocessable e, s)
      | .ok accepted =>
          let out := s.handle env callerId accepted
          (.task out.answer, out.state)

end TaskService

inductive ServiceEvent where
  | request (env : Surroundings) (callerId : UUID) (request : ServiceRequest)
  /-- An idempotency entry runs out or is evicted. -/
  | expire (key : String)

def TaskService.advance (s : TaskService) : ServiceEvent → Option TaskService
  | .request env callerId request => some (s.respond env callerId request).2
  | .expire key => some { s with redis := fun k => if k = key then none else s.redis k }

/-- Before the first request. -/
def TaskService.start : TaskService where
  projects := Table.empty
  tasks := Table.empty
  redis := fun _ => none

/-- **The creator of every task owns its project.** -/
def OwnProjects (s : TaskService) : Prop :=
  ∀ t ∈ s.tasks.rows, ∃ p ∈ s.projects.rows, p.id = t.projectId ∧ p.ownerId = t.creatorId

/-- Projects stay, with their owners, and a task that is still there has its creator and project. -/
structure KeepsOwners (s s' : TaskService) : Prop where
  projects : ∀ p ∈ s.projects.rows, ∃ p' ∈ s'.projects.rows, p'.id = p.id
  owner : ∀ p ∈ s.projects.rows, ∀ p' ∈ s'.projects.rows, p'.id = p.id → p'.ownerId = p.ownerId
  task : ∀ t ∈ s.tasks.rows, ∀ t' ∈ s'.tasks.rows, t'.id = t.id →
    t'.creatorId = t.creatorId ∧ t'.projectId = t.projectId

/-! ## What a request writes -/

variable {s s' : TaskService} {env : Surroundings} {callerId : UUID}

theorem getOwnedProject_ok {projects : Projects} {projectId : UUID} {p : Project}
    (h : getOwnedProject projects.rows projectId callerId = .ok p) :
    p ∈ projects.rows ∧ p.id = projectId ∧ p.ownerId = callerId := by
  rw [getOwnedProject_filter] at h
  cases hfind : (projects.find? projectId).filter fun p => p.ownerId == callerId with
  | none =>
      rw [hfind] at h
      cases h
  | some found =>
      rw [hfind] at h
      cases h
      obtain ⟨hfound, howner⟩ := Option.filter_eq_some_iff.mp hfind
      obtain ⟨hp, hid⟩ := Table.find?_eq_some_iff.mp hfound
      exact ⟨hp, hid, beq_iff_eq.mp howner⟩

/-- A project request leaves the table, or makes one row inactive. -/
theorem handleProject_cases (projects : Projects) (callerId : UUID) (request : ProjectRequest) :
    (handleProject projects callerId request).2 = projects
      ∨ ∃ p ∈ projects.rows, (handleProject projects callerId request).2
        = projects.update { p with isActive := false } := by
  cases request with
  | list limit cursor =>
      unfold handleProject
      dsimp only
      split <;> exact Or.inl rfl
  | get projectId => exact Or.inl rfl
  | delete projectId =>
      show (deleteProject projects callerId projectId).2 = _ ∨ ∃ p ∈ projects.rows,
        (deleteProject projects callerId projectId).2 = _
      unfold deleteProject
      cases hfind : projects.find? projectId with
      | none => exact Or.inl rfl
      | some p =>
          dsimp only
          split
          · exact Or.inl rfl
          · exact Or.inr ⟨p, (Table.find?_eq_some_iff.mp hfind).1, rfl⟩

/-- Projects go on under their ids, with their owners. -/
def Projects.KeptIn (projects projects' : Projects) : Prop :=
  ∀ p ∈ projects.rows, ∃ p' ∈ projects'.rows, p'.id = p.id ∧ p'.ownerId = p.ownerId

theorem Projects.keptIn_self (projects : Projects) : projects.KeptIn projects :=
  fun p hp => ⟨p, hp, rfl, rfl⟩

theorem keptIn_handleProject (projects : Projects) (callerId : UUID) (request : ProjectRequest) :
    projects.KeptIn (handleProject projects callerId request).2 := by
  rcases handleProject_cases projects callerId request with h | ⟨found, hfound, h⟩
  · rw [h]
    exact projects.keptIn_self
  · rw [h]
    intro p hp
    by_cases hid : p.id = found.id
    · refine ⟨_, Table.mem_update.mpr (Or.inr ⟨rfl, p, hp, hid⟩), hid.symm, ?_⟩
      rw [Table.eq_of_key hp hfound hid]
    · exact ⟨p, Table.mem_update.mpr (Or.inl ⟨hp, hid⟩), rfl, rfl⟩

theorem handle_projects (s : TaskService) (env : Surroundings) (callerId : UUID)
    (request : TaskRequest) : (s.handle env callerId request).state.projects = s.projects := by
  unfold TaskService.handle
  cases request with
  | create key payload =>
      dsimp only
      unfold TaskService.createTask TaskService.insertTask
      dsimp only
      split
      · rfl
      · split
        · rfl
        · split <;> rfl
  | list projectId statusFilter limit cursor =>
      dsimp only
      unfold TaskService.listTasks
      split <;> rfl
  | get taskId =>
      dsimp only
      unfold TaskService.getTask
      split <;> rfl
  | update taskId payload =>
      dsimp only
      unfold TaskService.updateTask
      split
      · rfl
      · split <;> rfl
  | delete taskId =>
      dsimp only
      unfold TaskService.deleteTask
      split <;> rfl

/-- The row goes on from one that was there, with its creator and its project. -/
def Task.ComesFrom (t' : Task) (tasks : TaskTable) : Prop :=
  ∃ t ∈ tasks.rows, t.id = t'.id ∧ t'.creatorId = t.creatorId ∧ t'.projectId = t.projectId

/-- The row is new, under a project of its creator. -/
def Task.NewUnder (t' : Task) (s : TaskService) : Prop :=
  t'.id ∉ s.tasks.rows.map Task.id
    ∧ ∃ p ∈ s.projects.rows, p.id = t'.projectId ∧ p.ownerId = t'.creatorId

theorem createTask_rows (s : TaskService) (env : Surroundings) (callerId : UUID)
    (key : Option String) (payload : TaskCreate) :
    ∀ t' ∈ (s.createTask env callerId key payload).state.tasks.rows,
      t' ∈ s.tasks.rows ∨ t'.NewUnder s := by
  intro t' ht'
  unfold TaskService.createTask TaskService.insertTask at ht'
  dsimp only at ht'
  split at ht'
  · exact Or.inl ht'
  · split at ht'
    · exact Or.inl ht'
    · rename_i p hproject
      obtain ⟨hp, hid, howner⟩ := getOwnedProject_ok hproject
      split at ht'
      · exact Or.inl ht'
      · rename_i hnew
        rcases (Table.mem_insert (h := hnew)).mp ht' with rfl | hold
        · exact Or.inr ⟨hnew, p, hp, hid, howner⟩
        · exact Or.inl hold

/-- Any other task request leaves rows that were there. -/
theorem comesFrom_handle {request : TaskRequest} (hother : ∀ key payload, request ≠ .create key payload)
    (s : TaskService) (env : Surroundings) (callerId : UUID) :
    ∀ t' ∈ (s.handle env callerId request).state.tasks.rows, t'.ComesFrom s.tasks := by
  have hstays : ∀ t' ∈ s.tasks.rows, t'.ComesFrom s.tasks :=
    fun t' ht' => ⟨t', ht', rfl, rfl, rfl⟩
  intro t' ht'
  unfold TaskService.handle at ht'
  cases request with
  | create key payload => exact absurd rfl (hother key payload)
  | list projectId statusFilter limit cursor =>
      dsimp only at ht'
      unfold TaskService.listTasks at ht'
      split at ht' <;> exact hstays t' ht'
  | get taskId =>
      dsimp only at ht'
      unfold TaskService.getTask at ht'
      split at ht' <;> exact hstays t' ht'
  | update taskId payload =>
      dsimp only at ht'
      unfold TaskService.updateTask at ht'
      split at ht'
      · exact hstays t' ht'
      · rename_i t hauth
        split at ht'
        · exact hstays t' ht'
        · -- none of the columns of an update is one of these
          obtain ⟨hfind, -⟩ := getAuthorizedTask_ok hauth
          have hrow := (Table.find?_eq_some_iff.mp hfind).1
          rcases Table.mem_update.mp ht' with ⟨hold, -⟩ | ⟨rfl, -⟩
          · exact hstays t' hold
          · refine ⟨t, hrow, ?_⟩
            split <;> exact ⟨rfl, rfl, rfl⟩
  | delete taskId =>
      dsimp only at ht'
      unfold TaskService.deleteTask at ht'
      split at ht'
      · exact hstays t' ht'
      · exact hstays t' (Table.mem_delete.mp ht').1

/-- What a task request leaves in the table. -/
theorem handle_rows (s : TaskService) (env : Surroundings) (callerId : UUID)
    (request : TaskRequest) :
    ∀ t' ∈ (s.handle env callerId request).state.tasks.rows,
      t'.ComesFrom s.tasks ∨ t'.NewUnder s := by
  intro t' ht'
  cases request with
  | create key payload =>
      exact (createTask_rows s env callerId key payload t' ht').imp_left
        fun hold => ⟨t', hold, rfl, rfl, rfl⟩
  | list projectId statusFilter limit cursor =>
      exact Or.inl (comesFrom_handle (by intro key payload h; cases h) s env callerId t' ht')
  | get taskId =>
      exact Or.inl (comesFrom_handle (by intro key payload h; cases h) s env callerId t' ht')
  | update taskId payload =>
      exact Or.inl (comesFrom_handle (by intro key payload h; cases h) s env callerId t' ht')
  | delete taskId =>
      exact Or.inl (comesFrom_handle (by intro key payload h; cases h) s env callerId t' ht')

/-- **What a step writes.** -/
theorem advance_writes {e : ServiceEvent} (h : s.advance e = some s') :
    s.projects.KeptIn s'.projects
      ∧ ∀ t' ∈ s'.tasks.rows, t'.ComesFrom s.tasks ∨ t'.NewUnder s := by
  have hstays : ∀ t' ∈ s.tasks.rows, t'.ComesFrom s.tasks ∨ t'.NewUnder s :=
    fun t' ht' => Or.inl ⟨t', ht', rfl, rfl, rfl⟩
  cases e with
  | expire key =>
      cases h
      exact ⟨s.projects.keptIn_self, hstays⟩
  | request env callerId request =>
      cases h
      unfold TaskService.respond
      cases request with
      | createProject body =>
          dsimp only
          split
          · exact ⟨s.projects.keptIn_self, hstays⟩
          · unfold TaskService.createProject
            dsimp only
            split
            · exact ⟨s.projects.keptIn_self, hstays⟩
            · exact ⟨fun p hp => ⟨p, List.mem_cons_of_mem _ hp, rfl, rfl⟩, hstays⟩
      | project request => exact ⟨keptIn_handleProject _ _ _, hstays⟩
      | task request =>
          dsimp only
          split
          · exact ⟨s.projects.keptIn_self, hstays⟩
          · rename_i accepted _
            refine ⟨?_, handle_rows s env callerId accepted⟩
            rw [handle_projects]
            exact s.projects.keptIn_self

/-! ## Every run -/

theorem ownProjects_step {e : ServiceEvent} (h : OwnProjects s) (hs : s.advance e = some s') :
    OwnProjects s' := by
  obtain ⟨hkept, hrows⟩ := advance_writes hs
  intro t' ht'
  have hbefore : ∃ p ∈ s.projects.rows, p.id = t'.projectId ∧ p.ownerId = t'.creatorId := by
    rcases hrows t' ht' with ⟨t, ht, -, hcreator, hproject⟩ | ⟨-, hnew⟩
    · rw [hcreator, hproject]
      exact h t ht
    · exact hnew
  obtain ⟨p, hp, hid, howner⟩ := hbefore
  obtain ⟨p', hp', hid', howner'⟩ := hkept p hp
  exact ⟨p', hp', hid'.trans hid, howner'.trans howner⟩

theorem keepsOwners_step {e : ServiceEvent} (hs : s.advance e = some s') : KeepsOwners s s' := by
  obtain ⟨hkept, hrows⟩ := advance_writes hs
  refine ⟨?_, ?_, ?_⟩
  · intro p hp
    obtain ⟨p', hp', hid, -⟩ := hkept p hp
    exact ⟨p', hp', hid⟩
  · intro p hp p' hp' hid
    obtain ⟨q, hq, hqid, hqowner⟩ := hkept p hp
    rw [Table.eq_of_key hp' hq (hid.trans hqid.symm)]
    exact hqowner
  · intro t ht t' ht' hid
    rcases hrows t' ht' with ⟨u, hu, huid, hcreator, hproject⟩ | ⟨hnew, -⟩
    · cases Table.eq_of_key hu ht (huid.trans hid)
      exact ⟨hcreator, hproject⟩
    · exact absurd (List.mem_map.mpr ⟨t, ht, hid.symm⟩) hnew

/-- **Tasks only live in their creator's projects**, in every state of every run, and no step of it
changes a creator, a task's project or an owner. -/
theorem tasks_live_in_own_projects (es : List ServiceEvent) :
    Always TaskService.advance OwnProjects TaskService.start es
      ∧ Steps TaskService.advance KeepsOwners TaskService.start es := by
  constructor
  · refine always_of_invariant (C := fun _ _ => True)
      (fun _ _ _ h _ hs => ownProjects_step h hs) (fun _ h => h) ?_ (meets_true _ es)
    intro t ht
    cases ht
  · exact steps_of_step (fun s e s' hs => keepsOwners_step (s := s) (e := e) hs) _ es

end Microservices.Tasks
