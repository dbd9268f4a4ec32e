import Microservices.Tasks.Requests

/-!
# What a caller learns of other users' tasks

Two states agree for a caller if they hold the same of the tasks it created or is
assigned to, the same of its projects, and the same idempotency entries under its
keys. Every lookup of the task routes is one of a visible row or answers as for a
missing one, so that requests of the caller cannot tell the states apart.
-/

namespace Microservices.Tasks

/-- The states look alike to `callerId`. -/
structure Agree (callerId : UUID) (s s' : TaskService) : Prop where
  projects : s.projects.AgreeOn (fun p => p.ownerId == callerId) s'.projects
  tasks : s.tasks.AgreeOn (fun t => t.visibleTo callerId) s'.tasks
  redis : ∀ key, s.redis (makeKey callerId key) = s'.redis (makeKey callerId key)

/-- The same answer and the same events, and states that look alike to `callerId`. -/
structure Indistinguishable (callerId : UUID) (o o' : Outcome) : Prop where
  answer : o.answer = o'.answer
  events : o.events = o'.events
  state : Agree callerId o.state o'.state

variable {callerId : UUID} {s s' : TaskService}

theorem Agree.answered (h : Agree callerId s s') (answer : TaskAnswer) :
    Indistinguishable callerId (s.answer answer) (s'.answer answer) := ⟨rfl, rfl, h⟩

/-! ## Lookups -/

/-- A row is looked up for its reader only if it is visible to it. -/
theorem getAuthorizedTask_filter (row : Option Task) (callerId : UUID) (requireOwner : Bool) :
    getAuthorizedTask row callerId requireOwner
      = getAuthorizedTask (row.filter fun t => t.visibleTo callerId) callerId requireOwner := by
  cases row with
  | none => rfl
  | some t =>
      cases hv : t.visibleTo callerId with
      | true => simp [Option.filter, hv]
      | false => simp [Option.filter, getAuthorizedTask, hv]

theorem Agree.getAuthorizedTask (h : Agree callerId s s') (taskId : UUID) (requireOwner : Bool) :
    getAuthorizedTask (s.tasks.find? taskId) callerId requireOwner
      = getAuthorizedTask (s'.tasks.find? taskId) callerId requireOwner := by
  rw [getAuthorizedTask_filter, h.tasks.filter_find?, ← getAuthorizedTask_filter]

theorem getAuthorizedTask_ok {row : Option Task} {requireOwner : Bool} {t : Task}
    (h : Tasks.getAuthorizedTask row callerId requireOwner = .ok t) :
    row = some t ∧ t.visibleTo callerId = true := by
  cases row with
  | none => cases h
  | some r =>
      unfold Tasks.getAuthorizedTask at h
      dsimp only at h
      by_cases hv : r.visibleTo callerId = true
      · rw [hv] at h
        split at h
        · rename_i hf
          cases hf
        · split at h
          · cases h
          · cases h
            exact ⟨rfl, hv⟩
      · rw [Bool.eq_false_of_not_eq_true hv] at h
        cases h

/-- Where somebody else's project is taken for a missing one, only the caller's are looked at. -/
theorem match_ownedBy {β : Type} (found : Option Project) (callerId : UUID) (missing : β)
    (own : Project → β) :
    (match found with
      | none => missing
      | some p => if p.ownerId ≠ callerId then missing else own p)
      = match found.filter fun p => p.ownerId == callerId with
        | none => missing
        | some p => own p := by
  cases found with
  | none => rfl
  | some p =>
      by_cases hp : p.ownerId = callerId
      · simp [Option.filter, hp]
      · simp [Option.filter, hp]

/-- A project that is not the caller's is answered like one that is not there. -/
theorem getOwnedProject_filter (projects : Projects) (projectId callerId : UUID) :
    getOwnedProject projects.rows projectId callerId
      = match (projects.find? projectId).filter fun p => p.ownerId == callerId with
        | none => .error projectNotFound
        | some p => .ok p := by
  have hfind : projects.rows.find? (fun p => p.id == projectId) = projects.find? projectId := by
    unfold Table.find?
    congr 1
  unfold getOwnedProject
  rw [hfind]
  exact match_ownedBy _ callerId _ _

/-- The project is found if it is in the table, and the caller owns it. -/
theorem getOwnedProject_isOk_iff {projects : Projects} {projectId callerId : UUID} :
    (getOwnedProject projects.rows projectId callerId).isOk
      ↔ ∃ p ∈ projects.rows, p.id = projectId ∧ p.ownerId = callerId := by
  rw [getOwnedProject_filter]
  constructor
  · intro h
    cases hfind : (projects.find? projectId).filter fun p => p.ownerId == callerId with
    | none => rw [hfind] at h; cases h
    | some p =>
        obtain ⟨hfound, howner⟩ := Option.filter_eq_some_iff.mp hfind
        obtain ⟨hp, hid⟩ := Table.find?_eq_some_iff.mp hfound
        exact ⟨p, hp, hid, beq_iff_eq.mp howner⟩
  · rintro ⟨p, hp, hid, howner⟩
    have hfind : (projects.find? projectId).filter (fun p => p.ownerId == callerId) = some p :=
      Option.filter_eq_some_iff.mpr ⟨Table.find?_eq_some_iff.mpr ⟨hp, hid⟩, beq_iff_eq.mpr howner⟩
    rw [hfind]
    rfl

/-- The task is handed to its creator. -/
theorem getAuthorizedTask_isOk_iff {tasks : TaskTable} {taskId callerId : UUID} :
    (getAuthorizedTask (tasks.find? taskId) callerId true).isOk
      ↔ ∃ t ∈ tasks.rows, t.id = taskId ∧ t.creatorId = callerId := by
  constructor
  · intro h
    cases hfind : tasks.find? taskId with
    | none => rw [hfind] at h; cases h
    | some t =>
        obtain ⟨ht, hid⟩ := Table.find?_eq_some_iff.mp hfind
        refine ⟨t, ht, hid, ?_⟩
        by_contra hne
        rw [hfind, Tasks.getAuthorizedTask] at h
        simp only [Bool.true_and, bne_iff_ne.mpr hne, if_true] at h
        split at h <;> cases h
  · rintro ⟨t, ht, hid, hcreator⟩
    have hvisible : t.visibleTo callerId = true := by
      rw [Task.visibleTo, beq_iff_eq.mpr hcreator, Bool.true_or]
    rw [Table.find?_eq_some_iff.mpr ⟨ht, hid⟩, Tasks.getAuthorizedTask, hvisible, hcreator]
    simp
    rfl

theorem Agree.getOwnedProject (h : Agree callerId s s') (projectId : UUID) :
    getOwnedProject s.projects.rows projectId callerId
      = getOwnedProject s'.projects.rows projectId callerId := by
  rw [getOwnedProject_filter, h.projects.filter_find?, ← getOwnedProject_filter]

/-! ## The five routes -/

theorem Agree.getTask (h : Agree callerId s s') (taskId : UUID) :
    Indistinguishable callerId (s.getTask callerId taskId) (s'.getTask callerId taskId) := by
  unfold TaskService.getTask
  rw [h.getAuthorizedTask taskId false]
  split
  · exact h.answered _
  · exact h.answered _

theorem Agree.listTasks (h : Agree callerId s s') (projectId : Option UUID)
    (statusFilter : Option TaskStatus) (limit : PageLimit) (cursor : Option String) :
    Indistinguishable callerId (s.listTasks callerId projectId statusFilter limit cursor)
      (s'.listTasks callerId projectId statusFilter limit cursor) := by
  have hperm : (s.tasks.rows.filter fun t => t.listed callerId projectId statusFilter).Perm
      (s'.tasks.rows.filter fun t => t.listed callerId projectId statusFilter) := by
    refine h.tasks.perm fun t ht => ?_
    unfold Task.listed at ht
    rw [Bool.and_eq_true, Bool.and_eq_true] at ht
    exact ht.1.1
  have hpage : Tasks.listTasks s.tasks.rows callerId projectId statusFilter limit cursor
      = Tasks.listTasks s'.tasks.rows callerId projectId statusFilter limit cursor :=
    fetchPage_perm cursor ((List.filter_sublist.map Task.id).nodup s.tasks.nodup) hperm
  unfold TaskService.listTasks
  rw [hpage]
  split
  · exact h.answered _
  · exact h.answered _

/-- An update keeps the id, so it is an update of the row that was found. -/
theorem apply_id (c : ColumnUpdate) (t : Task) (now : Timestamp) : (c.apply t now).id = t.id := rfl

theorem Agree.updateTask (h : Agree callerId s s') (env : Surroundings) (taskId : UUID)
    (payload : TaskUpdate) :
    Indistinguishable callerId (s.updateTask env callerId taskId payload)
      (s'.updateTask env callerId taskId payload) := by
  unfold TaskService.updateTask
  rw [← h.getAuthorizedTask taskId true]
  cases hauth : Tasks.getAuthorizedTask (s.tasks.find? taskId) callerId true with
  | error e => exact h.answered _
  | ok t =>
      dsimp only
      cases payload.changes t with
      | none => exact h.answered _
      | some c =>
          -- the row that is updated is visible to the caller, so both tables hold it
          obtain ⟨hfind, hvisible⟩ := getAuthorizedTask_ok hauth
          have hrow := (Table.find?_eq_some_iff.mp hfind).1
          refine ⟨rfl, rfl, ⟨h.projects, ?_, h.redis⟩⟩
          refine h.tasks.update hvisible hrow ?_
          split
          · rfl
          · exact (apply_id c t env.now).symm

theorem Agree.deleteTask (h : Agree callerId s s') (taskId : UUID) :
    Indistinguishable callerId (s.deleteTask callerId taskId) (s'.deleteTask callerId taskId) := by
  unfold TaskService.deleteTask
  rw [h.getAuthorizedTask taskId true]
  split
  · exact h.answered _
  · exact ⟨rfl, rfl, ⟨h.projects, h.tasks.delete _, h.redis⟩⟩

theorem Agree.cacheResponse (h : Agree callerId s s') (available : Bool) (key : String)
    (response : CachedResponse) (key' : String) :
    cacheResponse available s.redis callerId key response (makeKey callerId key')
      = cacheResponse available s'.redis callerId key response (makeKey callerId key') := by
  unfold Tasks.cacheResponse
  split
  · dsimp only
    split
    · rfl
    · exact h.redis key'
  · exact h.redis key'

theorem Agree.insertTask (h : Agree callerId s s') (env : Surroundings)
    (hnew : env.newId ∉ s.tasks.rows.map Task.id) (hnew' : env.newId ∉ s'.tasks.rows.map Task.id)
    (key : Option String) (payload : TaskCreate) :
    Indistinguishable callerId (s.insertTask env callerId key payload)
      (s'.insertTask env callerId key payload) := by
  unfold TaskService.insertTask
  rw [h.getOwnedProject]
  split
  · exact h.answered _
  · dsimp only
    have hid : (payload.toTask callerId env.newId env.now).id = env.newId := rfl
    rw [dif_neg (hid ▸ hnew), dif_neg (hid ▸ hnew')]
    refine ⟨rfl, rfl, ⟨h.projects, h.tasks.insert hnew hnew', fun key' => ?_⟩⟩
    cases key with
    | none => exact h.redis key'
    | some key => exact h.cacheResponse env.redisWrites key _ key'

theorem Agree.createTask (h : Agree callerId s s') (env : Surroundings)
    (hnew : env.newId ∉ s.tasks.rows.map Task.id) (hnew' : env.newId ∉ s'.tasks.rows.map Task.id)
    (idempotencyKey : Option String) (payload : TaskCreate) :
    Indistinguishable callerId (s.createTask env callerId idempotencyKey payload)
      (s'.createTask env callerId idempotencyKey payload) := by
  have hread : getCachedResponse env.redisReads s.redis callerId
      = getCachedResponse env.redisReads s'.redis callerId := by
    funext key
    unfold getCachedResponse
    rw [h.redis key]
  unfold TaskService.createTask
  dsimp only
  rw [hread]
  split
  · exact h.answered _
  · exact h.insertTask env hnew hnew' _ payload

/--
**A caller's task requests tell it nothing of other users' tasks.**

For every two states that look alike to the caller and every request by it: the same
answer, the same events, and again states that look alike to it.
-/
theorem task_requests_leak_nothing (callerId : UUID) (s s' : TaskService)
    (h : Agree callerId s s') (env : Surroundings)
    (hnew : env.newId ∉ s.tasks.rows.map Task.id) (hnew' : env.newId ∉ s'.tasks.rows.map Task.id)
    (request : TaskRequest) :
    Indistinguishable callerId (s.handle env callerId request)
      (s'.handle env callerId request) := by
  cases request with
  | create key payload => exact h.createTask env hnew hnew' key payload
  | list projectId statusFilter limit cursor => exact h.listTasks projectId statusFilter limit cursor
  | get taskId => exact h.getTask taskId
  | update taskId payload => exact h.updateTask env taskId payload
  | delete taskId => exact h.deleteTask taskId

/-! ## A state with Bob in it, and one without -/

def bob : UUID := UUID.ofNat 3

def bobsProject : Project := { annsProject with id := UUID.ofNat 4, ownerId := bob }

def bobsTask : Task :=
  { title := "Plan", projectId := UUID.ofNat 4 : TaskCreate }.toTask bob (UUID.ofNat 20) noon

def withBob : TaskService where
  projects := ⟨[annsProject, bobsProject], by decide⟩
  tasks := ⟨[bobsTask], by decide⟩
  redis := fun _ => none

def withoutBob : TaskService where
  projects := ⟨[annsProject], by decide⟩
  tasks := Table.empty
  redis := fun _ => none

theorem agree_withoutBob : Agree ann withBob withoutBob where
  projects := by
    intro p hp
    show p ∈ [annsProject, bobsProject] ↔ p ∈ [annsProject]
    rw [List.mem_cons, List.mem_singleton, List.mem_singleton, or_iff_left_iff_imp]
    rintro rfl
    exact absurd hp (by decide)
  tasks := by
    intro t ht
    show t ∈ [bobsTask] ↔ t ∈ []
    rw [List.mem_singleton]
    refine iff_of_false ?_ List.not_mem_nil
    rintro rfl
    exact absurd ht (by decide)
  redis := fun _ => rfl

theorem bobs_task_is_missing_to_ann :
    Indistinguishable ann
      (withBob.handle { newId := launchTaskId, now := noon } ann (.delete (UUID.ofNat 20)))
      (withoutBob.handle { newId := launchTaskId, now := noon } ann (.delete (UUID.ofNat 20))) :=
  task_requests_leak_nothing ann withBob withoutBob agree_withoutBob
    { newId := launchTaskId, now := noon } (by decide) (by decide) (.delete (UUID.ofNat 20))

/-! ## Requests in turn -/

/-- The answers and the events of one caller's requests, and the state they leave. -/
def TaskService.serve (s : TaskService) (callerId : UUID) :
    List (Surroundings × TaskRequest) → List (TaskAnswer × List TaskEvent) × TaskService
  | [] => ([], s)
  | (env, request) :: later =>
      let o := s.handle env callerId request
      let rest := o.state.serve callerId later
      ((o.answer, o.events) :: rest.1, rest.2)

/-- What a request writes to the table of tasks: nothing, or one row. -/
theorem tasks_handle (s : TaskService) (env : Surroundings) (callerId : UUID)
    (request : TaskRequest) :
    (s.handle env callerId request).state.tasks = s.tasks
      ∨ (∃ t h, t.id = env.newId ∧ (s.handle env callerId request).state.tasks = s.tasks.insert t h)
      ∨ (∃ t, (s.handle env callerId request).state.tasks = s.tasks.update t)
      ∨ ∃ taskId, (s.handle env callerId request).state.tasks = s.tasks.delete taskId := by
  unfold TaskService.handle
  cases request with
  | create key payload =>
      dsimp only
      unfold TaskService.createTask
      dsimp only
      split
      · exact Or.inl rfl
      · unfold TaskService.insertTask
        split
        · exact Or.inl rfl
        · dsimp only
          split
          · exact Or.inl rfl
          · rename_i hnew
            exact Or.inr (Or.inl ⟨_, hnew, rfl, rfl⟩)
  | list projectId statusFilter limit cursor =>
      dsimp only
      unfold TaskService.listTasks
      split <;> exact Or.inl rfl
  | get taskId =>
      dsimp only
      unfold TaskService.getTask
      split <;> exact Or.inl rfl
  | update taskId payload =>
      dsimp only
      unfold TaskService.updateTask
      split
      · exact Or.inl rfl
      · split
        · exact Or.inl rfl
        · exact Or.inr (Or.inr (Or.inl ⟨_, rfl⟩))
  | delete taskId =>
      dsimp only
      unfold TaskService.deleteTask
      split
      · exact Or.inl rfl
      · exact Or.inr (Or.inr (Or.inr ⟨_, rfl⟩))

/-- A request brings at most its new id into the table. -/
theorem ids_handle (s : TaskService) (env : Surroundings) (callerId : UUID)
    (request : TaskRequest) :
    (s.handle env callerId request).state.tasks.rows.map Task.id
      ⊆ env.newId :: s.tasks.rows.map Task.id := by
  have hsame : s.tasks.rows.map Task.id ⊆ env.newId :: s.tasks.rows.map Task.id :=
    List.subset_cons_self _ _
  rcases tasks_handle s env callerId request with h | ⟨t, hnew, hid, h⟩ | ⟨t, h⟩ | ⟨taskId, h⟩
  · rw [h]
    exact hsame
  · rw [h, ← hid]
    exact List.Subset.refl _
  · rw [h, Table.update, Table.map_key_overwrite]
    exact hsame
  · rw [h]
    exact List.Subset.trans (List.filter_sublist.map _).subset hsame

/-- **Nor does any run of them.** -/
theorem runs_leak_nothing (callerId : UUID) (s s' : TaskService) (h : Agree callerId s s')
    (requests : List (Surroundings × TaskRequest))
    (hdistinct : (requests.map fun q => q.1.newId).Nodup)
    (hnew : ∀ q ∈ requests, q.1.newId ∉ s.tasks.rows.map Task.id)
    (hnew' : ∀ q ∈ requests, q.1.newId ∉ s'.tasks.rows.map Task.id) :
    (s.serve callerId requests).1 = (s'.serve callerId requests).1
      ∧ Agree callerId (s.serve callerId requests).2 (s'.serve callerId requests).2 := by
  induction requests generalizing s s' with
  | nil => exact ⟨rfl, h⟩
  | cons q later ih =>
      obtain ⟨env, request⟩ := q
      rw [List.map_cons, List.nodup_cons] at hdistinct
      have hstep := task_requests_leak_nothing callerId s s' h env
        (hnew _ List.mem_cons_self) (hnew' _ List.mem_cons_self) request
      -- the ids still to come are new to the states the step leaves
      have hstill : ∀ s : TaskService, (∀ q ∈ (env, request) :: later,
          q.1.newId ∉ s.tasks.rows.map Task.id) → ∀ q ∈ later,
          q.1.newId ∉ (s.handle env callerId request).state.tasks.rows.map Task.id := by
        intro s hs q hq hmem
        rcases List.mem_cons.mp (ids_handle s env callerId request hmem) with heq | hold
        · exact hdistinct.1 (List.mem_map.mpr ⟨q, hq, heq⟩)
        · exact hs q (List.mem_cons_of_mem _ hq) hold
      obtain ⟨hanswers, hstate⟩ := ih _ _ hstep.state hdistinct.2 (hstill s hnew) (hstill s' hnew')
      refine ⟨?_, hstate⟩
      rw [TaskService.serve, TaskService.serve]
      dsimp only
      rw [hstep.answer, hstep.events, hanswers]

end Microservices.Tasks
