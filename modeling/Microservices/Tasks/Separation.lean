import Microservices.Lib.Projection
import Microservices.Tasks.Outcomes
import Microservices.Tasks.Replays

/-!
# Groups of users that have nothing to do with each other

The members of a group may share tasks, as creators and assignees; nobody outside of it
assigns a task to one of them. Then the service is to the group as if it had no other
users, in whatever order the requests of all of them come in. Every answer to a member
is the one it is given in the run without the others' requests, and so is every event
that is published for it.

What is seen of a state is its members' projects, the tasks they have created and the
entries under their keys. `delete_project` tells an outsider's project from a missing
one, so members are to leave those alone.
-/

namespace Microservices.Tasks

open Schedule

/-- An answer, and the events that go out after it. -/
structure Served where
  answer : ServiceAnswer
  events : List TaskEvent

/-- What a request comes to for its caller. -/
def TaskService.served (s : TaskService) (env : Surroundings) (callerId : UUID)
    (request : ServiceRequest) : Served where
  answer := (s.respond env callerId request).1
  events :=
    match request with
    | .task request =>
        match request.modelValidate with
        | .error _ => []
        | .ok accepted => (s.handle env callerId accepted).events
    | _ => []

/-- Whom a request assigns. -/
def TaskRequest.assigns : TaskRequest → Option UUID
  | .create _ payload => payload.assigneeId
  | .update _ payload => payload.assigneeId.join
  | _ => none

variable (member : UUID → Bool)

/-- **The request stays on its side**: it does not cross between the group and the others, and its new
id is new. -/
def StaysApart (s : TaskService) : ServiceEvent → Prop
  | .request env callerId request =>
      env.newId ∉ s.tasks.rows.map Task.id ∧ env.newId ∉ s.projects.rows.map Project.id
        ∧ match request with
          | .createProject _ => True
          | .project (.delete projectId) => member callerId = true →
              ∀ p ∈ s.projects.rows, p.id = projectId → member p.ownerId = true
          | .project _ => True
          | .task request => member callerId = false → ∀ u ∈ request.assigns, member u = false
  | .expire _ => True

/-- The events without the requests of others. -/
def ofMembers : ServiceEvent → Option ServiceEvent
  | .request env callerId request =>
      if member callerId then some (.request env callerId request) else none
  | .expire key => some (.expire key)

/-- What a member is told at a step. -/
def told : TaskService × ServiceEvent → Option (UUID × Served)
  | (s, .request env callerId request) =>
      if member callerId then some (callerId, s.served env callerId request) else none
  | (_, .expire _) => none

/-- `s'` is what the group sees of `s`. -/
structure Seen (s s' : TaskService) : Prop where
  projects : s'.projects = s.projects.filter fun p => member p.ownerId
  tasks : s'.tasks = s.tasks.filter fun t => member t.creatorId
  redis : ∀ c, member c = true → ∀ key, s.redis (makeKey c key) = s'.redis (makeKey c key)
  /-- A member is only assigned by members. -/
  inside : ∀ t ∈ s.tasks.rows, ∀ u ∈ t.assigneeId, member u = true → member t.creatorId = true

variable {member} {s s' : TaskService} {env : Surroundings} {callerId : UUID}

/-- To each member the states look alike. -/
theorem Seen.agree (h : Seen member s s') (hc : member callerId = true) : Agree callerId s s' where
  projects := by
    rw [h.projects]
    refine Table.agreeOn_filter fun p _ howner => ?_
    rw [beq_iff_eq.mp howner]
    exact hc
  tasks := by
    rw [h.tasks]
    refine Table.agreeOn_filter fun t ht hvisible => ?_
    rcases Bool.or_eq_true_iff.mp hvisible with hcreator | hassignee
    · rw [beq_iff_eq.mp hcreator]
      exact hc
    · exact h.inside t ht callerId (beq_iff_eq.mp hassignee) hc
  redis := h.redis callerId hc

/-! ## Writes of members and of others -/

theorem Seen.insert (h : Seen member s s') {t : Task} (hnew : t.id ∉ s.tasks.rows.map Task.id)
    (hnew' : t.id ∉ s'.tasks.rows.map Task.id) (hcreator : member t.creatorId = true) :
    Seen member { s with tasks := s.tasks.insert t hnew }
      { s' with tasks := s'.tasks.insert t hnew' } where
  projects := h.projects
  tasks := by
    refine (Table.ext_rows ?_).trans (Table.filter_insert hnew hcreator).symm
    show t :: s'.tasks.rows = t :: _
    rw [h.tasks]
  redis := h.redis
  inside := by
    intro x hx
    rcases (Table.mem_insert (h := hnew)).mp hx with rfl | hold
    · exact fun _ _ _ => hcreator
    · exact h.inside x hold

theorem Seen.insert_other (h : Seen member s s') {t : Task}
    (hnew : t.id ∉ s.tasks.rows.map Task.id) (hcreator : member t.creatorId = false)
    (hassignee : ∀ u ∈ t.assigneeId, member u = false) :
    Seen member { s with tasks := s.tasks.insert t hnew } s' where
  projects := h.projects
  tasks := h.tasks.trans (Table.filter_insert_of_not hnew hcreator).symm
  redis := h.redis
  inside := by
    intro x hx
    rcases (Table.mem_insert (h := hnew)).mp hx with rfl | hold
    · intro u hu hmember
      rw [hassignee u hu] at hmember
      cases hmember
    · exact h.inside x hold

theorem Seen.update (h : Seen member s s') {t task : Task} (ht : t ∈ s.tasks.rows)
    (hid : task.id = t.id) (hcreator : task.creatorId = t.creatorId)
    (hmember : member t.creatorId = true) :
    Seen member { s with tasks := s.tasks.update task } { s' with tasks := s'.tasks.update task } where
  projects := h.projects
  tasks := by
    show s'.tasks.update task = (s.tasks.update task).filter _
    rw [h.tasks, Table.filter_update ht hid.symm (congrArg member hcreator)]
  redis := h.redis
  inside := by
    intro x hx
    rcases Table.mem_update.mp hx with ⟨hold, -⟩ | ⟨rfl, -⟩
    · exact h.inside x hold
    · exact fun _ _ _ => hcreator ▸ hmember

theorem Seen.update_other (h : Seen member s s') {t task : Task} (ht : t ∈ s.tasks.rows)
    (hid : task.id = t.id) (hcreator : task.creatorId = t.creatorId)
    (hother : member t.creatorId = false) (hassignee : ∀ u ∈ task.assigneeId, member u = false) :
    Seen member { s with tasks := s.tasks.update task } s' where
  projects := h.projects
  tasks := h.tasks.trans
    (Table.filter_update_of_not ht hid.symm hother ((congrArg member hcreator).trans hother)).symm
  redis := h.redis
  inside := by
    intro x hx
    rcases Table.mem_update.mp hx with ⟨hold, -⟩ | ⟨rfl, -⟩
    · exact h.inside x hold
    · intro u hu hmember
      rw [hassignee u hu] at hmember
      cases hmember

theorem Seen.delete (h : Seen member s s') (taskId : UUID) :
    Seen member { s with tasks := s.tasks.delete taskId }
      { s' with tasks := s'.tasks.delete taskId } where
  projects := h.projects
  tasks := by
    show s'.tasks.delete taskId = (s.tasks.delete taskId).filter _
    rw [h.tasks, Table.filter_delete]
  redis := h.redis
  inside := fun x hx => h.inside x (Table.mem_delete.mp hx).1

theorem Seen.delete_other (h : Seen member s s') {t : Task} (ht : t ∈ s.tasks.rows)
    (hother : member t.creatorId = false) :
    Seen member { s with tasks := s.tasks.delete t.id } s' where
  projects := h.projects
  tasks := h.tasks.trans (Table.filter_delete_of_not ht hother).symm
  redis := h.redis
  inside := fun x hx => h.inside x (Table.mem_delete.mp hx).1

/-- The same is remembered in both. -/
theorem Seen.remember (h : Seen member s s') {redis redis' : IdempotencyStore}
    (hredis : ∀ c, member c = true → ∀ key, redis (makeKey c key) = redis' (makeKey c key)) :
    Seen member { s with redis := redis } { s' with redis := redis' } :=
  { h with redis := hredis }

theorem remembered_member (h : Seen member s s') (key : Option String) (t : Task) :
    ∀ c, member c = true → ∀ k,
      s.remembered env callerId key t (makeKey c k) = s'.remembered env callerId key t (makeKey c k) := by
  intro c hc k
  unfold TaskService.remembered
  cases key.filter (· ≠ "") with
  | none => exact h.redis c hc k
  | some k' =>
      dsimp only
      unfold cacheResponse
      split
      · dsimp only
        rw [h.redis c hc k]
      · exact h.redis c hc k

/-- Nobody writes under another's keys. -/
theorem remembered_other {c : UUID} (hother : c ≠ callerId) (key : Option String) (t : Task)
    (k : String) : s.remembered env callerId key t (makeKey c k) = s.redis (makeKey c k) := by
  unfold TaskService.remembered
  cases key.filter (· ≠ "") with
  | none => rfl
  | some k' =>
      dsimp only
      unfold cacheResponse
      split
      · exact if_neg fun heq => hother ((makeKey_eq_iff _ _ _ _).mp heq).1
      · rfl

/-! ## Projects -/

theorem Seen.setProjects (h : Seen member s s') {projects projects' : Projects}
    (hprojects : projects' = projects.filter fun p => member p.ownerId) :
    Seen member { s with projects := projects } { s' with projects := projects' } :=
  { h with projects := hprojects }

theorem Seen.setProjects_other (h : Seen member s s') {projects : Projects}
    (hprojects : projects.filter (fun p => member p.ownerId)
      = s.projects.filter fun p => member p.ownerId) :
    Seen member { s with projects := projects } s' :=
  { h with projects := h.projects.trans hprojects.symm }

/-- Deleting one's own project, or none. -/
theorem Seen.deleteProject (h : Seen member s s') {projectId : UUID}
    (hown : ∀ p ∈ s.projects.rows, p.id = projectId → member p.ownerId = true) :
    (deleteProject s.projects callerId projectId).1 = (deleteProject s'.projects callerId projectId).1
      ∧ (deleteProject s'.projects callerId projectId).2
        = (deleteProject s.projects callerId projectId).2.filter fun p => member p.ownerId := by
  unfold Tasks.deleteProject
  cases hfind : s.projects.find? projectId with
  | none =>
      have hnone : s'.projects.find? projectId = none := by
        cases hfind' : s'.projects.find? projectId with
        | none => rfl
        | some p =>
            obtain ⟨hp, hid⟩ := Table.find?_eq_some_iff.mp hfind'
            rw [h.projects] at hp
            rw [Table.find?_eq_some_iff.mpr ⟨(Table.mem_filter.mp hp).1, hid⟩] at hfind
            cases hfind
      rw [hnone]
      exact ⟨rfl, h.projects⟩
  | some p =>
      obtain ⟨hp, hid⟩ := Table.find?_eq_some_iff.mp hfind
      have hfind' : s'.projects.find? projectId = some p := by
        rw [h.projects]
        exact Table.find?_filter (p := fun p => member p.ownerId) (hown p hp hid) hfind
      rw [hfind']
      dsimp only
      split
      · exact ⟨rfl, h.projects⟩
      · refine ⟨rfl, ?_⟩
        have hupdate : (s.projects.update { p with isActive := false }).filter
            (fun p => member p.ownerId)
            = (s.projects.filter fun p => member p.ownerId).update { p with isActive := false } :=
          Table.filter_update hp rfl rfl
        show s'.projects.update _ = _
        rw [hupdate, ← h.projects]

/-- Somebody else's project requests leave the members' projects. -/
theorem handleProject_other (hother : member callerId = false) (projects : Projects)
    (request : ProjectRequest) :
    (handleProject projects callerId request).2.filter (fun p => member p.ownerId)
      = projects.filter fun p => member p.ownerId := by
  cases request with
  | get projectId => rfl
  | list limit cursor =>
      unfold handleProject
      dsimp only
      split <;> rfl
  | delete projectId =>
      show (deleteProject projects callerId projectId).2.filter _ = _
      unfold Tasks.deleteProject
      cases hfind : projects.find? projectId with
      | none => rfl
      | some p =>
          obtain ⟨hp, -⟩ := Table.find?_eq_some_iff.mp hfind
          dsimp only
          split
          · rfl
          · rename_i howner
            have hp' : member p.ownerId = false := by
              rw [not_not.mp howner]
              exact hother
            exact Table.filter_update_of_not hp rfl hp' hp'

theorem Seen.handleProject (h : Seen member s s') (hc : member callerId = true)
    {request : ProjectRequest} (hown : ∀ projectId, request = .delete projectId →
      ∀ p ∈ s.projects.rows, p.id = projectId → member p.ownerId = true) :
    (handleProject s.projects callerId request).1 = (handleProject s'.projects callerId request).1
      ∧ (handleProject s'.projects callerId request).2
        = (handleProject s.projects callerId request).2.filter fun p => member p.ownerId := by
  cases request with
  | delete projectId => exact h.deleteProject (hown projectId rfl)
  | get projectId =>
      refine ⟨?_, h.projects⟩
      show getProject s.projects callerId projectId = getProject s'.projects callerId projectId
      rw [getProject_filter, (h.agree hc).projects.filter_find?, ← getProject_filter]
  | list limit cursor =>
      unfold Tasks.handleProject
      dsimp only
      rw [listProjects_eq (h.agree hc).projects limit cursor]
      split
      · exact ⟨rfl, h.projects⟩
      · exact ⟨rfl, h.projects⟩

/-! ## Requests -/

/-- The answers, the events and the states are alike. -/
structure SeenAlike (member : UUID → Bool) (o o' : Outcome) : Prop where
  answer : o.answer = o'.answer
  events : o.events = o'.events
  state : Seen member o.state o'.state

theorem Seen.answered (h : Seen member s s') (answer : TaskAnswer) :
    SeenAlike member (s.answer answer) (s'.answer answer) := ⟨rfl, rfl, h⟩

theorem Seen.createTask (h : Seen member s s') (hc : member callerId = true)
    (hnew : env.newId ∉ s.tasks.rows.map Task.id) (idempotencyKey : Option String)
    (payload : TaskCreate) :
    SeenAlike member (s.createTask env callerId idempotencyKey payload)
      (s'.createTask env callerId idempotencyKey payload) := by
  have hnew' : env.newId ∉ s'.tasks.rows.map Task.id := by
    rw [h.tasks]
    exact fun hmem => hnew (Table.keys_filter_subset _ _ hmem)
  have hread : getCachedResponse env.redisReads s.redis callerId
      = getCachedResponse env.redisReads s'.redis callerId := by
    funext key
    unfold getCachedResponse
    rw [h.redis callerId hc key]
  unfold TaskService.createTask
  dsimp only
  rw [hread]
  split
  · exact h.answered _
  · unfold TaskService.insertTask
    rw [(h.agree hc).getOwnedProject]
    split
    · exact h.answered _
    · dsimp only
      have hid : (payload.toTask callerId env.newId env.now).id = env.newId := rfl
      rw [dif_neg (hid ▸ hnew), dif_neg (hid ▸ hnew')]
      exact ⟨rfl, rfl, (h.insert (hid ▸ hnew) (hid ▸ hnew') hc).remember
        (remembered_member h idempotencyKey _)⟩

theorem Seen.updateTask (h : Seen member s s') (hc : member callerId = true) (taskId : UUID)
    (payload : TaskUpdate) :
    SeenAlike member (s.updateTask env callerId taskId payload)
      (s'.updateTask env callerId taskId payload) := by
  unfold TaskService.updateTask
  rw [← (h.agree hc).getAuthorizedTask taskId true]
  cases hauth : getAuthorizedTask (s.tasks.find? taskId) callerId true with
  | error e => exact h.answered _
  | ok t =>
      obtain ⟨hrow, -, hcreator⟩ := getAuthorizedTask_row hauth
      dsimp only
      cases hchanges : payload.changes t with
      | none => exact h.answered _
      | some c =>
          have hmember : member t.creatorId = true := by
            rw [hcreator]
            exact hc
          refine ⟨rfl, rfl, h.update hrow ?_ ?_ hmember⟩
          · split <;> rfl
          · split <;> rfl

theorem Seen.deleteTask (h : Seen member s s') (hc : member callerId = true) (taskId : UUID) :
    SeenAlike member (s.deleteTask callerId taskId) (s'.deleteTask callerId taskId) := by
  unfold TaskService.deleteTask
  rw [(h.agree hc).getAuthorizedTask taskId true]
  split
  · exact h.answered _
  · exact ⟨rfl, rfl, h.delete _⟩

theorem Seen.handle (h : Seen member s s') (hc : member callerId = true)
    (hnew : env.newId ∉ s.tasks.rows.map Task.id) (request : TaskRequest) :
    SeenAlike member (s.handle env callerId request) (s'.handle env callerId request) := by
  cases request with
  | create key payload => exact h.createTask hc hnew key payload
  | update taskId payload => exact h.updateTask hc taskId payload
  | delete taskId => exact h.deleteTask hc taskId
  | get taskId =>
      obtain ⟨hanswer, hevents, -⟩ := (h.agree hc).getTask taskId
      refine ⟨hanswer, hevents, ?_⟩
      show Seen member (s.getTask callerId taskId).state (s'.getTask callerId taskId).state
      unfold TaskService.getTask
      split <;> split <;> exact h
  | list projectId statusFilter limit cursor =>
      obtain ⟨hanswer, hevents, -⟩ := (h.agree hc).listTasks projectId statusFilter limit cursor
      refine ⟨hanswer, hevents, ?_⟩
      show Seen member (s.listTasks callerId projectId statusFilter limit cursor).state
        (s'.listTasks callerId projectId statusFilter limit cursor).state
      unfold TaskService.listTasks
      split <;> split <;> exact h

/-- A task request from outside that assigns no member. -/
theorem Seen.handle_other (h : Seen member s s') (hother : member callerId = false)
    {request : TaskRequest} (hassigns : ∀ u ∈ request.assigns, member u = false) :
    Seen member (s.handle env callerId request).state s' := by
  have hhandled := handled_handle s env callerId request
  generalize s.handle env callerId request = o at hhandled
  have hnot : ∀ {c : UUID}, member c = true → c ≠ callerId := by
    intro c hc heq
    rw [heq, hother] at hc
    cases hc
  cases hhandled with
  | answered request answer => exact h
  | created key payload hp hid howner hnew =>
      refine { h.insert_other hnew hother hassigns with redis := ?_ }
      intro c hc k
      show s.remembered env callerId key _ (makeKey c k) = _
      rw [remembered_other (hnot hc)]
      exact h.redis c hc k
  | @updated payload t hrow hcreator hchanges =>
      have hcreator' : member t.creatorId = false := by
        rw [hcreator]
        exact hother
      refine h.update_other hrow (id_updated ..) (creator_updated ..) hcreator' ?_
      intro u hu
      rcases assignee_updated payload t env.now with hkept | hset
      · -- a member assigned before would have been assigned by a member
        rw [hkept] at hu
        cases hmember : member u with
        | false => rfl
        | true =>
            rw [h.inside t hrow u hu hmember] at hcreator'
            cases hcreator'
      · refine hassigns u ?_
        show u ∈ payload.assigneeId.join
        rw [hset]
        exact hu
  | @deleted t hrow hcreator =>
      refine h.delete_other hrow ?_
      rw [hcreator]
      exact hother

/-- The schemas leave the assignee. -/
theorem assigns_modelValidate {request accepted : TaskRequest}
    (h : request.modelValidate = .ok accepted) : accepted.assigns = request.assigns := by
  cases request with
  | create key body =>
      change TaskRequest.create key <$> body.modelValidate = .ok accepted at h
      cases hbody : body.modelValidate with
      | error e =>
          rw [hbody] at h
          cases h
      | ok payload =>
          rw [hbody] at h
          cases h
          obtain ⟨rfl, -⟩ := create_modelValidate hbody
          rfl
  | update taskId body =>
      change TaskRequest.update taskId <$> body.modelValidate = .ok accepted at h
      cases hbody : body.modelValidate with
      | error e =>
          rw [hbody] at h
          cases h
      | ok payload =>
          rw [hbody] at h
          cases h
          obtain ⟨rfl, -⟩ := update_modelValidate hbody
          rfl
  | get taskId | delete taskId | list projectId statusFilter limit cursor =>
      cases h
      rfl

/-! ## Steps and runs -/

theorem Seen.createProject (h : Seen member s s') (hc : member callerId = true)
    (hnew : env.newId ∉ s.projects.rows.map Project.id) (payload : ProjectCreate) :
    (s.createProject env callerId payload).1 = (s'.createProject env callerId payload).1
      ∧ Seen member (s.createProject env callerId payload).2
        (s'.createProject env callerId payload).2 := by
  have hnew' : env.newId ∉ s'.projects.rows.map Project.id := by
    rw [h.projects]
    exact fun hmem => hnew (Table.keys_filter_subset _ _ hmem)
  have hid : (payload.toProject callerId env.newId env.now).id = env.newId := rfl
  rw [← hid] at hnew hnew'
  unfold TaskService.createProject
  dsimp only
  rw [dif_neg hnew, dif_neg hnew']
  refine ⟨rfl, h.setProjects ?_⟩
  refine (Table.ext_rows ?_).trans
    (Table.filter_insert (p := fun p => member p.ownerId) hnew hc).symm
  show _ :: s'.projects.rows = _ :: _
  rw [h.projects]

theorem Seen.createProject_other (h : Seen member s s') (hother : member callerId = false)
    (payload : ProjectCreate) : Seen member (s.createProject env callerId payload).2 s' := by
  unfold TaskService.createProject
  dsimp only
  split
  · exact h
  · exact h.setProjects_other (Table.filter_insert_of_not _ hother)

/-- **A member is told what it is told without the others**, and the group goes on seeing the same. -/
theorem Seen.served (h : Seen member s s') (hc : member callerId = true) {request : ServiceRequest}
    (hapart : StaysApart member s (.request env callerId request)) :
    s.served env callerId request = s'.served env callerId request
      ∧ Seen member (s.respond env callerId request).2 (s'.respond env callerId request).2 := by
  obtain ⟨hnew, hnewProject, hrequest⟩ := hapart
  unfold TaskService.served TaskService.respond
  cases request with
  | createProject body =>
      dsimp only
      split
      · exact ⟨rfl, h⟩
      · rename_i payload hvalid
        obtain ⟨hanswer, hstate⟩ := h.createProject hc hnewProject payload
        rw [hanswer]
        exact ⟨rfl, hstate⟩
  | project request =>
      have hown : ∀ projectId, request = .delete projectId →
          ∀ p ∈ s.projects.rows, p.id = projectId → member p.ownerId = true := by
        rintro projectId rfl
        exact hrequest hc
      obtain ⟨hanswer, hprojects⟩ := h.handleProject hc hown
      dsimp only
      rw [hanswer]
      exact ⟨rfl, h.setProjects hprojects⟩
  | task request =>
      dsimp only
      cases hvalid : request.modelValidate with
      | error e => exact ⟨rfl, h⟩
      | ok accepted =>
          obtain ⟨hanswer, hevents, hstate⟩ := h.handle hc hnew accepted
          dsimp only
          rw [hanswer, hevents]
          exact ⟨rfl, hstate⟩

/-- **What an outsider asks for does not show.** -/
theorem Seen.respond_other (h : Seen member s s') (hother : member callerId = false)
    {request : ServiceRequest} (hapart : StaysApart member s (.request env callerId request)) :
    Seen member (s.respond env callerId request).2 s' := by
  obtain ⟨-, -, hrequest⟩ := hapart
  unfold TaskService.respond
  cases request with
  | createProject body =>
      dsimp only
      split
      · exact h
      · exact h.createProject_other hother _
  | project request => exact h.setProjects_other (handleProject_other hother _ request)
  | task request =>
      dsimp only
      split
      · exact h
      · rename_i accepted hvalid
        refine h.handle_other hother ?_
        rw [assigns_modelValidate hvalid]
        exact hrequest hother

theorem Seen.expire (h : Seen member s s') (key : String) :
    Seen member { s with redis := fun k => if k = key then none else s.redis k }
      { s' with redis := fun k => if k = key then none else s'.redis k } := by
  refine h.remember fun c hc k => ?_
  rw [h.redis c hc k]

theorem ofMembers_eq_some {request : ServiceRequest} {e' : ServiceEvent} :
    ofMembers member (.request env callerId request) = some e'
      ↔ member callerId = true ∧ e' = .request env callerId request := by
  rw [ofMembers]
  split
  · rename_i hc
    rw [Option.some.injEq, and_iff_right hc, eq_comm]
  · rename_i hc
    exact iff_of_false (by intro h; cases h) fun h => hc h.1

theorem ofMembers_eq_none {request : ServiceRequest} :
    ofMembers member (.request env callerId request) = none ↔ member callerId = false := by
  rw [ofMembers]
  split
  · rename_i hc
    exact iff_of_false (by intro h; cases h) fun h => by rw [hc] at h; cases h
  · rename_i hc
    exact iff_of_true rfl (Bool.eq_false_of_not_eq_true hc)

/-- A run of all users is seen by the group as the run of its own requests. -/
theorem projects_group (member : UUID → Bool) :
    Schedule.Projects TaskService.advance TaskService.advance (StaysApart member) (ofMembers member)
      (Seen member) where
  visible := by
    intro s s' e e' t h hapart hlabel hs
    cases e with
    | expire key =>
        cases hlabel
        cases hs
        exact ⟨_, rfl, h.expire key⟩
    | request env callerId request =>
        obtain ⟨hc, rfl⟩ := ofMembers_eq_some.mp hlabel
        cases hs
        exact ⟨_, rfl, (h.served hc hapart).2⟩
  hidden := by
    intro s s' e t h hapart hlabel hs
    cases e with
    | expire key => cases hlabel
    | request env callerId request =>
        cases hs
        exact h.respond_other (ofMembers_eq_none.mp hlabel) hapart

theorem seen_start (member : UUID → Bool) : Seen member TaskService.start TaskService.start where
  projects := rfl
  tasks := rfl
  redis := fun _ _ _ => rfl
  inside := by
    intro t ht
    cases ht

/-- The service takes every request. -/
theorem exec_advance (s : TaskService) (es : List ServiceEvent) :
    ∃ t, exec TaskService.advance s es = some t := by
  induction es generalizing s with
  | nil => exact ⟨s, rfl⟩
  | cons e es ih =>
      obtain ⟨s', hs⟩ : ∃ s', s.advance e = some s' := by
        cases e with
        | request env callerId request => exact ⟨_, rfl⟩
        | expire key => exact ⟨_, rfl⟩
      obtain ⟨t, ht⟩ := ih s'
      exact ⟨t, (exec_cons es hs).trans ht⟩

/--
**A group of users has the service to itself.**

In every run in which no request crosses between the group and the others, the members are
answered, and have published for them, what they are in the run without the others'
requests; and where it ends, the group sees what that run ends with.
-/
theorem group_runs_alone (member : UUID → Bool) (es : List ServiceEvent)
    (hapart : Meets TaskService.advance (StaysApart member) TaskService.start es) :
    (trace TaskService.advance TaskService.start es).filterMap (told member)
        = (trace TaskService.advance TaskService.start (es.filterMap (ofMembers member))).filterMap
          (told member)
      ∧ ∃ t t', exec TaskService.advance TaskService.start es = some t
        ∧ exec TaskService.advance TaskService.start (es.filterMap (ofMembers member)) = some t'
        ∧ Seen member t t' := by
  obtain ⟨t, ht⟩ := exec_advance TaskService.start es
  constructor
  · refine (projects_group member).observed ?_ ?_ (seen_start member) hapart ht
    · intro s s' e e' h hstays hlabel
      cases e with
      | expire key =>
          cases hlabel
          rfl
      | request env callerId request =>
          obtain ⟨hc, rfl⟩ := ofMembers_eq_some.mp hlabel
          rw [told, told, (h.served hc hstays).1]
    · intro s e hlabel
      cases e with
      | expire key => cases hlabel
      | request env callerId request =>
          rw [told, ofMembers_eq_none.mp hlabel]
          rfl
  · obtain ⟨t', ht', hseen⟩ := (projects_group member).exec (seen_start member) hapart ht
    exact ⟨t, t', ht, ht', hseen⟩

instance (member : UUID → Bool) (s : TaskService) :
    (e : ServiceEvent) → Decidable (StaysApart member s e)
  | .expire _ => .isTrue trivial
  | .request env callerId (.createProject _) | .request env callerId (.project (.get _))
  | .request env callerId (.project (.list _ _)) => by unfold StaysApart; infer_instance
  | .request env callerId (.project (.delete _)) => by unfold StaysApart; infer_instance
  | .request env callerId (.task _) => by unfold StaysApart; infer_instance

/-- Ann and Bob have a project each, and Bob a task in his. Then Ann lists her tasks. -/
def annAndBob : List ServiceEvent := [
  .request { newId := UUID.ofNat 4, now := noon } ann (.createProject { name := "Launch" }),
  .request { newId := UUID.ofNat 5, now := noon } bob (.createProject { name := "Plans" }),
  .request { newId := UUID.ofNat 6, now := noon } bob
    (.task (.create none { title := "Plan", projectId := UUID.ofNat 5 })),
  .request { newId := UUID.ofNat 7, now := noon } ann (.task (.list none none {} none))]

theorem ann_runs_alone :
    (trace TaskService.advance TaskService.start annAndBob).filterMap (told (· == ann))
      = (trace TaskService.advance TaskService.start (annAndBob.filterMap (ofMembers (· == ann)))).filterMap
        (told (· == ann)) :=
  (group_runs_alone (· == ann) annAndBob (by decide +kernel)).1

end Microservices.Tasks
