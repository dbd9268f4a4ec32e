import Microservices.Tasks.Markup
import Microservices.Tasks.Ownership

/-!
# What a soft deletion hides

`delete_project` sets `is_active` to false, and `list_projects` leaves such a project
out. `get_project` and `_get_owned_project` do not look at the flag: to its owner the
project is still there to be read, and to take new tasks. Nothing else brings it back,
so those two requests are exactly what a run must do without.

`deleted` is a ghost: the ids that `delete_project` has answered 204 for.
-/

namespace Microservices.Tasks

open Schedule

structure DeletionLog where
  service : TaskService
  deleted : List UUID := []

/-- What the answer to a request adds. -/
def deletedBy : ServiceRequest → ServiceAnswer → List UUID
  | .project (.delete projectId), .project .noContent => [projectId]
  | _, _ => []

namespace DeletionLog

def start : DeletionLog := { service := TaskService.start }

def step (w : DeletionLog) (e : ServiceEvent) : Option DeletionLog :=
  (w.service.advance e).map fun s =>
    { service := s
      deleted :=
        match e with
        | .request env callerId request =>
            deletedBy request (w.service.respond env callerId request).1 ++ w.deleted
        | .expire _ => w.deleted }

end DeletionLog

/-- A project read whose answer has the project in it. -/
def ServiceAnswer.Returns (projectId : UUID) : ServiceAnswer → Prop
  | .project (.project body) => body.id = projectId
  | .project (.page page) => ∃ body ∈ page.items, body.id = projectId
  | _ => False

/-- **The deleted projects stay deleted**: the request does not return one, nor create a task in
it. -/
def StaysDeleted (w : DeletionLog) : ServiceEvent → Prop
  | .request env callerId request =>
      ∀ projectId ∈ w.deleted, ¬ (w.service.respond env callerId request).1.Returns projectId
        ∧ ∀ t ∈ (w.service.respond env callerId request).2.tasks.rows, t.projectId = projectId →
            ∃ t₀ ∈ w.service.tasks.rows, t₀.id = t.id ∧ t₀.projectId = projectId
  | .expire _ => True

/-- The owner of a deleted project reads it, or a task of its owner's is inserted in it. -/
def ReachesDeleted (w : DeletionLog) : ServiceEvent → Prop
  | .request _ callerId (.project (.get projectId)) =>
      projectId ∈ w.deleted
        ∧ ∃ p ∈ w.service.projects.rows, p.id = projectId ∧ p.ownerId = callerId
  | .request env callerId (.task (.create key body)) =>
      body.projectId ∈ w.deleted ∧ w.service.Writes env callerId (.create key body)
  | _ => False

/-- The project is there, and its flag is down. -/
def Projects.Inactive (projects : Projects) (projectId : UUID) : Prop :=
  ∃ p ∈ projects.rows, p.id = projectId ∧ p.isActive = false

/-- Deleted projects are inactive. -/
def DeletedInactive (w : DeletionLog) : Prop :=
  ∀ projectId ∈ w.deleted, w.service.projects.Inactive projectId

variable {w w' : DeletionLog} {callerId : UUID}

/-! ## Reading projects -/

section Paging

variable {ρ α : Type} {createdAt : ρ → Timestamp} {id : ρ → UUID} {respond : ρ → α}
  {limit : PageLimit}

theorem items_cutPage (rows : List ρ) :
    ∀ item ∈ (cutPage createdAt id respond limit rows).items, ∃ r ∈ rows, item = respond r := by
  have hall : Keyset.below (rowKey createdAt id) none rows = rows :=
    List.filter_eq_self.mpr fun _ _ => rfl
  have hspec := (cutPage_spec createdAt id respond limit rows none).1
  rw [hall] at hspec
  intro item hitem
  rw [hspec] at hitem
  obtain ⟨r, hr, rfl⟩ := List.mem_map.mp hitem
  have hbelow := Keyset.mem_descending.mp (List.mem_of_mem_take hr)
  rw [hall] at hbelow
  exact ⟨r, hbelow, rfl⟩

/-- A page is cut from the rows it is fetched from. -/
theorem items_fetchPage {cursor : Option String} {rows : List ρ} {page : CursorPage α}
    (h : fetchPage createdAt id respond limit cursor rows = .ok page) :
    ∀ item ∈ page.items, ∃ r ∈ rows, item = respond r := by
  unfold fetchPage at h
  split at h
  · cases h
    exact items_cutPage rows
  · split at h
    · cases h
    · cases h
      intro item hitem
      obtain ⟨r, hr, heq⟩ := items_cutPage _ item hitem
      exact ⟨r, (List.mem_filter.mp hr).1, heq⟩

end Paging

theorem not_returns_list (h : DeletedInactive w) (limit : PageLimit) (cursor : Option String)
    {projectId : UUID} (hp : projectId ∈ w.deleted) :
    ¬ (ServiceAnswer.project
      (handleProject w.service.projects callerId (.list limit cursor)).1).Returns projectId := by
  unfold handleProject
  dsimp only
  cases hpage : listProjects w.service.projects.rows callerId limit cursor with
  | error e => exact id
  | ok page =>
      rintro ⟨body, hbody, hid⟩
      obtain ⟨p, hlisted, rfl⟩ := items_fetchPage hpage body hbody
      obtain ⟨hrow, hactive⟩ := List.mem_filter.mp hlisted
      obtain ⟨q, hq, hqid, hinactive⟩ := h projectId hp
      -- the deleted project is the one under this id, and it is not listed
      cases Table.eq_of_key hrow hq (hid.trans hqid.symm)
      rw [Project.listed, hinactive, Bool.and_false] at hactive
      cases hactive

theorem returns_get_iff {projectId : UUID} (asked : UUID) (projects : Projects) :
    (ServiceAnswer.project (getProject projects callerId asked)).Returns projectId
      ↔ asked = projectId ∧ ∃ p ∈ projects.rows, p.id = asked ∧ p.ownerId = callerId := by
  unfold getProject
  cases hfind : projects.find? asked with
  | none =>
      refine iff_of_false id ?_
      rintro ⟨-, p, hp, hid, -⟩
      rw [Table.find?_eq_some_iff.mpr ⟨hp, hid⟩] at hfind
      cases hfind
  | some p =>
      obtain ⟨hp, hid⟩ := Table.find?_eq_some_iff.mp hfind
      dsimp only
      by_cases howner : p.ownerId = callerId
      · rw [if_neg (not_not_intro howner)]
        constructor
        · intro hreturns
          exact ⟨hid.symm.trans hreturns, p, hp, hid, howner⟩
        · rintro ⟨rfl, -⟩
          exact hid
      · rw [if_pos howner]
        refine iff_of_false id ?_
        rintro ⟨-, q, hq, hqid, hqowner⟩
        rw [Table.eq_of_key hq hp (hqid.trans hid.symm)] at hqowner
        exact howner hqowner

/-! ## What a request comes to -/

/-- The request creates no task in the project. -/
def TaskService.NoNewTask (s s' : TaskService) (projectId : UUID) : Prop :=
  ∀ t ∈ s'.tasks.rows, t.projectId = projectId →
    ∃ t₀ ∈ s.tasks.rows, t₀.id = t.id ∧ t₀.projectId = projectId

theorem noNewTask_of_rows {s s' : TaskService} (h : s'.tasks.rows = s.tasks.rows)
    (projectId : UUID) : s.NoNewTask s' projectId := by
  intro t ht hproject
  rw [h] at ht
  exact ⟨t, ht, rfl, hproject⟩

/-- Only a creation creates a task. -/
theorem noNewTask_handle {request : TaskRequest}
    (hother : ∀ key payload, request ≠ .create key payload) (s : TaskService) (env : Surroundings)
    (projectId : UUID) : s.NoNewTask (s.handle env callerId request).state projectId := by
  intro t ht hproject
  obtain ⟨t₀, ht₀, hid, -, hsame⟩ := comesFrom_handle hother s env callerId t ht
  exact ⟨t₀, ht₀, hid, hsame.symm.trans hproject⟩

theorem modelValidate_other {request accepted : TaskRequest}
    (hother : ∀ key body, request ≠ .create key body) (h : request.modelValidate = .ok accepted) :
    ∀ key payload, accepted ≠ .create key payload := by
  intro key payload heq
  subst heq
  cases request with
  | create key body => exact hother key body rfl
  | update taskId body =>
      rw [TaskRequest.modelValidate] at h
      cases hbody : body.modelValidate with
      | error e =>
          rw [hbody] at h
          cases h
      | ok payload =>
          rw [hbody] at h
          cases h
  | list projectId statusFilter limit cursor => cases h
  | get taskId => cases h
  | delete taskId => cases h

theorem noNewTask_other {request : TaskRequest} (hother : ∀ key body, request ≠ .create key body)
    (s : TaskService) (env : Surroundings) (projectId : UUID) :
    s.NoNewTask (s.respond env callerId (.task request)).2 projectId := by
  unfold TaskService.respond
  dsimp only
  cases hvalid : request.modelValidate with
  | error e => exact noNewTask_of_rows rfl projectId
  | ok accepted => exact noNewTask_handle (modelValidate_other hother hvalid) s env projectId

/-- A creation creates one in its own project, if it is written. -/
theorem noNewTask_create_iff (s : TaskService) (env : Surroundings) (key : Option String)
    (body : TaskCreate) (projectId : UUID) :
    s.NoNewTask (s.respond env callerId (.task (.create key body))).2 projectId
      ↔ ¬ (body.projectId = projectId ∧ s.Writes env callerId (.create key body)) := by
  unfold TaskService.respond TaskRequest.modelValidate
  dsimp only
  cases hvalid : body.modelValidate with
  | error e =>
      refine iff_of_true (noNewTask_of_rows rfl projectId) ?_
      rintro ⟨-, hok, -⟩
      rw [hvalid] at hok
      cases hok
  | ok payload =>
      have hsame : payload.projectId = body.projectId := by
        rw [(create_modelValidate hvalid).1]
        rfl
      show s.NoNewTask (s.createTask env callerId key payload).state projectId ↔ _
      by_cases hinserts : s.Inserts env callerId key body.projectId
      · have hrows := createTask_rows_of_inserts payload (by rw [hsame]; exact hinserts)
        constructor
        · rintro hno ⟨hproject, -⟩
          obtain ⟨t₀, ht₀, hid, -⟩ := hno _ (by rw [hrows]; exact List.mem_cons_self)
            (hsame.trans hproject)
          exact hinserts.2.2 (List.mem_map.mpr ⟨t₀, ht₀, hid⟩)
        · intro hnot t ht hproject
          rw [hrows] at ht
          rcases List.mem_cons.mp ht with rfl | hold
          · refine absurd ⟨hsame.symm.trans hproject, ?_, hinserts⟩ hnot
            rw [hvalid]
            rfl
          · exact ⟨t, hold, rfl, hproject⟩
      · refine iff_of_true (noNewTask_of_rows ?_ projectId) fun h => hinserts h.2.2
        exact createTask_rows_of_not_inserts payload (by rw [hsame]; exact hinserts)

theorem not_returns_delete (projects : Projects) (asked projectId : UUID) :
    ¬ (ServiceAnswer.project (deleteProject projects callerId asked).1).Returns projectId := by
  unfold deleteProject
  split
  · exact id
  · split <;> exact id

theorem not_returns_task (s : TaskService) (env : Surroundings) (request : TaskRequest)
    (projectId : UUID) : ¬ (s.respond env callerId (.task request)).1.Returns projectId := by
  unfold TaskService.respond
  dsimp only
  split <;> exact id

theorem respond_createProject (s : TaskService) (env : Surroundings) (body : ProjectCreate)
    (projectId : UUID) :
    ¬ (s.respond env callerId (.createProject body)).1.Returns projectId
      ∧ (s.respond env callerId (.createProject body)).2.tasks.rows = s.tasks.rows := by
  unfold TaskService.respond TaskService.createProject
  dsimp only
  split
  · exact ⟨id, rfl⟩
  · split <;> exact ⟨id, rfl⟩

/-- **A request leaves the deleted projects deleted just if it does not reach one.** -/
theorem staysDeleted_iff (h : DeletedInactive w) (e : ServiceEvent) :
    StaysDeleted w e ↔ ¬ ReachesDeleted w e := by
  have hkept : ∀ projectId : UUID, w.service.NoNewTask w.service projectId := noNewTask_of_rows rfl
  cases e with
  | expire key => exact iff_of_true trivial id
  | request env callerId request =>
      cases request with
      | createProject body =>
          refine iff_of_true (fun projectId _ => ?_) id
          obtain ⟨hno, hrows⟩ := respond_createProject w.service env body projectId
          exact ⟨hno, noNewTask_of_rows hrows projectId⟩
      | project request =>
          cases request with
          | list limit cursor =>
              refine iff_of_true (fun projectId hp => ⟨not_returns_list h limit cursor hp, ?_⟩) id
              exact hkept projectId
          | get asked =>
              constructor
              · rintro hstays ⟨hdeleted, howned⟩
                exact (hstays asked hdeleted).1 ((returns_get_iff asked _).mpr ⟨rfl, howned⟩)
              · intro hnot projectId hp
                refine ⟨fun hreturns => hnot ?_, hkept projectId⟩
                obtain ⟨rfl, howned⟩ := (returns_get_iff asked _).mp hreturns
                exact ⟨hp, howned⟩
          | delete asked =>
              refine iff_of_true (fun projectId _ => ⟨?_, hkept projectId⟩) id
              exact not_returns_delete _ asked projectId
      | task request =>
          have hanswer : ∀ projectId,
              ¬ (w.service.respond env callerId (.task request)).1.Returns projectId :=
            not_returns_task w.service env request
          by_cases hcreate : ∃ key body, request = .create key body
          · obtain ⟨key, body, rfl⟩ := hcreate
            constructor
            · rintro hstays ⟨hdeleted, hwrites⟩
              exact (noNewTask_create_iff w.service env key body _).mp
                (hstays _ hdeleted).2 ⟨rfl, hwrites⟩
            · intro hnot projectId hp
              refine ⟨hanswer projectId, (noNewTask_create_iff _ env key body _).mpr ?_⟩
              rintro ⟨rfl, hwrites⟩
              exact hnot ⟨hp, hwrites⟩
          · have hother : ∀ key body, request ≠ .create key body :=
              fun key body heq => hcreate ⟨key, body, heq⟩
            refine iff_of_true (fun projectId _ => ⟨hanswer projectId, ?_⟩) ?_
            · exact noNewTask_other hother w.service env projectId
            · cases request with
              | create key body => exact absurd rfl (hother key body)
              | list => exact id
              | get => exact id
              | update => exact id
              | delete => exact id

/-! ## Every run -/

/-- Nothing makes an inactive project active again. -/
theorem inactive_handleProject {projects : Projects} {projectId : UUID}
    (h : projects.Inactive projectId) (request : ProjectRequest) :
    (handleProject projects callerId request).2.Inactive projectId := by
  rcases handleProject_cases projects callerId request with hsame | ⟨found, _, hupdate⟩
  · rw [hsame]
    exact h
  · rw [hupdate]
    obtain ⟨p, hp, hid, hinactive⟩ := h
    by_cases hfound : p.id = found.id
    · exact ⟨_, Table.mem_update.mpr (Or.inr ⟨rfl, p, hp, hfound⟩), hfound.symm.trans hid, rfl⟩
    · exact ⟨p, Table.mem_update.mpr (Or.inl ⟨hp, hfound⟩), hid, hinactive⟩

/-- What `delete_project` answers 204 for is inactive then. -/
theorem inactive_of_deletedBy {projects : Projects} {projectId : UUID} {request : ProjectRequest}
    (h : projectId ∈ deletedBy (.project request)
      (.project (handleProject projects callerId request).1)) :
    (handleProject projects callerId request).2.Inactive projectId := by
  cases request with
  | list limit cursor => cases h
  | get asked => cases h
  | delete asked =>
      show (deleteProject projects callerId asked).2.Inactive projectId
      have h : projectId ∈ deletedBy (.project (.delete asked))
        (.project (deleteProject projects callerId asked).1) := h
      unfold deleteProject at h ⊢
      cases hfind : projects.find? asked with
      | none =>
          rw [hfind] at h
          cases h
      | some p =>
          rw [hfind] at h
          obtain ⟨hp, hid⟩ := Table.find?_eq_some_iff.mp hfind
          dsimp only at h ⊢
          split
          · rename_i howner
            rw [if_pos howner] at h
            cases h
          · rename_i howner
            rw [if_neg howner] at h
            cases List.mem_singleton.mp h
            exact ⟨_, Table.mem_update.mpr (Or.inr ⟨rfl, p, hp, rfl⟩), hid, rfl⟩

theorem respond_task_projects (s : TaskService) (env : Surroundings) (request : TaskRequest) :
    (s.respond env callerId (.task request)).2.projects = s.projects := by
  unfold TaskService.respond
  dsimp only
  split
  · rfl
  · exact handle_projects s env callerId _

theorem respond_createProject_inactive {s : TaskService} {projectId : UUID}
    (h : s.projects.Inactive projectId) (env : Surroundings) (body : ProjectCreate) :
    (s.respond env callerId (.createProject body)).2.projects.Inactive projectId := by
  obtain ⟨p, hp, hid, hinactive⟩ := h
  unfold TaskService.respond TaskService.createProject
  dsimp only
  split
  · exact ⟨p, hp, hid, hinactive⟩
  · split
    · exact ⟨p, hp, hid, hinactive⟩
    · exact ⟨p, List.mem_cons_of_mem _ hp, hid, hinactive⟩

theorem deletedInactive_step {e : ServiceEvent} (h : DeletedInactive w) (hs : w.step e = some w') :
    DeletedInactive w' := by
  obtain ⟨s, hadvance, rfl⟩ := Option.map_eq_some_iff.mp hs
  cases e with
  | expire key =>
      cases hadvance
      exact h
  | request env callerId request =>
      cases hadvance
      intro projectId hp
      show (w.service.respond env callerId request).2.projects.Inactive projectId
      rcases List.mem_append.mp hp with hnow | hbefore
      · cases request with
        | createProject body => cases hnow
        | project request => exact inactive_of_deletedBy hnow
        | task request => cases hnow
      · cases request with
        | createProject body => exact respond_createProject_inactive (h projectId hbefore) env body
        | project request => exact inactive_handleProject (h projectId hbefore) request
        | task request =>
            rw [respond_task_projects]
            exact h projectId hbefore

/-- **Deleted projects stay deleted in just the runs where no owner reads one or has a task inserted
in it.** -/
theorem soft_deletion_iff (es : List ServiceEvent) :
    Meets DeletionLog.step StaysDeleted DeletionLog.start es
      ↔ Meets DeletionLog.step (fun w e => ¬ ReachesDeleted w e) DeletionLog.start es := by
  refine meets_congr (fun _ _ _ h hs => deletedInactive_step h hs)
    (fun w e h => staysDeleted_iff h e) ?_
  intro projectId hp
  cases hp

/-- Ann makes a project and deletes it, -/
def annDeletes : List ServiceEvent :=
  [ .request { newId := UUID.ofNat 2, now := noon } ann (.createProject { name := "Launch" }),
    .request { newId := UUID.ofNat 5, now := noon } ann (.project (.delete (UUID.ofNat 2))) ]

/-- and creates a task in it. -/
def createsLaunchTask : ServiceEvent :=
  .request { newId := launchTaskId, now := noon } ann (.task (.create none launchTask))

/-- **The deleted project takes a task, and is read.** -/
theorem deleted_project_takes_task : ∃ w,
    exec DeletionLog.step DeletionLog.start annDeletes = some w
      ∧ UUID.ofNat 2 ∈ w.deleted
      ∧ ¬ StaysDeleted w createsLaunchTask
      ∧ ¬ StaysDeleted w
        (.request { newId := launchTaskId, now := noon } ann (.project (.get (UUID.ofNat 2))))
      ∧ ¬ Meets DeletionLog.step StaysDeleted DeletionLog.start (annDeletes ++ [createsLaunchTask]) := by
  have hinactive : ∀ w, exec DeletionLog.step DeletionLog.start annDeletes = some w →
      DeletedInactive w := fun w hw =>
    exec_invariant (C := fun _ _ => True) (fun _ _ _ h _ hs => deletedInactive_step h hs)
      (by intro projectId hp; cases hp) (meets_true _ _) hw
  have htakes : ∀ w, exec DeletionLog.step DeletionLog.start annDeletes = some w →
      ¬ StaysDeleted w createsLaunchTask := by
    intro w hw
    rw [staysDeleted_iff (hinactive w hw), not_not]
    cases hw
    exact ⟨by decide, by decide +kernel⟩
  refine ⟨_, rfl, by decide, htakes _ rfl, ?_, fun hmeets => ?_⟩
  · rw [staysDeleted_iff (hinactive _ rfl), not_not]
    exact ⟨by decide, _, List.mem_singleton_self _, rfl, rfl⟩
  · exact htakes _ rfl (hmeets.last rfl rfl)

end Microservices.Tasks
