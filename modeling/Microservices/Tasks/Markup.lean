import Microservices.Lib.Schedule
import Microservices.Tasks.Isolation
import Microservices.Tasks.Schemas

/-!
# Markup in stored texts

The schemas take whole tags out of titles and descriptions. A bracket that belongs
to no tag stays: a `<` with no `>` after it, and a `>` with no open `<` before it.
So it is up to the requests whether the stored texts are free of brackets:
`no_markup_iff` says of each run exactly when they are.
-/

namespace Microservices.Tasks

open Schedule

inductive WriteEvent where
  | request (env : Surroundings) (callerId : UUID) (request : TaskRequest)
  /-- Project requests change the `projects` table. -/
  | projectsChange (projects : Projects)

namespace TaskService

/-- The state after a request; a 422 leaves it as it is. -/
def receive (s : TaskService) (env : Surroundings) (callerId : UUID) (request : TaskRequest) :
    TaskService :=
  match request.modelValidate with
  | .error _ => s
  | .ok accepted => (s.handle env callerId accepted).state

def step (s : TaskService) : WriteEvent → Option TaskService
  | .request env callerId request => some (s.receive env callerId request)
  | .projectsChange projects => some { s with projects := projects }

end TaskService

/-- Neither bracket occurs. -/
def Plain (text : String) : Prop := ∀ c ∈ text.toList, c ≠ '<' ∧ c ≠ '>'

structure Task.Plain (t : Task) : Prop where
  title : Tasks.Plain t.title
  description : ∀ d ∈ t.description, Tasks.Plain d

/-- **No markup is stored.** -/
def NoMarkup (s : TaskService) : Prop := ∀ t ∈ s.tasks.rows, t.Plain

/-- Every bracket of the text belongs to a tag. -/
def Tagged (text : String) : Prop := Spans.Closed '<' '>' text.toList

/-- The titles and descriptions of a request. -/
def TaskRequest.texts : TaskRequest → List String
  | .create _ body => body.title :: body.description.toList
  | .update _ body => body.title.join.toList ++ body.description.join.toList
  | _ => []

/-- An explicit null in a NOT NULL column. -/
def TaskUpdate.setsNull (u : TaskUpdate) : Bool :=
  u.title = some none || u.status = some none || u.priority = some none

/-- A creation gets to its `INSERT`: it is not replayed, the project is in the table and the caller
owns it, and the id is new. -/
def TaskService.Inserts (s : TaskService) (env : Surroundings) (callerId : UUID)
    (idempotencyKey : Option String) (projectId : UUID) : Prop :=
  (idempotencyKey.filter (· ≠ "")).bind (getCachedResponse env.redisReads s.redis callerId) = none
    ∧ (∃ p ∈ s.projects.rows, p.id = projectId ∧ p.ownerId = callerId)
    ∧ env.newId ∉ s.tasks.rows.map Task.id

/-- The request writes its texts to the table. -/
def TaskService.Writes (s : TaskService) (env : Surroundings) (callerId : UUID) :
    TaskRequest → Prop
  | .create key body => body.modelValidate.isOk ∧ s.Inserts env callerId key body.projectId
  | .update taskId body =>
      body.modelValidate.isOk ∧ (∃ t ∈ s.tasks.rows, t.id = taskId ∧ t.creatorId = callerId)
        ∧ body.setsNull = false
  | _ => False

/-- What the request writes, if it writes, has its brackets in tags only. -/
def TaskService.WritesTagged (s : TaskService) : WriteEvent → Prop
  | .request env callerId request =>
      s.Writes env callerId request → ∀ text ∈ request.texts, Tagged text
  | .projectsChange _ => True

instance (text : String) : Decidable (Tagged text) :=
  decidable_of_iff _ (Spans.closedFrom_iff_closed (by decide : '<' ≠ '>'))

instance (s : TaskService) (env : Surroundings) (callerId : UUID) (key : Option String)
    (projectId : UUID) : Decidable (s.Inserts env callerId key projectId) :=
  inferInstanceAs (Decidable (_ ∧ _ ∧ _))

instance (s : TaskService) (env : Surroundings) (callerId : UUID) :
    (r : TaskRequest) → Decidable (s.Writes env callerId r)
  | .create _ _ | .update _ _ => inferInstanceAs (Decidable (_ ∧ _))
  | .list .. | .get _ | .delete _ => inferInstanceAs (Decidable False)

instance (s : TaskService) : (e : WriteEvent) → Decidable (s.WritesTagged e)
  | .request env callerId request =>
      inferInstanceAs (Decidable (s.Writes env callerId request → ∀ text ∈ request.texts, Tagged text))
  | .projectsChange _ => inferInstanceAs (Decidable True)

/-! ## Sanitised texts -/

theorem plain_iff {text : String} : Plain text ↔ '<' ∉ text.toList ∧ '>' ∉ text.toList := by
  constructor
  · intro h
    exact ⟨fun hc => (h _ hc).1 rfl, fun hc => (h _ hc).2 rfl⟩
  · rintro ⟨hopen, hclose⟩ c hc
    exact ⟨fun h => hopen (h ▸ hc), fun h => hclose (h ▸ hc)⟩

/-- A sanitised text is free of brackets exactly if they all belonged to tags. -/
theorem plain_stripHtml_iff (text : String) : Plain (stripHtml text) ↔ Tagged text := by
  have hoc : '<' ≠ '>' := by decide
  rw [plain_iff, stripHtml, String.toList_ofList, Trim.mem_trim_of_not (by decide),
    Trim.mem_trim_of_not (by decide), Tagged, ← Spans.erase_free_iff hoc]
  constructor
  · rintro ⟨hopen, hclose⟩ c hc
    exact ⟨fun h => hopen (h ▸ hc), fun h => hclose (h ▸ hc)⟩
  · intro h
    exact ⟨fun hc => (h _ hc).1 rfl, fun hc => (h _ hc).2 rfl⟩

/-! ## What a request writes -/

variable {s : TaskService} {env : Surroundings} {callerId : UUID}

theorem createTask_rows_of_inserts {key : Option String} (payload : TaskCreate)
    (h : s.Inserts env callerId key payload.projectId) :
    (s.createTask env callerId key payload).state.tasks.rows
      = payload.toTask callerId env.newId env.now :: s.tasks.rows := by
  obtain ⟨hmiss, howned, hnew⟩ := h
  rw [← getOwnedProject_isOk_iff] at howned
  have hid : (payload.toTask callerId env.newId env.now).id ∉ s.tasks.rows.map Task.id := hnew
  unfold TaskService.createTask
  dsimp only
  rw [hmiss]
  unfold TaskService.insertTask
  cases hproject : getOwnedProject s.projects.rows payload.projectId callerId with
  | error e =>
      rw [hproject] at howned
      cases howned
  | ok p =>
      dsimp only
      rw [dif_neg hid]
      rfl

theorem createTask_rows_of_not_inserts {key : Option String} (payload : TaskCreate)
    (h : ¬ s.Inserts env callerId key payload.projectId) :
    (s.createTask env callerId key payload).state.tasks.rows = s.tasks.rows := by
  unfold TaskService.createTask
  dsimp only
  split
  · rfl
  · rename_i hmiss
    unfold TaskService.insertTask
    split
    · rfl
    · rename_i p hproject
      -- the one thing left that can stop it is its id
      have hid : (payload.toTask callerId env.newId env.now).id ∈ s.tasks.rows.map Task.id := by
        by_contra hnew
        exact h ⟨hmiss, getOwnedProject_isOk_iff.mp (by rw [hproject]; rfl), hnew⟩
      dsimp only
      rw [dif_pos hid]
      rfl

theorem setRequired_getD {α : Type} [DecidableEq α] {loaded : α} {assigned : Option (Option α)}
    {sent : Option α} (h : setRequired loaded assigned = some sent) :
    sent.getD loaded = assigned.join.getD loaded := by
  match assigned with
  | none =>
      cases h
      rfl
  | some none => cases h
  | some (some v) =>
      rw [setRequired] at h
      cases h
      by_cases hv : v = loaded <;> simp [hv]

theorem setNullable_getD {α : Type} [DecidableEq α] (loaded : Option α)
    (assigned : Option (Option α)) :
    (setNullable loaded assigned).getD loaded = assigned.getD loaded := by
  unfold setNullable
  cases assigned with
  | none => rfl
  | some v => by_cases hv : v = loaded <;> simp [Option.filter, hv]

theorem setRequired_eq_none_iff {α : Type} [DecidableEq α] (loaded : α)
    {assigned : Option (Option α)} : setRequired loaded assigned = none ↔ assigned = some none := by
  match assigned with
  | none => simp [setRequired]
  | some none => simp [setRequired]
  | some (some v) => simp [setRequired]

/-- The row that an `UPDATE` leaves of the loaded one. -/
theorem changes_getD {u : TaskUpdate} {t : Task} {c : ColumnUpdate} (h : u.changes t = some c) :
    c.title.getD t.title = u.title.join.getD t.title
      ∧ c.description.getD t.description = u.description.getD t.description := by
  unfold TaskUpdate.changes at h
  split at h
  · rename_i htitle hstatus hpriority
    cases h
    exact ⟨setRequired_getD htitle, setNullable_getD _ _⟩
  · cases h

theorem changes_eq_none_iff {u : TaskUpdate} {t : Task} :
    u.changes t = none ↔ u.setsNull = true := by
  have hnull : u.setsNull = true
      ↔ u.title = some none ∨ u.status = some none ∨ u.priority = some none := by
    simp [TaskUpdate.setsNull, or_assoc]
  rw [hnull, ← setRequired_eq_none_iff t.title,
    ← setRequired_eq_none_iff t.status,
    ← setRequired_eq_none_iff t.priority]
  unfold TaskUpdate.changes
  split
  · rename_i htitle hstatus hpriority
    simp [htitle, hstatus, hpriority]
  · rename_i hnot
    refine iff_of_true rfl ?_
    by_contra hall
    simp only [not_or, ← Option.isSome_iff_ne_none, Option.isSome_iff_exists] at hall
    obtain ⟨⟨a, ha⟩, ⟨b, hb⟩, c, hc⟩ := hall
    exact hnot a b c ha hb hc

theorem isEmpty_fields {c : ColumnUpdate} (h : c.isEmpty = true) :
    c.title = none ∧ c.description = none := by
  rw [ColumnUpdate.isEmpty, beq_iff_eq] at h
  rw [h]
  exact ⟨rfl, rfl⟩

/-- An update by the creator that sets no NOT NULL column to null leaves in the place of the row one
with the texts that are set. -/
theorem updateTask_tasks {taskId : UUID} {payload : TaskUpdate} {t : Task}
    (hauth : getAuthorizedTask (s.tasks.find? taskId) callerId true = .ok t)
    (hnull : payload.setsNull = false) :
    ∃ task, (s.updateTask env callerId taskId payload).state.tasks = s.tasks.update task
      ∧ task.id = t.id ∧ task.title = payload.title.join.getD t.title
      ∧ task.description = payload.description.getD t.description := by
  unfold TaskService.updateTask
  rw [hauth]
  cases hchanges : payload.changes t with
  | none =>
      rw [changes_eq_none_iff.mp hchanges] at hnull
      cases hnull
  | some c =>
      obtain ⟨htitle, hdescription⟩ := changes_getD hchanges
      dsimp only
      rw [hchanges]
      refine ⟨_, rfl, ?_, ?_, ?_⟩
      · split <;> rfl
      · split
        · rename_i hempty
          rw [← htitle, (isEmpty_fields hempty).1]
          rfl
        · exact htitle
      · split
        · rename_i hempty
          rw [← hdescription, (isEmpty_fields hempty).2]
          rfl
        · exact hdescription

/-- Any other update leaves the table as it is. -/
theorem updateTask_tasks_of_not {taskId : UUID} {payload : TaskUpdate}
    (h : ¬ ((getAuthorizedTask (s.tasks.find? taskId) callerId true).isOk
      ∧ payload.setsNull = false)) :
    (s.updateTask env callerId taskId payload).state.tasks = s.tasks := by
  unfold TaskService.updateTask
  cases hauth : getAuthorizedTask (s.tasks.find? taskId) callerId true with
  | error e => rfl
  | ok t =>
      have hnull : payload.setsNull = true := by
        by_contra hnull
        exact h ⟨by rw [hauth]; rfl, Bool.eq_false_of_not_eq_true hnull⟩
      dsimp only
      rw [changes_eq_none_iff.mpr hnull]
      rfl

/-! ## One request -/

/-- A created task is free of brackets exactly if those of the request are in tags. -/
theorem plain_toTask_iff (body : TaskCreate) (key : Option String) (id : UUID) (now : Timestamp) :
    (body.stripped.toTask callerId id now).Plain ↔
      ∀ text ∈ (TaskRequest.create key body).texts, Tagged text := by
  have hplain : (body.stripped.toTask callerId id now).Plain ↔
      Plain (stripHtml body.title) ∧ ∀ d ∈ body.description.map stripHtml, Plain d :=
    ⟨fun h => ⟨h.title, h.description⟩, fun h => ⟨h.1, h.2⟩⟩
  rw [hplain, plain_stripHtml_iff]
  simp [TaskRequest.texts, plain_stripHtml_iff]

/-- A row free of brackets stays so exactly if the brackets it is given are in tags. -/
theorem plain_updated_iff {t task : Task} (body : TaskUpdate) (taskId : UUID) (h : t.Plain)
    (htitle : task.title = body.stripped.title.join.getD t.title)
    (hdescription : task.description = body.stripped.description.getD t.description) :
    task.Plain ↔ ∀ text ∈ (TaskRequest.update taskId body).texts, Tagged text := by
  have hplain : task.Plain ↔ Plain task.title ∧ ∀ d ∈ task.description, Plain d :=
    ⟨fun h => ⟨h.title, h.description⟩, fun h => ⟨h.1, h.2⟩⟩
  have htitles : Plain task.title ↔ ∀ text ∈ body.title.join.toList, Tagged text := by
    rw [htitle, TaskUpdate.stripped]
    match body.title with
    | none => simpa using h.title
    | some none => simpa using h.title
    | some (some v) => simp [plain_stripHtml_iff]
  have hdescriptions : (∀ d ∈ task.description, Plain d) ↔
      ∀ text ∈ body.description.join.toList, Tagged text := by
    rw [hdescription, TaskUpdate.stripped]
    match body.description with
    | none => simpa using h.description
    | some none => simp
    | some (some v) => simp [plain_stripHtml_iff]
  rw [hplain, htitles, hdescriptions]
  simp only [TaskRequest.texts, List.mem_append]
  constructor
  · rintro ⟨h1, h2⟩ text (htext | htext)
    · exact h1 text htext
    · exact h2 text htext
  · intro h
    exact ⟨fun text ht => h text (Or.inl ht), fun text ht => h text (Or.inr ht)⟩

theorem setsNull_stripped (body : TaskUpdate) : body.stripped.setsNull = body.setsNull := by
  unfold TaskUpdate.setsNull TaskUpdate.stripped
  match body.title with
  | none => rfl
  | some none => rfl
  | some (some v) => simp

/-- What a request leaves of the table: if it writes, one row more or one in the place of another. -/
inductive RowEffect (s : TaskService) (env : Surroundings) (callerId : UUID) :
    TaskRequest → TaskService → Prop where
  | none {request : TaskRequest} {s' : TaskService} (hno : ¬ s.Writes env callerId request)
      (hrows : ∀ t ∈ s'.tasks.rows, t ∈ s.tasks.rows) : RowEffect s env callerId request s'
  | create {key : Option String} {body : TaskCreate} {s' : TaskService}
      (hwrites : s.Writes env callerId (.create key body))
      (hvalid : body.modelValidate = .ok body.stripped)
      (hrows : s'.tasks.rows
        = body.stripped.toTask callerId env.newId env.now :: s.tasks.rows) :
      RowEffect s env callerId (.create key body) s'
  | update {taskId : UUID} {body : TaskUpdate} {t task : Task} {s' : TaskService}
      (hwrites : s.Writes env callerId (.update taskId body))
      (hvalid : body.modelValidate = .ok body.stripped) (hrow : t ∈ s.tasks.rows)
      (htasks : s'.tasks = s.tasks.update task) (hid : task.id = t.id)
      (htitle : task.title = body.stripped.title.join.getD t.title)
      (hdescription : task.description = body.stripped.description.getD t.description) :
      RowEffect s env callerId (.update taskId body) s'

theorem receive_effect (s : TaskService) (env : Surroundings) (callerId : UUID)
    (request : TaskRequest) :
    RowEffect s env callerId request (s.receive env callerId request) := by
  unfold TaskService.receive TaskRequest.modelValidate
  cases request with
  | create key body =>
      dsimp only
      cases hvalid : body.modelValidate with
      | error e => exact .none (fun h => by cases hvalid ▸ h.1) fun _ ht => ht
      | ok payload =>
          obtain ⟨rfl, -⟩ := create_modelValidate hvalid
          by_cases hinserts : s.Inserts env callerId key body.projectId
          · exact .create ⟨by rw [hvalid]; rfl, hinserts⟩ hvalid
              (createTask_rows_of_inserts body.stripped hinserts)
          · refine .none (fun h => hinserts h.2) fun t ht => ?_
            exact createTask_rows_of_not_inserts body.stripped hinserts ▸ ht
  | update taskId body =>
      dsimp only
      cases hvalid : body.modelValidate with
      | error e => exact .none (fun h => by cases hvalid ▸ h.1) fun _ ht => ht
      | ok payload =>
          obtain ⟨rfl, -⟩ := update_modelValidate hvalid
          by_cases hwrites : (getAuthorizedTask (s.tasks.find? taskId) callerId true).isOk
              ∧ body.setsNull = false
          · cases hauth : getAuthorizedTask (s.tasks.find? taskId) callerId true with
            | error e =>
                rw [hauth] at hwrites
                cases hwrites.1
            | ok t =>
                have hrow := (Table.find?_eq_some_iff.mp (getAuthorizedTask_ok hauth).1).1
                obtain ⟨task, htasks, hid, htitle, hdescription⟩ :=
                  updateTask_tasks hauth ((setsNull_stripped body).trans hwrites.2)
                have hcreator := getAuthorizedTask_isOk_iff.mp hwrites.1
                exact .update ⟨by rw [hvalid]; rfl, hcreator, hwrites.2⟩ hvalid hrow htasks hid
                  htitle hdescription
          · refine .none (fun h => hwrites ?_) fun t ht => ?_
            · exact ⟨getAuthorizedTask_isOk_iff.mpr h.2.1, h.2.2⟩
            rw [← setsNull_stripped] at hwrites
            exact updateTask_tasks_of_not hwrites ▸ ht
  | list projectId statusFilter limit cursor =>
      refine .none (fun h => h) ?_
      dsimp only [TaskService.handle, TaskService.listTasks]
      split <;> exact fun _ ht => ht
  | get taskId =>
      refine .none (fun h => h) ?_
      dsimp only [TaskService.handle, TaskService.getTask]
      split <;> exact fun _ ht => ht
  | delete taskId =>
      refine .none (fun h => h) ?_
      dsimp only [TaskService.handle, TaskService.deleteTask]
      split
      · exact fun _ ht => ht
      · exact fun _ ht => (Table.mem_delete.mp ht).1

/-- A request keeps the table free of brackets exactly if those it writes are in tags. -/
theorem noMarkup_step_iff {s' : TaskService} {e : WriteEvent} (h : NoMarkup s)
    (hstep : s.step e = some s') : NoMarkup s' ↔ s.WritesTagged e := by
  cases e with
  | projectsChange projects =>
      cases hstep
      exact iff_of_true h trivial
  | request env callerId request =>
      cases hstep
      cases receive_effect s env callerId request with
      | none hno hrows =>
          exact iff_of_true (fun t ht => h t (hrows t ht)) fun hwrites => absurd hwrites hno
      | @create key body _ hwrites _ hrows =>
          rw [TaskService.WritesTagged, forall_prop_of_true hwrites, NoMarkup, hrows,
            List.forall_mem_cons, plain_toTask_iff body key]
          exact and_iff_left h
      | @update taskId body t task _ hwrites _ hrow htasks hid htitle hdescription =>
          rw [TaskService.WritesTagged, forall_prop_of_true hwrites,
            ← plain_updated_iff body taskId (h t hrow) htitle hdescription, NoMarkup, htasks]
          constructor
          · intro hall
            exact hall task (Table.mem_update.mpr (Or.inr ⟨rfl, t, hrow, hid.symm⟩))
          · intro htask x hx
            rcases Table.mem_update.mp hx with ⟨hx, _⟩ | ⟨rfl, _⟩
            · exact h x hx
            · exact htask

/--
**When no markup is stored.**

From an empty table, over every run of task requests by any callers, with whatever
titles and descriptions, and of changes to the projects: no title or description
stored on the way has a `<` or a `>` in it if and only if every request that gets to
the table has, in its title and its description, a `>` after each `<`, and before
each `>` a `<` that no other `>` has closed.
-/
theorem no_markup_iff (projects : Projects) (es : List WriteEvent) :
    Always TaskService.step NoMarkup ⟨projects, Table.empty, fun _ => none⟩ es ↔
      Meets TaskService.step TaskService.WritesTagged ⟨projects, Table.empty, fun _ => none⟩ es :=
  always_iff_meets (I := NoMarkup) (fun _ h => h)
    (fun _ _ _ hs htagged hstep => (noMarkup_step_iff hs hstep).mpr htagged)
    (fun _ _ _ hs hstep hs' => (noMarkup_step_iff hs hstep).mp hs')
    (by intro t ht; cases ht)

/-! ## A tag that is not closed -/

def annsProjects : Projects := ⟨[annsProject], List.nodup_singleton _⟩

def atNoon : Surroundings := { newId := launchTaskId, now := noon }

/-- It has no `>`, so it is no tag, but a browser runs it. -/
def openTag : TaskCreate :=
  { title := "Notes", description := some "<img src=x onerror=alert(1) ", projectId := annsProject.id }

/-- **What is not closed is stored as it came.** -/
theorem open_tag_stored :
    ∃ s, exec TaskService.step ⟨annsProjects, Table.empty, fun _ => none⟩
        [.request atNoon ann (.create none openTag)] = some s
      ∧ s.tasks.rows.map Task.description = [some "<img src=x onerror=alert(1)"]
      ∧ ¬ NoMarkup s := by
  have hrow : (TaskService.receive ⟨annsProjects, Table.empty, fun _ => none⟩ atNoon ann
      (.create none openTag)).tasks.rows.map Task.description
        = [some "<img src=x onerror=alert(1)"] := by decide +kernel
  refine ⟨_, rfl, hrow, fun h => ?_⟩
  obtain ⟨t, ht, hd⟩ := List.mem_map.mp (hrow ▸ List.mem_singleton_self _)
  exact ((h t ht).description _ hd '<' (by decide +kernel)).1 rfl

end Microservices.Tasks
