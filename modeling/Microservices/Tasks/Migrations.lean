import Microservices.Lib.Sql
import Microservices.Tasks.Markup

/-!
# What the migrated tables take

The columns of the first migration, the second adds indexes only, and the statements
SQLAlchemy makes of a creation and an update. It writes an enum member by its name,
`TODO`, where the migration has created the type from the values, `todo`. So no
creation passes, and no update that changes a status or a priority.
-/

namespace Microservices.Tasks

abbrev SqlValue := Sql.Value UUID AwareDatetime

abbrev SqlAssignments := Sql.Assignments UUID AwareDatetime

/-! ## The schema -/

def taskStatusType : Sql.ColumnType :=
  .enum ["todo", "in_progress", "in_review", "done", "cancelled"]

def taskPriorityType : Sql.ColumnType := .enum ["low", "medium", "high", "critical"]

def titleColumn : Sql.Column := { name := "title", type := .varchar 500 }

def descriptionColumn : Sql.Column := { name := "description", type := .text, nullable := true }

def statusColumn : Sql.Column := { name := "status", type := taskStatusType, hasDefault := true }

def priorityColumn : Sql.Column :=
  { name := "priority", type := taskPriorityType, hasDefault := true }

def projectIdColumn : Sql.Column :=
  { name := "project_id", type := .uuid, references := some "projects" }

def assigneeIdColumn : Sql.Column := { name := "assignee_id", type := .uuid, nullable := true }

def dueDateColumn : Sql.Column := { name := "due_date", type := .timestamptz, nullable := true }

/-- `op.create_table("tasks", ...)`. -/
def tasksTable : Sql.TableDef where
  name := "tasks"
  columns := [
    { name := "id", type := .uuid },
    titleColumn,
    descriptionColumn,
    statusColumn,
    priorityColumn,
    projectIdColumn,
    { name := "creator_id", type := .uuid },
    assigneeIdColumn,
    dueDateColumn,
    { name := "created_at", type := .timestamptz, hasDefault := true },
    { name := "updated_at", type := .timestamptz, hasDefault := true }]

/-- The rows a foreign key of `tasks` can refer to. -/
def projectRows (projects : Projects) (table : String) (id : UUID) : Bool :=
  table = "projects" && (projects.find? id).isSome

/-! ## The statements -/

/-- `status.name`, which `SAEnum(TaskStatus)` persists. -/
def TaskStatus.name : TaskStatus → String
  | .todo => "TODO"
  | .inProgress => "IN_PROGRESS"
  | .inReview => "IN_REVIEW"
  | .done => "DONE"
  | .cancelled => "CANCELLED"

/-- `priority.name`. -/
def TaskPriority.name : TaskPriority → String
  | .low => "LOW"
  | .medium => "MEDIUM"
  | .high => "HIGH"
  | .critical => "CRITICAL"

/-- The `INSERT` of `create_task`; the other columns have their defaults. -/
def TaskCreate.insertion (payload : TaskCreate) (callerId id : UUID) : SqlAssignments :=
  [("id", .uuid id),
    ("title", .text payload.title),
    ("description", .ofOption .text payload.description),
    ("status", .label TaskStatus.todo.name),
    ("priority", .label payload.priority.name),
    ("project_id", .uuid payload.projectId),
    ("creator_id", .uuid callerId),
    ("assignee_id", .ofOption .uuid payload.assigneeId),
    ("due_date", .ofOption (fun d => .timestamp d.stored) payload.dueDate)]

/-- A column of an `UPDATE`, if it is sent. -/
def sentColumn {α : Type} (name : String) (f : α → SqlValue) (sent : Option (Option α)) :
    SqlAssignments :=
  (sent.map fun v => (name, .ofOption f v)).toList

/-- The columns that `update_task` changes: those set to another value than the loaded one. -/
def TaskUpdate.changedColumns (u : TaskUpdate) (t : Task) : SqlAssignments :=
  sentColumn "title" .text (setNullable (some t.title) u.title)
    ++ sentColumn "description" .text (setNullable t.description u.description)
    ++ sentColumn "status" (fun s => .label s.name) (setNullable (some t.status) u.status)
    ++ sentColumn "priority" (fun p => .label p.name) (setNullable (some t.priority) u.priority)
    ++ sentColumn "assignee_id" .uuid (setNullable t.assigneeId u.assigneeId)
    ++ sentColumn "due_date" (fun d => .timestamp d.stored)
      (u.dueDate.filter fun d => !sameDue t.dueDate d)

/-- The `UPDATE` of `update_task`, with `onupdate=func.now()`. -/
def TaskUpdate.assignments (u : TaskUpdate) (t : Task) (now : Timestamp) : SqlAssignments :=
  let changed := u.changedColumns t
  if changed.isEmpty then [] else changed ++ [("updated_at", .timestamp now.toAware)]

/-! ## Accepted writes -/

/-- A creation whose body is accepted and whose project is the caller's. -/
structure AcceptedCreate (projects : Projects) where
  callerId : UUID
  body : TaskCreate
  payload : TaskCreate
  accepted : body.modelValidate = .ok payload
  project : Project
  owned : getOwnedProject projects.rows payload.projectId callerId = .ok project

/-- An update whose body is accepted, of a task of the caller. -/
structure AcceptedUpdate where
  callerId : UUID
  body : TaskUpdate
  payload : TaskUpdate
  accepted : body.modelValidate = .ok payload
  task : Task
  authorized : getAuthorizedTask (some task) callerId true = .ok task

inductive AcceptedWrite (projects : Projects) where
  | create (w : AcceptedCreate projects) (id : UUID)
  | update (w : AcceptedUpdate) (now : Timestamp)

variable {projects : Projects}

/-- What the migrated schema has against the statement of the route. -/
def AcceptedWrite.violations : AcceptedWrite projects → List Sql.Violation
  | .create w id =>
      tasksTable.insertViolations (projectRows projects) (w.payload.insertion w.callerId id)
  | .update w now =>
      tasksTable.updateViolations (projectRows projects) (w.payload.assignments w.task now)

/-- The status and the priority that the body sets, if any, are those of the task. -/
def AcceptedUpdate.KeepsEnums (w : AcceptedUpdate) : Prop :=
  (∀ s ∈ w.payload.status.join, s = w.task.status)
    ∧ ∀ p ∈ w.payload.priority.join, p = w.task.priority

/-- An update that sets no NOT NULL column to null and neither enum to another value. -/
def AcceptedWrite.Harmless : AcceptedWrite projects → Prop
  | .create _ _ => False
  | .update w _ => w.payload.setsNull = false ∧ w.KeepsEnums

/-! ## The columns -/

section Columns

variable (rows : String → UUID → Bool)

theorem column_names : titleColumn.name = "title" ∧ descriptionColumn.name = "description"
    ∧ statusColumn.name = "status" ∧ priorityColumn.name = "priority"
    ∧ projectIdColumn.name = "project_id" ∧ assigneeIdColumn.name = "assignee_id"
    ∧ dueDateColumn.name = "due_date" := ⟨rfl, rfl, rfl, rfl, rfl, rfl, rfl⟩

/-- A key that refers to nothing. -/
theorem uuid_violations (name : String) (id : UUID) :
    Sql.Column.violations rows { name := name, type := .uuid } (.uuid id : SqlValue) = [] := rfl

theorem title_violations {title : String} (h : title.length ≤ 500) :
    titleColumn.violations rows (.text title : SqlValue) = [] := by
  simp [titleColumn, Sql.Column.violations, Sql.ColumnType.violations,
    Sql.Column.foreignKeyViolations, h]

theorem description_violations (d : Option String) :
    descriptionColumn.violations rows (.ofOption .text d : SqlValue) = [] := by
  cases d <;> rfl

/-- No name of a status is one of the labels. -/
theorem status_violations (s : TaskStatus) :
    statusColumn.violations rows (.label s.name : SqlValue) = [.notALabel "status" s.name] := by
  cases s <;> rfl

/-- No name of a priority is one of the labels. -/
theorem priority_violations (p : TaskPriority) :
    priorityColumn.violations rows (.label p.name : SqlValue) = [.notALabel "priority" p.name] := by
  cases p <;> rfl

theorem projectId_violations {id : UUID} (h : rows "projects" id = true) :
    projectIdColumn.violations rows (.uuid id : SqlValue) = [] := by
  simp [projectIdColumn, Sql.Column.violations, Sql.ColumnType.violations,
    Sql.Column.foreignKeyViolations, h]

theorem assigneeId_violations (id : Option UUID) :
    assigneeIdColumn.violations rows (.ofOption .uuid id : SqlValue) = [] := by
  cases id <;> rfl

theorem dueDate_violations (d : Option Datetime) :
    dueDateColumn.violations rows (.ofOption (fun d => .timestamp d.stored) d : SqlValue) = [] := by
  cases d <;> rfl

end Columns

/-! ## Insertions -/

theorem projectRows_of_owned (w : AcceptedCreate projects) :
    projectRows projects "projects" w.payload.projectId = true := by
  have howned := w.owned
  rw [getOwnedProject_filter] at howned
  cases hfind : projects.find? w.payload.projectId with
  | none =>
      rw [hfind] at howned
      cases howned
  | some p => simp [projectRows, hfind]

/-- **Each creation breaks both enums, and nothing else.** -/
theorem create_violations (w : AcceptedCreate projects) (id : UUID) :
    (AcceptedWrite.create w id).violations
      = [.notALabel "status" "TODO", .notALabel "priority" w.payload.priority.name] := by
  have htitle := title_violations (projectRows projects) (create_modelValidate w.accepted).2
  have hproject := projectId_violations (projectRows projects) (projectRows_of_owned w)
  show tasksTable.insertViolations (projectRows projects) (w.payload.insertion w.callerId id) = _
  unfold Sql.TableDef.insertViolations Sql.TableDef.unknownColumns tasksTable TaskCreate.insertion
  simp [List.lookup_cons, column_names, htitle, hproject, uuid_violations, description_violations,
    status_violations, priority_violations, assigneeId_violations, dueDate_violations]
  rfl

/-! ## Updates -/

theorem lookup_sentColumn {α : Type} (name column : String) (f : α → SqlValue)
    (sent : Option (Option α)) :
    (sentColumn name f sent).lookup column
      = if column = name then sent.map (Sql.Value.ofOption f) else none := by
  unfold sentColumn
  cases sent with
  | none => simp
  | some v =>
      by_cases h : column = name
      · simp [h]
      · simp [List.lookup_cons, beq_false_of_ne h, h]

theorem mem_sentColumn {α : Type} {name : String} {f : α → SqlValue} {sent : Option (Option α)}
    {a : String × SqlValue} (h : a ∈ sentColumn name f sent) : a.1 = name := by
  obtain ⟨v, _, rfl⟩ := Option.map_eq_some_iff.mp (Option.mem_toList.mp h)
  rfl

/-- Nothing is sent of a required column if it is not set to null and not to another value. -/
theorem setNullable_eq_none_iff {α : Type} [DecidableEq α] {loaded : α}
    {assigned : Option (Option α)} : setNullable (some loaded) assigned = none ↔
      assigned ≠ some none ∧ ∀ v ∈ assigned.join, v = loaded := by
  unfold setNullable
  match assigned with
  | none => simp
  | some none => simp [Option.filter]
  | some (some v) => simp [Option.filter]

theorem mem_changedColumns {u : TaskUpdate} {t : Task} {a : String × SqlValue}
    (h : a ∈ u.changedColumns t) :
    a.1 ∈ ["title", "description", "status", "priority", "assignee_id", "due_date"] := by
  simp only [TaskUpdate.changedColumns, List.mem_append] at h
  rcases h with ((((h | h) | h) | h) | h) | h <;> rw [mem_sentColumn h] <;> decide

theorem known_assignments (u : TaskUpdate) (t : Task) (now : Timestamp) :
    ∀ a ∈ u.assignments t now, a.1 ∈ tasksTable.columns.map Sql.Column.name := by
  intro a ha
  have hcolumns : a.1 ∈ ["title", "description", "status", "priority", "assignee_id", "due_date"]
      ∨ a.1 = "updated_at" := by
    unfold TaskUpdate.assignments at ha
    dsimp only at ha
    split at ha
    · cases ha
    · rcases List.mem_append.mp ha with ha | ha
      · exact Or.inl (mem_changedColumns ha)
      · rw [List.mem_singleton.mp ha]
        exact Or.inr rfl
  simp only [List.mem_cons, List.not_mem_nil, or_false] at hcolumns
  rcases hcolumns with (h | h | h | h | h | h) | h <;> rw [h] <;> decide

theorem lookup_assignments {u : TaskUpdate} {t : Task} {now : Timestamp} {column : String}
    (h : column ≠ "updated_at") :
    (u.assignments t now).lookup column = (u.changedColumns t).lookup column := by
  unfold TaskUpdate.assignments
  dsimp only
  split
  · rename_i hempty
    rw [List.isEmpty_iff.mp hempty]
  · rw [List.lookup_append, List.lookup_cons, beq_false_of_ne h]
    simp

theorem lookup_updatedAt {u : TaskUpdate} {t : Task} {now : Timestamp} {v : SqlValue}
    (h : (u.assignments t now).lookup "updated_at" = some v) : v = .timestamp now.toAware := by
  unfold TaskUpdate.assignments at h
  dsimp only at h
  split at h
  · cases h
  · simpa [TaskUpdate.changedColumns, List.lookup_append, lookup_sentColumn, eq_comm] using h

theorem lookup_changed (u : TaskUpdate) (t : Task) (now : Timestamp) :
    (u.assignments t now).lookup titleColumn.name
        = (setNullable (some t.title) u.title).map (.ofOption .text)
      ∧ (u.assignments t now).lookup descriptionColumn.name
        = (setNullable t.description u.description).map (.ofOption .text)
      ∧ (u.assignments t now).lookup statusColumn.name
        = (setNullable (some t.status) u.status).map (.ofOption fun s => .label s.name)
      ∧ (u.assignments t now).lookup priorityColumn.name
        = (setNullable (some t.priority) u.priority).map (.ofOption fun p => .label p.name)
      ∧ (u.assignments t now).lookup assigneeIdColumn.name
        = (setNullable t.assigneeId u.assigneeId).map (.ofOption .uuid)
      ∧ (u.assignments t now).lookup dueDateColumn.name
        = (u.dueDate.filter fun d => !sameDue t.dueDate d).map
          (.ofOption fun d => .timestamp d.stored) := by
  refine ⟨?_, ?_, ?_, ?_, ?_, ?_⟩ <;> rw [lookup_assignments (by decide)] <;>
    simp [TaskUpdate.changedColumns, List.lookup_append, lookup_sentColumn, column_names]

/-- The other columns are not sent. -/
theorem lookup_unchanged (u : TaskUpdate) (t : Task) (now : Timestamp) (column : String)
    (h : column ∈ ["id", "project_id", "creator_id", "created_at"]) :
    (u.assignments t now).lookup column = none := by
  simp only [List.mem_cons, List.not_mem_nil, or_false] at h
  rcases h with rfl | rfl | rfl | rfl <;> rw [lookup_assignments (by decide)] <;>
    simp [TaskUpdate.changedColumns, List.lookup_append, lookup_sentColumn]

/-- A column that takes every value, and null. -/
theorem optional_ok {α : Type} {c : Sql.Column} {f : α → SqlValue} (rows : String → UUID → Bool)
    (h : ∀ v, c.violations rows (.ofOption f v) = []) (sent : Option (Option α)) :
    ∀ v, sent.map (Sql.Value.ofOption f) = some v → c.violations rows v = [] := by
  intro v hv
  obtain ⟨x, _, rfl⟩ := Option.map_eq_some_iff.mp hv
  exact h x

/-- A column sent is one of its violations if every value but the loaded one is. -/
theorem required_ok_iff {α : Type} [DecidableEq α] {c : Sql.Column} (f : α → SqlValue) (loaded : α)
    (assigned : Option (Option α)) (rows : String → UUID → Bool)
    (hnull : c.violations rows (.null : SqlValue) ≠ []) (hf : ∀ a, c.violations rows (f a) ≠ []) :
    (∀ v, (setNullable (some loaded) assigned).map (Sql.Value.ofOption f) = some v →
        c.violations rows v = []) ↔
      assigned ≠ some none ∧ ∀ v ∈ assigned.join, v = loaded := by
  rw [← setNullable_eq_none_iff]
  cases setNullable (some loaded) assigned with
  | none => simp
  | some v =>
      refine iff_of_false (fun h => ?_) nofun
      have hv := h _ rfl
      cases v with
      | none => exact hnull hv
      | some a => exact hf a hv

theorem setsNull_eq_false_iff {u : TaskUpdate} : u.setsNull = false ↔
    u.title ≠ some none ∧ u.status ≠ some none ∧ u.priority ≠ some none := by
  simp [TaskUpdate.setsNull, and_assoc]

theorem title_ok_iff {loaded : String} {assigned : Option (Option String)}
    (rows : String → UUID → Bool) (h : ∀ v, assigned = some (some v) → v.length ≤ 500) :
    (∀ v, (setNullable (some loaded) assigned).map (Sql.Value.ofOption Sql.Value.text) = some v →
        titleColumn.violations rows (v : SqlValue) = []) ↔ assigned ≠ some none := by
  match assigned with
  | none => simp [setNullable]
  | some none =>
      refine iff_of_false (fun hall => ?_) (fun hne => hne rfl)
      exact List.cons_ne_nil _ _ (hall .null rfl)
  | some (some v) =>
      refine iff_of_true (fun x hx => ?_) nofun
      obtain ⟨y, hy, rfl⟩ := Option.map_eq_some_iff.mp hx
      obtain ⟨rfl, _⟩ : some v = y ∧ _ := by simpa [setNullable, Option.filter_eq_some_iff] using hy
      exact title_violations rows (h v rfl)

/-- **An update passes if it sets no NOT NULL column to null and neither enum to another value.** -/
theorem update_violations_iff (w : AcceptedUpdate) (now : Timestamp) :
    (AcceptedWrite.update w now : AcceptedWrite projects).violations = [] ↔
      w.payload.setsNull = false ∧ w.KeepsEnums := by
  have hknown := known_assignments w.payload w.task now
  have hunsent : ∀ c : Sql.Column, c.name ∈ ["id", "project_id", "creator_id", "created_at"] →
      ∀ v, (w.payload.assignments w.task now).lookup c.name = some v →
        c.violations (projectRows projects) v = [] := by
    intro c hc v hv
    rw [lookup_unchanged _ _ _ c.name hc] at hv
    cases hv
  have hlength := (update_modelValidate w.accepted).2
  obtain ⟨htitle, hdescription, hstatus, hpriority, hassignee, hdue⟩ :=
    lookup_changed w.payload w.task now
  have hstatus_iff := required_ok_iff (c := statusColumn) (fun s => .label s.name) w.task.status
    w.payload.status (projectRows projects) (List.cons_ne_nil _ _)
    (fun s => by simp [status_violations])
  have hpriority_iff := required_ok_iff (c := priorityColumn) (fun p => .label p.name)
    w.task.priority w.payload.priority (projectRows projects) (List.cons_ne_nil _ _)
    (fun p => by simp [priority_violations])
  show tasksTable.updateViolations (projectRows projects) (w.payload.assignments w.task now) = [] ↔ _
  rw [Sql.updateViolations_eq_nil_iff hknown, setsNull_eq_false_iff]
  simp only [tasksTable, List.forall_mem_cons]
  rw [htitle, hstatus, hpriority, hdescription, hassignee, hdue, hstatus_iff, hpriority_iff,
    title_ok_iff _ hlength]
  constructor
  · rintro ⟨_, htitle, _, ⟨hsnull, hs⟩, ⟨hpnull, hp⟩, _⟩
    exact ⟨⟨htitle, hsnull, hpnull⟩, hs, hp⟩
  · rintro ⟨⟨htitle, hsnull, hpnull⟩, hs, hp⟩
    refine ⟨?_, htitle, optional_ok _ (description_violations _) _, ⟨hsnull, hs⟩, ⟨hpnull, hp⟩, ?_,
      ?_, optional_ok _ (assigneeId_violations _) _, optional_ok _ (dueDate_violations _) _, ?_, ?_,
      nofun⟩
    · exact hunsent { name := "id", type := .uuid } (by decide)
    · exact hunsent projectIdColumn (by decide)
    · exact hunsent { name := "creator_id", type := .uuid } (by decide)
    · exact hunsent { name := "created_at", type := .timestamptz, hasDefault := true } (by decide)
    · intro v hv
      rw [lookup_updatedAt hv]
      rfl

/--
**What the migrated tables take.**

For every creation the API accepts, in a project of the caller, and every update it
accepts, of a task of the caller: the statement violates no NOT NULL column, no
length, no enum and no foreign key of the migrated `tasks` table if and only if it is
an update that sets neither title, status nor priority to null, and status and
priority, if at all, to what they are.
-/
theorem migrated_accepts_iff (w : AcceptedWrite projects) : w.violations = [] ↔ w.Harmless := by
  cases w with
  | create w newId =>
      rw [create_violations]
      exact iff_of_false (List.cons_ne_nil _ _) id
  | update w now => exact update_violations_iff w now

/-- Ann's creation, as the route takes it. -/
def launchCreate : AcceptedCreate annsProjects where
  callerId := ann
  body := launchTask
  payload := launchTask.stripped
  accepted := by decide +kernel
  project := annsProject
  owned := by decide +kernel

/-- **An accepted creation is refused by the database.** -/
theorem launch_task_violates :
    (AcceptedWrite.create launchCreate launchTaskId).violations
      = [.notALabel "status" "TODO", .notALabel "priority" "MEDIUM"] := by
  decide +kernel

end Microservices.Tasks
