import Microservices.Lib.Schedule
import Microservices.Tasks.Model

/-!
# Concurrent updates of one task

`update_task` runs in one transaction at READ COMMITTED: it reads the row, assigns
what the payload sets, flushes, reads the row again and commits. A flush sends the
columns whose value differs from the loaded one, waits for the row lock, and
applies them to the row as it is *then*; if there is nothing to send it takes no
lock. Reads see the last committed row, or the transaction's own.

The world is one row and the `PATCH` requests for it, each somewhere along those
five steps. `commits` records what every commit did. It is a ghost: the service
does not read it.
-/

namespace Microservices.Tasks

open Schedule

/-- A field is `none` if the body does not set it, and `some none` if it sets it to null. -/
structure TaskUpdate where
  title : Option (Option String) := none
  description : Option (Option String) := none
  status : Option (Option TaskStatus) := none
  priority : Option (Option TaskPriority) := none
  assigneeId : Option (Option UUID) := none
  dueDate : Option (Option Datetime) := none
  deriving DecidableEq, Repr

/-- The columns of one `UPDATE`. -/
structure ColumnUpdate where
  title : Option String := none
  description : Option (Option String) := none
  status : Option TaskStatus := none
  priority : Option TaskPriority := none
  assigneeId : Option (Option UUID) := none
  dueDate : Option (Option AwareDatetime) := none
  deriving DecidableEq, Repr

def ColumnUpdate.isEmpty (c : ColumnUpdate) : Bool := c == {}

/-- The row after the `UPDATE`. -/
def ColumnUpdate.apply (c : ColumnUpdate) (t : Task) (now : Timestamp) : Task :=
  { t with
    title := c.title.getD t.title
    description := c.description.getD t.description
    status := c.status.getD t.status
    priority := c.priority.getD t.priority
    assigneeId := c.assigneeId.getD t.assigneeId
    dueDate := c.dueDate.getD t.dueDate
    updatedAt := now }

/-- A NOT NULL column: `none` is a violation, `some none` sends nothing. -/
def setRequired {α : Type} [DecidableEq α] (loaded : α) : Option (Option α) → Option (Option α)
  | none => some none
  | some none => none
  | some (some v) => some (if v = loaded then none else some v)

def setNullable {α : Type} [DecidableEq α] (loaded : Option α) (assigned : Option (Option α)) :
    Option (Option α) :=
  assigned.filter (· ≠ loaded)

/-- `==` of a loaded and an assigned due date: a naive datetime equals no aware one. -/
def sameDue (loaded : Option AwareDatetime) (assigned : Option Datetime) : Bool :=
  match loaded, assigned with
  | none, none => true
  | some t, some dt => dt.offset.isSome && dt.instant == t.instant
  | _, _ => false

/-- What the flush sends for a task loaded as `t`; `none` is a NOT NULL violation. -/
def TaskUpdate.changes (u : TaskUpdate) (t : Task) : Option ColumnUpdate :=
  match setRequired t.title u.title, setRequired t.status u.status,
    setRequired t.priority u.priority with
  | some title, some status, some priority =>
      some
        { title := title
          description := setNullable t.description u.description
          status := status
          priority := priority
          assigneeId := setNullable t.assigneeId u.assigneeId
          dueDate := (u.dueDate.filter fun d => !sameDue t.dueDate d).map
            (Option.map Datetime.stored) }
  | _, _, _ => none

/-- `payload.status`: the status asked for, if any. -/
def TaskUpdate.asked (u : TaskUpdate) : Option TaskStatus := u.status.join

/-- The event `update_task` hands to `_publish_event`. -/
def statusEvent (u : TaskUpdate) (callerId : UUID) (oldStatus : TaskStatus) (task : Task) :
    Option TaskEvent :=
  if u.asked.isSome ∧ task.status ≠ oldStatus then
    some (taskStatusChanged task oldStatus callerId)
  else none

/-- Where a `PATCH` is, with the task as it first read it. -/
inductive PatchPhase where
  | received
  | loaded (task : Task)
  /-- `wrote`: it sent an `UPDATE`, and holds the row lock. -/
  | flushed (task : Task) (wrote : Bool)
  | refreshed (task : Task) (wrote : Bool) (current : Task)
  | answered (response : Except HTTPException TaskResponse)
  /-- An exception: rolled back, answered 500. -/
  | failed
  deriving Repr

structure Patch where
  callerId : UUID
  payload : TaskUpdate
  phase : PatchPhase := .received
  deriving Repr

/-- One commit: the request's payload, the committed status before and after it, and the event
that goes out once the 200 has been sent. -/
structure CommitRecord where
  payload : TaskUpdate
  before : TaskStatus
  stored : TaskStatus
  event : Option TaskEvent
  deriving Repr

structure PatchWorld where
  /-- The committed row. -/
  row : Task
  /-- The transaction that holds the row lock, and its version of the row. -/
  pending : Option (Nat × Task) := none
  patches : List Patch := []
  commits : List CommitRecord := []

inductive PatchEvent where
  | arrive (callerId : UUID) (payload : TaskUpdate)
  | load (i : Nat)
  | flush (i : Nat) (now : Timestamp)
  | refresh (i : Nat)
  | commit (i : Nat)
  /-- Something raises before the commit. -/
  | abort (i : Nat)
  deriving Repr

namespace PatchWorld

def setPatch (w : PatchWorld) (i : Nat) (p : Patch) : PatchWorld :=
  { w with patches := w.patches.set i p }

/-- The row as transaction `i` reads it. -/
def visible (w : PatchWorld) (i : Nat) : Task :=
  match w.pending with
  | some (j, t) => if j = i then t else w.row
  | none => w.row

/-- `task = await _get_authorized_task(...)`. -/
def load (w : PatchWorld) (i : Nat) (callerId : UUID) (payload : TaskUpdate) : PatchWorld :=
  match getAuthorizedTask (some w.row) callerId true with
  | .error e => w.setPatch i ⟨callerId, payload, .answered (.error e)⟩
  | .ok t => w.setPatch i ⟨callerId, payload, .loaded t⟩

/-- `await db.flush()`; it waits while another transaction holds the lock. -/
def flush (w : PatchWorld) (i : Nat) (callerId : UUID) (payload : TaskUpdate) (t : Task)
    (now : Timestamp) : Option PatchWorld :=
  match payload.changes t with
  | none => some (w.setPatch i ⟨callerId, payload, .failed⟩)
  | some c =>
      if c.isEmpty then some (w.setPatch i ⟨callerId, payload, .flushed t false⟩)
      else if w.pending.isNone then
        some { w.setPatch i ⟨callerId, payload, .flushed t true⟩ with
          pending := some (i, c.apply w.row now) }
      else none

/-- `await session.commit()`, after which the response and then the event go out. -/
def commit (w : PatchWorld) (i : Nat) (callerId : UUID) (payload : TaskUpdate) (t : Task)
    (wrote : Bool) (current : Task) : PatchWorld :=
  let row := if wrote then w.visible i else w.row
  { w.setPatch i ⟨callerId, payload, .answered (.ok (TaskResponse.modelValidate current))⟩ with
    row := row
    pending := if wrote then none else w.pending
    commits := w.commits ++
      [⟨payload, w.row.status, row.status, statusEvent payload callerId t.status current⟩] }

/-- `await session.rollback()`. -/
def abort (w : PatchWorld) (i : Nat) (callerId : UUID) (payload : TaskUpdate) (wrote : Bool) :
    PatchWorld :=
  { w.setPatch i ⟨callerId, payload, .failed⟩ with pending := if wrote then none else w.pending }

/-- One step of one request. -/
def step (w : PatchWorld) : PatchEvent → Option PatchWorld
  | .arrive callerId payload => some { w with patches := w.patches ++ [⟨callerId, payload, .received⟩] }
  | .load i =>
      match w.patches[i]? with
      | some ⟨callerId, payload, .received⟩ => some (w.load i callerId payload)
      | _ => none
  | .flush i now =>
      match w.patches[i]? with
      | some ⟨callerId, payload, .loaded t⟩ => w.flush i callerId payload t now
      | _ => none
  | .refresh i =>
      match w.patches[i]? with
      | some ⟨callerId, payload, .flushed t wrote⟩ =>
          some (w.setPatch i ⟨callerId, payload, .refreshed t wrote (w.visible i)⟩)
      | _ => none
  | .commit i =>
      match w.patches[i]? with
      | some ⟨callerId, payload, .refreshed t wrote current⟩ =>
          some (w.commit i callerId payload t wrote current)
      | _ => none
  | .abort i =>
      match w.patches[i]? with
      | some ⟨callerId, payload, .loaded _⟩ => some (w.abort i callerId payload false)
      | some ⟨callerId, payload, .flushed _ wrote⟩ => some (w.abort i callerId payload wrote)
      | some ⟨callerId, payload, .refreshed _ wrote _⟩ => some (w.abort i callerId payload wrote)
      | _ => none

end PatchWorld

/-! ## Real transitions -/

/-- The event names the transition its commit made, and a status asked for is stored. -/
structure CommitRecord.Truthful (c : CommitRecord) : Prop where
  oldStatus : ∀ e, c.event = some e → e.field "old_status" = some c.before.value
  newStatus : ∀ e, c.event = some e → ∃ s, c.payload.asked = some s ∧ e.field "new_status" = some s.value
  stored : ∀ s, c.payload.asked = some s → c.stored = s

/-- **Every status event is a real transition**, at every commit so far. -/
def RealTransitions (w : PatchWorld) : Prop := ∀ c ∈ w.commits, c.Truthful

/-- At its commit, a request that asks for a status finds the committed one still as it first read
it; if it asks for just that status, its refresh has found it so too. -/
def PatchWorld.StatusUnmoved (w : PatchWorld) : PatchEvent → Prop
  | .commit i =>
      match w.patches[i]? with
      | some ⟨_, payload, .refreshed t _ current⟩ =>
          ∀ s ∈ payload.asked, w.row.status = t.status ∧ (s = t.status → current.status = t.status)
      | _ => True
  | _ => True

instance (w : PatchWorld) (e : PatchEvent) : Decidable (w.StatusUnmoved e) := by
  unfold PatchWorld.StatusUnmoved
  repeat' split
  all_goals infer_instance

end Microservices.Tasks
