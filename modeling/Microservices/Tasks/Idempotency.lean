import Microservices.Lib.Decimal
import Microservices.Lib.Schedule
import Microservices.Lib.Slots
import Microservices.Tasks.Model

/-!
# Creating a task under an idempotency key

`create_task` asks Redis for an earlier answer under its caller and key, and
creates a task if there is none. It writes its own answer to Redis in a
background task, which runs after the commit, after the response and after the
event has been published. Each of those is a step of its own here, and the steps
of any number of requests interleave.

Entries stay in Redis: a day is longer than the runs considered. Every row
remembers the Redis key of the request that inserted it, and a request that ends
without a task remembers whether there was already one for its key. Neither is
read by the service.
-/

namespace Microservices.Tasks

open Schedule

/-- `{"status_code": ..., "body": ...}`, the value of an idempotency entry. -/
structure CachedResponse where
  statusCode : Nat
  body : TaskResponse
  deriving DecidableEq, Repr

abbrev IdempotencyStore := String → Option CachedResponse

/-- `_make_key`. A header value has no character above U+00FF. -/
def makeKey (callerId : UUID) (idempotencyKey : String) : String :=
  "idempotency:" ++ callerId.text ++ ":"
    ++ String.ofList ((Decimal.strip idempotencyKey.toList).take 128)

/-- `get_cached_response`; without Redis there is no answer. -/
def getCachedResponse (available : Bool) (redis : IdempotencyStore) (callerId : UUID)
    (idempotencyKey : String) : Option CachedResponse :=
  if available then redis (makeKey callerId idempotencyKey) else none

/-- `cache_response`; without Redis nothing is stored. -/
def cacheResponse (available : Bool) (redis : IdempotencyStore) (callerId : UUID)
    (idempotencyKey : String) (response : CachedResponse) : IdempotencyStore :=
  if available then fun k => if k = makeKey callerId idempotencyKey then some response else redis k
  else redis

/-- The answer to a request that has created `t`. -/
def createdResponse (t : Task) : CachedResponse := ⟨201, TaskResponse.modelValidate t⟩

/-- Where a `POST /tasks` is. -/
inductive CreatePhase where
  | received
  /-- Redis had nothing, or was not asked. -/
  | missed
  | checked
  | committed (task : Task)
  | responded (task : Task)
  | published (task : Task)
  | finished (task : Task)
  | replayed (cached : CachedResponse)
  /-- Answered with an error; `late` if there was already a task for its key. -/
  | refused (error : HTTPException) (late : Bool)
  /-- The database failed; `late` as above. -/
  | failed (late : Bool)
  deriving DecidableEq, Repr

structure CreateRequest where
  callerId : UUID
  /-- The `Idempotency-Key` header. -/
  idempotencyKey : Option String := none
  payload : TaskCreate
  phase : CreatePhase := .received
  deriving DecidableEq, Repr

/-- The header value the route goes by: an empty one counts as none. -/
def CreateRequest.key (r : CreateRequest) : Option String := r.idempotencyKey.filter (· ≠ "")

/-- The Redis key of the request's entry. -/
def CreateRequest.cacheKey (r : CreateRequest) : Option String := r.key.map (makeKey r.callerId)

/-- A row of the `tasks` table, with the Redis key of the request that inserted it. -/
structure CreatedRow where
  task : Task
  cacheKey : Option String
  deriving DecidableEq, Repr

structure CreateWorld where
  redis : IdempotencyStore := fun _ => none
  projects : List Project := []
  rows : List CreatedRow := []
  published : List TaskEvent := []
  requests : List CreateRequest := []

inductive CreateEvent where
  | arrive (callerId : UUID) (idempotencyKey : Option String) (payload : TaskCreate)
  /-- `available`: whether Redis answers. -/
  | lookup (i : Nat) (available : Bool)
  | checkProject (i : Nat)
  /-- Insert and commit, under a fresh id. -/
  | commit (i : Nat) (id : UUID) (now : Timestamp)
  | respond (i : Nat)
  /-- `sent`: whether the Service Bus took the message. -/
  | publish (i : Nat) (sent : Bool)
  | cacheWrite (i : Nat) (available : Bool)
  /-- The database fails before the commit. -/
  | fail (i : Nat)
  /-- Project requests change the `projects` table. -/
  | projectsChange (projects : List Project)
  deriving Repr

namespace CreateWorld

def setPhase (w : CreateWorld) (i : Nat) (r : CreateRequest) (phase : CreatePhase) : CreateWorld :=
  { w with requests := w.requests.set i { r with phase := phase } }

/-- The tasks created under a Redis key. -/
def createdUnder (w : CreateWorld) (cacheKey : Option String) : List Task :=
  (w.rows.filter fun row => row.cacheKey = cacheKey).map CreatedRow.task

/-- Whether a request without a task comes too late for its key. -/
def late (w : CreateWorld) (r : CreateRequest) : Bool :=
  r.cacheKey.isSome && !(w.createdUnder r.cacheKey).isEmpty

/-- `if idempotency_key: cached = await get_cached_response(...)`. -/
def lookup (w : CreateWorld) (r : CreateRequest) (available : Bool) : CreatePhase :=
  match r.key with
  | none => .missed
  | some k =>
      match getCachedResponse available w.redis r.callerId k with
      | none => .missed
      | some cached => .replayed cached

/-- `await _get_owned_project(payload.project_id, caller_id, db)`. -/
def checkProject (w : CreateWorld) (r : CreateRequest) : CreatePhase :=
  match getOwnedProject w.projects r.payload.projectId r.callerId with
  | .ok _ => .checked
  | .error e => .refused e (w.late r)

/-- The task request `i` creates, in the table and in its hands. -/
def commit (w : CreateWorld) (i : Nat) (r : CreateRequest) (t : Task) : CreateWorld :=
  { w.setPhase i r (.committed t) with rows := w.rows ++ [⟨t, r.cacheKey⟩] }

def publish (w : CreateWorld) (i : Nat) (r : CreateRequest) (t : Task) (sent : Bool) :
    CreateWorld :=
  { w.setPhase i r (.published t) with
    published := if sent then w.published ++ [taskCreated t] else w.published }

/-- `background.add_task(cache_response, ...)`, when its turn comes. -/
def cacheWrite (w : CreateWorld) (i : Nat) (r : CreateRequest) (k : String) (t : Task)
    (available : Bool) : CreateWorld :=
  { w.setPhase i r (.finished t) with
    redis := cacheResponse available w.redis r.callerId k (createdResponse t) }

/-- One step of one request. -/
def step (w : CreateWorld) : CreateEvent → Option CreateWorld
  | .arrive callerId key payload =>
      some { w with requests := w.requests ++
        [{ callerId := callerId, idempotencyKey := key, payload := payload }] }
  | .lookup i available =>
      match w.requests[i]? with
      | some r => if r.phase = .received then some (w.setPhase i r (w.lookup r available)) else none
      | none => none
  | .checkProject i =>
      match w.requests[i]? with
      | some r => if r.phase = .missed then some (w.setPhase i r (w.checkProject r)) else none
      | none => none
  | .commit i id now =>
      match w.requests[i]? with
      | some r =>
          if r.phase = .checked ∧ ∀ row ∈ w.rows, row.task.id ≠ id then
            some (w.commit i r (r.payload.toTask r.callerId id now))
          else none
      | none => none
  | .respond i =>
      match w.requests[i]? with
      | some r =>
          match r.phase with
          | .committed t => some (w.setPhase i r (.responded t))
          | _ => none
      | none => none
  | .publish i sent =>
      match w.requests[i]? with
      | some r =>
          match r.phase with
          | .responded t => some (w.publish i r t sent)
          | _ => none
      | none => none
  | .cacheWrite i available =>
      match w.requests[i]? with
      | some r =>
          match r.phase, r.key with
          | .published t, some k => some (w.cacheWrite i r k t available)
          | _, _ => none
      | none => none
  | .fail i =>
      match w.requests[i]? with
      | some r =>
          if r.phase = .missed ∨ r.phase = .checked then
            some (w.setPhase i r (.failed (w.late r)))
          else none
      | none => none
  | .projectsChange projects => some { w with projects := projects }

end CreateWorld

/-! ## One creation per key -/

/-- What the request has come to is what its key promises: it made the one task, it replays
that task's answer, or it ended without one before there was any. -/
def CreatePhase.Faithful (created : List Task) : CreatePhase → Prop
  | .received | .missed | .checked => True
  | .committed t | .responded t | .published t | .finished t => created = [t]
  | .replayed cached => ∃ t, created = [t] ∧ cached = createdResponse t
  | .refused _ late | .failed late => late = false

/-- **A key creates one task, and every other request under it replays that creation.** -/
structure CreatesOnce (w : CreateWorld) (cacheKey : String) : Prop where
  one : (w.createdUnder (some cacheKey)).length ≤ 1
  others : ∀ r ∈ w.requests, r.cacheKey = some cacheKey →
    r.phase.Faithful (w.createdUnder (some cacheKey))

/-! ## Requests in turn -/

/-- The request has found no entry and has not yet written its own. -/
def CreatePhase.underWay : CreatePhase → Bool
  | .missed | .checked | .committed _ | .responded _ | .published _ => true
  | _ => false

/-- The requests under a Redis key that are between their lookup and their cache write. -/
def CreateWorld.underWay (w : CreateWorld) (cacheKey : String) : Nat :=
  w.requests.countP fun r => r.cacheKey = some cacheKey && r.phase.underWay

/-- A lookup comes when no other request under its key is under way. -/
def CreateWorld.LooksUpAlone (w : CreateWorld) : CreateEvent → Prop
  | .lookup i _ => ∀ r ∈ w.requests[i]?, ∀ k ∈ r.cacheKey, w.underWay k = 0
  | _ => True

/-- Redis answers. -/
def CreateEvent.RedisUp : CreateEvent → Prop
  | .lookup _ available | .cacheWrite _ available => available = true
  | _ => True

/-- The step is taken with Redis available and, if it is a lookup, alone. -/
def CreateWorld.InTurn (w : CreateWorld) (e : CreateEvent) : Prop := e.RedisUp ∧ w.LooksUpAlone e

instance (w : CreateWorld) (e : CreateEvent) : Decidable (w.InTurn e) := by
  unfold CreateWorld.InTurn CreateWorld.LooksUpAlone CreateEvent.RedisUp
  cases e <;> infer_instance

end Microservices.Tasks
