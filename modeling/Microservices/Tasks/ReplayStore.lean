import Mathlib.Logic.Function.Basic
import Microservices.Lib.JsonText
import Microservices.Tasks.Idempotency

/-!
# The idempotency store, as text in Redis

`create_task` again, closer to Redis: an entry is a JSON text, each worker process
has a client of its own, which is there once a `PING` has been answered, and a
`PING`, a `GET` or a `SETEX` may fail. So may the database, before the commit, at it,
or just after it. The steps of any number of requests interleave, entries expire, and
other requests change both tables.

Pydantic writes a timestamp as a text; which one is a parameter.
-/

namespace Microservices.Tasks

open Schedule

/-- The part of the header value that makes the Redis key. -/
def effectiveKey (idempotencyKey : String) : List Char :=
  (Decimal.strip idempotencyKey.toList).take 128

/-- `priority.value`. -/
def TaskPriority.value : TaskPriority → String
  | .low => "low"
  | .medium => "medium"
  | .high => "high"
  | .critical => "critical"

/-- `null` for a missing value. -/
def jsonOption {α : Type} (f : α → String) : Option α → Json
  | none => .null
  | some a => .str (f a)

/-- `response_data.model_dump(mode="json")`. -/
def TaskResponse.modelDump (time : AwareDatetime → String) (r : TaskResponse) : Json :=
  .obj [
    ("id", .str r.id.text),
    ("title", .str r.title),
    ("description", jsonOption (fun d => d) r.description),
    ("status", .str r.status.value),
    ("priority", .str r.priority.value),
    ("project_id", .str r.projectId.text),
    ("creator_id", .str r.creatorId.text),
    ("assignee_id", jsonOption UUID.text r.assigneeId),
    ("due_date", jsonOption time r.dueDate),
    ("created_at", .str (time r.createdAt.toAware)),
    ("updated_at", .str (time r.updatedAt.toAware))]

/-- The body of the 201 for `t`. -/
def createdBody (time : AwareDatetime → String) (t : Task) : Json :=
  (TaskResponse.modelValidate t).modelDump time

/-- `json.dumps({"status_code": status_code, "body": body})`. -/
def entryText (statusCode : Int) (body : Json) : String :=
  String.ofList (Json.dumps (.obj [("status_code", .int statusCode), ("body", body)]))

/-- `cached["status_code"], cached["body"]` of `json.loads(raw)`; `none` is any exception. -/
def readEntry (raw : String) : Option (Json × Json) := do
  let cached ← Json.loadsText raw.toList
  let statusCode ← cached.get? "status_code"
  let body ← cached.get? "body"
  return (statusCode, body)

inductive PostAnswer where
  /-- `replay`: with `Idempotency-Key-Replay`. -/
  | created (statusCode : Int) (body : Json) (replay : Bool)
  | refused (e : HTTPException)
  /-- 500. -/
  | failed

/-- Where a `POST /tasks` is. -/
inductive PostPhase where
  | received
  /-- Its worker has no Redis client yet. -/
  | pinging
  | connected
  /-- Redis had nothing, or could not be asked. -/
  | missed
  | replaying (statusCode : Int) (body : Json)
  | replayed
  | checked
  /-- The row is inserted and read again, but not committed. -/
  | flushed (task : Task)
  | committed (task : Task)
  | responded (task : Task)
  | published (task : Task)
  | storePinging (task : Task)
  | storeConnected (task : Task)
  | finished (task : Task)
  /-- Answered with an error. -/
  | ended

structure Post where
  worker : Nat
  callerId : UUID
  /-- The `Idempotency-Key` header. -/
  idempotencyKey : Option String
  payload : TaskCreate
  phase : PostPhase := .received

/-- The header value the route goes by: an empty one counts as none. -/
def Post.key (r : Post) : Option String := r.idempotencyKey.filter (· ≠ "")

/-- A response that has been sent, with what identifies its request. -/
structure Reply where
  post : Nat
  callerId : UUID
  key : Option String
  answer : PostAnswer

structure PostWorld where
  redis : String → Option String := fun _ => none
  /-- Whether a worker's `_client` is set. -/
  clients : Nat → Bool := fun _ => false
  projects : List Project := []
  tasks : List Task := []
  published : List TaskEvent := []
  posts : List Post := []
  replies : List Reply := []
  /-- Every row that has been committed, with its request. The service does not read it. -/
  commits : List (Nat × Task) := []

inductive CommitOutcome where
  | done
  | refused
  /-- The row is committed, but the service does not hear of it. -/
  | lost
  deriving DecidableEq

inductive PostEvent where
  | arrive (worker : Nat) (callerId : UUID) (idempotencyKey : Option String) (payload : TaskCreate)
  /-- `_get_redis` looks for the client. -/
  | askRedis (i : Nat)
  | ping (i : Nat) (answered : Bool)
  | get (i : Nat) (answered : Bool)
  | replay (i : Nat)
  | checkProject (i : Nat)
  | flush (i : Nat) (id : UUID) (now : Timestamp)
  | commit (i : Nat) (outcome : CommitOutcome)
  | respond (i : Nat)
  /-- `sent`: whether the Service Bus took the message. -/
  | publish (i : Nat) (sent : Bool)
  /-- `stored`: whether Redis took the entry, whatever the service hears of it. -/
  | setex (i : Nat) (stored : Bool)
  /-- The database fails before the commit. -/
  | fail (i : Nat)
  /-- An entry expires, or is lost. -/
  | expire (key : String)
  /-- Other requests commit. -/
  | others (projects : List Project) (tasks : List Task)

namespace PostWorld

def setPhase (w : PostWorld) (i : Nat) (r : Post) (phase : PostPhase) : PostWorld :=
  { w with posts := w.posts.set i { r with phase := phase } }

def reply (w : PostWorld) (i : Nat) (r : Post) (answer : PostAnswer) (phase : PostPhase) :
    PostWorld :=
  { w.setPhase i r phase with replies := w.replies ++ [⟨i, r.callerId, r.key, answer⟩] }

/-- `if _client is not None: return _client`, on the way to a `GET` and to a `SETEX`. -/
def askRedis (w : PostWorld) (i : Nat) (r : Post) : Option PostWorld :=
  match r.phase, r.key with
  | .received, some _ =>
      some (w.setPhase i r (if w.clients r.worker then .connected else .pinging))
  | .published t, some _ =>
      some (w.setPhase i r (if w.clients r.worker then .storeConnected t else .storePinging t))
  | _, _ => none

/-- `await client.ping()`, and `_client` set to the client or to `None`. -/
def ping (w : PostWorld) (i : Nat) (r : Post) (answered : Bool) : Option PostWorld :=
  let clients := Function.update w.clients r.worker answered
  match r.phase with
  | .pinging =>
      some { w.setPhase i r (if answered then .connected else .missed) with clients := clients }
  | .storePinging t =>
      some { w.setPhase i r (if answered then .storeConnected t else .finished t) with
        clients := clients }
  | _ => none

/-- `get_cached_response`, from `await client.get(key)` on. -/
def get (w : PostWorld) (i : Nat) (r : Post) (answered : Bool) : Option PostWorld :=
  match r.phase, r.key with
  | .connected, some k =>
      if answered then
        match (w.redis (makeKey r.callerId k)).bind readEntry with
        | none => some (w.setPhase i r .missed)
        | some (.int statusCode, body) => some (w.setPhase i r (.replaying statusCode body))
        -- no response can be made of it
        | some _ => some (w.reply i r .failed .ended)
      else some (w.setPhase i r .missed)
  | _, _ => none

/-- The replayed response is sent. -/
def replay (w : PostWorld) (i : Nat) (r : Post) : Option PostWorld :=
  match r.phase with
  | .replaying statusCode body => some (w.reply i r (.created statusCode body true) .replayed)
  | _ => none

/-- The idempotency check is behind the request. -/
def ready (r : Post) : Bool :=
  match r.phase with
  | .missed => true
  | .received => r.key.isNone
  | _ => false

/-- `await _get_owned_project(payload.project_id, caller_id, db)`. -/
def checkProject (w : PostWorld) (i : Nat) (r : Post) : Option PostWorld :=
  if ready r then
    match getOwnedProject w.projects r.payload.projectId r.callerId with
    | .ok _ => some (w.setPhase i r .checked)
    | .error e => some (w.reply i r (.refused e) .ended)
  else none

/-- `await db.flush()` and `await db.refresh(task)`. -/
def flush (w : PostWorld) (i : Nat) (r : Post) (id : UUID) (now : Timestamp) : Option PostWorld :=
  match r.phase with
  | .checked =>
      if ∀ t ∈ w.tasks, t.id ≠ id then
        some (w.setPhase i r (.flushed (r.payload.toTask r.callerId id now)))
      else none
  | _ => none

/-- `await session.commit()`. -/
def commit (w : PostWorld) (i : Nat) (r : Post) (outcome : CommitOutcome) : Option PostWorld :=
  match r.phase with
  | .flushed t =>
      match outcome with
      | .done =>
          some { w.setPhase i r (.committed t) with
            tasks := w.tasks ++ [t], commits := w.commits ++ [(i, t)] }
      | .refused => some (w.reply i r .failed .ended)
      | .lost =>
          some { w.reply i r .failed .ended with
            tasks := w.tasks ++ [t], commits := w.commits ++ [(i, t)] }
  | _ => none

/-- The 201 is sent. -/
def respond (time : AwareDatetime → String) (w : PostWorld) (i : Nat) (r : Post) : Option PostWorld :=
  match r.phase with
  | .committed t => some (w.reply i r (.created 201 (createdBody time t) false) (.responded t))
  | _ => none

/-- The first background task. -/
def publish (w : PostWorld) (i : Nat) (r : Post) (sent : Bool) : Option PostWorld :=
  match r.phase with
  | .responded t =>
      some { w.setPhase i r (.published t) with
        published := if sent then w.published ++ [taskCreated t] else w.published }
  | _ => none

/-- `await client.setex(key, IDEMPOTENCY_TTL_SECONDS, payload)`. -/
def setex (time : AwareDatetime → String) (w : PostWorld) (i : Nat) (r : Post) (stored : Bool) :
    Option PostWorld :=
  match r.phase, r.key with
  | .storeConnected t, some k =>
      some { w.setPhase i r (.finished t) with
        redis :=
          if stored then
            Function.update w.redis (makeKey r.callerId k)
              (some (entryText 201 (createdBody time t)))
          else w.redis }
  | _, _ => none

/-- An exception of the database: 500. -/
def fail (w : PostWorld) (i : Nat) (r : Post) : Option PostWorld :=
  match r.phase with
  | .checked | .flushed _ => some (w.reply i r .failed .ended)
  | _ => if ready r then some (w.reply i r .failed .ended) else none

def step (time : AwareDatetime → String) (w : PostWorld) : PostEvent → Option PostWorld
  | .arrive worker callerId key payload =>
      some { w with posts := w.posts ++ [⟨worker, callerId, key, payload, .received⟩] }
  | .askRedis i => w.posts[i]?.bind fun r => w.askRedis i r
  | .ping i answered => w.posts[i]?.bind fun r => w.ping i r answered
  | .get i answered => w.posts[i]?.bind fun r => w.get i r answered
  | .replay i => w.posts[i]?.bind fun r => w.replay i r
  | .checkProject i => w.posts[i]?.bind fun r => w.checkProject i r
  | .flush i id now => w.posts[i]?.bind fun r => w.flush i r id now
  | .commit i outcome => w.posts[i]?.bind fun r => w.commit i r outcome
  | .respond i => w.posts[i]?.bind fun r => w.respond time i r
  | .publish i sent => w.posts[i]?.bind fun r => w.publish i r sent
  | .setex i stored => w.posts[i]?.bind fun r => w.setex time i r stored
  | .fail i => w.posts[i]?.bind fun r => w.fail i r
  | .expire key => some { w with redis := Function.update w.redis key none }
  | .others projects tasks => some { w with projects := projects, tasks := tasks }

end PostWorld

/-! ## Faithful replays -/

/-- The reply is the 201 of a committed creation. -/
def Reply.Fresh (time : AwareDatetime → String) (commits : List (Nat × Task)) (f : Reply) (body : Json) :
    Prop :=
  f.answer = .created 201 body false ∧ ∃ t, (f.post, t) ∈ commits ∧ body = createdBody time t

/-- The reply is for this caller, under the same effective key. -/
def Reply.For (f : Reply) (callerId : UUID) (key : Option String) : Prop :=
  f.callerId = callerId ∧ ∃ k k', f.key = some k ∧ key = some k' ∧ effectiveKey k = effectiveKey k'

/-- **Each replay repeats an earlier fresh 201** for the same caller and effective key, whose row was
committed. -/
def FaithfulReplays (time : AwareDatetime → String) (w : PostWorld) : Prop :=
  ∀ before r later, w.replies = before ++ r :: later →
    ∀ statusCode body, r.answer = .created statusCode body true →
      statusCode = 201 ∧ ∃ f ∈ before, f.Fresh time w.commits body ∧ f.For r.callerId r.key

/-! ## Idempotency switched off -/

def PostAnswer.isReplay : PostAnswer → Bool
  | .created _ _ replay => replay
  | _ => false

/-- The replies that are no replays, without their keys. -/
def PostWorld.ownReplies (w : PostWorld) : List Reply :=
  (w.replies.filter fun r => !r.answer.isReplay).map fun r => { r with key := none }

/-- The event with idempotency switched off, if it is one then. -/
def PostEvent.off : PostEvent → Option PostEvent
  | .arrive worker callerId _ payload => some (.arrive worker callerId none payload)
  | .askRedis _ | .ping _ _ | .get _ _ | .replay _ | .setex _ _ | .expire _ => none
  | e => some e

end Microservices.Tasks
