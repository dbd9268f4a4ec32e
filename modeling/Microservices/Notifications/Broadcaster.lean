import Microservices.Lib.Dict
import Microservices.Lib.Json
import Microservices.Lib.Mailbox
import Microservices.Lib.Schedule
import Microservices.Lib.Slots

/-!
# The SSE broadcaster

`_queues` files the queue of each connection under its user and a number of its own.
`broadcast` has no `await` in it, so it is one step. A connection is a generator: it
files its queue when it starts, waits for an item or a timeout, is suspended at each
`yield` until the next chunk is wanted, and takes its queue out when it is closed or
cancelled.
-/

namespace Microservices.Notifications

/-- `_QUEUE_MAXSIZE`. -/
def queueMaxsize : Nat := 100

/-- What `subscribe` yields. -/
inductive Frame where
  | data (payload : String)
  | keepalive
  deriving DecidableEq, Repr

def Frame.text : Frame → String
  | .data payload => "data: " ++ payload ++ "\n\n"
  | .keepalive => ": keepalive\n\n"

def Frame.payload? : Frame → Option String
  | .data payload => some payload
  | .keepalive => none

/-- Where a generator is. -/
inductive ConnectionPhase where
  | created
  /-- In `await asyncio.wait_for(queue.get(), timeout=30.0)`. -/
  | waiting
  /-- At a `yield`. -/
  | yielding
  | finished
  deriving DecidableEq, Repr

structure Connection where
  userId : String
  phase : ConnectionPhase := .created
  connId : Nat := 0
  queue : Mailbox String queueMaxsize := Mailbox.empty
  /-- What it has yielded. -/
  frames : List Frame := []

namespace Connection

/-- It has started, and has not finished. -/
def live (c : Connection) : Bool :=
  match c.phase with
  | .waiting | .yielding => true
  | _ => false

/-- The payloads read from it. -/
def reads (c : Connection) : List String := c.frames.filterMap Frame.payload?

def unread (c : Connection) : List String := c.queue.items

/-- `queue.put_nowait(payload)`; a full queue drops it. Nothing else is raised, so no connection is
found dead. -/
def put (payload : String) (c : Connection) : Connection :=
  match c.queue.put? payload with
  | some queue => { c with queue := queue }
  | none => c

end Connection

/-- `_Broadcaster`, with the generators `subscribe` has made. -/
structure Broadcaster where
  /-- `_queues`; for a queue, the place of the connection it belongs to. -/
  queues : Dict String (Dict Nat Nat) := Dict.empty
  nextConnId : Nat := 0
  connections : List Connection := []

inductive StreamEvent where
  | subscribe (userId : String)
  /-- The first chunk is asked for. -/
  | start (i : Nat)
  /-- `queue.get()` returns. -/
  | read (i : Nat)
  | timeout (i : Nat)
  /-- The next chunk is asked for. -/
  | resume (i : Nat)
  /-- The generator is closed or cancelled. -/
  | disconnect (i : Nat)
  | broadcast (eventType data : Json) (targetUserIds : List String)

/-- `json.dumps({"event_type": event_type, "data": data})`. -/
def payload (eventType data : Json) : String :=
  String.ofList (Json.dumps (.obj [("event_type", eventType), ("data", data)]))

namespace Broadcaster

/-- `self._queues[user_id]` of the `defaultdict`, without the entry it makes. -/
def userConns (b : Broadcaster) (userId : String) : Dict Nat Nat :=
  (b.queues.get? userId).getD Dict.empty

/-- `subscribe`, up to its first `await`. -/
def start (b : Broadcaster) (i : Nat) (c : Connection) : Broadcaster :=
  let connId := b.nextConnId + 1
  { queues := b.queues.set c.userId ((b.userConns c.userId).set connId i)
    nextConnId := connId
    connections := b.connections.set i { c with phase := .waiting, connId := connId } }

/-- The `finally` of `subscribe`. -/
def unregister (b : Broadcaster) (c : Connection) : Dict String (Dict Nat Nat) :=
  let userConns := (b.userConns c.userId).erase c.connId
  if userConns.entries = [] then b.queues.erase c.userId else b.queues.set c.userId userConns

/-- One turn of the loop of `broadcast` over the targets. -/
def deliverTo (b : Broadcaster) (payload : String) (connections : List Connection)
    (userId : String) : List Connection :=
  match b.queues.get? userId with
  | none => connections
  | some userConns =>
      (userConns.entries.map Prod.snd).foldl (fun connections i =>
        connections.modify i (Connection.put payload)) connections

/-- `broadcast`. -/
def broadcast (b : Broadcaster) (eventType data : Json) (targetUserIds : List String) :
    Broadcaster :=
  if targetUserIds = [] then b
  else { b with
    connections := targetUserIds.foldl (b.deliverTo (payload eventType data)) b.connections }

def yieldFrame (b : Broadcaster) (i : Nat) (c : Connection) (frame : Frame) : Broadcaster :=
  { b with
    connections :=
      b.connections.set i { c with phase := .yielding, frames := c.frames ++ [frame] } }

def step (b : Broadcaster) : StreamEvent → Option Broadcaster
  | .subscribe userId => some { b with connections := b.connections ++ [{ userId := userId }] }
  | .start i => b.connections[i]?.bind fun c =>
      match c.phase with
      | .created => some (b.start i c)
      | _ => none
  | .read i => b.connections[i]?.bind fun c =>
      match c.phase with
      | .waiting => c.queue.get?.map fun r =>
          b.yieldFrame i { c with queue := r.2 } (.data r.1)
      | _ => none
  | .timeout i => b.connections[i]?.bind fun c =>
      match c.phase with
      | .waiting => some (b.yieldFrame i c .keepalive)
      | _ => none
  | .resume i => b.connections[i]?.bind fun c =>
      match c.phase with
      | .yielding =>
          some { b with connections := b.connections.set i { c with phase := .waiting } }
      | _ => none
  | .disconnect i => b.connections[i]?.bind fun c =>
      let connections := b.connections.set i { c with phase := .finished }
      match c.phase with
      -- its body has not run, and neither does its `finally`
      | .created => some { b with connections := connections }
      | .waiting | .yielding =>
          some { b with queues := b.unregister c, connections := connections }
      | .finished => none
  | .broadcast eventType data targetUserIds => some (b.broadcast eventType data targetUserIds)

end Broadcaster

end Microservices.Notifications
