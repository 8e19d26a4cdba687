import Autotrading.Fanout
import Autotrading.KisRealtime

/-!
# The order socket

`app/websocket`: `orders_websocket` registers a client's socket with the `ConnectionManager` and
keeps it open; `subscribe_order_events` broadcasts the texts of the Pub/Sub channel to the sockets
that are registered. The handlers and the subscriber go from one `await` to the next in one step, in
any order. A section under `_lock` has no `await` in it, so the lock is free whenever a task comes
to it and the section is part of the step.
-/
namespace Autotrading.ConnectionManager

open JsonText (Json)
open KISRealtimeClient (codes get isText faultExc)

/-! ## Messages -/

/-- A message with a type and one more member. -/
def typed (type key : String) (value : Json) : Json :=
  .obj [(codes "type", .str (codes type)), (codes key, value)]

/-- The message that a client gets first. -/
def connectedMessage : Json := typed "connected" "message" (.str (codes "orders websocket connected"))

/-- The message after thirty seconds without one of the client. -/
def pingMessage : Json := .obj [(codes "type", .str (codes "ping"))]

/-- What `broadcast_order_updated` broadcasts. -/
def orderUpdated (orderData : Json) : Json := typed "order_updated" "data" orderData

/-- What `broadcast_order_created` broadcasts. -/
def orderCreated (orderData : Json) : Json := typed "order_created" "data" orderData

/-- A text of the channel: what is broadcast, if anything. -/
def handleText (nesting : ℕ) (rawData : List Char) : Except PyExc (Option Json) := do
  let payload ← (JsonText.loads nesting rawData).mapError faultExc
  let eventType ← get payload "type" .null
  let eventData ← get payload "data" .null
  if isText eventType "order_updated" then pure (some (orderUpdated eventData))
  else if isText eventType "order_created" then pure (some (orderCreated eventData))
  else pure none

/-- The `except` around it logs the exception and goes on. -/
def broadcast? (nesting : ℕ) (rawData : List Char) : Option Json :=
  match handleText nesting rawData with
  | .ok message => message
  | .error _ => none

/-! ## The tasks -/

/-- What `orders_websocket` waits for with one socket. -/
inductive Handler
  | unopened
  | accepting
  | greeting
  | receiving
  | pinging
  | ended
  | cancelled
  deriving DecidableEq

/-- The handler is behind `connect` and still at work. -/
def Handler.isOpen : Handler → Bool
  | greeting | receiving | pinging => true
  | _ => false

/-- What `subscribe_order_events` waits for. -/
inductive Subscriber (WebSocket : Type)
  | created
  | listening
  | sending (message : Json) (connection : WebSocket)
      (connections deadConnections : List WebSocket)
  | ended

structure Server (WebSocket : Type) where
  connections : Finset WebSocket
  handlers : WebSocket → Handler
  subscriber : Subscriber WebSocket

/-- What happens next to a socket or to the subscriber. -/
inductive Event (WebSocket : Type)
  | opened (websocket : WebSocket)
  | accepted (websocket : WebSocket)
  | acceptRaised (websocket : WebSocket)
  | sent (websocket : WebSocket)
  /-- The client's message; whether it is a pong or not, the loop goes on. -/
  | received (websocket : WebSocket) (message : Json)
  | timedOut (websocket : WebSocket)
  | raised (websocket : WebSocket)
  | cancelled (websocket : WebSocket)
  | subscribed
  /-- `get_message` has nothing. -/
  | silence
  /-- A text of the channel, and the connections in the order in which the set lists them. -/
  | message (rawData : List Char) (connections : List WebSocket)
  | delivered
  | failed
  | subscriberRaised
  | subscriberCancelled

variable {WebSocket : Type} [DecidableEq WebSocket]

namespace Server

def init : Server WebSocket := ⟨∅, fun _ => .unopened, .created⟩

def setHandler (s : Server WebSocket) (websocket : WebSocket) (h : Handler) : Server WebSocket :=
  { s with handlers := Function.update s.handlers websocket h }

/-- `connect`, behind `accept`. -/
def connect (s : Server WebSocket) (websocket : WebSocket) : Server WebSocket :=
  { s with connections := insert websocket s.connections }

/-- `disconnect`. -/
def disconnect (s : Server WebSocket) (websocket : WebSocket) : Server WebSocket :=
  { s with connections := s.connections.erase websocket }

/-- The loop of `broadcast` up to its next `await`, and from its end to the next message. -/
def broadcast (s : Server WebSocket) (message : Json) (deadConnections : List WebSocket) :
    List WebSocket → Server WebSocket
  | [] =>
    { s with
      connections := s.connections \ deadConnections.toFinset
      subscriber := .listening }
  | connection :: connections =>
    { s with subscriber := .sending message connection connections deadConnections }

end Server

/-- One step of a task; `none` if it does not wait for that. -/
def step (nesting : ℕ) (s : Server WebSocket) : Event WebSocket → Option (Server WebSocket)
  | .opened w =>
    match s.handlers w with
    | .unopened => some (s.setHandler w .accepting)
    | _ => none
  | .accepted w =>
    match s.handlers w with
    | .accepting => some ((s.connect w).setHandler w .greeting)
    | _ => none
  | .acceptRaised w =>
    match s.handlers w with
    | .accepting => some (s.setHandler w .ended)
    | _ => none
  | .sent w =>
    match s.handlers w with
    | .greeting | .pinging => some (s.setHandler w .receiving)
    | _ => none
  | .received w _ =>
    match s.handlers w with
    | .receiving => some s
    | _ => none
  | .timedOut w =>
    match s.handlers w with
    | .receiving => some (s.setHandler w .pinging)
    | _ => none
  | .raised w =>
    if (s.handlers w).isOpen then some ((s.disconnect w).setHandler w .ended) else none
  | .cancelled w =>
    -- `CancelledError` is no `Exception`: the socket stays registered
    match s.handlers w with
    | .accepting => some (s.setHandler w .ended)
    | .greeting | .receiving | .pinging => some (s.setHandler w .cancelled)
    | _ => none
  | .subscribed =>
    match s.subscriber with
    | .created => some { s with subscriber := .listening }
    | _ => none
  | .silence =>
    match s.subscriber with
    | .listening => some s
    | _ => none
  | .message rawData connections =>
    match s.subscriber with
    | .listening =>
      match broadcast? nesting rawData with
      | some message =>
        if connections.Nodup ∧ connections.toFinset = s.connections then
          some (s.broadcast message [] connections)
        else none
      | none => some s
    | _ => none
  | .delivered =>
    match s.subscriber with
    | .sending message _ connections dead => some (s.broadcast message dead connections)
    | _ => none
  | .failed =>
    match s.subscriber with
    | .sending message connection connections dead =>
      some (s.broadcast message (dead ++ [connection]) connections)
    | _ => none
  | .subscriberRaised =>
    match s.subscriber with
    | .created | .listening => some { s with subscriber := .ended }
    | _ => none
  | .subscriberCancelled =>
    match s.subscriber with
    | .ended => none
    | _ => some { s with subscriber := .ended }

/-- What the step sends to the socket. -/
def output (w : WebSocket) (s : Server WebSocket) : Event WebSocket → List Json
  | .sent v =>
    if v = w then
      match s.handlers w with
      | .greeting => [connectedMessage]
      | .pinging => [pingMessage]
      | _ => []
    else []
  | .delivered =>
    match s.subscriber with
    | .sending message connection _ _ => if connection = w then [message] else []
    | _ => []
  | _ => []

def run (nesting : ℕ) : Server WebSocket → List (Event WebSocket) → Option (Server WebSocket)
  | s, [] => some s
  | s, e :: es => (step nesting s e).bind fun s => run nesting s es

/-- What the socket is sent in a run. -/
def sentTo (nesting : ℕ) (w : WebSocket) : Server WebSocket → List (Event WebSocket) → List Json
  | _, [] => []
  | s, e :: es =>
    output w s e ++ ((step nesting s e).map fun s => sentTo nesting w s es).getD []

/-- Whom a broadcast could not reach in the step. -/
def failure? (s : Server WebSocket) : Event WebSocket → Option WebSocket
  | .failed =>
    match s.subscriber with
    | .sending _ connection _ _ => some connection
    | _ => none
  | _ => none

/-- Whom the broadcasts of a run could not reach. -/
def failures (nesting : ℕ) : Server WebSocket → List (Event WebSocket) → List WebSocket
  | _, [] => []
  | s, e :: es =>
    (failure? s e).toList ++ ((step nesting s e).map fun s => failures nesting s es).getD []

/-- The text that the subscriber takes from the channel. -/
def Event.text? : Event WebSocket → Option (List Char)
  | .message rawData _ => some rawData
  | _ => none

/-- The texts of the channel in a run. -/
def texts (es : List (Event WebSocket)) : List (List Char) := es.filterMap Event.text?

/-- The messages that the texts of a run have the subscriber broadcast. -/
def broadcasts (nesting : ℕ) (es : List (Event WebSocket)) : List Json :=
  (texts es).filterMap (broadcast? nesting)

end Autotrading.ConnectionManager
