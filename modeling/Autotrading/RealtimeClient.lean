import Autotrading.KisRealtime
import Autotrading.RestoredSet

/-!
# The realtime client

`app/market/realtime/kis_realtime_client.py`: `start` connects, subscribes the codes it has again
and receives messages, and connects again when that ends. Calls of `subscribe`, `unsubscribe` and
`disconnect` run next to it. A coroutine goes from one `await` to the next in one step, and the
steps of the coroutines come in any order.
-/
namespace Autotrading.KISRealtimeClient

open RestoredSet (Update Entry)

/-- `TRID.DOMESTIC_STOCK_REALTIME_PRICE`. -/
def domesticStockRealtimePrice : String := "H0STCNT0"

/-- `RECONNECT_DELAY_SECONDS`. -/
def reconnectDelaySeconds : ℕ := 3

/-- `MAX_RECONNECT_ATTEMPTS`. -/
def maxReconnectAttempts : ℕ := 10

/-- `RealtimeSubscribeRequest`. -/
structure SubscribeRequest where
  approvalKey : String
  custtype : String := "P"
  trType : String
  contentType : String := "utf-8"
  trId : String
  trKey : String

/-- The attributes of the client. A connection is known by its number. -/
structure Client where
  ws : Option ℕ
  subscribedCodes : Finset String
  running : Bool
  approvalKey : Option String

/-- `__init__`. -/
def Client.init : Client := ⟨none, ∅, false, none⟩

namespace Client

/-- `_build_subscribe_message`. -/
def buildSubscribeMessage (client : Client) (trType trId trKey : String) : SubscribeRequest where
  approvalKey := client.approvalKey.getD ""
  trType := trType
  trId := trId
  trKey := trKey

/-- `self._ws.send(message)`, under way. -/
structure Sending where
  ws : ℕ
  message : SubscribeRequest

/-- What `subscribe` and `unsubscribe` do up to their `await`. -/
def request (client : Client) (trType stockCode : String) : Except PyExc Sending :=
  match client.ws with
  | some ws =>
    if Python.truthy client.approvalKey then
      .ok ⟨ws, client.buildSubscribeMessage trType domesticStockRealtimePrice stockCode⟩
    else .error (.other "RuntimeError" "WebSocket이 연결되지 않았습니다.")
  | none => .error (.other "RuntimeError" "WebSocket이 연결되지 않았습니다.")

/-- `subscribe` up to its `await`. -/
def subscribe (client : Client) (stockCode : String) : Except PyExc Sending :=
  client.request "1" stockCode

/-- `subscribe` from its `await`. -/
def subscribed (client : Client) (stockCode : String) : Client :=
  { client with subscribedCodes := insert stockCode client.subscribedCodes }

/-- `unsubscribe` up to its `await`. -/
def unsubscribe (client : Client) (stockCode : String) : Except PyExc Sending :=
  client.request "2" stockCode

/-- `unsubscribe` from its `await`. -/
def unsubscribed (client : Client) (stockCode : String) : Client :=
  { client with subscribedCodes := client.subscribedCodes.erase stockCode }

end Client

open Client (Sending)

/-- The routes of `router_realtime.py` that change the subscriptions. -/
inductive Route
  | subscribe
  | unsubscribe

def Route.request : Route → Client → String → Except PyExc Sending
  | subscribe, client, stockCode => client.subscribe stockCode
  | unsubscribe, client, stockCode => client.unsubscribe stockCode

def Route.complete : Route → Client → String → Client
  | subscribe, client, stockCode => client.subscribed stockCode
  | unsubscribe, client, stockCode => client.unsubscribed stockCode

/-- What a completed call does to the subscriptions. -/
def Route.update : Route → String → Update String
  | subscribe, stockCode => .add stockCode
  | unsubscribe, stockCode => .remove stockCode

/-- A call of a route that waits for its message to be sent. -/
structure Call where
  route : Route
  stockCode : String
  sending : Sending

/-- What `start` waits for. `reconnectAttempts` is zero from the connection on. -/
inductive Phase
  | created
  | approving (reconnectAttempts : ℕ)
  | opening (reconnectAttempts : ℕ)
  | resubscribing (sending : Sending) (code : String) (rest : List String)
  | receiving
  | answering (message : String)
  | sleeping (reconnectAttempts delay : ℕ)
  | ended

/-- The codes that `start` has yet to subscribe again. -/
def Phase.pending : Phase → List String
  | resubscribing _ code rest => code :: rest
  | _ => []

/-- The client, the task of `start`, the calls that wait and the number of `disconnect`s that wait
for the socket to close. -/
structure Session where
  client : Client
  phase : Phase
  calls : List Call
  closing : ℕ

namespace Session

def init : Session := ⟨.init, .created, [], 0⟩

/-- The head of the loop of `start`. -/
def attempt (s : Session) (reconnectAttempts : ℕ) : Session :=
  if s.client.running then { s with phase := .approving reconnectAttempts }
  else { s with phase := .ended }

/-- The `finally` of the loop, and on to the sleep. -/
def leave (s : Session) (reconnectAttempts : ℕ) : Session :=
  let s := { s with client.ws := none }
  if !s.client.running then { s with phase := .ended }
  else
    let reconnectAttempts := reconnectAttempts + 1
    if maxReconnectAttempts < reconnectAttempts then { s with phase := .ended }
    else
      let delay := min (reconnectDelaySeconds * reconnectAttempts) 30
      { s with phase := .sleeping reconnectAttempts delay }

/-- The loop over the codes up to its next `await`, and from its end to the first message. There is
nothing to receive from when the socket was closed in the meantime. -/
def resubscribe (s : Session) : List String → Session
  | [] => if s.client.ws.isSome then { s with phase := .receiving } else s.leave 0
  | code :: rest =>
    match s.client.subscribe code with
    | .ok sending => { s with phase := .resubscribing sending code rest }
    | .error _ => s.leave 0

end Session

/-- What happens next: `start` goes on with what it waited for, or a call or a `disconnect`
does. -/
inductive Event
  | started
  | approved (approvalKey : String)
  /-- The connection, and the codes in the order in which the set lists them. -/
  | opened (ws : ℕ) (codes : List String)
  | sent
  | received (message : Message)
  /-- What `start` waits for raises, or there are no more messages. -/
  | raised
  | awake
  | cancelled
  | call (route : Route) (stockCode : String)
  | callSent (i : ℕ)
  | callRaised (i : ℕ)
  | disconnect
  | disconnected
  | disconnectRaised

open Session in
/-- One step of a coroutine; `none` if it does not wait for that. -/
def step (python : Interpreter) (s : Session) : Event → Option Session
  | .started =>
    match s.phase with
    | .created => some (attempt { s with client.running := true } 0)
    | _ => none
  | .approved approvalKey =>
    match s.phase with
    | .approving n => some { s with client.approvalKey := some approvalKey, phase := .opening n }
    | _ => none
  | .opened ws codes =>
    match s.phase with
    | .opening _ =>
      if codes.Nodup ∧ codes.toFinset = s.client.subscribedCodes then
        some (resubscribe { s with client.ws := some ws } codes)
      else none
    | _ => none
  | .sent =>
    match s.phase with
    | .resubscribing _ code rest =>
      some (resubscribe { s with client := s.client.subscribed code } rest)
    | .answering _ => some { s with phase := .receiving }
    | _ => none
  | .received message =>
    match s.phase with
    | .receiving =>
      match onMessage python s.client.ws.isSome message with
      | .ok none => some s
      | .ok (some reply) => some { s with phase := .answering reply }
      | .error _ => some (s.leave 0)
    | _ => none
  | .raised =>
    match s.phase with
    | .approving n | .opening n => some (s.leave n)
    | .resubscribing .. | .receiving | .answering _ => some (s.leave 0)
    | _ => none
  | .awake =>
    match s.phase with
    | .sleeping n _ => some (s.attempt n)
    | _ => none
  | .cancelled =>
    match s.phase with
    | .ended => none
    | .created | .sleeping .. => some { s with phase := .ended }
    | _ => some { s with phase := .ended, client.ws := none }
  | .call route stockCode =>
    match route.request s.client stockCode with
    | .ok sending => some { s with calls := s.calls ++ [⟨route, stockCode, sending⟩] }
    | .error _ => some s
  | .callSent i =>
    s.calls[i]?.map fun call =>
      { s with client := call.route.complete s.client call.stockCode, calls := s.calls.eraseIdx i }
  | .callRaised i => s.calls[i]?.map fun _ => { s with calls := s.calls.eraseIdx i }
  | .disconnect =>
    let s := { s with client.running := false }
    some (if s.client.ws.isSome then { s with closing := s.closing + 1 } else s)
  | .disconnected =>
    if 0 < s.closing then some { s with client.ws := none, closing := s.closing - 1 } else none
  | .disconnectRaised => if 0 < s.closing then some { s with closing := s.closing - 1 } else none

/-- The call that the step completes, or the code that it subscribes again. -/
def completion (s : Session) : Event → Option (Entry String)
  | .sent =>
    match s.phase with
    | .resubscribing _ code _ => some (.restore code)
    | _ => none
  | .callSent i => s.calls[i]?.map fun call => .update (call.route.update call.stockCode)
  | _ => none

def run (python : Interpreter) : Session → List Event → Option Session
  | s, [] => some s
  | s, e :: es => (step python s e).bind fun s => run python s es

/-- What the steps of a run complete, in order. -/
def completions (python : Interpreter) : Session → List Event → List (Entry String)
  | _, [] => []
  | s, e :: es =>
    (completion s e).toList ++
      ((step python s e).map fun s => completions python s es).getD []

end Autotrading.KISRealtimeClient
