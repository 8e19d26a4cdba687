import Autotrading.KillSwitch
import Autotrading.OrderRepository
import Autotrading.TradeService

/-!
# Worker 1: submitting an order

`_process_order` of `app/worker/tasks_order.py`. Logging, Discord alerts and the
websocket broadcast have no effect on the stores and are left out.
-/
namespace Autotrading.ProcessOrder

open Prog (raise ofExcept)
open OrderRepository OrderState

/-- The part of `_extract_order_snapshot` that is stored in modelled columns. -/
structure OrderSnapshot where
  rtCd : String
  msgCd : String
  msg1 : String
  brokerOrgNo : Option String
  brokerOrderNo : Option String
  nextStatus : OrderStatus
  remainingQty : ℤ
  deriving DecidableEq

def extractOrderSnapshot (serviceResult : OrderResponse) (orderQty : ℤ) : OrderSnapshot :=
  let brokerOrderNo := serviceResult.output.map (·.odno)
  let nextStatus : OrderStatus :=
    if serviceResult.rtCd ≠ "0" then .failed
    else if Python.truthy brokerOrderNo then .accepted
    else .requested
  { rtCd := serviceResult.rtCd
    msgCd := serviceResult.msgCd
    msg1 := serviceResult.msg1
    brokerOrgNo := serviceResult.output.map (·.krxFwdgOrdOrgno)
    brokerOrderNo
    nextStatus
    remainingQty := if nextStatus ∈ [.requested, .accepted] then orderQty else 0 }

def isRateLimitError (e : KISError) : Bool :=
  let originalMsgCd := e.response.bind (·.msgCd)
  let originalMsg1 := Python.orElse (Python.orElse (e.response.bind (·.msg1)) e.msg1) (some "")
  originalMsgCd == some "EGW00201" || Python.inText "초당 거래건수" (Python.str originalMsg1)

/-- Refuses the order while the kill switch is on. The call of the constructor
leaves out its parameter `message`. -/
def checkKillSwitch : Program Unit := do
  if ← KillSwitchService.isOn then
    KISError.init.call ["rt_cd", "msg_cd", "msg1", "payload"] <|
      raise (.kisOrder ⟨none, none, none, some "KILL_SWITCH_ON", some "TRADING_BLOCKED",
        some "매매 차단(Kill Switch)이 활성화되어 주문이 접수되지 않았습니다.", none⟩)

/-- The refusal of the kill switch is a `TypeError`, not a `KISOrderError`. -/
theorem checkKillSwitch_eq :
    checkKillSwitch = (do
      if ← KillSwitchService.isOn then
        raise (.other "TypeError"
          "KISError.__init__() missing 1 required positional argument: 'message'")) := by
  have hbind : KISError.init.bind ["rt_cd", "msg_cd", "msg1", "payload"] =
      .error "KISError.__init__() missing 1 required positional argument: 'message'" := by
    decide +kernel
  unfold checkKillSwitch
  simp only [Python.Signature.call_error hbind]

def valueError (text : String) : PyExc := .other "ValueError" text

/-- The checks of a MODIFY or CANCEL order before its original order is read: the id
and the broker numbers of the original. -/
def checkChildOrder (tag : String) (order : Order) : Except PyExc (OrderId × String × String) := do
  let orderId := Python.uuidText order.id
  let some originalOrderId := order.originalOrderId |
    throw (valueError s!"[{tag}] 원주문 정보가 존재하지 않습니다. order_id : {orderId}")
  if !Python.truthy order.originalBrokerOrderNo then
    throw (valueError s!"[{tag}] 원주문 브로커 주문번호가 존재하지 않습니다. order_id : {orderId}")
  if !Python.truthy order.originalBrokerOrgNo then
    throw (valueError s!"[{tag}] 원주문 브로커 조직번호가 존재하지 않습니다. order_id : {orderId}")
  if order.orderQty ≤ 0 then
    throw (valueError s!"[{tag}] {tag} 주문 수량은 0보다 커야합니다. order_id : {orderId}, order_qty : {order.orderQty}")
  pure (originalOrderId, Python.str order.originalBrokerOrderNo,
    Python.str order.originalBrokerOrgNo)

/-- The checks against the original order: whether the request covers all of its
remainder. -/
def checkRemainder (tag : String) (order : Order) (originalOrderId : OrderId) :
    Option Order → Except PyExc Bool
  | none =>
    let orderId := Python.uuidText order.id
    let originalId := Python.uuidText originalOrderId
    throw (valueError s!"[{tag}] 원주문을 찾을 수 없습니다. order_id : {orderId}, original_order_id : {originalId}")
  | some original => do
    let orderId := Python.uuidText order.id
    let originalId := Python.uuidText originalOrderId
    if original.remainingQty ≤ 0 then
      throw (valueError s!"[{tag}] 원주문 잔량이 없어 {tag}할 수 없습니다. order_id : {orderId}, original_order_id : {originalId}, remaining_qty : {original.remainingQty}")
    if original.remainingQty < order.orderQty then
      throw (valueError s!"[{tag}] {tag} 주문 수량이 원주문 잔량보다 많습니다. order_id : {orderId}, order_qty : {order.orderQty}, original_order_remaining_qty : {original.remainingQty}")
    pure (original.remainingQty ≤ order.orderQty)

/-- Both groups of checks: the broker numbers, and whether the remainder is covered. -/
def checkOriginalOrder (tag : String) (order : Order) : Program (String × String × Bool) := do
  let (originalOrderId, orderNo, orgNo) ← ofExcept (checkChildOrder tag order)
  let original ← getOrderById (some originalOrderId)
  let isFull ← ofExcept (checkRemainder tag order originalOrderId original)
  pure (orderNo, orgNo, isFull)

/-- Step 4: the order request of each kind of order. -/
def sendOrder (settings : Settings) (order : Order) : Program OrderResponse := do
  let price := Python.numericText order.orderPrice
  match order.orderKind with
  | .new =>
    match order.orderPos with
    | .buy =>
      TradeService.buyDomesticStock settings order.stockCode order.orderQty order.orderType price
    | .sell =>
      TradeService.sellDomesticStock settings order.stockCode order.orderQty order.orderType price
    | pos =>
      let orderId := Python.uuidText order.id
      raise (valueError s!"알 수 없는 주문 포지션입니다. order_id : {orderId}, order_pos : {pos.value}")
  | .modify => do
    let (orderNo, orgNo, isFullModify) ← checkOriginalOrder "정정" order
    TradeService.reviseDomesticStock settings orderNo (toString order.orderQty)
      (if order.orderType = .market then .market else .limit) price orgNo
      (if isFullModify then "Y" else "N")
  | .cancel => do
    let (orderNo, orgNo, isFullCancel) ← checkOriginalOrder "취소" order
    TradeService.cancelDomesticStock settings orderNo orgNo (toString order.orderQty)
      (if isFullCancel then "Y" else "N") "01"

/-- Steps 3 and 4, between the gate and the result: token, kill switch, request. -/
def submission (settings : Settings) (order : Order) : Program OrderResponse := do
  let _accessToken ← Op.perform .accessToken
  checkKillSwitch
  sendOrder settings order

/-- Steps 5 to 7: store what the broker answered. -/
def storeResult (order : Order) (serviceResult : OrderResponse) : Program Unit := do
  let snapshot := extractOrderSnapshot serviceResult order.orderQty
  if !canTransition order.status snapshot.nextStatus then
    Op.perform .rollback
  else
    let updated ← updateOrderSubmitResult order.id snapshot.rtCd snapshot.msgCd snapshot.msg1
      snapshot.brokerOrgNo snapshot.brokerOrderNo snapshot.nextStatus (some snapshot.remainingQty)
    if !updated then
      Op.perform .rollback
    else if snapshot.nextStatus ∈ [.accepted, .requested] then
      Op.perform (.enqueue (.processOrderStatus (some order.id) 0 none) 0)

/-- The gate of step 2: `PENDING → PROCESSING`. -/
def gate (order : Order) : OrderUpdate := ⟨order.id, some [.pending], .status .processing⟩

/-- Steps 2 to 7 for the order read in step 1. -/
def submitOrder (settings : Settings) (order : Order) : Program Unit := do
  let updated ← updateOrderStatus order.id [.pending] .processing
  if updated then
    let order := (gate order).refresh order
    let serviceResult ← submission settings order
    storeResult order serviceResult

/-- Take the gate back: `PROCESSING → PENDING`. -/
def releaseOrder : Option Order → Program Unit
  | some order => do
    let _ ← updateOrderStatus order.id [.processing] .pending
  | none => Op.perform .commit

/-- `except KISOrderError`. `order` is the order read, if that far was come. -/
def handleKisOrderError (orderId : OrderId) (order : Option Order) (e : KISError) :
    Program Unit := do
  Op.perform .rollback
  if isRateLimitError e then
    releaseOrder order
    Op.perform (.enqueue (.processOrder orderId) 60)
  else
    match order with
    | some order =>
      let _ ← updateOrderFailureResult
        ["db", "order_id", "rt_cd", "msg_cd", "msg1", "next_status", "response_payload"]
        order.id [] ((Python.orElse e.rtCd (some "1")).getD "") ((Python.orElse e.msgCd
        (some "KIS_ORDER_ERROR")).getD "") (Python.orElse e.msg1 e.message) .failed
    | none => raise (.other "UnboundLocalError" "cannot access local variable 'order'")

/-- `except Exception`. -/
def handleException (order : Option Order) (e : PyExc) : Program Unit := do
  Op.perform .rollback
  match order with
  | some order =>
    let _ ← updateOrderFailureResult
      ["db", "order_id", "rt_cd", "msg_cd", "msg1", "next_status", "response_payload"]
      order.id [] "ERROR" "WORKER_EXCEPTION" (some e.text) .failed
  | none => raise (.other "UnboundLocalError" "cannot access local variable 'order'")

def handleError (orderId : OrderId) (order : Option Order) : PyExc → Program Unit
  | .kisOrder e => handleKisOrderError orderId order e
  | e => handleException order e

/-- `_process_order`. -/
def processOrder (settings : Settings) (orderId : OrderId) : Program Unit :=
  (getOrderById (some orderId)).attempt fun
    | .error e => handleError orderId none e
    | .ok none => pure ()
    | .ok (some order) =>
      (submitOrder settings order).tryExcept (handleError orderId (some order))

end Autotrading.ProcessOrder
