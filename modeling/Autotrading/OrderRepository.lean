import Autotrading.World

/-!
# The repository of orders

`app/repository/order_repository.py`, each statement with the commit behind it.
-/
namespace Autotrading.OrderRepository

def getOrderById (orderId : Option OrderId) : Program (Option Order) :=
  Op.perform (.selectOrder orderId)

def existsChildOrders (parentOrderId : OrderId) : Program Bool :=
  Op.perform (.existsChildOrders parentOrderId)

def getOrdersByRebalanceId (rebalanceId : RebalanceId) : Program (List Order) :=
  Op.perform (.ordersByRebalanceId rebalanceId)

def getRecoverableSubmitOrders : Program (List Order) := Op.perform .recoverableSubmitOrders

def getRecoverableTrackingOrders : Program (List Order) := Op.perform .recoverableTrackingOrders

/-- `create_order` with the commit of its caller. -/
def createOrder (o : Order) : Program Unit := Op.perform (.insertOrders [o])

def updateOrderStatus (orderId : OrderId) (expectedCurrentStatuses : List OrderStatus)
    (newStatus : OrderStatus) : Program Bool :=
  Op.perform (.updateOrder ⟨orderId, some expectedCurrentStatuses, .status newStatus⟩)

def updateOrderSubmitResult (orderId : OrderId) (rtCd msgCd msg1 : String)
    (brokerOrgNo brokerOrderNo : Option String) (nextStatus : OrderStatus)
    (remainingQty : Option ℤ) : Program Bool :=
  Op.perform (.updateOrder ⟨orderId, some [.processing],
    .submit rtCd msgCd msg1 brokerOrgNo brokerOrderNo nextStatus remainingQty⟩)

/-- What the tracking worker writes of an order. -/
structure TrackingResult where
  rtCd : Option String
  msgCd : Option String
  msg1 : Option String
  brokerOrgNo : Option String
  brokerOrderNo : Option String
  filledQty : ℤ
  filledAvgPrice : Option Python.Decimal
  remainingQty : ℤ
  nextStatus : OrderStatus
  deriving DecidableEq

/-- The statement of `update_order_tracking_result`. -/
def trackingUpdate (orderId : OrderId) (expectedCurrentStatuses : List OrderStatus)
    (r : TrackingResult) : OrderUpdate :=
  ⟨orderId, some expectedCurrentStatuses, .tracking r.rtCd r.msgCd r.msg1 r.brokerOrgNo
    r.brokerOrderNo r.filledQty r.filledAvgPrice r.remainingQty r.nextStatus⟩

def updateOrderTrackingResult (orderId : OrderId) (expectedCurrentStatuses : List OrderStatus)
    (r : TrackingResult) : Program Bool :=
  Op.perform (.updateOrder (trackingUpdate orderId expectedCurrentStatuses r))

def updateOrderFailureResult.signature : Python.Signature where
  name := "update_order_failure_result"
  required := ["db", "order_id", "expected_current_statuses", "rt_cd", "msg_cd", "msg1"]
  optional := ["next_status", "broker_org_no", "broker_order_no", "request_payload",
    "response_payload"]

/-- `given` are the keywords of the call; an argument not given has no value here. -/
def updateOrderFailureResult (given : List String) (orderId : OrderId)
    (expectedCurrentStatuses : List OrderStatus) (rtCd msgCd : String) (msg1 : Option String)
    (nextStatus : OrderStatus) : Program Bool :=
  updateOrderFailureResult.signature.call given <|
    Op.perform (.updateOrder ⟨orderId, some expectedCurrentStatuses,
      .failure rtCd msgCd msg1 nextStatus none none⟩)

/-- The error handlers of both workers leave out `expected_current_statuses`. -/
theorem updateOrderFailureResult_raises (orderId : OrderId) (statuses : List OrderStatus)
    (rtCd msgCd : String) (msg1 : Option String) (nextStatus : OrderStatus) :
    updateOrderFailureResult
        ["db", "order_id", "rt_cd", "msg_cd", "msg1", "next_status", "response_payload"]
        orderId statuses rtCd msgCd msg1 nextStatus =
      .raise (.other "TypeError" ("update_order_failure_result() missing 1 required positional " ++
        "argument: 'expected_current_statuses'")) :=
  Python.Signature.call_error (by decide +kernel) _

/-- The handler of worker 2 for a `KISOrderError` gives it. -/
theorem updateOrderFailureResult_binds (orderId : OrderId) (statuses : List OrderStatus)
    (rtCd msgCd : String) (msg1 : Option String) (nextStatus : OrderStatus) :
    updateOrderFailureResult
        ["db", "order_id", "expected_current_statuses", "rt_cd", "msg_cd", "msg1", "next_status",
          "response_payload"] orderId statuses rtCd msgCd msg1 nextStatus =
      Op.perform (.updateOrder ⟨orderId, some statuses,
        .failure rtCd msgCd msg1 nextStatus none none⟩) :=
  Python.Signature.call_ok (by decide +kernel) _

def updateParentOrderAfterChild.signature : Python.Signature where
  name := "update_parent_order_after_child"
  required := ["db", "order_id", "filled_qty", "remaining_qty", "next_status"]
  optional := []

def updateParentOrderAfterChild (given : List String) (orderId : OrderId)
    (filledQty remainingQty : ℤ) (nextStatus : OrderStatus) : Program Bool :=
  updateParentOrderAfterChild.signature.call given <|
    Op.perform (.updateOrder ⟨orderId, none, .parent filledQty remainingQty nextStatus⟩)

/-- The adjustment after a CANCEL child gives `expected_current_statuses`, which is no
parameter. -/
theorem updateParentOrderAfterChild_raises (orderId : OrderId) (filledQty remainingQty : ℤ)
    (nextStatus : OrderStatus) :
    updateParentOrderAfterChild
        ["db", "order_id", "expected_current_statuses", "filled_qty", "remaining_qty", "next_status"]
        orderId filledQty remainingQty nextStatus =
      .raise (.other "TypeError" ("update_parent_order_after_child() got an unexpected keyword " ++
        "argument 'expected_current_statuses'")) :=
  Python.Signature.call_error (by decide +kernel) _

end Autotrading.OrderRepository
