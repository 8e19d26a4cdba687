import Autotrading.KillSwitch
import Autotrading.OrderRepository

/-!
# The order API

`app/api/router_order.py`, and the switch of `app/api/router_safety.py`. A request
with `dry_run` stores its order and sends no message.
-/
namespace Autotrading.OrderRouter

open Prog (raise ofExcept)
open OrderRepository

def httpException (statusCode : ℕ) (detail : String) : PyExc :=
  .other "HTTPException" s!"{statusCode}: {detail}"

def validatePrice (orderType : OrderType) (price : ℚ) (marketText limitText : String) :
    Except PyExc Unit :=
  match orderType with
  | .market => if price ≠ 0 then throw (httpException 400 marketText) else pure ()
  | .limit => if price ≤ 0 then throw (httpException 400 limitText) else pure ()
  | .conditional => throw (httpException 400 "지원하지 않는 order_type 입니다.")

def validateOrderRequest (stockCode : String) (quantity : ℤ) (orderType : OrderType) (price : ℚ) :
    Except PyExc Unit := do
  if !Python.isDigits stockCode.toList || stockCode.length ≠ 6 then
    throw (httpException 400 "stock_code는 6자리 숫자여야 합니다.")
  if quantity ≤ 0 then throw (httpException 400 "quantity는 1 이상이어야 합니다.")
  validatePrice orderType price "시장가 주문은 price가 0이어야 합니다."
    "지정가 주문은 price가 0보다 커야 합니다."

/-- The order id is a UUID here, so it is never blank. -/
def validateCancelRequest (quantity : ℤ) : Except PyExc Unit :=
  if quantity ≤ 0 then throw (httpException 400 "취소 수량은 1 이상이어야 합니다.") else pure ()

def validateReviseRequest (quantity : ℤ) (orderType : OrderType) (price : ℚ) :
    Except PyExc Unit := do
  if quantity ≤ 0 then throw (httpException 400 "정정 수량은 1 이상이어야 합니다.")
  validatePrice orderType price "시장가 정정은 price가 0이어야 합니다."
    "지정가 정정은 price가 0보다 커야 합니다."

def validateOriginalOrderForModifyCancel (originalOrder : Order) : Except PyExc Unit := do
  if originalOrder.orderKind = .cancel then
    throw (httpException 400 "원주문은 신규 주문(NEW) 또는 정정 주문(MODIFY)만 가능합니다.")
  if originalOrder.status ∉ [.accepted, .partialFilled] then
    throw (httpException 400 "접수 또는 부분체결 상태의 주문만 정정/취소할 수 있습니다.")
  if !Python.truthy originalOrder.brokerOrderNo || !Python.truthy originalOrder.brokerOrgNo then
    throw (httpException 400 "브로커 주문번호가 없는 주문은 정정/취소할 수 없습니다.")
  if originalOrder.remainingQty ≤ 0 then
    throw (httpException 400 "잔여 수량이 없는 주문은 정정/취소할 수 없습니다.")

/-- Store the order and, unless the request is a dry run, queue it. -/
def createAndQueue (order : OrderId → Order) (dryRun : Bool) : Program Unit := do
  let id ← Op.perform .uuid4
  createOrder (order id)
  if !dryRun then
    Op.perform (.enqueue (.processOrder id) 0)

/-- `buy_domestic_stock` and `sell_domestic_stock` differ in `order_pos` alone. -/
def newDomesticStock (settings : Settings) (orderPos : OrderAction) (stockCode : String)
    (quantity : ℤ) (orderType : OrderType) (price : ℚ) (dryRun : Bool) : Program Unit := do
  ofExcept (validateOrderRequest stockCode quantity orderType price)
  createAndQueue (fun id => {
    id
    accountNo := settings.kisAccountNo
    accountProductCode := settings.kisAccountProductCode
    stockCode
    orderPos
    orderKind := .new
    orderType
    orderPrice := some price
    orderQty := quantity
    remainingQty := quantity
    status := .pending
    createdAt := 0 }) dryRun

def buyDomesticStock (settings : Settings) := newDomesticStock settings .buy

def sellDomesticStock (settings : Settings) := newDomesticStock settings .sell

/-- The child order of a cancel or a revise request. -/
def childOrder (original : Order) (orderKind : OrderKind) (orderType : OrderType)
    (orderPrice : Option ℚ) (quantity : ℤ) (id : OrderId) : Order where
  id := id
  accountNo := original.accountNo
  accountProductCode := original.accountProductCode
  stockCode := original.stockCode
  orderPos := original.orderPos
  orderKind := orderKind
  orderType := orderType
  orderPrice := orderPrice
  orderQty := quantity
  remainingQty := quantity
  status := .pending
  originalOrderId := some original.id
  originalBrokerOrderNo := original.brokerOrderNo
  originalBrokerOrgNo := original.brokerOrgNo
  createdAt := 0

def cancelDomesticStockOrder (orderId : OrderId) (quantity : ℤ) (dryRun : Bool) : Program Unit := do
  ofExcept (validateCancelRequest quantity)
  let some original ← getOrderById (some orderId) |
    let text := Python.uuidText orderId
    raise (httpException 404 s!"주문ID를 찾을 수 없습니다. order_id: {text}")
  ofExcept (validateOriginalOrderForModifyCancel original)
  createAndQueue (childOrder original .cancel original.orderType none quantity) dryRun

def reviseDomesticStockOrder (orderNo : OrderId) (quantity : ℤ) (orderType : OrderType) (price : ℚ)
    (dryRun : Bool) : Program Unit := do
  ofExcept (validateReviseRequest quantity orderType price)
  let some original ← getOrderById (some orderNo) |
    raise (httpException 404 "원주문을 찾을 수 없습니다.")
  ofExcept (validateOriginalOrderForModifyCancel original)
  createAndQueue (childOrder original .modify orderType
    (some (if orderType = .market then 0 else price)) quantity) dryRun

end Autotrading.OrderRouter
