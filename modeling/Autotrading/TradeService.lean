import Autotrading.KisOrder

/-!
# The trade service

`app/services/kis/trade_service.py`: input checks in front of the broker client, and
the parsing of the order time behind it.
-/
namespace Autotrading.TradeService

open Prog (raise ofExcept)

def valueError (text : String) : PyExc := .other "ValueError" text

def validateStockCode (stockCode : String) : Except PyExc Unit :=
  let code := Python.strip stockCode
  if !Python.isDigits code || code.length ≠ 6 then
    throw (valueError "stock_code는 6자리 숫자여야 합니다.")
  else pure ()

/-- `price` is `str(order.order_price)`. -/
def validateOrderInputs (stockCode : String) (orderType : OrderType) (price : String) :
    Except PyExc Unit := do
  validateStockCode stockCode
  match orderType with
  | .market => pure ()
  | .limit =>
    if price = "" || price = "0" then throw (valueError "지정가 주문은 price가 필요합니다.")
  | .conditional => throw (valueError "지원하지 않는 order_type 입니다.")

/-- `ORD_DVSN` and price. -/
def resolveOrderParams (orderType : OrderType) (price : String) : String × String :=
  if orderType = .market then ("01", "0") else ("00", price)

def validateCancelInputs (orderNo quantity qtyAllOrderYn : String) : Except PyExc Unit := do
  if Python.strip orderNo = [] then throw (valueError "order_no는 필수입니다.")
  if qtyAllOrderYn ≠ "Y" && qtyAllOrderYn ≠ "N" then
    throw (valueError "qty_all_order_yn은 'Y' 또는 'N' 이어야 합니다.")
  if qtyAllOrderYn = "N" && (quantity = "" || quantity = "0") then
    throw (valueError "일부취소는 quantity가 필요합니다.")

/-- `int(ORD_TMD[i:j])`. -/
def intSlice (ordTmd : List Char) : Except PyExc ℤ :=
  let digits := String.ofList ordTmd
  match Python.int? digits with
  | some n => .ok n
  | none => .error (valueError s!"invalid literal for int() with base 10: '{digits}'")

/-- `today.replace(hour=int(ORD_TMD[:2]), minute=..., second=...)`, which raises for
an order time it cannot read. -/
def orderDatetime (output : Option DomesticStockOrderResult) : Except PyExc Unit := do
  let some out := output |
    throw (.other "AttributeError" "'NoneType' object has no attribute 'ORD_TMD'")
  let ordTmd := out.ordTmd.toList
  let hour ← intSlice (ordTmd.take 2)
  let minute ← intSlice ((ordTmd.drop 2).take 2)
  let second ← intSlice ((ordTmd.drop 4).take 2)
  if hour < 0 || 23 < hour then throw (valueError "hour must be in 0..23")
  if minute < 0 || 59 < minute then throw (valueError "minute must be in 0..59")
  if second < 0 || 59 < second then throw (valueError "second must be in 0..59")

/-- The body shared by `buy_domestic_stock` and `sell_domestic_stock`. -/
def tradeDomesticStock (byCash : String → String → Program OrderResponse) (stockCode : String)
    (orderType : OrderType) (price : String) : Program OrderResponse := do
  ofExcept (validateOrderInputs stockCode orderType price)
  let (orderMode, normalizedPrice) := resolveOrderParams orderType price
  let response ← byCash orderMode normalizedPrice
  -- the broker has accepted the order at this point
  ofExcept (orderDatetime response.output)
  pure response

def buyDomesticStock (settings : Settings) (stockCode : String) (quantity : ℤ)
    (orderType : OrderType) (price : String) : Program OrderResponse :=
  tradeDomesticStock (fun orderMode price =>
    KisOrder.buyDomesticStockByCash settings.kisAccountNo settings.kisAccountProductCode orderMode
      stockCode quantity price) stockCode orderType price

def sellDomesticStock (settings : Settings) (stockCode : String) (quantity : ℤ)
    (orderType : OrderType) (price : String) : Program OrderResponse :=
  tradeDomesticStock (fun orderMode price =>
    KisOrder.sellDomesticStockByCash settings.kisAccountNo settings.kisAccountProductCode orderMode
      stockCode quantity price) stockCode orderType price

def cancelDomesticStock (settings : Settings) (orderNo krxFwdgOrdOrgno quantity qtyAllOrderYn
    orderType : String) : Program OrderResponse := do
  ofExcept (validateCancelInputs orderNo quantity qtyAllOrderYn)
  KisOrder.modifyOrderByCash settings.kisAccountNo settings.kisAccountProductCode krxFwdgOrdOrgno
    orderNo orderType "02" quantity "0" qtyAllOrderYn

/-- Checks its input with the checks of a cancel. -/
def reviseDomesticStock (settings : Settings) (orderNo quantity : String) (orderType : OrderType)
    (price krxFwdgOrdOrgno qtyAllOrderYn : String) : Program OrderResponse := do
  ofExcept (validateCancelInputs orderNo quantity qtyAllOrderYn)
  let (orderMode, normalizedPrice) := resolveOrderParams orderType price
  KisOrder.modifyOrderByCash settings.kisAccountNo settings.kisAccountProductCode krxFwdgOrdOrgno
    orderNo orderMode "01" quantity normalizedPrice qtyAllOrderYn

/-- The execution query of an order: account, day and numbers of the order itself. -/
def getDailyOrderExecutions (request : ExecutionsRequest) : Program DailyOrderExecutionResponse :=
  KisOrder.getDailyOrderExecutions request

end Autotrading.TradeService
