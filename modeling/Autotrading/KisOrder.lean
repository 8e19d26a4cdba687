import Autotrading.World

/-!
# The broker client for orders

`app/broker/kis/kis_order.py`. The pause between two attempts has no effect on the
stores and is left out.
-/
namespace Autotrading.KisOrder

open Prog (raise ofExcept)

/-- `HTTP_RETRY_COUNT`. -/
def httpRetryCount : ℕ := 3

/-- The texts in which the buy and the sell request differ. -/
structure CashTexts where
  failed : String
  requestFailed : String → String
  requestFailedMsg1 : String → String
  httpFailed : ℕ → String

def is2xx (statusCode : ℕ) : Bool := 200 ≤ statusCode && statusCode < 300

/-- The `KISOrderError` of a network failure in the last attempt. -/
def networkError (message msg1 : String) : PyExc :=
  .kisOrder ⟨some message, some 500, none, some "ERROR", some "NETWORK_ERROR", some msg1, none⟩

/-- The `KISOrderError` of a status outside 2xx in the last attempt: the fields of
the body where it is an object. -/
def httpStatusError (statusCode : ℕ) (body : Body OrderAnswer) (msg1 : String) : PyExc :=
  match body with
  | .object d =>
    let msgCd := d.msgCd.getD "BROKER_HTTP_ERROR"
    let msg1 := d.msg1.getD msg1
    .kisOrder ⟨msg1, some statusCode, msgCd, d.rtCd.getD "ERROR", msgCd, msg1,
      some ⟨d.msgCd.get, d.msg1.get⟩⟩
  | _ =>
    .kisOrder ⟨some msg1, some statusCode, some "BROKER_HTTP_ERROR", some "ERROR",
      some "BROKER_HTTP_ERROR", some msg1, some ⟨none, none⟩⟩

/-- The `KISOrderError` of an answer whose `rt_cd` is not `"0"`. -/
def rejected (rtCd msgCd msg1 : JsonField) (failed : String) : PyExc :=
  .kisOrder ⟨msg1.getD failed, some 400, msgCd.get, rtCd.get, msgCd.get, msg1.get, none⟩

/-- `resp.json()`, as an object with `get`. -/
def json {β : Type} : Body β → Except PyExc β
  | .object d => .ok d
  | .otherJson typeName =>
    .error (.other "AttributeError" s!"'{typeName}' object has no attribute 'get'")
  | .notJson error => .error (.other "JSONDecodeError" error)

/-- The retry loop of a cash order with `n` attempts left: the body of the first
answer with a status 2xx. A request the broker accepted is sent again when its
answer is an error. -/
def orderCashAttempts (texts : CashTexts) (request : BrokerRequest) : ℕ → Program (Body OrderAnswer)
  | 0 => raise (.other "UnboundLocalError" "cannot access local variable 'resp'")
  | n + 1 => do
    match ← Op.perform (.post request) with
    | .requestError e =>
      if n = 0 then raise (networkError (texts.requestFailed e) (texts.requestFailedMsg1 e))
      else orderCashAttempts texts request n
    | .response statusCode body _ =>
      if is2xx statusCode then pure body
      else if n = 0 then raise (httpStatusError statusCode body (texts.httpFailed statusCode))
      else orderCashAttempts texts request n

/-- What the client makes of the body of an accepted cash order. -/
def parseOrderCash (texts : CashTexts) (body : Body OrderAnswer) : Except PyExc OrderResponse := do
  let data ← json body
  if data.rtCd.get ≠ some "0" then
    throw (rejected data.rtCd data.msgCd data.msg1 texts.failed)
  -- `data.get("output", {}).get("ODNO")`
  match data.output with
  | .null => throw (.other "AttributeError" "'NoneType' object has no attribute 'get'")
  | .malformed false => throw (.other "AttributeError" "object has no attribute 'get'")
  | _ => data.validate

def orderCash (texts : CashTexts) (request : BrokerRequest) : Program OrderResponse := do
  let body ← orderCashAttempts texts request httpRetryCount
  ofExcept (parseOrderCash texts body)

/-- `str(int(Decimal(str(price))))` of the price's text, `none` for a text that is
no finite number. -/
def priceText (price : String) : Except PyExc String :=
  match Python.Decimal.parse? price with
  | some d =>
    match d.toInt with
    | .ok n => .ok (toString n)
    | .error (type, text) => .error (.other type text)
  | none => .error (.other "InvalidOperation" "[<class 'decimal.ConversionSyntax'>]")

def buyTexts : CashTexts where
  failed := "주식 매수 주문 실패"
  requestFailed e := s!"주식 매수 주문 요청 실패: {e}"
  requestFailedMsg1 e := s!"주식 매수 주문 요청 실패: {e}"
  httpFailed code := s!"주식 매수 주문 요청 실패: HTTP {code}"

def sellTexts : CashTexts where
  failed := "주식 매도 주문 실패"
  requestFailed e := s!"주식 매도 주문 요청 실패: {e}"
  requestFailedMsg1 e := s!"주식 매도 주문 요청 실패 : {e}"
  httpFailed code := s!"주식 매도 주문 요청 실패: HTTP {code}"

def buyDomesticStockByCash (accountNo accountProductCode orderType stockCode : String)
    (quantity : ℤ) (price : String) : Program OrderResponse := do
  let price ← ofExcept (priceText price)
  orderCash buyTexts (.orderCash .buy accountNo accountProductCode stockCode "" orderType
    (toString quantity) price)

def sellDomesticStockByCash (accountNo accountProductCode orderType stockCode : String)
    (quantity : ℤ) (price : String) : Program OrderResponse := do
  let price ← ofExcept (priceText price)
  orderCash sellTexts (.orderCash .sell accountNo accountProductCode stockCode "01" orderType
    (toString quantity) price)

/-- The retry loop of `modify_order_by_cash` with `n` attempts left. A status
outside 2xx ends it even when attempts are left. -/
def modifyOrderAttempts (request : BrokerRequest) : ℕ → Program OrderResponse
  | 0 => raise (.other "AttributeError" "'NoneType' object has no attribute 'output'")
  | n + 1 => do
    match ← Op.perform (.post request) with
    | .requestError e =>
      if n = 0 then
        raise (networkError s!"주식 주문 정정/취소 요청 실패: {e}" s!"주식 주문 정정/취소 요청 실패: {e}")
      else modifyOrderAttempts request n
    | .response statusCode body _ =>
      if is2xx statusCode then do
        let data ← ofExcept (json body)
        if data.rtCd.get ≠ some "0" then
          raise (rejected data.rtCd data.msgCd data.msg1 "주식 주문 정정/취소 실패")
        else ofExcept data.validate
      else if n = 0 then
        raise (httpStatusError statusCode body s!"주식 주문 정정/취소 요청 실패: HTTP {statusCode}")
      else
        raise (.kisOrder ⟨some "주식 주문 정정/취소 중 오류가 발생했습니다.", none, none, none, none, none, none⟩)

def modifyOrderByCash (accountNo accountProductCode krxFwdgOrdOrgno orderNo orderType
    reviseCancelType quantity revisePrice qtyAllOrderYn : String) : Program OrderResponse := do
  let price ← ofExcept (priceText revisePrice)
  modifyOrderAttempts (.orderRvsecncl accountNo accountProductCode krxFwdgOrdOrgno orderNo orderType
    reviseCancelType quantity price qtyAllOrderYn) httpRetryCount

/-- What the client makes of the body of an answered execution query. -/
def parseExecutions (body : Body ExecutionAnswer) : Except PyExc DailyOrderExecutionResponse := do
  let data ← json body
  if data.rtCd.get ≠ some "0" then
    throw (rejected data.rtCd data.msgCd data.msg1 "주식일별 주문 체결 조회 실패")
  -- `len(data.get('output1', []))`
  match data.output1 with
  | .null => throw (.other "TypeError" "object of type 'NoneType' has no len()")
  | .malformed false => throw (.other "TypeError" "object has no len()")
  | _ => data.validate

/-- The retry loop of `get_daily_order_executions` with `n` attempts left. -/
def dailyOrderExecutionsAttempts (request : ExecutionsRequest) :
    ℕ → Program DailyOrderExecutionResponse
  | 0 => raise (.other "AttributeError" "'NoneType' object has no attribute 'output1'")
  | n + 1 => do
    match ← Op.perform (.get request) with
    | .requestError e =>
      if n = 0 then
        raise (networkError s!"주식일별 주문 체결 조회 실패: {e}" s!"주식일별 주문 체결 조회 실패: {e}")
      else dailyOrderExecutionsAttempts request n
    | .response statusCode body statusText =>
      if is2xx statusCode then ofExcept (parseExecutions body)
      else
        let e := if 500 ≤ statusCode && statusCode < 600 then s!"Server error: {statusCode}" else statusText
        let msg := s!"주식일별 주문 체결 조회 실패: {e}"
        if 400 ≤ statusCode && statusCode < 500 then
          raise (.kisOrder ⟨some msg, some statusCode, none, some "ERROR", some "NETWORK_ERROR",
            some msg, none⟩)
        else if n = 0 then raise (networkError msg msg)
        else dailyOrderExecutionsAttempts request n

def getDailyOrderExecutions (request : ExecutionsRequest) : Program DailyOrderExecutionResponse :=
  dailyOrderExecutionsAttempts request httpRetryCount

end Autotrading.KisOrder
