import Autotrading.OrderState
import Autotrading.Python

/-!
# Messages exchanged with the broker and the exceptions they turn into

Requests and JSON answers of `app/broker/kis/kis_order.py` with the schemas of
`app/schemas/kis/kis.py`, and `app/core/exceptions.py`. A JSON answer keeps the
fields the program reads; `refusal` is what the schema says of the other ones.
-/
namespace Autotrading

/-! ## Exceptions -/

/-- The dictionary under the key `"response"` of an error payload. -/
structure ErrorResponse where
  msgCd : Option String
  msg1 : Option String
  deriving DecidableEq

/-- The arguments of `KISError`. Of `payload` the workers read the entry
`"response"` alone. -/
structure KISError where
  message : Option String
  statusCode : Option ℕ
  errorCode : Option String
  rtCd : Option String
  msgCd : Option String
  msg1 : Option String
  response : Option ErrorResponse
  deriving DecidableEq

/-- What a call can raise. Other exceptions carry the name of their class. -/
inductive PyExc
  | kisOrder (e : KISError)
  | kisAuth (e : KISError)
  | other (type text : String)
  deriving DecidableEq

/-- `str(e)`. -/
def PyExc.text : PyExc → String
  | kisOrder e => Python.str e.message
  | kisAuth e => Python.str e.message
  | other _ text => text

/-- The exceptions that `except Exception` catches. -/
def PyExc.isException : PyExc → Bool
  | .other type _ => type ∉ ["CancelledError", "SystemExit", "KeyboardInterrupt", "GeneratorExit"]
  | _ => true

/-- The parameters of `KISError.__init__`. -/
def KISError.init : Python.Signature where
  name := "KISError.__init__"
  required := ["message"]
  optional := ["status_code", "error_code", "rt_cd", "msg_cd", "msg1", "payload"]

/-! ## JSON answers -/

/-- A text field of a JSON object. -/
inductive JsonField
  | absent
  | null
  | text (s : String)
  deriving DecidableEq

namespace JsonField

/-- `data.get(key)`. -/
def get : JsonField → Option String
  | text s => some s
  | _ => none

/-- `data.get(key, default)`. -/
def getD : JsonField → String → Option String
  | absent, d => some d
  | null, _ => none
  | text s, _ => some s

end JsonField

/-- The body of an HTTP answer. -/
inductive Body (β : Type)
  | object (data : β)
  | otherJson (typeName : String)
  | notJson (error : String)
  deriving DecidableEq

/-- An HTTP answer, or a request error, of which a timeout is one. `statusText` is
what `raise_for_status` says of a status outside 2xx. -/
inductive HttpReply (β : Type)
  | response (statusCode : ℕ) (body : Body β) (statusText : String)
  | requestError (text : String)
  deriving DecidableEq

/-- `DomesticStockOrderResult`. -/
structure DomesticStockOrderResult where
  krxFwdgOrdOrgno : String
  odno : String
  ordTmd : String
  deriving DecidableEq

/-- The field `output` of an answered order. -/
inductive OrderOutput
  | absent
  | null
  | object (output : DomesticStockOrderResult)
  | malformed (isObject : Bool)
  deriving DecidableEq

/-- A JSON object answered to an order request. -/
structure OrderAnswer where
  rtCd : JsonField
  msgCd : JsonField
  msg1 : JsonField
  output : OrderOutput
  refusal : String
  deriving DecidableEq

/-- `OrderResponse`. -/
structure OrderResponse where
  rtCd : String
  msgCd : String
  msg1 : String
  output : Option DomesticStockOrderResult
  deriving DecidableEq

/-- `OrderResponse(**data)`. -/
def OrderAnswer.validate (data : OrderAnswer) : Except PyExc OrderResponse :=
  match data.rtCd, data.msgCd, data.msg1, data.output with
  | .text rtCd, .text msgCd, .text msg1, .absent => .ok ⟨rtCd, msgCd, msg1, none⟩
  | .text rtCd, .text msgCd, .text msg1, .null => .ok ⟨rtCd, msgCd, msg1, none⟩
  | .text rtCd, .text msgCd, .text msg1, .object output => .ok ⟨rtCd, msgCd, msg1, some output⟩
  | _, _, _, _ => .error (.other "ValidationError" data.refusal)

/-- `DailyOrderExecutionItem`: what the tracking worker reads of it, and the executed quantity,
which it does not read. -/
structure DailyOrderExecutionItem where
  ordGnoBrno : String
  odno : String
  ordQty : String
  rmnQty : String
  cnclCfrmQty : String
  rjctQty : String
  avgPrvs : String
  totCcldQty : String
  deriving DecidableEq

/-- The field `output1` of an answered execution query. -/
inductive ExecutionRows
  | absent
  | null
  | rows (items : List DailyOrderExecutionItem)
  | malformed (hasLength : Bool)

/-- A JSON object answered to an execution query. -/
structure ExecutionAnswer where
  rtCd : JsonField
  msgCd : JsonField
  msg1 : JsonField
  output1 : ExecutionRows
  othersValid : Bool
  refusal : String

/-- `DailyOrderExecutionResponse`. -/
structure DailyOrderExecutionResponse where
  rtCd : String
  msgCd : String
  msg1 : String
  output1 : Option (List DailyOrderExecutionItem)
  deriving DecidableEq

/-- `DailyOrderExecutionResponse(**data)`. -/
def ExecutionAnswer.validate (data : ExecutionAnswer) :
    Except PyExc DailyOrderExecutionResponse :=
  match data.rtCd, data.msgCd, data.msg1, data.output1, data.othersValid with
  | .text rtCd, .text msgCd, .text msg1, .absent, true => .ok ⟨rtCd, msgCd, msg1, none⟩
  | .text rtCd, .text msgCd, .text msg1, .null, true => .ok ⟨rtCd, msgCd, msg1, none⟩
  | .text rtCd, .text msgCd, .text msg1, .rows items, true => .ok ⟨rtCd, msgCd, msg1, some items⟩
  | _, _, _, _, _ => .error (.other "ValidationError" data.refusal)

/-! ## Requests -/

/-- A POST request that asks the broker to create, revise or cancel an order. -/
inductive BrokerRequest
  | orderCash (side : OrderAction) (cano acntPrdtCd pdno sllType ordDvsn ordQty ordUnpr : String)
  | orderRvsecncl (cano acntPrdtCd krxFwdgOrdOrgno orgnOdno ordDvsn rvseCnclDvsnCd ordQty
      ordUnpr qtyAllOrdYn : String)
  deriving DecidableEq

/-- A GET request for the executions of the days `inqrStrtDt` to `inqrEndDt`. -/
structure ExecutionsRequest where
  cano : String
  acntPrdtCd : String
  inqrStrtDt : ℤ
  inqrEndDt : ℤ
  pdno : String
  ordGnoBrno : Option String
  odno : Option String
  deriving DecidableEq

/-- What happens to a POST request: whether the broker accepts it, and what comes
back. An accepted request may come back as an error. -/
structure HttpOutcome where
  accepted : Bool
  reply : HttpReply OrderAnswer

end Autotrading
