import Autotrading.IntText
import Autotrading.JsonText
import Autotrading.KisMessages

/-!
# Messages of the realtime feed

`app/schemas/kis/realtime.py`, and what `app/market/realtime/kis_realtime_client.py`
does with a message. The log is left out; a value that a log line formats is formatted.
-/
namespace Autotrading

/-- `KIS_REALTIME_PRICE_FIELDS`. -/
def kisRealtimePriceFields : List String :=
  ["MKSC_SHRN_ISCD", "STCK_CNTG_HOUR", "STCK_PRPR", "PRDY_VRSS_SIGN", "PRDY_VRSS", "PRDY_CTRT",
    "WGHN_AVRG_STCK_PRC", "STCK_OPRC", "STCK_HGPR", "STCK_LWPR", "ASKP1", "BIDP1", "CNTG_VOL",
    "ACML_VOL", "ACML_TR_PBMN", "SELN_CNTG_CSNU", "SHNU_CNTG_CSNU", "NTBY_CNTG_CSNU", "CTTR",
    "SELN_CNTG_SMTN", "SHNU_CNTG_SMTN", "CCLD_DVSN", "SHNU_RATE", "PRDY_VOL_VRSS_ACML_VOL_RATE",
    "OPRC_HOUR", "OPRC_VRSS_PRPR_SIGN", "OPRC_VRSS_PRPR", "HGPR_HOUR", "HGPR_VRSS_PRPR_SIGN",
    "HGPR_VRSS_PRPR", "LWPR_HOUR", "LWPR_VRSS_PRPR_SIGN", "LWPR_VRSS_PRPR", "BSOP_DATE",
    "NEW_MKOP_CLS_CODE", "TRHT_YN", "ASKP_RSQN1", "BIDP_RSQN1", "TOTAL_ASKP_RSQN",
    "TOTAL_BIDP_RSQN", "VOL_TNRT", "PRDY_SMNS_HOUR_ACML_VOL", "PRDY_SMNS_HOUR_ACML_VOL_RATE",
    "HOUR_CLS_CODE", "MRKT_TRTM_CLS_CODE", "VI_STND_PRC"]

/-- `KisRealtimePrice.model_fields.keys()`. -/
def KisRealtimePrice.modelFields : List String :=
  ["mksc_shrn_iscd", "stck_cntg_hour", "stck_prpr", "prdy_vrss_sign", "prdy_vrss", "prdy_ctrt",
    "wghn_avrg_stck_prc", "stck_oprc", "stck_hgpr", "stck_lwpr", "askp1", "bidp1", "cntg_vol",
    "acml_vol", "acml_tr_pbmn", "seln_cntg_csnu", "shnu_cntg_csnu", "ntby_cntg_csnu", "cttr",
    "seln_cntg_smtn", "shnu_cntg_smtn", "ccld_dvsn", "shnu_rate", "prdy_vol_vrss_acml_vol_rate",
    "oprc_hour", "oprc_vrss_prpr_sign", "oprc_vrss_prpr", "hgpr_hour", "hgpr_vrss_prpr_sign",
    "hgpr_vrss_prpr", "lwpr_hour", "lwpr_vrss_prpr_sign", "lwpr_vrss_prpr", "bsop_date",
    "new_mkop_cls_code", "trht_yn", "askp_rsqn1", "bidp_rsqn1", "total_askp_rsqn",
    "total_bidp_rsqn", "vol_tnrt", "prdy_smns_hour_acml_vol", "prdy_smns_hour_acml_vol_rate",
    "hour_cls_code", "mrkt_trtm_cls_code", "vi_stnd_prc"]

/-- `KisRealtimePrice`: a text for every field of the class. -/
structure KisRealtimePrice where
  values : List (String × String)
  keys : values.map Prod.fst = KisRealtimePrice.modelFields

/-- `KisRealtimePrice.from_fields`. -/
def KisRealtimePrice.fromFields (values : List String) : Except PyExc KisRealtimePrice :=
  let fieldMap := modelFields.zip values
  if h : fieldMap.map Prod.fst = modelFields then .ok ⟨fieldMap, h⟩
  else
    let missing := modelFields.length - fieldMap.length
    .error (.other "ValidationError" s!"{missing} validation errors for KisRealtimePrice")

/-- A price is built of as many values as there are fields, or of more. -/
theorem KisRealtimePrice.exists_fromFields {values : List String}
    (h : modelFields.length ≤ values.length) :
    ∃ price, fromFields values = .ok price ∧ price.values = modelFields.zip values := by
  have hkeys : (modelFields.zip values).map Prod.fst = modelFields := List.map_fst_zip h
  exact ⟨⟨modelFields.zip values, hkeys⟩, dif_pos hkeys, rfl⟩

namespace KISRealtimeClient

open JsonText (Json)

/-- What the interpreter can do before its stack is used up: how many arrays and objects in one
another `json.loads` reads, and which values a log line formats. -/
structure Interpreter where
  nesting : ℕ
  formats : Json → Bool

/-- A message of the socket. -/
inductive Message
  | text (s : String)
  | bytes

/-! ## Frames -/

/-- `text.split(sep, maxsplit)`. -/
def splitMax (sep : Char) : ℕ → List Char → List (List Char)
  | 0, text => [text]
  | maxsplit + 1, text =>
    match text.span (· ≠ sep) with
    | (part, _ :: rest) => part :: splitMax sep maxsplit rest
    | (part, []) => [part]

/-- The exceptions that `except (IndexError, ValueError)` catches of those that a record raises. -/
def isRecordError : PyExc → Bool
  | .other type _ => type ∈ ["IndexError", "ValueError", "ValidationError"]
  | _ => false

/-- The records `i` to `i + count - 1` of the fields, as far as there are fields. -/
def priceRecords (allFields : List (List Char)) : ℕ → ℕ → Except PyExc (List KisRealtimePrice)
  | 0, _ => .ok []
  | count + 1, i =>
    let start := i * kisRealtimePriceFields.length
    let stop := start + kisRealtimePriceFields.length
    if allFields.length < stop then .ok []
    else
      let fields := ((allFields.take stop).drop start).map String.ofList
      match KisRealtimePrice.fromFields fields with
      | .ok price => do
        let prices ← priceRecords allFields count (i + 1)
        pure (price :: prices)
      | .error e => if isRecordError e then priceRecords allFields count (i + 1) else .error e

/-- `_handle_realtime_data`: the records that are built. -/
def handleRealtimeData (raw : List Char) : Except PyExc (List KisRealtimePrice) :=
  match splitMax '|' 3 raw with
  | [encrypted, _, count, dataStr] =>
    match Python.parseInt? count with
    | none => .error (.other "ValueError" "invalid literal for int() with base 10")
    | some count =>
      if encrypted = ['1'] then .ok []
      else priceRecords (dataStr.splitOn '^') count.toNat 0
  | _ => .ok []

/-! ## JSON messages -/

def typeName : Json → String
  | .null => "NoneType"
  | .bool _ => "bool"
  | .int _ => "int"
  | .float _ => "float"
  | .str _ => "str"
  | .arr _ => "list"
  | .obj _ => "dict"

/-- The code points of a text. -/
def codes (s : String) : List ℕ := s.toList.map Char.toNat

/-- `members.get(key, default)`. The last member of a name is the one that is kept. -/
def member (members : List (List ℕ × Json)) (key : String) (default : Json) : Json :=
  (members.reverse.lookup (codes key)).getD default

/-- `value.get(key, default)`. -/
def get (value : Json) (key : String) (default : Json) : Except PyExc Json :=
  match value with
  | .obj members => .ok (member members key default)
  | _ => .error (.other "AttributeError" s!"'{typeName value}' object has no attribute 'get'")

/-- `value == s` for a text `s`. -/
def isText (value : Json) (s : String) : Bool :=
  match value with
  | .str units => units = codes s
  | _ => false

/-- A value in a log line. -/
def format (python : Interpreter) (value : Json) : Except PyExc Unit :=
  if python.formats value then .ok ()
  else .error (.other "RecursionError" "maximum recursion depth exceeded")

/-- What a fault of `json.loads` raises. -/
def faultExc : JsonText.Fault → PyExc
  | .decode => .other "JSONDecodeError" "Expecting value"
  | .tooManyDigits =>
    .other "ValueError" "Exceeds the limit (4300 digits) for integer string conversion"
  | .tooDeep => .other "RecursionError" "maximum recursion depth exceeded"

/-- `PINGPONG_TR_ID`. -/
def pingpongTrId : String := "PINGPONG"

/-- `message[:1] in ("0", "1")`. -/
def isFrame (message : List Char) : Bool := message.take 1 = ['0'] || message.take 1 = ['1']

/-- `on_message` of a JSON value: whether the message is sent back. -/
def handleJson (python : Interpreter) (data : Json) : Except PyExc Bool := do
  let header ← get data "header" (.obj [])
  let trId ← get header "tr_id" .null
  if isText trId pingpongTrId then pure true
  else do
    let body ← get data "body" (.obj [])
    let rtCd ← get body "rt_cd" .null
    if isText rtCd "0" || isText rtCd "1" then do
      let output ← get body "output" (.obj [])
      let msg1 ← get output "msg1" (.str [])
      format python trId
      format python msg1
      pure false
    else pure false

/-- `on_message`: the message that is sent back, if any. -/
def onMessage (python : Interpreter) (connected : Bool) : Message → Except PyExc (Option String)
  | .bytes => .ok none
  | .text message =>
    if isFrame message.toList then do
      let _ ← handleRealtimeData message.toList
      pure none
    else
      match JsonText.loads python.nesting message.toList with
      | .error .decode => .ok none
      | .error fault => .error (faultExc fault)
      | .ok data => do
        if ← handleJson python data then
          if connected then pure (some message)
          else throw (.other "AttributeError" "'NoneType' object has no attribute 'send'")
        else pure none

/-- The receive loop of `start` over the messages of a connection: what is sent back. -/
def receive (python : Interpreter) (messages : List Message) : Except PyExc (List String) := do
  let sent ← messages.mapM (onMessage python true)
  pure sent.reduceOption

end KISRealtimeClient

end Autotrading
