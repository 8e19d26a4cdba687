import Autotrading.JsonDump
import Autotrading.MetricsAdapters
import Autotrading.OrderBroadcast
import Autotrading.ProgramRules

/-!
# Publishing an order

`app/websocket/publisher.py` and `app/websocket/serializers.py`: the row of an order and that of its
parent go to the Pub/Sub channel as JSON texts. The subscriber of the order socket reads them back.
-/
namespace Autotrading

open JsonText (Json Plain IsText dump)
open KISRealtimeClient (codes member isText)

/-! ## The payload -/

/-- The text stored for a kind. -/
def OrderKind.value : OrderKind → String
  | new => "new"
  | modify => "modify"
  | cancel => "cancel"

/-- The text stored for an order type. -/
def OrderType.value : OrderType → String
  | market => "market"
  | limit => "limit"
  | conditional => "conditional"

/-- The text stored for a status. -/
def OrderStatus.value : OrderStatus → String
  | pending => "PENDING"
  | processing => "PROCESSING"
  | requested => "REQUESTED"
  | failed => "FAILED"
  | accepted => "ACCEPTED"
  | partialFilled => "PARTIAL_FILLED"
  | filled => "FILLED"
  | canceled => "CANCELED"
  | timeout => "TIME_OUT"

/-- A row of `orders` with the columns that only the payload shows. -/
structure StoredOrder where
  order : Order
  market : String
  requestedAt : Option Instant
  submittedAt : Option Instant
  updatedAt : Option Instant

namespace OrderPublisher

/-- `datetime.isoformat()` of a time in UTC. -/
def datetimeIsoformat (t : Instant) : String :=
  let us := t % microsecondsPerDay
  let digits (width : ℕ) (n : ℤ) := zfill width (toString n).toList
  let seconds := us / 1000000
  let clock := digits 2 (seconds / 3600) ++ [':'] ++ digits 2 (seconds / 60 % 60) ++ [':'] ++
    digits 2 (seconds % 60)
  let fraction := if us % 1000000 = 0 then [] else '.' :: digits 6 (us % 1000000)
  isoformat (t / microsecondsPerDay) ++ String.ofList ('T' :: clock ++ fraction ++ "+00:00".toList)

example : datetimeIsoformat 1704164645000120 = "2024-01-02T03:04:05.000120+00:00" := by
  decide +kernel

/-- `str(d)`. -/
def decimalText : Python.Decimal → String
  | .finite q => Python.numericText (some q)
  | .nan => "NaN"
  | .infinity => "Infinity"

/-- A text, or `None`. -/
def optional : Option String → Json
  | some s => .str (codes s)
  | none => .null

def text (s : String) : Json := .str (codes s)

/-- `_decimal_to_str`. -/
def decimalToStr (value : Option Python.Decimal) : Json := optional (value.map decimalText)

/-- The members of a payload. -/
def payloadMembers (row : StoredOrder) : List (String × Json) :=
  let o := row.order
  [
    ("id", text (Python.uuidText o.id)),
    ("account_no", text o.accountNo),
    ("account_product_code", text o.accountProductCode),
    ("market", text row.market),
    ("stock_code", text o.stockCode),
    ("order_pos", text o.orderPos.value),
    ("order_kind", text o.orderKind.value),
    ("order_type", text o.orderType.value),
    ("order_price", decimalToStr (o.orderPrice.map .finite)),
    ("order_qty", .int o.orderQty),
    ("status", text o.status.value),
    ("requested_at", optional (row.requestedAt.map datetimeIsoformat)),
    ("submitted_at", optional (row.submittedAt.map datetimeIsoformat)),
    ("original_order_id", optional (o.originalOrderId.map Python.uuidText)),
    ("original_broker_order_no", optional o.originalBrokerOrderNo),
    ("original_broker_org_no", optional o.originalBrokerOrgNo),
    ("broker_order_no", optional o.brokerOrderNo),
    ("broker_org_no", optional o.brokerOrgNo),
    ("rt_cd", optional o.rtCd),
    ("msg_cd", optional o.msgCd),
    ("msg1", optional o.msg1),
    ("filled_qty", .int o.filledQty),
    ("remaining_qty", .int o.remainingQty),
    ("avg_fill_price", decimalToStr o.avgFillPrice),
    ("error_message", optional o.errorMessage),
    ("created_at", text (datetimeIsoformat o.createdAt)),
    ("updated_at", optional (row.updatedAt.map datetimeIsoformat))]

/-- `serialize_order_ws_payload`. -/
def serializeOrderWsPayload (row : StoredOrder) : Json :=
  .obj ((payloadMembers row).map fun (key, value) => (codes key, value))

/-- What is published of a row. -/
def orderText (row : StoredOrder) : List Char :=
  dump (ConnectionManager.typed "order_updated" "data" (serializeOrderWsPayload row))

/-! ## The publisher -/

inductive PublishOp
  | selectOrder (id : OrderId)
  | publish (message : List Char)

abbrev PublishAns : PublishOp → Type
  | .selectOrder _ => Option StoredOrder
  | .publish _ => Unit

abbrev PublishProgram : Type → Type := Prog PublishOp PublishAns PyExc

open Prog (perform tryExcept raise)

/-- `get_order_by_id`. -/
def getOrderById (orderId : OrderId) : PublishProgram (Option StoredOrder) :=
  perform (PublishOp.selectOrder orderId)

/-- `_publish_message` of an update of the row. -/
def publishMessage (row : StoredOrder) : PublishProgram Unit :=
  perform (PublishOp.publish (orderText row))

/-- The parent of a row that is shown, in the `try` of `publish_order_update`. -/
def publishParent (order : StoredOrder) (includeParent : Bool) : PublishProgram Unit :=
  match order.order.originalOrderId with
  | some originalOrderId =>
    if includeParent then do
      match ← getOrderById originalOrderId with
      | some parentOrder => publishMessage parentOrder
      | none => pure ()
    else pure ()
  | none => pure ()

/-- `publish_order_update`. An exception is logged; a cancellation goes on. -/
def publishOrderUpdate (orderId : OrderId) (includeParent : Bool) : PublishProgram Unit :=
  tryExcept (do
      match ← getOrderById orderId with
      | some order => do
        publishMessage order
        publishParent order includeParent
      | none => pure ())
    fun e => if e.isException then pure () else raise e

/-! ## What goes to the channel -/

/-- The row was the answer to the last call, a look at this order. -/
def JustRead (h : Prog.History PublishOp PublishAns PyExc) (id : OrderId) (row : StoredOrder) :
    Prop :=
  ∃ before n, h = before ++ [(n, ⟨.selectOrder id, .ok (some row)⟩)]

/-- The row was the answer to a look at this order. -/
def Read (h : Prog.History PublishOp PublishAns PyExc) (id : OrderId) (row : StoredOrder) : Prop :=
  ∃ n, (n, ⟨.selectOrder id, .ok (some row)⟩) ∈ h

/-- Every text that goes to the channel is that of a row just read: the row of the order, or with
`includeParent` that of the order which it names as its original. -/
def Publishes (orderId : OrderId) (includeParent : Bool)
    (h : Prog.History PublishOp PublishAns PyExc) : PublishOp → Prop
  | .selectOrder _ => True
  | .publish message =>
    ∃ id row, JustRead h id row ∧ message = orderText row ∧
      (id = orderId ∨ includeParent = true ∧ ∃ order, Read h orderId order ∧
        order.order.originalOrderId = some id)

section Calls
variable {orderId : OrderId} {includeParent : Bool}
  {h : Prog.History PublishOp PublishAns PyExc}

theorem justRead_concat (h : Prog.History PublishOp PublishAns PyExc) (n : ℕ) (id : OrderId)
    (row : StoredOrder) : JustRead (h ++ [(n, ⟨.selectOrder id, .ok (some row)⟩)]) id row :=
  ⟨h, n, rfl⟩

theorem Read.concat {id : OrderId} {row : StoredOrder} (hread : Read h id row)
    (more : Prog.History PublishOp PublishAns PyExc) : Read (h ++ more) id row :=
  hread.imp fun _ hmem => List.mem_append_left more hmem

theorem JustRead.read {id : OrderId} {row : StoredOrder} (hread : JustRead h id row) :
    Read h id row := by
  obtain ⟨before, n, rfl⟩ := hread
  exact ⟨n, by simp⟩

theorem along_getOrderById {id : OrderId} {f : Option StoredOrder → PublishProgram Unit}
    {post : Prog.History PublishOp PublishAns PyExc → Except PyExc Unit → Prop}
    (herror : ∀ n e, post (h ++ [(n, ⟨.selectOrder id, .error e⟩)]) (.error e))
    (hok : ∀ n row?, Prog.Along (Publishes orderId includeParent) post
      (h ++ [(n, ⟨.selectOrder id, .ok row?⟩)]) (f row?)) :
    Prog.Along (Publishes orderId includeParent) post h (getOrderById id >>= f) := by
  rw [Prog.bind_def, Prog.along_attempt]
  refine Prog.Along.perform (o := PublishOp.selectOrder id) trivial fun n r => ?_
  cases r with
  | error e => exact (Prog.along_raise e).mpr (herror n e)
  | ok row? => exact hok n row?

theorem along_publishMessage {post : Prog.History PublishOp PublishAns PyExc →
      Except PyExc Unit → Prop} {id : OrderId} {row : StoredOrder} (hread : JustRead h id row)
    (hid : id = orderId ∨ includeParent = true ∧ ∃ order, Read h orderId order ∧
      order.order.originalOrderId = some id)
    (hpost : ∀ n r, post (h ++ [(n, ⟨.publish (orderText row), r⟩)]) r) :
    Prog.Along (Publishes orderId includeParent) post h (publishMessage row) :=
  Prog.Along.perform (o := PublishOp.publish (orderText row)) ⟨id, row, hread, rfl, hid⟩ hpost

theorem along_publishParent {order : StoredOrder} (hread : Read h orderId order) :
    Prog.Along (Publishes orderId includeParent) (fun h' _ => h'.length ≤ h.length + 2) h
      (publishParent order includeParent) := by
  unfold publishParent
  cases horiginal : order.order.originalOrderId with
  | none => exact (Prog.along_pure ()).mpr (Nat.le_add_right _ _)
  | some originalOrderId =>
    cases includeParent with
    | false => exact (Prog.along_pure ()).mpr (Nat.le_add_right _ _)
    | true =>
      refine along_getOrderById (fun n e => by simp) fun n row? => ?_
      cases row? with
      | none => exact (Prog.along_pure ()).mpr (by simp)
      | some parentOrder =>
        exact along_publishMessage (justRead_concat h n originalOrderId parentOrder)
          (.inr ⟨rfl, order, hread.concat _, horiginal⟩) (fun m r => by simp)

/-- Whatever the database and the channel answer: only rows just read go to the channel, the call
makes at most four calls and ends normally unless it is cancelled. -/
theorem publishes_just_read (orderId : OrderId) (includeParent : Bool) :
    Prog.Along (Publishes orderId includeParent)
      (fun h r => h.length ≤ 4 ∧ ∀ e, r = .error e → e.isException = false) []
      (publishOrderUpdate orderId includeParent) := by
  have hbody : Prog.Along (Publishes orderId includeParent) (fun h _ => h.length ≤ 4) []
      (do
        match ← getOrderById orderId with
        | some order => do
          publishMessage order
          publishParent order includeParent
        | none => pure ()) := by
    refine along_getOrderById (fun n e => by simp) fun n row? => ?_
    cases row? with
    | none => exact (Prog.along_pure ()).mpr (by simp)
    | some order =>
      have hread := justRead_concat [] n orderId order
      have hmessage : Prog.Along (Publishes orderId includeParent)
          (fun h' _ => h'.length ≤ 2 ∧ Read h' orderId order) _ (publishMessage order) :=
        along_publishMessage hread (.inl rfl) fun m r => ⟨by simp, hread.read.concat _⟩
      refine hmessage.bind (fun h' _ _ hh' => ?_) fun h' e _ hh' => by omega
      exact (along_publishParent hh'.2).mono (fun _ _ hq => hq) fun h'' r hle => by omega
  refine hbody.tryExcept (fun h' a _ hle => ⟨hle, by simp⟩) fun h' e _ hle => ?_
  by_cases hexc : e.isException = true
  · rw [if_pos hexc]
    exact (Prog.along_pure ()).mpr ⟨hle, by simp⟩
  · rw [if_neg hexc]
    refine (Prog.along_raise e).mpr ⟨hle, fun e' he => ?_⟩
    obtain rfl := Except.error.inj he
    simpa using hexc

end Calls

/-! ## What the clients see of it -/

theorem isText_codes (s : String) : IsText (codes s) := by
  intro n hn
  obtain ⟨c, -, rfl⟩ := List.mem_map.mp hn
  exact c.valid

theorem plain_text (depth : ℕ) (s : String) : Plain depth (text s) := .str depth (isText_codes s)

theorem plain_optional (depth : ℕ) (s : Option String) : Plain depth (optional s) := by
  cases s with
  | none => exact .null depth
  | some s => exact plain_text depth s

/-- The numbers of an `Integer` column are written with few digits. -/
theorem plain_integer (depth : ℕ) {n : ℤ} (hn : Order.fitsInteger n = true) :
    Plain depth (.int n) := by
  simp only [Order.fitsInteger, Bool.and_eq_true, decide_eq_true_eq] at hn
  have hlength : (Nat.toDigits 10 n.natAbs).length ≤ 10 :=
    (Nat.length_toDigits_le_iff (by decide) (by decide)).mpr (by omega)
  exact .int depth (hlength.trans (by decide))

theorem plain_payload {row : StoredOrder} (hfits : row.order.Fits) :
    Plain 1 (serializeOrderWsPayload row) := by
  have hints : Order.fitsInteger row.order.orderQty = true ∧
      Order.fitsInteger row.order.filledQty = true ∧
      Order.fitsInteger row.order.remainingQty = true := by
    simp only [Order.Fits, Order.fits, Bool.and_eq_true] at hfits
    exact ⟨by tauto, by tauto, by tauto⟩
  have hall : ∀ pair ∈ payloadMembers row, Plain 0 pair.2 := by
    simp [payloadMembers, decimalToStr, plain_text, plain_optional, plain_integer, hints]
  constructor
  · intro member hmember
    obtain ⟨pair, -, rfl⟩ := List.mem_map.mp hmember
    exact isText_codes pair.1
  · intro member hmember
    obtain ⟨pair, hpair, rfl⟩ := List.mem_map.mp hmember
    exact hall pair hpair

theorem plain_orderUpdated {payload : Json} (h : Plain 1 payload) :
    Plain 2 (ConnectionManager.orderUpdated payload) := by
  refine .obj ?_ ?_ <;> simp only [List.forall_mem_cons, List.not_mem_nil, false_imp_iff,
    implies_true, and_true]
  · exact ⟨isText_codes _, isText_codes _⟩
  · exact ⟨plain_text 1 _, h⟩

/-- The subscriber broadcasts of a published row what the publisher put in. -/
theorem broadcast?_orderText {nesting : ℕ} {row : StoredOrder} (hfits : row.order.Fits)
    (hnesting : 2 ≤ nesting) :
    ConnectionManager.broadcast? nesting (orderText row) =
      some (ConnectionManager.orderUpdated (serializeOrderWsPayload row)) := by
  have hplain := (plain_orderUpdated (plain_payload hfits)).mono hnesting
  refine ConnectionManager.broadcast?_eq_some_iff.mpr ⟨_, JsonText.loads_dump hplain, .inl ⟨?_, ?_⟩⟩
  · rfl
  · rfl

/-- The channel delivers the texts of rows that were published: a client that is registered from
one time to a later one, with no broadcast under way at either, is sent the payloads of these rows,
each once and in the order in which they were published. -/
theorem sent_published {WebSocket : Type} [DecidableEq WebSocket] {nesting : ℕ} {w : WebSocket}
    {es es' : List (ConnectionManager.Event WebSocket)} {s₁ s₂ : ConnectionManager.Server WebSocket}
    {rows : List StoredOrder} (hnesting : 2 ≤ nesting) (hfits : ∀ row ∈ rows, row.order.Fits)
    (h₁ : ConnectionManager.run nesting .init es = some s₁) (hmem₁ : w ∈ s₁.connections)
    (hsub₁ : s₁.subscriber = .listening)
    (h₂ : ConnectionManager.run nesting s₁ es' = some s₂) (hmem₂ : w ∈ s₂.connections)
    (hsub₂ : s₂.subscriber = .listening)
    (htexts : ConnectionManager.texts es' = rows.map orderText) :
    (ConnectionManager.sentTo nesting w s₁ es').filter ConnectionManager.isOrderMessage =
      rows.map fun row => ConnectionManager.orderUpdated (serializeOrderWsPayload row) := by
  rw [ConnectionManager.sent_while_registered h₁ hmem₁ hsub₁ h₂ hmem₂ hsub₂,
    ConnectionManager.broadcasts, htexts, List.filterMap_map]
  have hread : ∀ row ∈ rows, (ConnectionManager.broadcast? nesting ∘ orderText) row =
      some (ConnectionManager.orderUpdated (serializeOrderWsPayload row)) :=
    fun row hrow => broadcast?_orderText (hfits row hrow) hnesting
  rw [List.filterMap_congr hread, List.filterMap_eq_map']

/-- A buy order that was just stored. -/
def boughtRow : StoredOrder where
  order := {
    id := 1, accountNo := "12345678", accountProductCode := "01", stockCode := "005930"
    orderPos := .buy, orderKind := .new, orderType := .market, orderPrice := none, orderQty := 3
    status := .pending, createdAt := 0 }
  market := "KRX"
  requestedAt := some 0
  submittedAt := none
  updatedAt := some 0

theorem sent_published_bought : ∃ s₁ s₂ : ConnectionManager.Server ℕ,
    ConnectionManager.run 2 .init [.opened 0, .accepted 0, .sent 0, .subscribed] = some s₁ ∧
    ConnectionManager.run 2 s₁ [.message (orderText boughtRow) [0], .delivered] = some s₂ ∧
    (ConnectionManager.sentTo 2 0 s₁ [.message (orderText boughtRow) [0], .delivered]).filter
      ConnectionManager.isOrderMessage =
        [ConnectionManager.orderUpdated (serializeOrderWsPayload boughtRow)] := by
  have hfits : ∀ row ∈ [boughtRow], row.order.Fits := by
    simp only [List.mem_singleton, forall_eq]
    decide +kernel
  have hbroadcast := broadcast?_orderText (hfits boughtRow (by simp)) (le_refl 2)
  have hsecond : ∀ s₁ : ConnectionManager.Server ℕ, s₁.subscriber = .listening →
      s₁.connections = {0} →
      ConnectionManager.run 2 s₁ [.message (orderText boughtRow) [0], .delivered] =
        some { s₁ with connections := {0} \ ∅, subscriber := .listening } := by
    intro s₁ hsub hconn
    simp [ConnectionManager.run, ConnectionManager.step, hsub, hconn, hbroadcast,
      ConnectionManager.Server.broadcast]
  refine ⟨_, _, rfl, hsecond _ rfl rfl, ?_⟩
  have h₁ : ConnectionManager.run 2 (.init : ConnectionManager.Server ℕ)
      [.opened 0, .accepted 0, .sent 0, .subscribed] = some _ := rfl
  exact sent_published (le_refl 2) hfits h₁ (by decide) rfl (hsecond _ rfl rfl) (by decide) rfl rfl

end OrderPublisher

end Autotrading
