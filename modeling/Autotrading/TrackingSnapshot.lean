import Autotrading.OrderRepository

/-!
# Reading an execution answer

`_extract_order_tracking_snapshot`, `_resolve_parent_after_child`,
`_is_retryable_tracking_error` and `_resolve_retracking_delay` of
`app/worker/tasks_order_status.py`.
-/
namespace Autotrading.TrackingSnapshot

open OrderRepository OrderState

/-- The quantities of a row of `output1`. -/
structure RowQuantities where
  orderQty : ℤ
  remainingQty : ℤ
  cancelConfirmQty : ℤ
  rejectedQty : ℤ
  deriving DecidableEq

/-- `ord_qty` less remainder, confirmed cancels and rejects, never negative. -/
def RowQuantities.filledQty (q : RowQuantities) : ℤ :=
  max (q.orderQty - q.remainingQty - q.cancelConfirmQty - q.rejectedQty) 0

theorem RowQuantities.filledQty_nonneg (q : RowQuantities) : 0 ≤ q.filledQty := le_max_right _ _

/-- `int(to_decimal(text) or Decimal("0"))`. -/
def quantity (text : String) : Except PyExc ℤ :=
  match Python.toDecimal (some text) with
  | some d =>
    match d.toInt with
    | .ok n => .ok n
    | .error (type, text) => .error (.other type text)
  | none => .ok 0

def rowQuantities (row : DailyOrderExecutionItem) : Except PyExc RowQuantities := do
  let orderQty ← quantity row.ordQty
  let remainingQty ← quantity row.rmnQty
  let cancelConfirmQty ← quantity row.cnclCfrmQty
  let rejectedQty ← quantity row.rjctQty
  pure { orderQty, remainingQty, cancelConfirmQty, rejectedQty }

/-- The row of `output1` that carries the broker number of the order. -/
def matchedRow (brokerOrderNo : Option String) (output1 : List DailyOrderExecutionItem) :
    Option DailyOrderExecutionItem :=
  output1.find? fun row => Python.strip row.odno == Python.strip (Python.str brokerOrderNo)

/-- The next status of a parent order. -/
def resolveParentAfterChild (parentOrderQty parentFilledQty parentRemainingQty : ℤ) : OrderStatus :=
  if parentOrderQty ≤ parentFilledQty ∧ 0 < parentOrderQty then .filled
  else if 0 < parentRemainingQty then
    if 0 < parentFilledQty then .partialFilled else .accepted
  else .canceled

/-- The next status by the quantities of the order's own row. -/
def rowStatus (q : RowQuantities) : OrderStatus :=
  let filledQty := q.filledQty
  if 0 < q.orderQty ∧ q.orderQty ≤ filledQty ∧ q.remainingQty = 0 then .filled
  else if 0 < q.orderQty ∧ filledQty = 0 ∧ q.orderQty ≤ q.cancelConfirmQty ∧ q.remainingQty = 0 then
    .canceled
  else if 0 < q.remainingQty then
    if 0 < filledQty then .partialFilled else .accepted
  else if q.orderQty ≤ filledQty ∧ 0 < q.orderQty then .filled
  else if 0 < q.cancelConfirmQty then .canceled
  else if 0 < q.rejectedQty then .failed
  else if 0 < filledQty then .canceled
  else .accepted

/-- A snapshot: what is stored, and the keys present only when a row was found. -/
structure Snapshot where
  result : TrackingResult
  row : Option RowQuantities
  deriving DecidableEq

/-- The snapshot of an answer without the order's row keeps what the order holds. -/
def keptSnapshot (order : Order) (answer : DailyOrderExecutionResponse) : Snapshot where
  result := {
    rtCd := some answer.rtCd
    msgCd := some answer.msgCd
    msg1 := some answer.msg1
    brokerOrgNo := order.brokerOrgNo
    brokerOrderNo := order.brokerOrderNo
    filledQty := order.filledQty
    filledAvgPrice := order.avgFillPrice
    remainingQty := order.remainingQty
    nextStatus := order.status }
  row := none

/-- The snapshot of the order's row. A NEW order with children takes its status from
the parent policy and keeps its average price. -/
def rowSnapshot (order : Order) (answer : DailyOrderExecutionResponse)
    (row : DailyOrderExecutionItem) (q : RowQuantities) (hasChildOrders : Bool) : Snapshot :=
  let ofParent := order.orderKind = .new ∧ hasChildOrders = true
  { result := {
      rtCd := some answer.rtCd
      msgCd := some answer.msgCd
      msg1 := some answer.msg1
      brokerOrgNo := some row.ordGnoBrno
      brokerOrderNo := some row.odno
      filledQty := q.filledQty
      filledAvgPrice :=
        if ofParent then order.avgFillPrice else Python.toDecimal (some row.avgPrvs)
      remainingQty := q.remainingQty
      nextStatus :=
        if ofParent then resolveParentAfterChild q.orderQty q.filledQty q.remainingQty
        else rowStatus q }
    row := some q }

def extractOrderTrackingSnapshot (order : Order) (answer : DailyOrderExecutionResponse)
    (hasChildOrders : Bool) : Except PyExc Snapshot :=
  match answer.output1 with
  | none => .error (.other "TypeError" "'NoneType' object is not iterable")
  | some output1 =>
    match matchedRow order.brokerOrderNo output1 with
    | none => .ok (keptSnapshot order answer)
    | some row => do
      let q ← rowQuantities row
      pure (rowSnapshot order answer row q hasChildOrders)

theorem extractOrderTrackingSnapshot_kept {order : Order} {answer : DailyOrderExecutionResponse}
    {output1 : List DailyOrderExecutionItem} (hout : answer.output1 = some output1)
    (hrow : matchedRow order.brokerOrderNo output1 = none) (hasChildOrders : Bool) :
    extractOrderTrackingSnapshot order answer hasChildOrders = .ok (keptSnapshot order answer) := by
  unfold extractOrderTrackingSnapshot
  simp only [hout, hrow]

theorem extractOrderTrackingSnapshot_row {order : Order} {answer : DailyOrderExecutionResponse}
    {output1 : List DailyOrderExecutionItem} {row : DailyOrderExecutionItem} {q : RowQuantities}
    (hout : answer.output1 = some output1)
    (hrow : matchedRow order.brokerOrderNo output1 = some row) (hq : rowQuantities row = .ok q)
    (hasChildOrders : Bool) :
    extractOrderTrackingSnapshot order answer hasChildOrders =
      .ok (rowSnapshot order answer row q hasChildOrders) := by
  unfold extractOrderTrackingSnapshot
  simp only [hout, hrow, hq]
  rfl

/-- A snapshot either keeps what the order holds or reads the order's row. -/
theorem extractOrderTrackingSnapshot_cases {order : Order} {answer : DailyOrderExecutionResponse}
    {hasChildOrders : Bool} {snapshot : Snapshot}
    (h : extractOrderTrackingSnapshot order answer hasChildOrders = .ok snapshot) :
    ∃ output1, answer.output1 = some output1 ∧
      ((matchedRow order.brokerOrderNo output1 = none ∧ snapshot = keptSnapshot order answer) ∨
        ∃ row q, matchedRow order.brokerOrderNo output1 = some row ∧ rowQuantities row = .ok q ∧
          snapshot = rowSnapshot order answer row q hasChildOrders) := by
  unfold extractOrderTrackingSnapshot at h
  split at h
  · cases h
  · next output1 hout =>
    refine ⟨output1, hout, ?_⟩
    split at h
    · next hnone => exact .inl ⟨hnone, (Except.ok.inj h).symm⟩
    · next row hrow =>
      cases hq : rowQuantities row with
      | error e => rw [hq] at h; cases h
      | ok q =>
        rw [hq] at h
        exact .inr ⟨row, q, hrow, hq, (Except.ok.inj h).symm⟩

/-- What a status derived from a row says of the row: an open one whether it shows a
fill. -/
structure Derived (q : RowQuantities) (status : OrderStatus) : Prop where
  partialFilled : status = .partialFilled → 0 < q.filledQty
  accepted : status = .accepted → q.filledQty ≤ 0
  outcome : status ∈ [.accepted, .partialFilled, .filled, .canceled, .failed]

theorem derived_rowStatus (q : RowQuantities) : Derived q (rowStatus q) := by
  have hall : (rowStatus q = .partialFilled → 0 < q.filledQty) ∧
      (rowStatus q = .accepted → q.filledQty ≤ 0) ∧
      rowStatus q ∈ [.accepted, .partialFilled, .filled, .canceled, .failed] := by
    simp only [rowStatus]
    split_ifs <;> simp <;> omega
  exact ⟨hall.1, hall.2.1, hall.2.2⟩

theorem derived_resolveParentAfterChild (q : RowQuantities) :
    Derived q (resolveParentAfterChild q.orderQty q.filledQty q.remainingQty) := by
  unfold resolveParentAfterChild
  constructor
  · split_ifs <;> simp
    omega
  · split_ifs <;> simp
    omega
  · split_ifs <;> simp

theorem derived_rowSnapshot {order : Order} {answer : DailyOrderExecutionResponse}
    {row : DailyOrderExecutionItem} {q : RowQuantities} {hasChildOrders : Bool} :
    Derived q (rowSnapshot order answer row q hasChildOrders).result.nextStatus := by
  simp only [rowSnapshot]
  split
  · exact derived_resolveParentAfterChild q
  · exact derived_rowStatus q

/-- The row is closed without a confirmed cancel, by a reject or for want of a quantity. -/
def RowQuantities.ClosedUncanceled (q : RowQuantities) : Prop :=
  q.remainingQty = 0 ∧ q.cancelConfirmQty = 0 ∧ (0 < q.rejectedQty ∨ q.orderQty = 0)

/-- The two policies tell such rows apart, and no others. -/
theorem resolveParentAfterChild_eq_iff {q : RowQuantities} (horder : 0 ≤ q.orderQty)
    (hremaining : 0 ≤ q.remainingQty) (hcancel : 0 ≤ q.cancelConfirmQty)
    (hrejected : 0 ≤ q.rejectedQty) :
    resolveParentAfterChild q.orderQty q.filledQty q.remainingQty = rowStatus q ↔
      ¬ q.ClosedUncanceled := by
  unfold resolveParentAfterChild rowStatus RowQuantities.ClosedUncanceled RowQuantities.filledQty
  simp only
  -- on either side of each comparison the two cascades are at fixed statuses
  split_ifs
  all_goals
    simp
    try omega

/-! ## Errors and delays -/

def isRetryableTrackingError (e : PyExc) : Bool :=
  let ofOrderError :=
    match e with
    | .kisOrder e =>
      let msg1 := Python.strip (Python.str (Python.orElse (Python.orElse e.msg1 e.message) (some "")))
      let lower := msg1.map Char.toLower
      e.msgCd == some "EGW00201" || Python.isSub "초당 거래건수".toList msg1 ||
        Python.isSub "Server error: 500".toList msg1 || Python.isSub "timeout".toList lower ||
        Python.isSub "temporarily unavailable".toList lower
    | _ => false
  ofOrderError || Python.inLower "server error: 500" e.text || Python.inLower "timeout" e.text ||
    Python.inLower "connection" e.text || Python.inLower "temporarily unavailable" e.text

/-- The pause before the next tracking cycle in seconds; `elapsed` is in microseconds. -/
def resolveRetrackingDelay (attempt : ℕ) (elapsed : ℤ) : Option ℕ :=
  if elapsed < 90 * 1000000 then some (min (1 * (attempt + 1)) 15)
  else if 1800 * 1000000 ≤ elapsed then none
  else some 60

end Autotrading.TrackingSnapshot
