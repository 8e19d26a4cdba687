import Autotrading.TradeService
import Autotrading.TrackingSnapshot

/-!
# Worker 2: tracking an order

`_process_order_status` of `app/worker/tasks_order_status.py`. Objects the session
holds are followed by hand: an `UPDATE` refreshes the loaded order it matches, and
a later `SELECT` gives loaded objects back as the session holds them.
-/
namespace Autotrading.ProcessOrderStatus

open Prog (raise ofExcept)
open OrderRepository OrderState TrackingSnapshot

/-- The arguments of one cycle: the attempt, the start of the chain and the time
since then in microseconds. -/
structure Cycle where
  attempt : ℕ
  firstTrackedAt : Instant
  elapsed : ℤ

/-- The UTC day of an instant. -/
def utcDay (t : Instant) : ℤ := t / 86400000000

def executionsRequest (order : Order) : ExecutionsRequest where
  cano := order.accountNo
  acntPrdtCd := order.accountProductCode
  inqrStrtDt := utcDay order.createdAt
  inqrEndDt := utcDay order.createdAt
  pdno := order.stockCode
  ordGnoBrno := order.brokerOrgNo
  odno := order.brokerOrderNo

/-- `publish_order_update`, for the objects it loads into the session. -/
def publishOrderUpdate (order : Order) : Program (List Order) :=
  Prog.tryExcept (do
      let some _ ← getOrderById (some order.id) | pure []
      Op.perform .publish
      let some parentId := order.originalOrderId | pure []
      let some parent ← getOrderById (some parentId) | pure []
      Op.perform .publish
      pure [parent])
    fun _ => pure []

/-- `_trigger_rebalance_snapshot_if_completed`. `loaded` are the objects the session
holds. The error log reads an object that the rollback has expired. -/
def triggerRebalanceSnapshotIfCompleted (order : Order) (loaded : List Order) : Program Unit :=
  match order.rebalanceId with
  | none => pure ()
  | some rebalanceId =>
    Prog.tryExcept (do
        let rows ← getOrdersByRebalanceId rebalanceId
        let rebalanceOrders := rows.map fun r => (loaded.find? fun o => o.id = r.id).getD r
        if rebalanceOrders ≠ [] ∧ ∀ o ∈ rebalanceOrders, o.status ∈ terminalStatuses then
          Op.perform (.enqueue (.captureRebalanceSnapshot rebalanceId) 0))
      fun _ => do
        Op.perform .rollback
        raise (.other "MissingGreenlet" "greenlet_spawn has not been called")

/-- `_requeue_order_tracking`. -/
def requeueOrderTracking (orderPk : Option OrderId) (cycle : Cycle) : Program Unit :=
  match resolveRetrackingDelay cycle.attempt cycle.elapsed with
  | none => pure ()
  | some delay =>
    Op.perform (.enqueue
      (.processOrderStatus orderPk (cycle.attempt + 1) (some cycle.firstTrackedAt)) delay)

/-- Step 8-1: the parent of a CANCEL order. The call gives a keyword the function
does not have. -/
def adjustCanceledParent (order : Order) (parentId : OrderId) (snapshot : Snapshot) :
    Program (Option (List Order)) := do
  let some parent ← getOrderById (some parentId) |
    let originalId := Python.uuidText parentId
    raise (.other "ValueError" s!"원주문을 찾을 수 없습니다. original_order_id={originalId}")
  let previousAppliedCancelQty := order.filledQty
  let some row := snapshot.row | raise (.other "KeyError" "'order_qty'")
  let currentAppliedCancelQty :=
    max (row.orderQty - snapshot.result.remainingQty - row.rejectedQty) 0
  let deltaCancelQty := max (currentAppliedCancelQty - previousAppliedCancelQty) 0
  if 0 < deltaCancelQty then
    let newParentRemainingQty := max (parent.remainingQty - deltaCancelQty) 0
    let _ ← updateParentOrderAfterChild
      ["db", "order_id", "expected_current_statuses", "filled_qty", "remaining_qty", "next_status"]
      parent.id parent.filledQty newParentRemainingQty
      (resolveParentAfterChild parent.orderQty parent.filledQty newParentRemainingQty)
  pure (some [parent])

/-- Step 8-2: the parent of a MODIFY order. The previous quantity is read from the
object that step 7 has refreshed. -/
def adjustModifiedParent (order : Order) (parentId : OrderId) (snapshot : Snapshot) :
    Program (Option (List Order)) := do
  let some parent ← getOrderById (some parentId) |
    let originalId := Python.uuidText parentId
    raise (.other "ValueError" s!"[정정] 원주문을 찾을 수 없습니다. original_order_id={originalId}")
  let previousChildFilledQty := order.filledQty
  let currentChildFilledQty := snapshot.result.filledQty
  let deltaFilledQty := max (currentChildFilledQty - previousChildFilledQty) 0
  if 0 < deltaFilledQty then
    let newParentFilledQty := min (parent.filledQty + deltaFilledQty) parent.orderQty
    let newParentRemainingQty := max (parent.remainingQty - deltaFilledQty) 0
    let nextStatus :=
      resolveParentAfterChild parent.orderQty newParentFilledQty newParentRemainingQty
    let updatedParent ← updateParentOrderAfterChild
      ["db", "order_id", "filled_qty", "remaining_qty", "next_status"]
      parent.id newParentFilledQty newParentRemainingQty nextStatus
    if !updatedParent then
      Op.perform .rollback
      pure none
    else
      pure (some [{ parent with
        filledQty := newParentFilledQty, remainingQty := newParentRemainingQty
        status := nextStatus }])
  else
    pure (some [parent])

/-- Step 8: the objects loaded for it, or `none` when the cycle returns. -/
def adjustParent (order : Order) (snapshot : Snapshot) : Program (Option (List Order)) :=
  match order.originalOrderId with
  | none => pure (some [])
  | some parentId =>
    if order.orderKind = .cancel ∧
        snapshot.result.nextStatus ∈ [.canceled, .filled, .partialFilled] then
      adjustCanceledParent order parentId snapshot
    else if order.orderKind = .modify ∧
        snapshot.result.nextStatus ∈ [.partialFilled, .filled] then
      adjustModifiedParent order parentId snapshot
    else
      pure (some [])

/-- `uuid` is `celery.uuid` here, a function without an attribute `uuid4`. -/
def newCancelOrderId : Program OrderId :=
  raise (.other "AttributeError" "'function' object has no attribute 'uuid4'")

/-- The cancel order for what is left of an order that timed out. -/
def cancelAfterTimeout (order : Order) (remainingQty : ℤ) : Program Unit :=
  Prog.tryExcept (do
      let cancelOrderId ← newCancelOrderId
      createOrder {
        id := cancelOrderId
        stockCode := order.stockCode
        orderPos := order.orderPos
        orderQty := remainingQty
        orderPrice := some 0
        orderType := .market
        orderKind := .cancel
        status := .pending
        accountNo := order.accountNo
        accountProductCode := order.accountProductCode
        rebalanceId := order.rebalanceId
        originalOrderId := some order.id
        originalBrokerOrderNo := order.brokerOrderNo
        originalBrokerOrgNo := order.brokerOrgNo
        createdAt := 0 }
      Op.perform (.enqueue (.processOrder cancelOrderId) 0))
    fun _ => pure ()

/-- What a cycle writes when the tracking window is over. -/
def timeoutResult (cycle : Cycle) (r : TrackingResult) : TrackingResult :=
  let seconds := Python.roundSeconds cycle.elapsed
  { r with
    msgCd := some "ORDER_TIMEOUT"
    msg1 := some s!"최대 추적 시간 초과 ({seconds}초)"
    nextStatus := .timeout }

/-- The end of the tracking window. Whether the update matched is not looked at. -/
def timeoutOrder (cycle : Cycle) (order : Order) (snapshot : Snapshot) (loaded : List Order) :
    Program Unit := do
  let remainingQty := order.remainingQty
  let result := timeoutResult cycle snapshot.result
  let _ ← updateOrderTrackingResult order.id trackingTargetStatuses result
  let order := (trackingUpdate order.id trackingTargetStatuses result).refresh order
  let published ← publishOrderUpdate order
  if 0 < remainingQty ∧ Python.truthy order.brokerOrderNo then
    cancelAfterTimeout order remainingQty
  triggerRebalanceSnapshotIfCompleted order (order :: loaded ++ published)

/-- Step 9: nothing for an order that ended, else a further cycle or the timeout. -/
def retrack (cycle : Cycle) (order : Order) (snapshot : Snapshot) (loaded : List Order) :
    Program Unit :=
  if snapshot.result.nextStatus ∈ terminalStatuses then pure ()
  else
    match resolveRetrackingDelay cycle.attempt cycle.elapsed with
    | none => timeoutOrder cycle order snapshot loaded
    | some delay =>
      Op.perform (.enqueue
        (.processOrderStatus (some order.id) (cycle.attempt + 1) (some cycle.firstTrackedAt)) delay)

/-- The statuses an order may hold when the result of a cycle that read `status` is
stored. -/
def expectedStatuses (status : OrderStatus) : List OrderStatus :=
  trackingTargetStatuses.filter fun s => canTransition status s

/-- Steps 7 to 9. -/
def storeSnapshot (cycle : Cycle) (order : Order) (snapshot : Snapshot) : Program Unit := do
  if !canTransition order.status snapshot.result.nextStatus then
    Op.perform .rollback
  else
    let expected := expectedStatuses order.status
    let updated ← updateOrderTrackingResult order.id expected snapshot.result
    if !updated then
      Op.perform .rollback
    else
      let order := (trackingUpdate order.id expected snapshot.result).refresh order
      let some loaded ← adjustParent order snapshot | pure ()
      Op.perform .commit
      let published ← publishOrderUpdate order
      if snapshot.result.nextStatus ∈ terminalStatuses then
        triggerRebalanceSnapshotIfCompleted order (order :: loaded ++ published)
      retrack cycle order snapshot (loaded ++ published)

/-- Steps 2 to 9 for the order read in step 1. -/
def trackOrder (cycle : Cycle) (order : Order) : Program Unit := do
  if order.status ∉ trackingTargetStatuses then pure ()
  else if !Python.truthy order.brokerOrderNo then pure ()
  else
    let _accessToken ← Op.perform .accessToken
    let answer ← TradeService.getDailyOrderExecutions (executionsRequest order)
    let hasChildOrders ←
      if order.orderKind = .new then existsChildOrders order.id else pure false
    let snapshot ← ofExcept (extractOrderTrackingSnapshot order answer hasChildOrders)
    storeSnapshot cycle order snapshot

/-- `except KISOrderError`. The alert at the end reads an object that the rollback
has expired, or one never read. -/
def handleKisOrderError (cycle : Cycle) (order : Option Order) (e : KISError) : Program Unit := do
  Op.perform .rollback
  if isRetryableTrackingError (.kisOrder e) then
    requeueOrderTracking (order.map (·.id)) cycle
  else
    match order with
    | some order =>
      let _ ← updateOrderFailureResult
        ["db", "order_id", "expected_current_statuses", "rt_cd", "msg_cd", "msg1", "next_status",
          "response_payload"]
        order.id trackingTargetStatuses ((Python.orElse e.rtCd (some "1")).getD "")
        ((Python.orElse e.msgCd (some "KIS_TRACKING_ERROR")).getD "")
        (Python.orElse e.msg1 e.message) .failed
      raise (.other "MissingGreenlet" "greenlet_spawn has not been called")
    | none => raise (.other "UnboundLocalError" "cannot access local variable 'order'")

/-- `except Exception`. The call leaves out `expected_current_statuses`. -/
def handleException (cycle : Cycle) (order : Option Order) (e : PyExc) : Program Unit := do
  Op.perform .rollback
  if isRetryableTrackingError e then
    requeueOrderTracking (order.map (·.id)) cycle
  else
    match order with
    | some order =>
      let _ ← updateOrderFailureResult
        ["db", "order_id", "rt_cd", "msg_cd", "msg1", "next_status", "response_payload"]
        order.id [] "1" "ORDER_TRACKING_ERROR" (some e.text) .failed
    | none => raise (.other "UnboundLocalError" "cannot access local variable 'order'")

def handleError (cycle : Cycle) (order : Option Order) : PyExc → Program Unit
  | .kisOrder e => handleKisOrderError cycle order e
  | e => handleException cycle order e

/-- `_process_order_status`. -/
def processOrderStatus (orderId : Option OrderId) (attempt : ℕ)
    (firstTrackedAt : Option Instant) : Program Unit := do
  let nowUtc ← Op.perform .now
  let firstTrackedAt := firstTrackedAt.getD nowUtc
  let cycle : Cycle := ⟨attempt, firstTrackedAt, max (nowUtc - firstTrackedAt) 0⟩
  (getOrderById orderId).attempt fun
    | .error e => handleError cycle none e
    | .ok none => pure ()
    | .ok (some order) => (trackOrder cycle order).tryExcept (handleError cycle (some order))

end Autotrading.ProcessOrderStatus
