import Autotrading.OrderRepository

/-!
# The orders of a rebalance

`app/strategy/runtime/order_generator.py` with the records of
`app/schemas/strategy/trading.py` it reads. Money is exact here where the source
divides floats.
-/
namespace Autotrading

/-- An `OrderGenerator`. -/
structure OrderGenerator where
  orderType : OrderType
  accountNo : String
  accountProductCode : String
  dryRun : Bool
  fillTimeoutSeconds : ℤ

structure OrderRequest where
  orderId : OrderId
  stockCode : String
  action : OrderAction
  quantity : ℤ
  price : ℤ
  orderType : OrderType
  orderKind : OrderKind
  rebalanceId : RebalanceId
  deriving DecidableEq

structure PositionDiffItem where
  stockCode : String
  currentPrice : ℤ
  currentValue : ℤ
  orderQty : ℤ

structure PositionDiffResult where
  sellList : List PositionDiffItem
  buyList : List PositionDiffItem
  holdList : List PositionDiffItem

structure FillResult where
  totalOrders : ℕ
  filledOrders : ℕ := 0
  canceledOrders : ℕ := 0
  failedOrders : ℕ := 0
  totalFilledAmount : ℤ := 0
  timedOut : Bool := false
  canceledByTimeout : ℕ := 0

/-- What a rebalance passes to `generate_orders` and `submit_orders`. A run of the
system polls the database finitely often; `polls` bounds how often this one does. -/
structure RebalancePlan where
  rebalanceId : RebalanceId
  diff : PositionDiffResult
  hasAccountService : Bool
  buyCodes : List String
  priceMap : List (String × ℤ)
  polls : ℕ

namespace OrderGenerator

open Prog (raise ofExcept forEach collect tryExcept)
open OrderRepository

/-- `TERMINAL_STATUSES` of this module: without `TIME_OUT`. -/
def terminalStatuses : List OrderStatus := [.filled, .failed, .canceled]

def createOrderRequest (g : OrderGenerator) (rebalanceId : RebalanceId) (action : OrderAction)
    (item : PositionDiffItem) : Program (Option OrderRequest) :=
  if item.orderQty ≤ 0 then pure none
  else do
    let orderId ← Op.perform .uuid4
    pure (some {
      orderId
      stockCode := item.stockCode
      action
      quantity := item.orderQty
      price := if g.orderType = .market then 0 else item.currentPrice
      orderType := g.orderType
      orderKind := .new
      rebalanceId })

/-- `generate_orders`: the sell orders and the buy orders. -/
def generateOrders (g : OrderGenerator) (plan : RebalancePlan) :
    Program (List OrderRequest × List OrderRequest) := do
  let sellOrders ← collect (createOrderRequest g plan.rebalanceId .sell) plan.diff.sellList
  let buyOrders ← collect (createOrderRequest g plan.rebalanceId .buy) plan.diff.buyList
  pure (sellOrders, buyOrders)

/-- The row of an order request. -/
def orderRow (g : OrderGenerator) (r : OrderRequest) : Order where
  id := r.orderId
  stockCode := r.stockCode
  orderPos := r.action
  orderQty := r.quantity
  orderPrice := some r.price
  orderType := r.orderType
  orderKind := r.orderKind
  status := .pending
  accountNo := g.accountNo
  accountProductCode := g.accountProductCode
  rebalanceId := some r.rebalanceId
  createdAt := 0

/-- `_insert_and_queue`. -/
def insertAndQueue (g : OrderGenerator) (r : OrderRequest) : Program Unit := do
  createOrder (orderRow g r)
  if !g.dryRun then
    Op.perform (.enqueue (.processOrder r.orderId) 0)

/-- `int((avg_fill_price or 0) * (filled_qty or 0))` of an order that ended. -/
def filledAmount (o : Order) : Except PyExc ℤ :=
  match o.avgFillPrice with
  | none => .ok 0
  | some (.finite q) => .ok (Python.Decimal.truncate (q * o.filledQty))
  | some _ => .error (.other "ValueError" "cannot convert NaN to integer")

/-- The cancel order for an order that is still open. -/
def cancelOrderOf (order : Order) (remaining : ℤ) (id : OrderId) : Order where
  id := id
  stockCode := order.stockCode
  orderPos := order.orderPos
  orderQty := remaining
  orderPrice := some 0
  orderType := .market
  orderKind := .cancel
  status := .pending
  accountNo := order.accountNo
  accountProductCode := order.accountProductCode
  rebalanceId := order.rebalanceId
  originalOrderId := some order.id
  originalBrokerOrderNo := order.brokerOrderNo
  originalBrokerOrgNo := order.brokerOrgNo
  createdAt := 0

/-- What `_cancel_unfilled_orders` takes for the open quantity of an order. -/
def openQuantity (r : Order) : ℤ := if r.remainingQty = 0 then r.orderQty else r.remainingQty

/-- One round of `_cancel_unfilled_orders`: the cancel order is flushed and queued,
and committed only after the last round. -/
def cancelUnfilledOrder (order : Order) : Program (Option Order) :=
  let remaining := if order.remainingQty = 0 then order.orderQty else order.remainingQty
  if order.status ∈ terminalStatuses ∨ remaining ≤ 0 then pure none
  else do
    let cancelOrderId ← Op.perform .uuid4
    let cancelOrder := cancelOrderOf order remaining cancelOrderId
    Op.perform (.flushOrder cancelOrder)
    Op.perform (.enqueue (.processOrder cancelOrderId) 0)
    pure (some cancelOrder)

/-- `_cancel_unfilled_orders`. -/
def cancelUnfilledOrders (orderIds : List OrderId) : Program ℕ := do
  let rows ← Op.perform (.ordersByIds orderIds)
  let cancelOrders ← collect cancelUnfilledOrder rows
  Op.perform (.insertOrders cancelOrders)
  pure cancelOrders.length

def countStatus (status : OrderStatus) (rows : List Order) : ℕ :=
  rows.countP fun o => o.status = status

/-- The tally of one poll. -/
def tally (total : ℕ) (rows : List Order) : Except PyExc FillResult := do
  let ended := rows.filter fun o => o.status ∈ [.filled, .canceled]
  let amounts ← ended.mapM filledAmount
  pure {
    totalOrders := total
    filledOrders := countStatus .filled rows
    canceledOrders := countStatus .canceled rows
    failedOrders := countStatus .failed rows
    totalFilledAmount := amounts.sum }

/-- The end of a wait that timed out: look once more, cancel what is open. -/
def finishTimeout (orderIds : List OrderId) (result : FillResult) : Program FillResult := do
  let rows ← Op.perform (.ordersByIds orderIds)
  let result := { result with filledOrders := countStatus .filled rows }
  if ∀ o ∈ rows, o.status ∈ terminalStatuses then
    pure { result with timedOut := false }
  else
    let canceled ← cancelUnfilledOrders orderIds
    pure { result with timedOut := true, canceledByTimeout := canceled }

/-- The polling loop of `_wait_for_fills` with at most `n` polls. -/
def pollFills (g : OrderGenerator) (orderIds : List OrderId) (start : Instant) :
    ℕ → FillResult → Program FillResult
  | 0, _ => raise (.other "CancelledError" "the wait was not over when the run ended")
  | n + 1, result => do
    let now ← Op.perform .now
    if g.fillTimeoutSeconds * 1000000 ≤ now - start then
      finishTimeout orderIds result
    else
      let rows ← Op.perform (.ordersByIds orderIds)
      let result ← ofExcept (tally orderIds.length rows)
      if ∀ o ∈ rows, o.status ∈ terminalStatuses then pure result
      else pollFills g orderIds start n result

/-- `_wait_for_fills`. -/
def waitForFills (g : OrderGenerator) (orderIds : List OrderId) (polls : ℕ) :
    Program FillResult := do
  let start ← Op.perform .now
  pollFills g orderIds start polls { totalOrders := orderIds.length }

/-- `_get_actual_cash`. -/
def getActualCash : Program ℤ := tryExcept (Op.perform .availableBuy) fun _ => pure 0

/-- One round of `_recalculate_buy_orders`. -/
def recalculateBuyOrder (g : OrderGenerator) (plan : RebalancePlan) (allocPerStock : ℚ)
    (code : String) : Program (Option OrderRequest) :=
  let price := (plan.priceMap.lookup code).getD 0
  if price ≤ 0 then pure none
  else
    let qty := ⌊allocPerStock / price⌋
    if qty ≤ 0 then pure none
    else do
      let orderId ← Op.perform .uuid4
      pure (some {
        orderId
        stockCode := code
        action := .buy
        quantity := qty
        price := if g.orderType = .market then 0 else price
        orderType := g.orderType
        orderKind := .new
        rebalanceId := plan.rebalanceId })

/-- `_recalculate_buy_orders`. -/
def recalculateBuyOrders (g : OrderGenerator) (plan : RebalancePlan) (availableCash : ℤ) :
    Program (List OrderRequest) :=
  let holdValue := (plan.diff.holdList.map (·.currentValue)).sum
  let totalPortfolioValue : ℚ := availableCash + holdValue
  let targetPerStock := totalPortfolioValue / plan.buyCodes.length
  let holdingCodes := plan.diff.holdList.map (·.stockCode)
  let newBuyCodes := plan.buyCodes.filter fun c => c ∉ holdingCodes
  let actualBudget := min (targetPerStock * newBuyCodes.length) (availableCash : ℚ)
  if availableCash ≤ 0 ∨ plan.buyCodes = [] ∨ newBuyCodes = [] then pure []
  else collect (recalculateBuyOrder g plan (actualBudget / newBuyCodes.length)) newBuyCodes

/-- Steps 1 and 2, and steps 4 and 5: insert and queue the orders, then wait. -/
def submitPhase (g : OrderGenerator) (orders : List OrderRequest) (polls : ℕ) : Program Unit := do
  forEach (insertAndQueue g) orders
  if orders ≠ [] ∧ g.dryRun = false then
    let _ ← waitForFills g (orders.map (·.orderId)) polls

/-- `submit_orders`. -/
def submitOrders (g : OrderGenerator) (plan : RebalancePlan)
    (sellOrders buyOrders : List OrderRequest) : Program Unit := do
  submitPhase g sellOrders plan.polls
  let buyOrders ←
    if g.dryRun = false ∧ plan.hasAccountService ∧ plan.buyCodes ≠ [] ∧ plan.priceMap ≠ [] then do
      let actualCash ← getActualCash
      recalculateBuyOrders g plan actualCash
    else pure buyOrders
  submitPhase g buyOrders plan.polls

/-- The order step of a rebalance: generate, then submit. -/
def rebalance (g : OrderGenerator) (plan : RebalancePlan) : Program Unit := do
  let (sellOrders, buyOrders) ← generateOrders g plan
  submitOrders g plan sellOrders buyOrders

end OrderGenerator

end Autotrading
