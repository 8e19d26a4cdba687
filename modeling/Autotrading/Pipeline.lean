import Autotrading.Machine
import Autotrading.OrderGenerator
import Autotrading.OrderRouter
import Autotrading.ProcessOrder
import Autotrading.ProcessOrderStatus
import Autotrading.RebalanceRun
import Autotrading.Recovery

/-!
# The system

The API, the rebalances, the two workers, the snapshot task and the recovery, each
a task of one machine over the stores. A task of a worker starts when its message
is in the queue; delivery is at least once, so a message that was sent may come
back. The recovery may start at any time, as workers restart at any time, and so may
the automatic rebalance, whatever its schedule. The order step of a rebalance is also
a task by itself, for any plan.
-/
namespace Autotrading

/-- A request to the API. -/
inductive ApiRequest
  | buy (stockCode : String) (quantity : ℤ) (orderType : OrderType) (price : ℚ) (dryRun : Bool)
  | sell (stockCode : String) (quantity : ℤ) (orderType : OrderType) (price : ℚ) (dryRun : Bool)
  | cancel (orderId : OrderId) (quantity : ℤ) (dryRun : Bool)
  | revise (orderNo : OrderId) (quantity : ℤ) (orderType : OrderType) (price : ℚ) (dryRun : Bool)
  | killSwitch (enabled : Bool)

def ApiRequest.dryRun : ApiRequest → Bool
  | buy _ _ _ _ dryRun => dryRun
  | sell _ _ _ _ dryRun => dryRun
  | cancel _ _ dryRun => dryRun
  | revise _ _ _ _ dryRun => dryRun
  | killSwitch _ => false

/-- What a task was started for. -/
inductive Label
  | api (r : ApiRequest)
  | rebalance (g : OrderGenerator) (plan : RebalancePlan)
  | runRebalance (x : RebalanceRun)
  | executeRebalance (x : RebalanceRun) (force : Bool)
  | processOrder (id : OrderId)
  | processOrderStatus (id : Option OrderId) (attempt : ℕ) (firstTrackedAt : Option Instant)
  | captureRebalanceSnapshot (rebalanceId : RebalanceId)
  | recoverOrders

namespace Label

/-- Orders the task creates are not to be submitted. -/
def dryRun : Label → Bool
  | api r => r.dryRun
  | rebalance g _ => g.dryRun
  | runRebalance x => x.dryRun
  | executeRebalance x _ => x.dryRun
  | _ => false

/-- The rebalance whose orders the task creates. -/
def rebalanceId : Label → Option RebalanceId
  | rebalance _ plan => some plan.rebalanceId
  | runRebalance x => some x.rebalanceId
  | executeRebalance x _ => some x.rebalanceId
  | _ => none

/-- The run of the rebalance that the task makes. -/
def rebalanceRun : Label → Option RebalanceRun
  | runRebalance x => some x
  | executeRebalance x _ => some x
  | _ => none

/-- The order the task tracks. -/
def tracks : Label → Option OrderId
  | processOrderStatus id _ _ => id
  | _ => none

/-- The message that starts the task. -/
def message : Label → Option Message
  | processOrder id => some (.processOrder id)
  | processOrderStatus id attempt firstTrackedAt =>
    some (.processOrderStatus id attempt firstTrackedAt)
  | captureRebalanceSnapshot rid => some (.captureRebalanceSnapshot rid)
  | _ => none

def apiProgram (settings : Settings) : ApiRequest → Program Unit
  | .buy stockCode quantity orderType price dryRun =>
    OrderRouter.buyDomesticStock settings stockCode quantity orderType price dryRun
  | .sell stockCode quantity orderType price dryRun =>
    OrderRouter.sellDomesticStock settings stockCode quantity orderType price dryRun
  | .cancel orderId quantity dryRun =>
    OrderRouter.cancelDomesticStockOrder orderId quantity dryRun
  | .revise orderNo quantity orderType price dryRun =>
    OrderRouter.reviseDomesticStockOrder orderNo quantity orderType price dryRun
  | .killSwitch enabled => KillSwitchService.setState enabled

def program (settings : Settings) : Label → Program Unit
  | api r => apiProgram settings r
  | rebalance g plan => OrderGenerator.rebalance g plan
  | runRebalance x => x.runRebalance settings
  | executeRebalance x force => x.executeRebalance settings force
  | processOrder id => ProcessOrder.processOrder settings id
  | processOrderStatus id attempt firstTrackedAt =>
    ProcessOrderStatus.processOrderStatus id attempt firstTrackedAt
  | captureRebalanceSnapshot rid => PortfolioSnapshotService.captureRebalanceSnapshot rid
  | recoverOrders => Recovery.recoverAllOrders

end Label

namespace World

/-- An id that no rebalance and no order of this deployment carries. -/
def freshRebalance (w : World) (rid : RebalanceId) : Bool :=
  rid ∉ w.rebalances && (w.orders.rows.all fun o => o.rebalanceId ≠ some rid) &&
    w.records.all fun r => r.id ≠ rid

/-- Start a task: a message is taken off the queue, and a rebalance draws its id with
`uuid4`, which gives a fresh one. -/
def launch (l : Label) (w : World) : Option World :=
  match l.rebalanceId with
  | some rid =>
    if w.freshRebalance rid then some { w with rebalances := rid :: w.rebalances } else none
  | none =>
    match l.message with
    | some m => if m ∈ w.queue then some { w with queue := w.queue.erase m } else none
    | none => some w

end World

/-- What the infrastructure does by itself. -/
inductive Move
  | redeliver (m : Message)
  | expireRecoveryLock

def World.ambient (m : Move) (w : World) : World :=
  match m with
  | .redeliver m => if m ∈ w.sent then { w with queue := w.queue ++ [m] } else w
  | .expireRecoveryLock => { w with recoveryLock := false }

/-- The system. -/
def autotrading (settings : Settings) (env : Env) : Machine Op Ans PyExc World Label Move where
  handle := World.handle env
  clock := World.tick
  program := Label.program settings
  launch := World.launch
  ambient := World.ambient

abbrev System : Type := Machine.Sys Op Ans PyExc World Label

abbrev Event : Type := Machine.Event Label Move

abbrev Task : Type := Machine.Task Op Ans PyExc Label

/-- A call in a history. -/
abbrev Entry : Type := ℕ × (o : Op) × Except PyExc (Ans o)

/-! ## Small deployments -/

/-- Stores that hold these orders and messages and nothing else. -/
def World.holding (orders : List Order) (queue : List Message) : World where
  orders := (KeyedTable.empty.insertAll orders).getD .empty
  snapshots := .empty
  killSwitch := none
  recoveryLock := false
  queue := queue
  sent := queue
  requests := []
  rebalances := []
  tick := 0

/-- Surroundings in which no call fails and the broker answers nothing. -/
def Env.quiet : Env where
  fault _ _ := none
  refused _ := .other "DBAPIError" "refused"
  accessToken _ := "token"
  post _ _ := ⟨false, .requestError "no answer"⟩
  get _ _ := .requestError "no answer"
  holdingList _ := []
  settlementCash _ := "0"
  availableBuy _ := 0
  now _ := 0
  uuid4 n := n

/-- A calendar without holidays: Monday to Friday, where day 0 is a Thursday. Only days
ahead are asked for. -/
def KrxCalendar.weekdays : KrxCalendar where
  isBusinessDay d := (d + 3) % 7 < 5
  advance d n :=
    let nextWeekday := fun d : ℤ =>
      if (d + 3) % 7 = 4 then d + 3 else if (d + 3) % 7 = 5 then d + 2 else d + 1
    nextWeekday^[n.toNat] d

def Settings.sample : Settings where
  kisAccountNo := "12345678"
  kisAccountProductCode := "01"
  rebalanceStart := timeOfDay 9 0
  rebalanceEnd := timeOfDay 10 0
  calendar := .weekdays
  aborts _ := true

/-- An order for ten shares that the broker knows as `"7"`. -/
def Order.sample (id : OrderId) (status : OrderStatus) : Order where
  id := id
  accountNo := "12345678"
  accountProductCode := "01"
  stockCode := "005930"
  orderPos := .buy
  orderKind := .new
  orderType := .limit
  orderPrice := some 100
  orderQty := 10
  remainingQty := 10
  status := status
  brokerOrderNo := some "7"
  brokerOrgNo := some "91252"
  createdAt := 0

/-- An open order `id` of the given kind on order 1, with the number `"8"`. -/
def Order.childSample (id : OrderId) (orderKind : OrderKind) : Order :=
  { Order.sample id .accepted with
    orderKind, originalOrderId := some 1, originalBrokerOrderNo := some "7"
    originalBrokerOrgNo := some "91252", brokerOrderNo := some "8" }

/-- Market orders, five minutes for their fills. -/
def OrderGenerator.sample : OrderGenerator where
  orderType := .market
  accountNo := "12345678"
  accountProductCode := "01"
  dryRun := false
  fillTimeoutSeconds := 300

/-- A live run of rebalance `rid` that is to buy these codes at these prices. -/
def RebalanceRun.sample (rid : RebalanceId) (buys : List (String × ℤ)) : RebalanceRun where
  strategyResult := {
    orders := buys.map fun b => ⟨b.1, b.1, .buy, some b.2, none, none⟩
    metadata := {} }
  executor := ⟨{}, .sample⟩
  live := rfl
  dryRun := false
  rebalanceId := rid
  polls := 1

/-- An answer to execution queries with these rows. -/
def ExecutionAnswer.ofRows (rows : List DailyOrderExecutionItem) : HttpReply ExecutionAnswer :=
  .response 200 (.object ⟨.text "0", .text "OK", .text "", .rows rows, true, ""⟩) ""

end Autotrading
