import Autotrading.KillSwitch
import Autotrading.RebalanceExecutor

/-!
# Runs of a rebalance

What `RebalanceExecutor.submit` calls and writes, from its two entries: the route of
`app/api/router_strategy.py` and the task of `app/worker/tasks_rebalance.py`, both through
`app/services/rebalance/rebalance_orchestrator.py`. The strategy is a call, its result
data of the run.
-/
namespace Autotrading

open Prog (raise ofExcept tryExcept)

/-- A run: what the strategy returns, and the executor that `get_executor` makes, whose
generator is live. The run draws the id of the rebalance with `uuid4`. -/
structure RebalanceRun where
  strategyResult : StrategyResult
  executor : RebalanceExecutor
  live : executor.orderGenerator.dryRun = false
  dryRun : Bool
  rebalanceId : RebalanceId
  polls : ℕ

namespace RebalanceRun

/-- The calls whose failure leaves the session unusable until it is rolled back: every
`flush` and `commit`, and a query that aborts the transaction. -/
def breaksSession (aborts : PyExc → Bool) : Op → PyExc → Bool
  | .flushRebalance _ _, _ => true
  | .flushOrder _, _ => true
  | .insertOrders _, _ => true
  | .completeRebalance _, _ => true
  | .ordersByIds _, e => aborts e
  | _, _ => false

section Submit
variable (x : RebalanceRun) (aborts : PyExc → Bool)

/-- The result that `submit` starts with. -/
def started : RebalanceResult where
  rebalanceId := x.rebalanceId
  dryRun := x.dryRun
  universeCount := x.strategyResult.metadata.universeCount.getD 0
  signalBuyCount := (RebalanceExecutor.buyCodes x.strategyResult).length

/-- Steps 3 and 4. -/
def positionDiff : Program DiffResult := do
  let holdingsRaw ← Op.perform .holdingList
  let currentHoldings ← ofExcept (holdingsRaw.mapM RebalanceExecutor.currentHolding)
  let availableCash ← Op.perform .availableBuy
  pure (x.executor.diffCalculator.calculate (RebalanceExecutor.buyCodes x.strategyResult)
    x.strategyResult.orders currentHoldings availableCash
    (RebalanceExecutor.priceMap x.strategyResult) (RebalanceExecutor.nameMap x.strategyResult))

def plan (diffResult : DiffResult) : RebalancePlan :=
  RebalanceExecutor.plan x.strategyResult diffResult x.rebalanceId x.polls

/-- Step 5 up to the orders: the record is flushed, not committed. -/
def generate (diffResult : DiffResult) : Program (List OrderRequest × List OrderRequest) := do
  Op.perform (.flushRebalance x.rebalanceId x.dryRun)
  x.executor.orderGenerator.generateOrders (x.plan diffResult)

/-- The rest of step 5: the orders, and the record of the end. -/
def submitAndComplete (diffResult : DiffResult) (sellOrders buyOrders : List OrderRequest) :
    Program Unit := do
  x.executor.orderGenerator.submitOrders (x.plan diffResult) sellOrders buyOrders
  Op.perform (.completeRebalance x.rebalanceId)

/-- `except Exception`. There is no rollback: on a broken session the `UPDATE` raises
before it is sent. What it raises is ignored. -/
def fail (soFar : RebalanceResult) (broken : Bool) (e : PyExc) : Program RebalanceResult :=
  if e.isException then do
    if !broken then
      tryExcept (Op.perform (.failRebalance x.rebalanceId e.text)) fun e' =>
        if e'.isException then pure () else raise e'
    Op.perform (.rebalanceAlert x.rebalanceId false e.text)
    pure { soFar with errorMessage := e.text }
  else raise e

/-- The end of a run without an exception. -/
def succeed (soFar : RebalanceResult) : Program RebalanceResult := do
  Op.perform (.rebalanceAlert x.rebalanceId true "")
  pure { soFar with success := true }

/-- `submit`. A dry run ends with the plan, without an alert. -/
def submit : Program RebalanceResult := do
  let (broken, outcome) ← x.positionDiff.watch (breaksSession aborts) false
  match outcome with
  | .error e => x.fail x.started broken e
  | .ok diffResult =>
    let planned := { x.started with diffResult := some diffResult }
    if x.dryRun then pure { planned with success := true }
    else
      let (broken, outcome) ← (x.generate diffResult).watch (breaksSession aborts) broken
      match outcome with
      | .error e => x.fail planned broken e
      | .ok (sellOrders, buyOrders) =>
        let generated := { planned with orderResult := some (sellOrders, buyOrders) }
        let (broken, outcome) ←
          (x.submitAndComplete diffResult sellOrders buyOrders).watch (breaksSession aborts) broken
        match outcome with
        | .error e => x.fail generated broken e
        | .ok () => x.succeed generated

/-- `RebalanceOrchestrator.run`. -/
def run : Program RebalanceResult := do
  Op.perform .executeStrategy
  x.submit aborts

end Submit

/-! ## The entries -/

section Entries
variable (x : RebalanceRun) (settings : Settings)

/-- `run_rebalance`, the route. -/
def runRebalance : Program Unit := do
  let _ ← x.run settings.aborts

/-- `REBALANCE_LOCK_TTL_SECONDS`. -/
def rebalanceLockTtlSeconds : ℤ := 600

/-- The window after a rebalance at `lastExecutedAt`. -/
def window (lastExecutedAt : Instant) : RebalanceWindow where
  calendar := settings.calendar
  lastRebalanceDate := kstDate lastExecutedAt
  startTime := settings.rebalanceStart
  endTime := settings.rebalanceEnd

/-- Gate 3: the month has a live rebalance already. -/
def alreadyDone (force : Bool) : Program Bool := do
  if force then pure false
  else
    let now ← Op.perform .now
    Op.perform (.rebalanceInMonth (yearAndMonth (kstDate now)))

/-- `_execute_under_lock`: gates 2 and 3, then the run. -/
def executeUnderLock (force : Bool) : Program Unit := do
  let some lastExecutedAt ← Op.perform .lastCompletedRebalance | pure ()
  let now ← Op.perform .now
  if (window settings lastExecutedAt).decide now = .runRebalance then
    if ← alreadyDone force then pure ()
    else
      tryExcept (do let _ ← x.run settings.aborts) fun e =>
        if e.isException then pure () else raise e

/-- `_execute_rebalance`: gates 0 and 1. A failed release is ignored. -/
def executeRebalance (force : Bool) : Program Unit := do
  if ← KillSwitchService.isOn then pure ()
  else
    let acquired ← Op.perform (.acquireRebalanceLock rebalanceLockTtlSeconds)
    if acquired then
      (x.executeUnderLock settings force).attempt fun outcome =>
        (Op.perform .releaseRebalanceLock).attempt fun _ => ofExcept outcome

end Entries

end RebalanceRun

end Autotrading
