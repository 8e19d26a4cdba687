import Autotrading.OrderRepository

/-!
# Recovery and the snapshot task

`app/worker/recovery.py`, `app/worker/tasks_snapshot.py` and
`app/services/rebalance/portfolio_snapshot_service.py`.
-/
namespace Autotrading

open Prog (ofExcept forEach tryExcept)
open OrderRepository

namespace Recovery

/-- Every PENDING order goes back to worker 1. -/
def recoverSubmitOrders : Program Unit := do
  let orders ← getRecoverableSubmitOrders
  forEach (fun order => Op.perform (.enqueue (.processOrder order.id) 0)) orders

/-- Every open order with a broker number goes back to worker 2. -/
def recoverTrackingOrders : Program Unit := do
  let orders ← getRecoverableTrackingOrders
  forEach (fun order => Op.perform (.enqueue (.processOrderStatus (some order.id) 0 none) 0)) orders

/-- Both under the lock of the recovery. A failed release is ignored. -/
def recoverAllOrders : Program Unit := do
  let acquired ← Op.perform .acquireRecoveryLock
  if acquired then
    let recover : Program Unit := do
      recoverSubmitOrders
      recoverTrackingOrders
    recover.attempt fun outcome => (Op.perform .releaseRecoveryLock).attempt fun _ => ofExcept outcome

end Recovery

namespace PortfolioSnapshotService

/-- `int(text)`. -/
def int (text : String) : Except PyExc ℤ :=
  match Python.int? text with
  | some n => .ok n
  | none => .error (.other "ValueError" s!"invalid literal for int() with base 10: '{text}'")

def holding (h : HoldingRead) : Except PyExc (String × ℤ) := do
  let qty ← int h.holdingQty
  pure (String.ofList ((Python.strip h.stockCode).leftpad 6 '0'), qty)

/-- `capture`: nothing when the rebalance has a snapshot already. -/
def capture (rebalanceId : RebalanceId) : Program Unit := do
  let existing ← Op.perform (.snapshotIdByRebalance rebalanceId)
  if existing.isNone then
    let holdingsRaw ← Op.perform .holdingList
    let summary ← Op.perform .settlementCash
    let snapshotId ← Op.perform .uuid4
    let cashAmount ← ofExcept (int summary)
    let holdings ← ofExcept (holdingsRaw.mapM holding)
    Op.perform (.insertSnapshot
      { id := snapshotId, rebalanceId := some rebalanceId, cashAmount, holdings })

/-- `_capture_rebalance_snapshot`. -/
def captureRebalanceSnapshot (rebalanceId : RebalanceId) : Program Unit :=
  tryExcept (capture rebalanceId) fun _ => Op.perform .rollback

end PortfolioSnapshotService

end Autotrading
