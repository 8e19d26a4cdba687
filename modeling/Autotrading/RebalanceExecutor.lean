import Autotrading.PositionDiff

/-!
# The rebalance executor

`app/strategy/runtime/rebalance_executor.py` and, in front of it,
`app/services/rebalance/rebalance_orchestrator.py`. Of the record of the rebalance only
the flush is kept, which may raise. The alert at the end is left out.
-/
namespace Autotrading

open Prog (ofExcept)

/-- What the account service and the flush of the record answer during one `submit`,
before its orders. -/
structure SubmitAnswers where
  holdingList : Except PyExc (List HoldingRead)
  availableBuy : Except PyExc ℤ
  recorded : Except PyExc Unit

structure RebalanceResult where
  rebalanceId : RebalanceId
  dryRun : Bool
  universeCount : ℕ := 0
  signalBuyCount : ℕ := 0
  diffResult : Option DiffResult := none
  orderResult : Option (List OrderRequest × List OrderRequest) := none
  success : Bool := false
  errorMessage : String := ""

structure RebalanceExecutor where
  diffCalculator : PositionDiffCalculator
  orderGenerator : OrderGenerator

namespace RebalanceExecutor

/-- `int(text)`. -/
def int (text : String) : Except PyExc ℤ :=
  match Python.int? text with
  | some n => .ok n
  | none => .error (.other "ValueError" s!"invalid literal for int() with base 10: '{text}'")

def currentHolding (h : HoldingRead) : Except PyExc CurrentHolding := do
  let quantity ← int h.holdingQty
  let currentPrice ← int h.currentPrice
  let evalAmount ← int h.evaluationAmount
  pure { stockCode := h.stockCode, stockName := h.stockName, quantity, currentPrice, evalAmount }

def buyIntents (result : StrategyResult) : List TradeIntent :=
  result.orders.filter fun o => o.side = .buy

def buyCodes (result : StrategyResult) : List String := (buyIntents result).map (·.stockCode)

def nameMap (result : StrategyResult) : Dict String String :=
  Dict.ofList ((buyIntents result).map fun o => (o.stockCode, o.stockName))

def priceMap (result : StrategyResult) : Dict String ℤ :=
  Dict.ofList ((buyIntents result).filterMap fun o => o.priceHint.map fun p => (o.stockCode, p))

/-- Steps 3 and 4: the holdings, the cash and the diff. -/
def diff (x : RebalanceExecutor) (result : StrategyResult) (answers : SubmitAnswers) :
    Except PyExc DiffResult := do
  let holdingsRaw ← answers.holdingList
  let currentHoldings ← holdingsRaw.mapM currentHolding
  let availableCash ← answers.availableBuy
  pure (x.diffCalculator.calculate (buyCodes result) result.orders currentHoldings availableCash
    (priceMap result) (nameMap result))

/-- What step 5 hands to the order generator. -/
def plan (result : StrategyResult) (diffResult : DiffResult) (rebalanceId : RebalanceId)
    (polls : ℕ) : RebalancePlan where
  rebalanceId
  diff := diffResult.lists
  hasAccountService := true
  buyCodes := buyCodes result
  priceMap := (priceMap result).entries
  polls

/-- `submit`. -/
def submit (x : RebalanceExecutor) (result : StrategyResult) (answers : SubmitAnswers)
    (dryRun : Bool) (rebalanceId : RebalanceId) (polls : ℕ) : Program RebalanceResult :=
  let started : RebalanceResult := {
    rebalanceId, dryRun
    universeCount := result.metadata.universeCount.getD 0
    signalBuyCount := (buyCodes result).length }
  match x.diff result answers with
  | .error e => pure { started with errorMessage := e.text }
  | .ok diffResult =>
    let planned := { started with diffResult := some diffResult }
    if dryRun then pure { planned with success := true }
    else
      let plan := plan result diffResult rebalanceId polls
      (do ofExcept answers.recorded; x.orderGenerator.generateOrders plan).attempt fun
        | .error e => pure { planned with errorMessage := e.text }
        | .ok (sellOrders, buyOrders) =>
          let generated := { planned with orderResult := some (sellOrders, buyOrders) }
          (do x.orderGenerator.submitOrders plan sellOrders buyOrders; Op.perform .commit).attempt
            fun
            | .error e => pure { generated with errorMessage := e.text }
            | .ok () => pure { generated with success := true }

end RebalanceExecutor

/-- A run of the orchestrator: the strategy, the executor and what they are answered. -/
structure RebalanceOrchestrator where
  momentum : MomentumStrategy
  screened : Except PyExc (List (String × String))
  provider : OhlcvProvider
  executor : RebalanceExecutor
  answers : SubmitAnswers

namespace RebalanceOrchestrator

/-- `self._strategy.execute`. -/
def executeStrategy (x : RebalanceOrchestrator) (year : ℤ) : Except PyExc StrategyResult :=
  PiotroskiMomentumStrategy.execute x.momentum x.screened x.provider year

/-- `run`. -/
def run (x : RebalanceOrchestrator) (year : ℤ) (dryRun : Bool) (rebalanceId : RebalanceId)
    (polls : ℕ) : Program (StrategyResult × RebalanceResult) := do
  let strategyResult ← ofExcept (x.executeStrategy year)
  let rebalanceResult ← x.executor.submit strategyResult x.answers dryRun rebalanceId polls
  pure (strategyResult, rebalanceResult)

end RebalanceOrchestrator

end Autotrading
