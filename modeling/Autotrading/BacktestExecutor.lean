import Autotrading.MomentumStrategy
import Autotrading.ReversalVolume

/-!
# The backtest

`BacktestExecutor` of `app/strategy/backtest/backtest_executor.py`: the loop of a portfolio that is
rebalanced and the loop of single trades.
-/
namespace Autotrading

open DatedLoop (sortedSet)

/-- What a strategy brings to a backtest. A rebalanced one is a function of the frames it is given,
whose signals are read by code. -/
inductive BacktestStrategy (ν : Type)
  | rebalance (generateSignal : PriceData ν → Except PyExc (List (String × StrategySignal)))
  | directTrade (strategy : ReversalVolumeStrategy ν)

/-- A daily record. Only direct trades have a number of signals. -/
structure DailyRecord (ν : Type) where
  date : Instant
  equity : ν
  cash : ν
  holdingsValue : ν
  numHoldings : ℕ
  numSignals : Option ℕ
  rebalance : Bool
  deriving DecidableEq

/-- The frame that `run` returns, and the trades it leaves in the executor. -/
structure BacktestResult (ν : Type) where
  records : List (DailyRecord ν)
  tradeRecords : List (SwingTradeRecord ν)
  deriving DecidableEq

/-- The executor, with the two settings that it reads itself. `rebalanceInterval` is the period that
a date falls into. -/
structure BacktestExecutor (ν : Type) where
  strategy : BacktestStrategy ν
  initialCash : ν
  rebalanceInterval : Instant → ℤ
  rvMaxPositions : ℤ
  rvCooldownDays : ℤ

namespace BacktestExecutor

/-! ## Rebalancing -/

/-- `_get_rebalance_dates`: the dates that open a period not seen before. -/
def getRebalanceDates (period : Instant → ℤ) : List ℤ → List Instant → List Instant
  | _, [] => []
  | seen, date :: dates =>
    if period date ∈ seen then getRebalanceDates period seen dates
    else date :: getRebalanceDates period (period date :: seen) dates

section Rebalance
variable {ν : Type} [Column ν]

/-- The dates that all frames have. -/
def commonDates (data : PriceData ν) : List Instant :=
  match data.entries with
  | [] => []
  | e :: es => sortedSet (e.2.index.filter fun date => es.all fun e => date ∈ e.2.index)

/-- `sum(...)`. -/
def sum (values : List ν) : ν := values.foldl (· + ·) 0

/-- What the loop of a rebalanced portfolio keeps. -/
structure Portfolio (ν : Type) where
  cash : ν
  positions : Dict String ν
  records : List (DailyRecord ν)

/-- The value of the positions that have a price at the date. -/
def holdingsValue (data : PriceData ν) (date : Instant) (positions : List (String × ν)) : ν :=
  sum (positions.filterMap fun p => (data.close? p.1 date).map fun price => p.2 * price)

/-- `data[code].loc[date, "Close"]`. -/
def closeAt (data : PriceData ν) (code : String) (date : Instant) : Except PyExc ν :=
  match data.close? code date with
  | some price => .ok price
  | none => .error (.other "KeyError" code)

/-- The cash behind the sale of a position, where there is a price. -/
def sellPosition (data : PriceData ν) (date : Instant) (cash : ν) (p : String × ν) : ν :=
  match data.close? p.1 date with
  | some price => cash + p.2 * price
  | none => cash

/-- A rebalance: everything is sold, and what the signals name is bought in equal parts. -/
def rebalancePositions (generateSignal : PriceData ν → Except PyExc (List (String × StrategySignal)))
    (data : PriceData ν) (s : Portfolio ν) (date : Instant) : Except PyExc (Portfolio ν) := do
  let signals ← generateSignal (data.sliced date)
  let buyCodes := (signals.filter fun row => row.2 = .buy).map Prod.fst
  let cash := s.positions.entries.foldl (sellPosition data date) s.cash
  if buyCodes.isEmpty then pure { s with cash, positions := .empty }
  else
    let alloc := cash / ((buyCodes.length : ℤ) : ν)
    let positions ← buyCodes.foldlM (fun positions code => do
      let price ← closeAt data code date
      pure (positions.set code (alloc / price))) (Dict.empty : Dict String ν)
    pure { s with cash := 0, positions }

/-- One date of `_run_rebalance`. -/
def rebalanceDay (generateSignal : PriceData ν → Except PyExc (List (String × StrategySignal)))
    (rebalanceDates : List Instant) (data : PriceData ν) (s : Portfolio ν) (date : Instant) :
    Except PyExc (Portfolio ν) := do
  let isRebalance := decide (date ∈ rebalanceDates)
  let s ← (if isRebalance then rebalancePositions generateSignal data s date else pure s)
  let value := holdingsValue data date s.positions.entries
  pure { s with records := s.records ++ [{
    date
    equity := s.cash + value
    cash := s.cash
    holdingsValue := value
    numHoldings := s.positions.entries.length
    numSignals := none
    rebalance := isRebalance }] }

/-- `_run_rebalance`. -/
def runRebalance (x : BacktestExecutor ν)
    (generateSignal : PriceData ν → Except PyExc (List (String × StrategySignal)))
    (data : BacktestData ν) : Except PyExc (BacktestResult ν) :=
  if data.prices.entries.isEmpty then
    .error (.other "TypeError" "unbound method set.intersection() needs an argument")
  else do
    let allDates := commonDates data.prices
    let rebalanceDates := getRebalanceDates x.rebalanceInterval [] allDates
    let s ← allDates.foldlM (rebalanceDay generateSignal rebalanceDates data.prices)
      ⟨x.initialCash, .empty, []⟩
    pure ⟨s.records, []⟩

end Rebalance

/-! ## Direct trades -/

section DirectTrade
variable {ν : Type} [Column ν]

/-- `{k: v for k, v in data.items() if not k.startswith("__")}`. -/
def stockData (data : BacktestData ν) : PriceData ν :=
  data.prices.filter fun code _ => !("__".toList.isPrefixOf code.toList)

/-- The dates of the benchmark, or of all stocks. -/
def tradingDates (data : BacktestData ν) : List Instant :=
  match data.prices.get? "__benchmark__" with
  | some dfBenchmark => sortedSet dfBenchmark.index
  | none => sortedSet ((stockData data).entries.flatMap fun e => e.2.index)

/-- What the loop of direct trades keeps; `candidates` is the number of the last ones, once there
were any to look at. -/
structure SwingBook (ν : Type) where
  cash : ν
  positions : List (SwingPosition ν)
  tradeRecords : List (SwingTradeRecord ν)
  candidates : Option ℕ
  records : List (DailyRecord ν)

/-- The first step of a day for one position: it stays, or a trade closes it at the close of the
day. Where there is no close its holding days are taken back. -/
def exitPosition (strategy : ReversalVolumeStrategy ν) (stocks : PriceData ν) (date : Instant)
    (pos : SwingPosition ν) : SwingPosition ν ⊕ SwingTradeRecord ν :=
  let held := { pos with holdingDays := pos.holdingDays + 1 }
  let decision := strategy.shouldExit held date stocks
  if !decision.shouldExit then .inl held
  else
    match stocks.close? pos.stockCode date with
    | none => .inl pos
    | some price => .inr {
        stockCode := pos.stockCode
        stockName := pos.stockName
        entryDate := pos.entryDate
        exitDate := date
        entryPrice := pos.entryPrice
        exitPrice := price
        quantity := pos.quantity
        returnPct := (price - pos.entryPrice) / pos.entryPrice
        holdingDays := held.holdingDays
        exitReason := (decision.reason.map ExitReason.value).getD "unknown" }

/-- The first step of a day. -/
def exitPositions (strategy : ReversalVolumeStrategy ν) (stocks : PriceData ν) (date : Instant)
    (book : SwingBook ν) : SwingBook ν :=
  let results := book.positions.map (exitPosition strategy stocks date)
  let closed := results.filterMap Sum.getRight?
  { book with
    cash := closed.foldl (fun cash t => cash + t.quantity * t.exitPrice) book.cash
    positions := results.filterMap Sum.getLeft?
    tradeRecords := book.tradeRecords ++ closed }

/-- The value of the positions that have a price at the date. -/
def positionsValue (stocks : PriceData ν) (date : Instant) (positions : List (SwingPosition ν)) : ν :=
  holdingsValue stocks date (positions.map fun pos => (pos.stockCode, pos.quantity))

/-- One candidate of the second step of a day. -/
def enterPosition (strategy : ReversalVolumeStrategy ν) (stocks : PriceData ν) (date : Instant)
    (totalEquity : ν) (numNew : ℕ) (book : SwingBook ν) (row : Candidate ν) : SwingBook ν :=
  match stocks.close? row.code date with
  | none => book
  | some price =>
    let alloc := strategy.sizePosition row book.cash totalEquity numNew
    let qty := if 0 < price then alloc / price else 0
    if 0 < qty ∧ alloc ≤ book.cash then
      { book with
        positions := book.positions ++ [{
          stockCode := row.code
          stockName := row.name.getD row.code
          entryPrice := price
          quantity := qty
          entryDate := date
          holdingDays := 0 }]
        cash := book.cash - qty * price }
    else book

/-- The second step of a day. The trades of the last `history_lookback_days` go to the strategy. -/
def enterPositions (x : BacktestExecutor ν) (strategy : ReversalVolumeStrategy ν)
    (dfUniverse : List UniverseRow) (dfBenchmark : Option (PriceFrame ν)) (stocks : PriceData ν)
    (date : Instant) (book : SwingBook ν) : Except PyExc (SwingBook ν) := do
  let availableSlots := x.rvMaxPositions - book.positions.length
  if 0 < availableSlots ∧ dfUniverse ≠ [] then
    let historyLookbackDays := max (x.rvCooldownDays * 2) 30
    let recentTradeHistory := book.tradeRecords.filter fun t =>
      daysBetween t.exitDate date ≤ historyLookbackDays
    let candidates ← strategy.generateEntrySignals date dfUniverse stocks book.positions
      recentTradeHistory dfBenchmark
    let candidates := candidates.take availableSlots.toNat
    let totalEquity := book.cash + positionsValue stocks date book.positions
    let book := { book with candidates := some candidates.length }
    pure (candidates.foldl (enterPosition strategy stocks date totalEquity candidates.length) book)
  else pure book

/-- One date of `_run_direct_trade`. -/
def directTradeDay (x : BacktestExecutor ν) (strategy : ReversalVolumeStrategy ν)
    (data : BacktestData ν) (book : SwingBook ν) (date : Instant) : Except PyExc (SwingBook ν) := do
  let stocks := stockData data
  let book := exitPositions strategy stocks date book
  let book ← x.enterPositions strategy data.dfUniverse (data.prices.get? "__benchmark__") stocks date
    book
  let value := positionsValue stocks date book.positions
  pure { book with records := book.records ++ [{
    date
    equity := book.cash + value
    cash := book.cash
    holdingsValue := value
    numHoldings := book.positions.length
    numSignals := some (book.candidates.getD 0)
    rebalance := false }] }

/-- `_run_direct_trade`. The log message at the end reads the last record. -/
def runDirectTrade (x : BacktestExecutor ν) (strategy : ReversalVolumeStrategy ν)
    (data : BacktestData ν) : Except PyExc (BacktestResult ν) :=
  if data.prices.get? "__benchmark__" = none ∧ (stockData data).entries.isEmpty then pure ⟨[], []⟩
  else do
    let book ← (tradingDates data).foldlM (x.directTradeDay strategy data)
      ⟨x.initialCash, [], [], none, []⟩
    if book.records.isEmpty then .error (.other "IndexError" "list index out of range")
    else pure ⟨book.records, book.tradeRecords⟩

/-- `run`. -/
def run (x : BacktestExecutor ν) (data : BacktestData ν) : Except PyExc (BacktestResult ν) :=
  match x.strategy with
  | .rebalance generateSignal => x.runRebalance generateSignal data
  | .directTrade strategy => x.runDirectTrade strategy data

end DirectTrade

end BacktestExecutor

end Autotrading
