import Autotrading.BacktestExecutor

/-!
# The backtest service

`run_backtest` of `app/strategy/backtest/services.py`. The market data, the business days of pandas
and the metrics are left open.
-/
namespace Autotrading

/-- What `run_backtest` calls. Dates stand for their texts. -/
structure BacktestServices (ν μ : Type) where
  /-- `provider.get_ohlcv`, with its dates as the index. -/
  getOhlcv : String → Instant → Instant → Except PyExc (PriceFrame ν)
  /-- `strategy.build_universe`. -/
  buildUniverse : Instant → Instant → Except PyExc (List UniverseRow × PriceData ν)
  /-- `date - BDay(n)`. -/
  minusBusinessDays : Instant → ℤ → Instant
  /-- `calculate_metrics`, of the result, the return of the benchmark and the trades. -/
  calculateMetrics : List (DailyRecord ν) → ν → Option (List (SwingTradeRecord ν)) → Except PyExc μ

structure BacktestOutput (ν μ : Type) where
  result : List (DailyRecord ν)
  metrics : μ
  benchmarkDf : PriceFrame ν
  tradeRecords : Option (List (SwingTradeRecord ν))

namespace BacktestServices

variable {ν μ : Type} [Column ν] (svc : BacktestServices ν μ)

omit [Column ν] in
/-- `_load_ohlcv_data`: the frames that have rows. -/
def loadOhlcvData (stockCodes : List String) (start stop : Instant) (warmupDays : ℤ) :
    Except PyExc (PriceData ν) :=
  let dataStart := svc.minusBusinessDays start warmupDays
  stockCodes.foldlM (fun data code => do
    let df ← svc.getOhlcv code dataStart stop
    pure (if df.rows.isEmpty then data else data.set code df)) Dict.empty

/-- The data of a run, and the frame of the benchmark. -/
def loadData (strategy : BacktestStrategy ν) (benchmarkCode : String) (start stop : Instant)
    (stockCodes : List String) (warmupDays : ℤ) :
    Except PyExc (BacktestData ν × PriceFrame ν) :=
  match strategy with
  | .rebalance _ =>
    if stockCodes.isEmpty then .error (.other "ValueError" "REBALANCE 전략은 stock_codes가 필수입니다.")
    else do
      let data ← svc.loadOhlcvData stockCodes start stop warmupDays
      let benchmarkDf ← svc.getOhlcv benchmarkCode start stop
      pure (⟨data, []⟩, benchmarkDf)
  | .directTrade _ => do
    let (dfUniverse, preloadedData) ← svc.buildUniverse start stop
    let benchDf ← svc.getOhlcv benchmarkCode start stop
    let prices := preloadedData.entries.foldl (fun data e => data.set e.1 e.2)
      (Dict.empty.set "__benchmark__" benchDf)
    -- a preloaded frame of that name would take the place of the benchmark
    pure (⟨prices, dfUniverse⟩, (prices.get? "__benchmark__").getD benchDf)

/-- The rows of a result from the start on; a frame without rows has no dates to compare. -/
def cutWarmup (start : Instant) (records : List (DailyRecord ν)) :
    Except PyExc (List (DailyRecord ν)) :=
  if records.isEmpty then .error (.other "TypeError"
    "'>=' not supported between instances of 'numpy.ndarray' and 'Timestamp'")
  else pure (records.filter fun r => start ≤ r.date)

/-- The return of the benchmark. -/
def benchmarkReturn (benchmarkDf : PriceFrame ν) : Except PyExc ν := do
  let last ← Column.iloc benchmarkDf.rows (-1)
  let first ← Column.iloc benchmarkDf.rows 0
  pure (last.close / first.close - 1)

/-- `run_backtest`, under the two settings that the executor reads. -/
def runBacktest (rvMaxPositions rvCooldownDays : ℤ) (strategy : BacktestStrategy ν)
    (benchmarkCode : String) (start stop : Instant) (initialCash : ν) (stockCodes : List String)
    (rebalanceInterval : Instant → ℤ) (warmupDays : ℤ) : Except PyExc (BacktestOutput ν μ) := do
  let (data, benchmarkDf) ← svc.loadData strategy benchmarkCode start stop stockCodes warmupDays
  let executor : BacktestExecutor ν :=
    ⟨strategy, initialCash, rebalanceInterval, rvMaxPositions, rvCooldownDays⟩
  let run ← executor.run data
  let result ← (if 0 < warmupDays then cutWarmup start run.records else pure run.records)
  let benchmarkReturn ← benchmarkReturn benchmarkDf
  let swingTradeRecords := match strategy with
    | .rebalance _ => none
    | .directTrade _ => some run.tradeRecords
  let metrics ← svc.calculateMetrics result benchmarkReturn swingTradeRecords
  pure ⟨result, metrics, benchmarkDf, swingTradeRecords⟩

end BacktestServices

end Autotrading
