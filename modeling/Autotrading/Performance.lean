import Autotrading.DrawdownDuration
import Autotrading.OrderPublisher
import Autotrading.PeriodReturns
import Autotrading.Valuation

/-!
# The performance of the portfolio

`app/services/metrics/performance_service.py` and `app/api/router_metrics.py`, with what is left of
`app/strategy/metrics/core.py` and `app/strategy/metrics/adapters.py`. Powers and square roots are
the ones of a floating-point library. `none` is a float that is not a number.
-/
namespace Autotrading

/-- `**` and `np.sqrt`. -/
structure FloatMath where
  pow : ℚ → ℚ → ℚ
  sqrt : ℚ → ℚ

/-- The exceptions that `except ValueError` catches. -/
def PyExc.isValueError : PyExc → Bool
  | .other type _ => type ∈ ["ValueError", "UnicodeDecodeError", "UnicodeEncodeError",
      "JSONDecodeError", "ValidationError", "OutOfBoundsDatetime", "DateParseError"]
  | _ => false

/-! ## Metrics of the core -/

namespace EquitySeries

variable (equity : EquitySeries ℚ)

def firstValue : ℚ := (equity.points.head equity.nonempty).2

/-- `equity.index[-1] - equity.index[0]` in days. -/
def days : ℤ := daysBetween equity.firstIndex equity.lastIndex

/-- `_daily_returns`. -/
def dailyReturns : List ℚ := List.zipWith (fun a b => b / a - 1) equity.values equity.values.tail

/-- `equity.mean()`. -/
def avgNav : ℚ := seriesMean equity.values

/-- `raw_return`. -/
def rawReturn : ℚ := (equity.lastValue / equity.firstValue - 1) * 100

end EquitySeries

/-- `calc_total_return`. -/
def calcTotalReturn (equity : Series ℚ) (decimals : ℤ) : Except PyExc ℚ := do
  let equity ← validateEquity equity
  pure (Python.round equity.rawReturn decimals)

/-- `calc_period_profit`. -/
def calcPeriodProfit (equity : Series ℚ) : Except PyExc ℚ := do
  let equity ← validateEquity equity
  pure (equity.lastValue - equity.firstValue)

structure TurnoverResult where
  turnoverRate : Option ℚ
  totalBuyValue : Option ℚ
  totalSellValue : Option ℚ
  avgNav : ℚ

/-- `min(a, b)` of floats: the second one only where it is smaller. -/
def floatMin : Option ℚ → Option ℚ → Option ℚ
  | some a, some b => if b < a then some b else some a
  | a, _ => a

/-- `calc_turnover`. -/
def calcTurnover (equity : Series ℚ) (totalBuyValue totalSellValue : Option ℚ) (useMin : Bool)
    (daysPerYear : ℤ) : Except PyExc TurnoverResult := do
  let equity ← validateEquity equity
  let avgNav := equity.avgNav
  if avgNav ≤ 0 then pure ⟨some 0, totalBuyValue, totalSellValue, avgNav⟩
  else
    let traded := if useMin then floatMin totalBuyValue totalSellValue
      else totalBuyValue.bind fun buy => totalSellValue.map fun sell => (buy + sell) / 2
    let days := if equity.days = 0 then 1 else equity.days
    let annualized := traded.map fun traded => traded / avgNav * ((daysPerYear : ℚ) / days)
    pure ⟨annualized, totalBuyValue, totalSellValue, avgNav⟩

section Annualized
variable (math : FloatMath)

/-- `calc_cagr`. -/
def calcCagr (equity : Series ℚ) (daysPerYear : ℤ) (decimals : ℤ) : Except PyExc ℚ := do
  let equity ← validateEquity equity
  if equity.days ≤ 0 then pure 0
  else
    let ratio := equity.lastValue / equity.firstValue
    pure (Python.round ((math.pow ratio ((daysPerYear : ℚ) / equity.days) - 1) * 100) decimals)

/-- `calc_alpha`. -/
def calcAlpha (equity benchmark : Series ℚ) (daysPerYear : ℤ) : Except PyExc ℚ := do
  let strategyCagr ← calcCagr math equity daysPerYear 2
  let benchmarkCagr ← calcCagr math benchmark daysPerYear 2
  pure (strategyCagr - benchmarkCagr)

/-- `returns.std(ddof=1)`. -/
def sampleStd (returns : List ℚ) : ℚ :=
  math.sqrt ((returns.map fun r => (r - seriesMean returns) ^ 2).sum / ((returns.length : ℚ) - 1))

/-- `calc_volatility`. -/
def calcVolatility (equity : Series ℚ) (tradingDaysPerYear : ℤ) : Except PyExc ℚ := do
  let equity ← validateEquity equity
  let returns := equity.dailyReturns
  if returns.length < 2 then pure 0
  else pure (sampleStd math returns * math.sqrt tradingDaysPerYear)

/-- `calc_sharpe_ratio`. -/
def calcSharpeRatio (equity : Series ℚ) (riskFreeRate : ℚ) (tradingDaysPerYear : ℤ) :
    Except PyExc ℚ := do
  let equity ← validateEquity equity
  let returns := equity.dailyReturns
  if returns.length < 2 then pure 0
  else
    let std := sampleStd math returns
    if std = 0 then pure 0
    else
      let excess := seriesMean returns - riskFreeRate / tradingDaysPerYear
      pure (excess / std * math.sqrt tradingDaysPerYear)

end Annualized

/-! ## The other inputs -/

/-- `get_completed_rebalance_dates` and `load_rebalance_dates`. -/
def getCompletedRebalanceDates (rows : List Rebalance) (startDate endDate : ℤ) : List ℤ :=
  ((rows.filter fun r => r.status = .completed ∧ r.dryRun = false ∧
    startDate ≤ kstDate r.executedAt ∧ kstDate r.executedAt ≤ endDate).map
      fun r => kstDate r.executedAt).mergeSort (· ≤ ·)

/-- `float(avg_fill_price)`. The column holds no infinity. -/
def floatOfDecimal : Python.Decimal → Option ℚ
  | .finite q => some q
  | _ => none

/-- `get_filled_orders_by_period`. -/
def getFilledOrdersByPeriod (rows : List StoredOrder) (accountNo accountProductCode : String)
    (startDate endDate : ℤ) : List (OrderAction × ℤ × Option Python.Decimal) :=
  (rows.filter fun row => row.order.accountNo = accountNo ∧
    row.order.accountProductCode = accountProductCode ∧ row.order.orderKind = .new ∧
      0 < row.order.filledQty ∧ row.order.rebalanceId ≠ none ∧
        row.requestedAt.any fun t => startDate ≤ kstDate t ∧ kstDate t ≤ endDate).map
    fun row => (row.order.orderPos, row.order.filledQty, row.order.avgFillPrice)

/-- `total += amount`, where there is an amount to add. -/
def addAmount (total : Option ℚ) (row : ℤ × Option Python.Decimal) : Option ℚ :=
  match row.2 with
  | none => total
  | some price =>
    if row.1 = 0 then total
    else total.bind fun total => (floatOfDecimal price).map fun price => total + price * row.1

/-- `load_trade_values`: the totals of the buys and of the sells. -/
def loadTradeValues (rows : List (OrderAction × ℤ × Option Python.Decimal)) :
    Option ℚ × Option ℚ :=
  rows.foldl (fun (buy, sell) (orderPos, row) =>
    if orderPos = .buy then (addAmount buy row, sell) else (buy, addAmount sell row))
    (some 0, some 0)

/-- `build_benchmark_series`. -/
def buildBenchmarkSeries (getOhlcv : OhlcvArgs → Except PyExc (PriceFrame (Option ℚ)))
    (startDate asOfDate : ℤ) (benchmarkCode : String) : Except PyExc CloseSeries := do
  let series ← fetchCloseSeries getOhlcv benchmarkCode startDate asOfDate
  if series.isEmpty then
    .error (.other "ValueError" s!"벤치마크 조회 실패. code={benchmarkCode}")
  else pure series

/-! ## The answer -/

namespace PerformanceService

structure Period where
  start : Option ℤ := none
  stop : Option ℤ := none
  days : ℤ := 0
  tradingDays : ℕ := 0
  rebalanceCount : ℕ := 0

structure ReturnMetrics where
  totalReturn : Option ℚ := none
  periodProfit : Option ℚ := none
  cagr : Option ℚ := none
  benchmarkReturn : Option ℚ := none
  benchmarkKosdaqReturn : Option ℚ := none
  alphaVsBenchmark : Option ℚ := none
  excessReturn : Option ℚ := none

structure RiskMetrics where
  maxDrawdown : Option ℚ := none
  mddMaxDays : Option ℤ := none
  mddCurrentDays : Option ℤ := none
  isRecovered : Option Bool := none
  volatility : Option ℚ := none
  sharpeRatio : Option ℚ := none

structure RebalanceTradeMetrics where
  periodCount : ℕ := 0
  winRate : Option ℚ := none
  avgWin : Option ℚ := none
  avgLoss : Option ℚ := none
  profitFactor : Option ℚ := none

structure TurnoverMetrics where
  turnoverRate : Option ℚ := none
  totalBuyValue : Option ℚ := some 0
  totalSellValue : Option ℚ := some 0
  avgNav : Option ℚ := none

structure NavPoint where
  date : ℤ
  nav : ℚ
  benchmark : Option ℚ := none

structure PerformanceRead where
  period : Period
  returns : ReturnMetrics
  risk : RiskMetrics
  trading : RebalanceTradeMetrics
  turnover : TurnoverMetrics
  navSeries : List NavPoint := []

/-- `PerformanceRead.empty()`. -/
def PerformanceRead.empty : PerformanceRead where
  period := {}
  returns := {}
  risk := {}
  trading := {}
  turnover := {}

def minDaysForAnnualized : ℤ := 90

def minPointsForRisk : ℕ := 30

def minRebalancesForTurnover : ℕ := 2

def calendarDaysPerYear : ℤ := 365

def tradingDaysPerYear : ℤ := 252

/-- A request: the period asked for, what the tables hold and what the provider answers. -/
structure Request extends EquityCall where
  math : FloatMath
  rebalances : List Rebalance
  orders : List StoredOrder

/-- `pd.Timestamp.date()`. -/
def dateOf (t : Instant) : ℤ := t / microsecondsPerDay

/-- A benchmark that is left out where a `ValueError` is raised. -/
def optionalBenchmark (series : Except PyExc CloseSeries) : Except PyExc (Option CloseSeries) :=
  match series with
  | .ok series => .ok (some series)
  | .error e => if e.isValueError then .ok none else .error e

/-- `x if condition else None`. -/
def onlyIf (condition : Bool) (x : Except PyExc ℚ) : Except PyExc (Option ℚ) :=
  if condition then some <$> x else pure none

namespace Request

variable (call : Request)

/-- `load_rebalance_dates` of the request. -/
def rebalanceDates : List ℤ :=
  getCompletedRebalanceDates call.rebalances call.startDate call.asOfDate

def tradeValues : Option ℚ × Option ℚ :=
  loadTradeValues (getFilledOrdersByPeriod call.orders call.accountNo call.accountProductCode
    call.startDate call.asOfDate)

/-- The benchmark of an index from the first day of the equity on. -/
def benchmark (equity : List (Instant × ℚ)) (code : String) : Except PyExc (Option CloseSeries) :=
  optionalBenchmark (buildBenchmarkSeries call.getOhlcv
    (dateOf ((equity.map Prod.fst).headD 0)) call.asOfDate code)

/-- The turnover, from the second rebalance on. -/
def turnover (series : Series ℚ) : Except PyExc (Option TurnoverResult) :=
  if minRebalancesForTurnover ≤ call.rebalanceDates.length then
    some <$> calcTurnover series call.tradeValues.1 call.tradeValues.2 true calendarDaysPerYear
  else pure none

def alpha (hasAnnualized : Bool) (series : Series ℚ) (benchmark : Option CloseSeries) :
    Except PyExc (Option ℚ) :=
  match benchmark with
  | some benchmark =>
    onlyIf hasAnnualized (calcAlpha call.math series benchmark calendarDaysPerYear)
  | none => pure none

/-- What is computed for an answer. -/
structure Figures where
  ddDuration : DrawdownDuration
  returns : List ℚ
  turnover : Option TurnoverResult
  totalReturn : ℚ
  benchmarkReturn : Option ℚ
  benchmarkKosdaqReturn : Option ℚ
  periodProfit : ℚ
  cagr : Option ℚ
  alpha : Option ℚ
  maxDrawdown : ℚ
  volatility : Option ℚ
  sharpeRatio : Option ℚ

/-- `period_days`. -/
def periodDays (equity : List (Instant × ℚ)) : ℤ :=
  daysBetween ((equity.map Prod.fst).headD 0) ((equity.map Prod.fst).getLastD 0)

/-- The metrics of an equity of two points and more. -/
def figures (equity : List (Instant × ℚ)) (benchmark benchmarkKosdaq : Option CloseSeries) :
    Except PyExc Figures := do
  let series : Series ℚ := equity.map fun p => (p.1, some p.2)
  let hasAnnualized := decide (minDaysForAnnualized ≤ periodDays equity)
  let hasRisk := decide (minPointsForRisk ≤ equity.length)
  let ddDuration ← calcDrawdownDuration series
  let returns ← calcRebalancePeriodReturns series (call.rebalanceDates.map timestamp)
  let turnover ← call.turnover series
  let totalReturn ← calcTotalReturn series 2
  let benchmarkReturn ← benchmark.mapM (calcTotalReturn · 2)
  let benchmarkKosdaqReturn ← benchmarkKosdaq.mapM (calcTotalReturn · 2)
  let periodProfit ← calcPeriodProfit series
  let cagr ← onlyIf hasAnnualized (calcCagr call.math series calendarDaysPerYear 2)
  let alpha ← call.alpha hasAnnualized series benchmark
  let maxDrawdown ← calcMaxDrawdown series 2
  let volatility ← onlyIf hasRisk (calcVolatility call.math series tradingDaysPerYear)
  let sharpeRatio ← onlyIf hasRisk (calcSharpeRatio call.math series 0 tradingDaysPerYear)
  pure ⟨ddDuration, returns, turnover, totalReturn, benchmarkReturn, benchmarkKosdaqReturn,
    periodProfit, cagr, alpha, maxDrawdown, volatility, sharpeRatio⟩

/-- The answer with these figures. -/
def answer (equity : List (Instant × ℚ)) (benchmark : Option CloseSeries) (f : Figures) :
    PerformanceRead :=
  let win := calcWinMetrics f.returns 2
  { period := {
      start := some (dateOf ((equity.map Prod.fst).headD 0))
      stop := some (dateOf ((equity.map Prod.fst).getLastD 0))
      days := periodDays equity
      tradingDays := equity.length
      rebalanceCount := call.rebalanceDates.length }
    returns := {
      totalReturn := some f.totalReturn
      periodProfit := some f.periodProfit
      cagr := f.cagr
      benchmarkReturn := f.benchmarkReturn
      benchmarkKosdaqReturn := f.benchmarkKosdaqReturn
      alphaVsBenchmark := f.alpha
      excessReturn := f.benchmarkReturn.map (f.totalReturn - ·) }
    risk := {
      maxDrawdown := some f.maxDrawdown
      mddMaxDays := some f.ddDuration.maxDays
      mddCurrentDays := some f.ddDuration.currentDays
      isRecovered := some f.ddDuration.isRecovered
      volatility := f.volatility
      sharpeRatio := f.sharpeRatio }
    trading := {
      periodCount := win.periodCount
      winRate := some win.winRate
      avgWin := some win.avgWin
      avgLoss := some win.avgLoss
      profitFactor := win.profitFactor }
    turnover := {
      turnoverRate := f.turnover.bind TurnoverResult.turnoverRate
      totalBuyValue := call.tradeValues.1
      totalSellValue := call.tradeValues.2
      avgNav := f.turnover.map TurnoverResult.avgNav }
    -- a day on which the index was not traded is without a benchmark
    navSeries := equity.map fun p =>
      ⟨dateOf p.1, p.2, benchmark.bind fun series => (series.lookup p.1).join⟩ }

def measure (equity : List (Instant × ℚ)) : Except PyExc PerformanceRead := do
  let benchmark ← call.benchmark equity "KS11"
  let benchmarkKosdaq ← call.benchmark equity "KQ11"
  let figures ← call.figures equity benchmark benchmarkKosdaq
  pure (call.answer equity benchmark figures)

end Request

/-- `PerformanceService.get_performance`. The day it counts up to is given, or today. -/
def getPerformance (call : Request) : Except PyExc PerformanceRead :=
  match call.result with
  | .error e => if e.isValueError then .ok .empty else .error e
  | .ok equity => if equity.length < 2 then .ok .empty else call.measure equity

/-- `GET /performance`: the period starts with the first rebalance where no date is given. -/
def getPerformanceRoute (call : Request) (startDate : Option ℤ) (dateMin : ℤ) :
    Except PyExc PerformanceRead :=
  match startDate with
  | some startDate => getPerformance { call with startDate := startDate }
  | none =>
    match (getCompletedRebalanceDates call.rebalances dateMin call.asOfDate).min? with
    | none => .ok .empty
    | some startDate => getPerformance { call with startDate := startDate }

end PerformanceService

end Autotrading
