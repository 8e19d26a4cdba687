import Autotrading.PerformanceBounds
import Autotrading.TradeMetrics

/-!
# The metrics of a backtest

`calculate_metrics` of `app/strategy/backtest/metrics.py` and its agreement with the metrics of the
live portfolio. `none` is a float that is not a number.
-/
namespace Autotrading

open PerformanceService (dateOf)
open RunningMax (cummax)

/-! ## Single trades -/

structure SwingTradeMetrics where
  tradeCount : ℕ
  winRate : ℚ
  avgWin : ℚ
  avgLoss : ℚ
  profitFactor : ℚ
  avgHoldingDays : ℚ
  avgHoldingCount : ℚ
  takeProfitPct : ℚ
  stopLossPct : ℚ
  timeExitPct : ℚ

structure ExposureMetrics where
  avgPositionCount : ℚ
  slotUtilization : ℚ
  maxConcurrentPositions : ℕ
  daysWithPositionsPct : ℚ
  avgDailySignals : ℚ

section Trades
variable {ν : Type}

/-- `num_holdings.mean()`. -/
def avgPositionCount (df : List (DailyRecord ν)) : ℚ :=
  seriesMean (df.map fun row => (row.numHoldings : ℚ))

/-- `holding_days.mean()`. -/
def avgHoldingDays (tradeRecords : List (SwingTradeRecord ν)) : ℚ :=
  seriesMean (tradeRecords.map fun t => (t.holdingDays : ℚ))

/-- The trades of an exit reason among all, in percent. -/
def exitPct (tradeRecords : List (SwingTradeRecord ν)) (reason : ExitReason) : ℚ :=
  ((tradeRecords.map (·.exitReason)).count reason.value : ℚ) / tradeRecords.length * 100

/-- `slot_utilization_pct`. -/
def slotUtilizationPct (df : List (DailyRecord ν)) (maxPositions : ℤ) : ℚ :=
  if 0 < maxPositions then avgPositionCount df / maxPositions * 100 else 0

/-- `num_holdings.max()`. -/
def maxConcurrentPositions (df : List (DailyRecord ν)) : ℕ :=
  (df.map (·.numHoldings)).max?.getD 0

/-- `days_with_positions_pct`. -/
def daysWithPositionsPct (df : List (DailyRecord ν)) : ℚ :=
  (df.countP (0 < ·.numHoldings) : ℚ) / df.length * 100

/-- `avg_daily_signals`: a frame has the column if its rows have a number. -/
def avgDailySignals (df : List (DailyRecord ν)) : ℚ :=
  if df.all (·.numSignals.isSome) then seriesMean (df.map fun row => (row.numSignals.getD 0 : ℚ))
  else 0

/-- `max_positions or 5`. -/
def slotsOf (maxPositions : ℤ) : ℤ := if maxPositions = 0 then 5 else maxPositions

/-- `_calc_exposure_metrics`. -/
def calcExposureMetrics (df : List (DailyRecord ν)) (maxPositions : ℤ) : ExposureMetrics where
  avgPositionCount := Python.round (avgPositionCount df) 2
  slotUtilization := Python.round (slotUtilizationPct df maxPositions) 2
  maxConcurrentPositions := maxConcurrentPositions df
  daysWithPositionsPct := Python.round (daysWithPositionsPct df) 2
  avgDailySignals := Python.round (avgDailySignals df) 2

end Trades

/-- `_calc_swing_trade_metrics`. Its rates are those of `_calc_rebalance_trade_metrics`; without a
trade the holdings are not rounded. -/
def calcSwingTradeMetrics (df : List (DailyRecord ℚ)) (tradeRecords : List (SwingTradeRecord ℚ)) :
    SwingTradeMetrics :=
  if tradeRecords.isEmpty then
    { tradeCount := 0
      winRate := 0
      avgWin := 0
      avgLoss := 0
      profitFactor := 0
      avgHoldingDays := 0
      avgHoldingCount := avgPositionCount df
      takeProfitPct := 0
      stopLossPct := 0
      timeExitPct := 0 }
  else
    let rates := tradeMetricsOf tradeRecords.length (df.map fun row => (row.numHoldings : ℚ))
      (tradeRecords.map (·.returnPct))
    { tradeCount := tradeRecords.length
      winRate := rates.winRate
      avgWin := rates.avgWin
      avgLoss := rates.avgLoss
      profitFactor := rates.profitFactor
      avgHoldingDays := Python.round (avgHoldingDays tradeRecords) 2
      avgHoldingCount := rates.avgHoldingCount
      takeProfitPct := Python.round (exitPct tradeRecords .takeProfit) 2
      stopLossPct := Python.round (exitPct tradeRecords .stopLoss) 2
      timeExitPct := Python.round (exitPct tradeRecords .timeExit) 2 }

/-! ## The whole -/

namespace BacktestMetrics

structure Period where
  start : String
  stop : String
  days : ℤ

structure ReturnMetrics where
  totalReturn : ℚ
  cagr : ℚ
  benchmarkReturn : ℚ
  alphaVsBenchmark : ℚ

structure RiskMetrics where
  maxDrawdown : ℚ
  volatility : Option ℚ
  sharpeRatio : Option ℚ

end BacktestMetrics

structure BacktestMetrics where
  period : BacktestMetrics.Period
  returns : BacktestMetrics.ReturnMetrics
  risk : BacktestMetrics.RiskMetrics
  trade : RebalanceTradeMetrics ⊕ SwingTradeMetrics
  exposure : Option ExposureMetrics

namespace BacktestMetrics

variable (math : FloatMath) (equity : EquitySeries ℚ)

/-- The days of a frame, at least one. -/
def days : ℤ := if equity.days = 0 then 1 else equity.days

/-- `total_return`. -/
def totalReturn : ℚ := equity.lastValue / equity.firstValue - 1

/-- `cagr`. -/
def cagr : ℚ := math.pow (equity.lastValue / equity.firstValue) (365 / days equity) - 1

/-- `max_drawdown`, which is not above zero. -/
def maxDrawdown : ℚ :=
  (List.zipWith (fun e m => (e - m) / m) equity.values (cummax equity.values)).min?.getD 0

/-- `returns.std()`, which is no number for a single return. -/
def std (returns : List ℚ) : Option ℚ :=
  if returns.length < 2 then none else some (sampleStd math returns)

/-- `volatility`. -/
def volatility (returns : List ℚ) : Option ℚ :=
  if returns.isEmpty then some 0 else (std math returns).map (· * math.sqrt 252)

/-- `sharpe_ratio`. What is no number is not zero. -/
def sharpeRatio (returns : List ℚ) : Option ℚ :=
  if !returns.isEmpty ∧ std math returns ≠ some 0 then
    (std math returns).map fun std => seriesMean returns / std * math.sqrt 252
  else some 0

end BacktestMetrics

open BacktestMetrics in
/-- `calculate_metrics`. -/
def calculateMetrics (math : FloatMath) (df : BacktestFrame) (benchmarkReturn : ℚ)
    (tradeRecords : Option (List (SwingTradeRecord ℚ))) (maxPositions : Option ℤ) :
    Except PyExc BacktestMetrics := do
  let equity := df.equity
  let returns := equity.dailyReturns
  let trade ← match tradeRecords with
    | some trades => pure (.inr (calcSwingTradeMetrics df.rows trades))
    | none => do pure (.inl (← calcRebalanceTradeMetrics df))
  let exposure := tradeRecords.bind fun _ => maxPositions.map fun maxPositions =>
    calcExposureMetrics df.rows (slotsOf maxPositions)
  pure {
    period := {
      start := isoformat (dateOf equity.firstIndex)
      stop := isoformat (dateOf equity.lastIndex)
      days := days equity }
    returns := {
      totalReturn := Python.round (totalReturn equity * 100) 2
      cagr := Python.round (cagr math equity * 100) 2
      benchmarkReturn := Python.round (benchmarkReturn * 100) 2
      alphaVsBenchmark := Python.round ((totalReturn equity - benchmarkReturn) * 100) 2 }
    risk := {
      maxDrawdown := Python.round (maxDrawdown equity * 100) 2
      volatility := (volatility math returns).map fun v => Python.round (v * 100) 2
      sharpeRatio := (sharpeRatio math returns).map fun s => Python.round s 2 }
    trade
    exposure }

/-! ## The backtest and the live portfolio -/

namespace BacktestMetrics

/-- The figures of a backtest are those of the live portfolio over its equity, which counts a
drawdown up and leaves the volatility a ratio. -/
structure Agrees (math : FloatMath) (equity : EquitySeries ℚ) (m : BacktestMetrics) : Prop where
  totalReturn : calcTotalReturn equity.toSeries 2 = .ok m.returns.totalReturn
  cagr : calcCagr math equity.toSeries 365 2 = .ok m.returns.cagr
  maxDrawdown : calcMaxDrawdown equity.toSeries 2 = .ok (-m.risk.maxDrawdown)
  volatility : ((calcVolatility math equity.toSeries 252).map fun v =>
    some (Python.round (v * 100) 2)) = .ok m.risk.volatility
  sharpeRatio : ((calcSharpeRatio math equity.toSeries 0 252).map fun s =>
    some (Python.round s 2)) = .ok m.risk.sharpeRatio

section Figures
variable {math : FloatMath} {equity : EquitySeries ℚ}

theorem maxDrawdown_nonpos (equity : EquitySeries ℚ) : maxDrawdown equity ≤ 0 := by
  unfold maxDrawdown
  cases hmin : (List.zipWith (fun e m => (e - m) / m) equity.values (cummax equity.values)).min? with
  | none => exact le_rfl
  | some d =>
    obtain ⟨j, e, m, he, hm, hd⟩ := mem_drawdown.mp (List.min?_eq_some_iff.mp hmin).1
    have hgreatest := RunningMax.isGreatest_cummax hm
    obtain ⟨i, -, hpeak⟩ := hgreatest.1
    have hle : e ≤ m := hgreatest.2 ⟨j, le_rfl, he⟩
    rw [Option.getD_some, ← hd]
    exact div_nonpos_of_nonpos_of_nonneg (sub_nonpos.mpr hle) (equity.values_pos hpeak).le

theorem mddPct_eq (equity : EquitySeries ℚ) : mddPct equity = -(maxDrawdown equity * 100) := by
  show |maxDrawdown equity| * 100 = _
  rw [abs_of_nonpos (maxDrawdown_nonpos equity), neg_mul]

/-- A single return has no deviation; the live portfolio takes it for zero. -/
theorem volatility_agrees_iff :
    ((calcVolatility math equity.toSeries 252).map fun v => some (Python.round (v * 100) 2)) =
        .ok ((volatility math equity.dailyReturns).map fun v => Python.round (v * 100) 2) ↔
      equity.dailyReturns.length ≠ 1 := by
  rw [calcVolatility, validateEquity_toSeries]
  show Except.map _ (if equity.dailyReturns.length < 2 then _ else _) = _ ↔ _
  unfold volatility std
  generalize equity.dailyReturns = returns
  by_cases hshort : returns.length < 2
  · rw [if_pos hshort, if_pos hshort]
    cases returns with
    | nil => simp [Except.map, pure, Except.pure]
    | cons r rest =>
      have hlength : (r :: rest).length = 1 := by
        rw [List.length_cons] at hshort ⊢
        omega
      simp [Except.map, pure, Except.pure, hlength]
  · have hempty : returns.isEmpty = false := by
      cases returns with
      | nil => simp at hshort
      | cons r rest => rfl
    rw [if_neg hshort, if_neg hshort, hempty]
    have hlength : returns.length ≠ 1 := by omega
    simp [Except.map, pure, Except.pure, hlength]

theorem sharpeRatio_agrees (h : equity.dailyReturns.length ≠ 1) :
    ((calcSharpeRatio math equity.toSeries 0 252).map fun s => some (Python.round s 2)) =
      .ok ((sharpeRatio math equity.dailyReturns).map fun s => Python.round s 2) := by
  rw [calcSharpeRatio, validateEquity_toSeries]
  show Except.map _ (if equity.dailyReturns.length < 2 then _ else _) = _
  unfold sharpeRatio std
  generalize equity.dailyReturns = returns at h
  by_cases hshort : returns.length < 2
  · have hnil : returns = [] := List.length_eq_zero_iff.mp (by omega)
    simp [hnil, Except.map, pure, Except.pure]
  · have hempty : returns.isEmpty = false := by
      cases returns with
      | nil => simp at hshort
      | cons r rest => rfl
    rw [if_neg hshort, if_neg hshort, hempty]
    by_cases hzero : sampleStd math returns = 0
    · simp [hzero, Except.map, pure, Except.pure]
    · simp [hzero, Except.map, pure, Except.pure]

end Figures

section Days
variable {df : BacktestFrame}

theorem length_dailyReturns (equity : EquitySeries ℚ) :
    equity.dailyReturns.length = equity.points.length - 1 := by
  simp [EquitySeries.dailyReturns]

theorem daysBetween_pos {a b : ℤ} (ha : a % microsecondsPerDay = 0)
    (hb : b % microsecondsPerDay = 0) (hlt : a < b) : 0 < daysBetween a b := by
  unfold daysBetween
  unfold microsecondsPerDay at ha hb
  omega

/-- Rows of midnights are days apart. -/
theorem days_pos (hmidnight : ∀ row ∈ df.rows, row.date % microsecondsPerDay = 0)
    (hlength : 2 ≤ df.rows.length) : 0 < df.equity.days := by
  obtain ⟨rows, hne, hasc, hpos⟩ := df
  match rows, hne, hasc, hpos, hmidnight, hlength with
  | first :: next :: rest, hne, hasc, hpos, hmidnight, _ =>
    obtain ⟨hlater, -⟩ := List.pairwise_cons.mp hasc
    have hrest : next :: rest ≠ [] := List.cons_ne_nil _ _
    have hmem : (next :: rest).getLast hrest ∈ next :: rest := List.getLast_mem hrest
    have hdays : (BacktestFrame.mk (first :: next :: rest) hne hasc hpos).equity.days =
        daysBetween first.date ((next :: rest).getLast hrest).date := by
      unfold EquitySeries.days EquitySeries.firstIndex EquitySeries.lastIndex BacktestFrame.equity
      simp only [List.getLast_map, List.getLast_cons_cons]
      rfl
    rw [hdays]
    exact daysBetween_pos (hmidnight first List.mem_cons_self)
      (hmidnight _ (List.mem_cons_of_mem _ hmem)) (hlater _ hmem)

/-- A frame of one row starts and ends with it. -/
theorem single_row (hlength : df.rows.length = 1) :
    df.equity.days = 0 ∧ df.equity.lastValue / df.equity.firstValue = 1 := by
  obtain ⟨rows, hne, hasc, hpos⟩ := df
  match rows, hne, hasc, hpos, hlength with
  | [row], hne, hasc, hpos, _ =>
    have hrow := hpos row List.mem_cons_self
    constructor
    · simp [EquitySeries.days, EquitySeries.firstIndex, EquitySeries.lastIndex,
        BacktestFrame.equity, daysBetween]
    · exact div_self hrow.ne'

/-- With the days of a frame, and one to the power of anything, the growth is the same. -/
theorem cagr_agrees {math : FloatMath} (hpow : ∀ y, math.pow 1 y = 1)
    (hmidnight : ∀ row ∈ df.rows, row.date % microsecondsPerDay = 0) :
    calcCagr math df.equity.toSeries 365 2 = .ok (Python.round (cagr math df.equity * 100) 2) := by
  rw [calcCagr, validateEquity_toSeries]
  show (if df.equity.days ≤ 0 then _ else _) = _
  unfold cagr days
  by_cases hlength : 2 ≤ df.rows.length
  · have hpos := days_pos hmidnight hlength
    rw [if_neg (not_le.mpr hpos), if_neg hpos.ne']
    rfl
  · have hone : df.rows.length = 1 := by
      have hne := List.length_pos_iff.mpr df.nonempty
      omega
    obtain ⟨hdays, hratio⟩ := single_row hone
    rw [hdays, hratio, if_pos rfl, if_pos le_rfl, hpow, sub_self, zero_mul, round_zero]
    rfl

end Days

theorem calcRebalanceTradeMetrics_ok (df : BacktestFrame) :
    calcRebalanceTradeMetrics df = .ok (tradeMetricsOf df.rebalanceIndices.length
      (df.rows.map fun row => (row.numHoldings : ℚ)) (periodReturns df.equity df.rebalanceIndices)) := by
  have hlabels : labelledReturns df.equity df.rebalanceIndices =
      .ok (periodReturns df.equity df.rebalanceIndices) :=
    labelledReturns_eq fun row hrow => (List.mem_filter.mp hrow).1
  rw [calcRebalanceTradeMetrics, hlabels]
  rfl

theorem calculateMetrics_ok (math : FloatMath) (df : BacktestFrame) (benchmarkReturn : ℚ)
    (tradeRecords : Option (List (SwingTradeRecord ℚ))) (maxPositions : Option ℤ) :
    ∃ m, calculateMetrics math df benchmarkReturn tradeRecords maxPositions = .ok m ∧
      m.returns.totalReturn = Python.round (totalReturn df.equity * 100) 2 ∧
      m.returns.cagr = Python.round (cagr math df.equity * 100) 2 ∧
      m.risk.maxDrawdown = Python.round (maxDrawdown df.equity * 100) 2 ∧
      m.risk.volatility = (volatility math df.equity.dailyReturns).map
        (fun v => Python.round (v * 100) 2) ∧
      m.risk.sharpeRatio = (sharpeRatio math df.equity.dailyReturns).map
        fun s => Python.round s 2 := by
  unfold calculateMetrics
  cases tradeRecords with
  | some trades => exact ⟨_, rfl, rfl, rfl, rfl, rfl, rfl⟩
  | none =>
    rw [calcRebalanceTradeMetrics_ok]
    exact ⟨_, rfl, rfl, rfl, rfl, rfl, rfl⟩

/-- A backtest and the live portfolio have the same figures for one equity, unless it is one of
exactly two days. -/
theorem backtest_agrees_iff (math : FloatMath) (hpow : ∀ y, math.pow 1 y = 1) (df : BacktestFrame)
    (hmidnight : ∀ row ∈ df.rows, row.date % microsecondsPerDay = 0) (benchmarkReturn : ℚ)
    (tradeRecords : Option (List (SwingTradeRecord ℚ))) (maxPositions : Option ℤ) :
    ∃ m, calculateMetrics math df benchmarkReturn tradeRecords maxPositions = .ok m ∧
      (Agrees math df.equity m ↔ df.rows.length ≠ 2) := by
  obtain ⟨m, hm, hreturn, hcagr, hdrawdown, hvolatility, hsharpe⟩ :=
    calculateMetrics_ok math df benchmarkReturn tradeRecords maxPositions
  refine ⟨m, hm, ?_⟩
  have hlength : df.equity.dailyReturns.length ≠ 1 ↔ df.rows.length ≠ 2 := by
    have hpoints : df.equity.points.length = df.rows.length := List.length_map _
    rw [length_dailyReturns, hpoints]
    omega
  rw [← hlength, ← @volatility_agrees_iff math, ← hvolatility]
  constructor
  · intro hagrees
    exact hagrees.volatility
  · intro hagrees
    have hmany : df.equity.dailyReturns.length ≠ 1 := by
      rw [hvolatility] at hagrees
      exact volatility_agrees_iff.mp hagrees
    constructor
    · rw [calcTotalReturn, validateEquity_toSeries, hreturn]
      rfl
    · rw [cagr_agrees hpow hmidnight, hcagr]
    · rw [calcMaxDrawdown, validateEquity_toSeries, hdrawdown, ← round_neg, ← mddPct_eq]
      rfl
    · exact hagrees
    · rw [sharpeRatio_agrees hmany, hsharpe]

/-- Ten percent on day 1, and ten percent more at the end of the year. -/
def yearFrame : BacktestFrame where
  rows := [⟨0, 100, 100, 0, 0, none, true⟩, ⟨86400000000, 110, 0, 110, 1, none, false⟩,
    ⟨365 * 86400000000, 121, 0, 121, 1, none, false⟩]
  nonempty := by decide
  ascending := by decide
  positive := by decide

/-- Powers of one and to the first, and the roots of 0 and 252. -/
def yearMath : FloatMath where
  pow x _ := x
  sqrt x := if x = 0 then 0 else 15874507866387544 / 10 ^ 15

theorem backtest_agrees_iff_year : ∃ m, calculateMetrics yearMath yearFrame (1 / 20) none none = .ok m ∧
    Agrees yearMath yearFrame.equity m := by
  obtain ⟨m, hm, hagrees⟩ := backtest_agrees_iff yearMath (fun _ => rfl) yearFrame (by decide)
    (1 / 20) none none
  exact ⟨m, hm, hagrees.mpr (by decide)⟩

end BacktestMetrics

end Autotrading
