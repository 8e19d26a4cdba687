import Autotrading.BacktestExecutor
import Autotrading.PeriodReturns

/-!
# Metrics of a rebalanced backtest

`_calc_rebalance_trade_metrics` of `app/strategy/backtest/metrics.py`, which cuts its periods by
labels, and its agreement with the metrics of the live portfolio.
-/
namespace Autotrading

open DatedLoop (sortedSet)

/-- The frame of a backtest that ran over at least one day: one row a day, in order, with an equity
above zero. -/
structure BacktestFrame where
  rows : List (DailyRecord ℚ)
  nonempty : rows ≠ []
  ascending : rows.Pairwise fun a b => a.date < b.date
  positive : ∀ row ∈ rows, 0 < row.equity

namespace BacktestFrame

/-- `df["equity"]`. -/
def equity (df : BacktestFrame) : EquitySeries ℚ where
  points := df.rows.map fun row => (row.date, row.equity)
  nonempty := by simpa using df.nonempty
  ascending := List.pairwise_map.mpr (df.ascending.imp le_of_lt)
  positive := by
    intro p hp
    obtain ⟨row, hrow, rfl⟩ := List.mem_map.mp hp
    exact df.positive row hrow

/-- `df.index[df["rebalance"] == True]`. -/
def rebalanceIndices (df : BacktestFrame) : List Instant :=
  (df.rows.filter (·.rebalance)).map (·.date)

end BacktestFrame

/-- `equity.loc[date]`. -/
def EquitySeries.loc (equity : EquitySeries ℚ) (date : Instant) : Except PyExc ℚ :=
  match equity.points.find? (·.1 = date) with
  | some p => .ok p.2
  | none => .error (.other "KeyError" (toString date))

structure RebalanceTradeMetrics where
  rebalanceCount : ℕ
  winRate : ℚ
  avgWin : ℚ
  avgLoss : ℚ
  profitFactor : ℚ
  avgHoldingCount : ℚ

/-- The loop over the rebalances. -/
def labelledReturns (equity : EquitySeries ℚ) : List Instant → Except PyExc (List ℚ)
  | [] => pure []
  | start :: rest => do
    let startEq ← equity.loc start
    let endEq ← match rest with
      | next :: _ => equity.loc next
      | [] => pure equity.lastValue
    let others ← labelledReturns equity rest
    pure ((endEq / startEq - 1) :: others)

/-- What `_calc_rebalance_trade_metrics` makes of the returns. -/
def tradeMetricsOf (rebalanceCount : ℕ) (holdingCounts periodReturns : List ℚ) :
    RebalanceTradeMetrics :=
  let wins := periodReturns.filter (0 < ·)
  let losses := periodReturns.filter (· < 0)
  let winRate := if 0 < periodReturns.length then
    (periodReturns.countP (0 < ·) : ℚ) / periodReturns.length else 0
  let avgWin := if periodReturns.any (0 < ·) then seriesMean wins else 0
  let avgLoss := if periodReturns.any (· < 0) then seriesMean losses else 0
  let grossProfit := if periodReturns.any (0 < ·) then wins.sum else 0
  let grossLoss := if periodReturns.any (· < 0) then |losses.sum| else 0
  let profitFactor := if 0 < grossLoss then grossProfit / grossLoss else 0
  { rebalanceCount
    winRate := Python.round (winRate * 100) 2
    avgWin := Python.round (avgWin * 100) 2
    avgLoss := Python.round (avgLoss * 100) 2
    profitFactor := Python.round profitFactor 2
    avgHoldingCount := Python.round (seriesMean holdingCounts) 2 }

/-- `_calc_rebalance_trade_metrics`. -/
def calcRebalanceTradeMetrics (df : BacktestFrame) : Except PyExc RebalanceTradeMetrics := do
  let periodReturns ← labelledReturns df.equity df.rebalanceIndices
  pure (tradeMetricsOf df.rebalanceIndices.length (df.rows.map fun row => (row.numHoldings : ℚ))
    periodReturns)

/-! ## Labels and dates -/

section Labels
variable {df : BacktestFrame} {date : Instant} {dates : List Instant}

/-- On a date of the index the label and the look back find the same row. -/
theorem loc_eq_asof {row : DailyRecord ℚ} (h : row ∈ df.rows) :
    df.equity.loc row.date = .ok row.equity ∧ df.equity.asof row.date = some row.equity := by
  obtain ⟨before, after, hrows⟩ := List.append_of_mem h
  have hsorted := df.ascending
  rw [hrows, List.pairwise_append, List.pairwise_cons] at hsorted
  have hpoints : df.equity.points = before.map (fun r => (r.date, r.equity)) ++
      (row.date, row.equity) :: after.map fun r => (r.date, r.equity) := by
    simp [BacktestFrame.equity, hrows]
  constructor
  · have hfind : df.equity.points.find? (·.1 = row.date) = some (row.date, row.equity) := by
      refine List.find?_eq_some_iff_append.mpr ⟨by simp, _, _, hpoints, ?_⟩
      intro p hp
      obtain ⟨r, hr, rfl⟩ := List.mem_map.mp hp
      have hlt : r.date < row.date := hsorted.2.2 r hr row List.mem_cons_self
      simpa using hlt.ne
    rw [EquitySeries.loc, hfind]
  · refine asof_iff.mpr ⟨_, _, _, hpoints, le_rfl, ?_⟩
    intro p hp
    obtain ⟨r, hr, rfl⟩ := List.mem_map.mp hp
    exact hsorted.2.1.1 r hr

/-- The loop over labels finds the returns of the loop over dates. -/
theorem labelledReturns_eq {rows : List (DailyRecord ℚ)} (h : ∀ row ∈ rows, row ∈ df.rows) :
    labelledReturns df.equity (rows.map (·.date)) =
      .ok (periodReturns df.equity (rows.map (·.date))) := by
  induction rows with
  | nil => rfl
  | cons row rows ih =>
    have hrow := loc_eq_asof (h row List.mem_cons_self)
    have hrest := ih fun r hr => h r (List.mem_cons_of_mem _ hr)
    rw [List.map_cons, labelledReturns, hrow.1, periodReturns_cons hrow.2, hrest]
    cases rows with
    | nil =>
      rw [List.map_nil, List.headD_nil, asof_lastIndex]
      rfl
    | cons next rows =>
      have hnext := loc_eq_asof (h next (List.mem_cons_of_mem _ List.mem_cons_self))
      rw [List.map_cons, List.headD_cons, hnext.2]
      dsimp only
      rw [hnext.1]
      rfl

/-- The rebalances of a frame are in order and not behind its end. -/
theorem points_rebalanceIndices (df : BacktestFrame) :
    (sortedSet df.rebalanceIndices).filter (· ≤ df.equity.lastIndex) = df.rebalanceIndices := by
  have hsorted : df.rebalanceIndices.Pairwise (· < ·) :=
    List.pairwise_map.mpr (df.ascending.filter _)
  have hset : sortedSet df.rebalanceIndices = df.rebalanceIndices :=
    DatedLoop.eq_of_mem_iff (DatedLoop.pairwise_sortedSet _) hsorted fun d => by simp
  rw [hset, List.filter_eq_self]
  intro d hd
  obtain ⟨row, hrow, rfl⟩ := List.mem_map.mp hd
  have hmem : (row.date, row.equity) ∈ df.equity.points :=
    List.mem_map.mpr ⟨row, (List.mem_filter.mp hrow).1, rfl⟩
  exact decide_eq_true (le_lastIndex hmem)

theorem any_win_iff {returns : List ℚ} : returns.any (0 < ·) = true ↔ ∃ r ∈ returns, 0 < r := by
  simp

theorem any_loss_iff {returns : List ℚ} : returns.any (· < 0) = true ↔ ∃ r ∈ returns, r < 0 := by
  simp

theorem isEmpty_filter {p : ℚ → Bool} {returns : List ℚ} :
    (returns.filter p).isEmpty = !returns.any p := by
  rw [Bool.eq_iff_iff, List.isEmpty_iff, List.filter_eq_nil_iff]
  simp

/-- A profit factor of a backtest without both wins and losses is zero. -/
theorem profitFactor_agree (count : ℕ) (holdingCounts returns : List ℚ) :
    (tradeMetricsOf count holdingCounts returns).profitFactor =
      ((calcWinMetrics returns 2).profitFactor.map (Python.round · 2)).getD 0 := by
  have hzero : Python.round 0 2 = 0 := by simp [Python.round, Python.roundHalfEven]
  rw [profitFactor_eq]
  unfold tradeMetricsOf
  simp only [any_win_iff, any_loss_iff]
  by_cases hloss : ∃ r ∈ returns, r < 0
  · have hpos := abs_sum_losses_pos.mpr hloss
    by_cases hwin : ∃ r ∈ returns, 0 < r
    · simp only [hloss, hwin, if_true, and_self, hpos, Option.map_some, Option.getD_some]
    · simp only [hloss, hwin, if_true, if_false, and_false, hpos, Option.map_none, Option.getD_none,
        zero_div, hzero]
  · simp only [hloss, if_false, false_and, lt_irrefl, Option.map_none, Option.getD_none, hzero]

theorem rates_agree (count : ℕ) (holdingCounts returns : List ℚ) :
    (tradeMetricsOf count holdingCounts returns).winRate = (calcWinMetrics returns 2).winRate ∧
      (tradeMetricsOf count holdingCounts returns).avgWin = (calcWinMetrics returns 2).avgWin ∧
      (tradeMetricsOf count holdingCounts returns).avgLoss =
        (calcWinMetrics returns 2).avgLoss := by
  have hzero : Python.round 0 2 = 0 := by simp [Python.round, Python.roundHalfEven]
  by_cases hempty : returns = []
  · subst hempty
    simp [tradeMetricsOf, calcWinMetrics, hzero]
  · have hpos : 0 < returns.length := List.length_pos_iff.mpr hempty
    have hmetrics : returns.isEmpty = false := by simpa using hempty
    have hif : ∀ (b : Bool) (x : ℚ), (if b = true then x else 0) * 100 =
        if (!b) = true then 0 else x * 100 := by
      intro b x
      cases b <;> simp
    refine ⟨?_, ?_, ?_⟩
    · simp only [tradeMetricsOf, calcWinMetrics, hmetrics, hpos, if_true, Bool.false_eq_true,
        if_false, winRatePct]
    · simp only [tradeMetricsOf, calcWinMetrics, hmetrics, Bool.false_eq_true, if_false,
        isEmpty_filter, hif]
    · simp only [tradeMetricsOf, calcWinMetrics, hmetrics, Bool.false_eq_true, if_false,
        isEmpty_filter, hif]

/-- The metrics of a backtest are those of the live portfolio over the same equity and the same
rebalances, where a profit factor that is not there is read as zero. -/
theorem tradeMetrics_agree (df : BacktestFrame) :
    ∃ backtest returns, calcRebalanceTradeMetrics df = .ok backtest ∧
      calcRebalancePeriodReturns df.equity.toSeries df.rebalanceIndices = .ok returns ∧
      backtest.winRate = (calcWinMetrics returns 2).winRate ∧
      backtest.avgWin = (calcWinMetrics returns 2).avgWin ∧
      backtest.avgLoss = (calcWinMetrics returns 2).avgLoss ∧
      backtest.profitFactor =
        ((calcWinMetrics returns 2).profitFactor.map (Python.round · 2)).getD 0 := by
  have hrows : ∀ row ∈ df.rows.filter (·.rebalance), row ∈ df.rows :=
    fun row hrow => (List.mem_filter.mp hrow).1
  have hlabels : labelledReturns df.equity df.rebalanceIndices =
      .ok (periodReturns df.equity df.rebalanceIndices) := labelledReturns_eq hrows
  have hdates := calcRebalancePeriodReturns_eq df.equity df.rebalanceIndices
  rw [points_rebalanceIndices] at hdates
  obtain ⟨hrate, hwin, hloss⟩ := rates_agree df.rebalanceIndices.length
    (df.rows.map fun row => (row.numHoldings : ℚ)) (periodReturns df.equity df.rebalanceIndices)
  have hrun : calcRebalanceTradeMetrics df = .ok (tradeMetricsOf df.rebalanceIndices.length
      (df.rows.map fun row => (row.numHoldings : ℚ))
        (periodReturns df.equity df.rebalanceIndices)) := by
    rw [calcRebalanceTradeMetrics, hlabels]
    rfl
  exact ⟨_, _, hrun, hdates, hrate, hwin, hloss, profitFactor_agree _ _ _⟩

end Labels

end Autotrading
