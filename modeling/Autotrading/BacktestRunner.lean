import Autotrading.BacktestExecutor

/-!
# The runner of portfolio backtests

`BacktestRunner` of `app/strategy/backtest/runner.py`, whose loop `BacktestExecutor` took over.
-/
namespace Autotrading

structure BacktestRunner (ν : Type) where
  generateSignal : PriceData ν → Except PyExc (List (String × StrategySignal))
  initialCash : ν
  rebalanceInterval : Instant → ℤ

namespace BacktestRunner

/-- `_get_rebalance_dates`: the first date of each period, with the periods that were seen. -/
def getRebalanceDates (period : Instant → ℤ) (dates : List Instant) : List Instant :=
  (dates.foldl (fun (s : List ℤ × List Instant) date =>
    if period date ∈ s.1 then s else (period date :: s.1, date :: s.2)) ([], [])).2

section Run
variable {ν : Type} [Column ν]

/-- The cash when what has a price is sold. -/
def liquidate (data : PriceData ν) (date : Instant) : List (String × ν) → ν → ν
  | [], cash => cash
  | p :: positions, cash =>
    match data.close? p.1 date with
    | some price => liquidate data date positions (cash + p.2 * price)
    | none => liquidate data date positions cash

/-- Every code is bought for the same amount. -/
def buy (data : PriceData ν) (date : Instant) (alloc : ν) :
    List String → Dict String ν → Except PyExc (Dict String ν)
  | [], positions => pure positions
  | code :: codes, positions => do
    let price ← BacktestExecutor.closeAt data code date
    let qty := alloc / price
    buy data date alloc codes (positions.set code qty)

/-- What `holdings_value` comes to. -/
def evaluate (data : PriceData ν) (date : Instant) : List (String × ν) → ν → ν
  | [], value => value
  | p :: positions, value =>
    match data.close? p.1 date with
    | some price => evaluate data date positions (value + p.2 * price)
    | none => evaluate data date positions value

/-- The cash and the positions behind a rebalance. -/
def rebuild (r : BacktestRunner ν) (data : PriceData ν) (date : Instant) (cash : ν)
    (positions : Dict String ν) : Except PyExc (ν × Dict String ν) := do
  let signals ← r.generateSignal (data.sliced date)
  let buyCodes := (signals.filter fun row => row.2 = .buy).map Prod.fst
  let cash := liquidate data date positions.entries cash
  if buyCodes.isEmpty then pure (cash, .empty)
  else
    let alloc := cash / ((buyCodes.length : ℤ) : ν)
    let positions ← buy data date alloc buyCodes .empty
    pure (0, positions)

/-- The simulation over the dates that are left. -/
def simulate (r : BacktestRunner ν) (data : PriceData ν) (rebalanceDates : List Instant) :
    List Instant → ν → Dict String ν → List (DailyRecord ν) → Except PyExc (List (DailyRecord ν))
  | [], _, _, records => pure records
  | date :: dates, cash, positions, records => do
    let isRebalance := decide (date ∈ rebalanceDates)
    let held ← (if isRebalance then r.rebuild data date cash positions else pure (cash, positions))
    let holdingsValue := evaluate data date held.2.entries 0
    let totalEquity := held.1 + holdingsValue
    r.simulate data rebalanceDates dates held.1 held.2 (records ++ [{
      date
      equity := totalEquity
      cash := held.1
      holdingsValue
      numHoldings := held.2.entries.length
      numSignals := none
      rebalance := isRebalance }])

/-- `run`. -/
def run (r : BacktestRunner ν) (data : PriceData ν) : Except PyExc (List (DailyRecord ν)) :=
  if data.entries.isEmpty then
    .error (.other "TypeError" "unbound method set.intersection() needs an argument")
  else
    let allDates := BacktestExecutor.commonDates data
    r.simulate data (getRebalanceDates r.rebalanceInterval allDates) allDates r.initialCash .empty []

/-! ## The executor computes the same -/

theorem mem_foldl_getRebalanceDates {period : Instant → ℤ} {dates : List Instant} {seen : List ℤ}
    {rebalance : List Instant} {date : Instant} :
    date ∈ (dates.foldl (fun (s : List ℤ × List Instant) date =>
        if period date ∈ s.1 then s else (period date :: s.1, date :: s.2)) (seen, rebalance)).2 ↔
      date ∈ rebalance ∨ date ∈ BacktestExecutor.getRebalanceDates period seen dates := by
  induction dates generalizing seen rebalance with
  | nil => simp [BacktestExecutor.getRebalanceDates]
  | cons d dates ih =>
    rw [List.foldl_cons, BacktestExecutor.getRebalanceDates]
    by_cases hseen : period d ∈ seen
    · rw [if_pos hseen, if_pos hseen, ih]
    · rw [if_neg hseen, if_neg hseen, ih, List.mem_cons, List.mem_cons]
      tauto

theorem mem_getRebalanceDates (period : Instant → ℤ) (dates : List Instant) (date : Instant) :
    date ∈ getRebalanceDates period dates ↔
      date ∈ BacktestExecutor.getRebalanceDates period [] dates := by
  unfold getRebalanceDates
  rw [mem_foldl_getRebalanceDates]
  simp

variable {r : BacktestRunner ν} {data : PriceData ν} {date : Instant}

theorem liquidate_eq (positions : List (String × ν)) (cash : ν) :
    liquidate data date positions cash =
      positions.foldl (BacktestExecutor.sellPosition data date) cash := by
  induction positions generalizing cash with
  | nil => rfl
  | cons p positions ih =>
    rw [liquidate, List.foldl_cons, BacktestExecutor.sellPosition]
    cases data.close? p.1 date with
    | none => exact ih cash
    | some price => exact ih _

theorem evaluate_eq (positions : List (String × ν)) (value : ν) :
    evaluate data date positions value =
      (positions.filterMap fun p => (data.close? p.1 date).map fun price => p.2 * price).foldl
        (· + ·) value := by
  induction positions generalizing value with
  | nil => rfl
  | cons p positions ih =>
    rw [evaluate, List.filterMap_cons]
    cases data.close? p.1 date with
    | none => exact ih value
    | some price => exact ih _

theorem buy_eq (alloc : ν) (codes : List String) (positions : Dict String ν) :
    buy data date alloc codes positions =
      codes.foldlM (fun positions code => do
        let price ← BacktestExecutor.closeAt data code date
        pure (positions.set code (alloc / price))) positions := by
  induction codes generalizing positions with
  | nil => rfl
  | cons code codes ih =>
    rw [buy, List.foldlM_cons]
    cases BacktestExecutor.closeAt data code date with
    | error e => rfl
    | ok price => exact ih _

theorem rebalancePositions_eq (s : BacktestExecutor.Portfolio ν) :
    BacktestExecutor.rebalancePositions r.generateSignal data s date =
      (r.rebuild data date s.cash s.positions).map fun held =>
        { s with cash := held.1, positions := held.2 } := by
  unfold BacktestExecutor.rebalancePositions rebuild
  cases r.generateSignal (data.sliced date) with
  | error e => rfl
  | ok signals =>
    show ite _ _ _ = Except.map _ (ite _ _ _)
    rw [liquidate_eq, buy_eq]
    split
    · rfl
    · generalize (List.foldlM _ _ _ : Except PyExc (Dict String ν)) = bought
      cases bought with
      | error e => rfl
      | ok positions => rfl

theorem simulate_eq {rebalanceDates rebalanceDates' : List Instant}
    (hdates : ∀ date, date ∈ rebalanceDates' ↔ date ∈ rebalanceDates) (dates : List Instant)
    (s : BacktestExecutor.Portfolio ν) :
    r.simulate data rebalanceDates' dates s.cash s.positions s.records =
      (dates.foldlM (BacktestExecutor.rebalanceDay r.generateSignal rebalanceDates data) s).map
        (·.records) := by
  induction dates generalizing s with
  | nil => rfl
  | cons date dates ih =>
    have hflag : decide (date ∈ rebalanceDates') = decide (date ∈ rebalanceDates) :=
      decide_eq_decide.mpr (hdates date)
    have hvalue : ∀ positions, evaluate data date positions 0 =
        BacktestExecutor.holdingsValue data date positions := fun positions => evaluate_eq positions 0
    rw [simulate, List.foldlM_cons, BacktestExecutor.rebalanceDay, hflag]
    simp only [hvalue]
    split
    · rw [rebalancePositions_eq]
      cases r.rebuild data date s.cash s.positions with
      | error e => rfl
      | ok held => exact ih ⟨held.1, held.2, _⟩
    · exact ih ⟨s.cash, s.positions, _⟩

/-- The runner and the executor give the same records, or fail alike. -/
theorem run_eq_executor (r : BacktestRunner ν) (rvMaxPositions rvCooldownDays : ℤ)
    (data : BacktestData ν) :
    r.run data.prices =
      ((BacktestExecutor.mk (.rebalance r.generateSignal) r.initialCash r.rebalanceInterval
        rvMaxPositions rvCooldownDays).run data).map (·.records) := by
  show r.run data.prices = (BacktestExecutor.runRebalance _ r.generateSignal data).map _
  unfold run BacktestExecutor.runRebalance
  split
  · rfl
  · dsimp only
    have hdates := mem_getRebalanceDates r.rebalanceInterval
      (BacktestExecutor.commonDates data.prices)
    rw [simulate_eq hdates _ ⟨r.initialCash, .empty, []⟩]
    generalize (List.foldlM _ _ _ : Except PyExc (BacktestExecutor.Portfolio ν)) = final
    cases final with
    | error e => rfl
    | ok s => rfl

end Run

end BacktestRunner

end Autotrading
