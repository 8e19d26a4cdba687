import Autotrading.PerformanceBounds
import Mathlib.Algebra.BigOperators.Ring.List

/-!
# The size of an account

An account with `k` times the cash, the shares and the fills of another one, on the same days and at
the same prices. It has the same figures in percent and in days, and `k` times the amounts of money.
-/
namespace Autotrading

open RunningMax (cummax cummaxFrom)
open TimeIndex (mapValues carry_mapValues)

/-! ## Multiples of values -/

section Values
variable {k : ℚ}

theorem cummax_mul (hk : 0 < k) (xs : List ℚ) :
    cummax (xs.map (k * ·)) = (cummax xs).map (k * ·) := by
  have hfrom : ∀ m, cummaxFrom (k * m) (xs.tail.map (k * ·)) =
      (cummaxFrom m xs.tail).map (k * ·) := by
    intro m
    induction xs.tail generalizing m with
    | nil => rfl
    | cons x xs ih =>
      have hmax : max (k * m) (k * x) = k * max m x := (mul_max_of_nonneg m x hk.le).symm
      simp only [List.map_cons, cummaxFrom, hmax, ih]
  cases xs with
  | nil => rfl
  | cons x xs =>
    have htail := hfrom x
    rw [List.tail_cons] at htail
    simp only [List.map_cons, cummax, htail]

theorem mul_nonpos_iff_of_pos (hk : 0 < k) (v : ℚ) : k * v ≤ 0 ↔ v ≤ 0 := by
  rw [← not_lt, ← not_lt, mul_pos_iff_of_pos_left hk]

theorem seriesMean_mul (k : ℚ) (xs : List ℚ) : seriesMean (xs.map (k * ·)) = k * seriesMean xs := by
  have hsum : (xs.map (k * ·)).sum = k * xs.sum := by
    simpa using List.sum_map_mul_left xs id k
  rw [seriesMean, seriesMean, hsum, List.length_map, mul_div_assoc]

end Values

namespace EquitySeries

/-- Every value `k` times. -/
def scaled (k : ℚ) (hk : 0 < k) (equity : EquitySeries ℚ) : EquitySeries ℚ where
  points := equity.points.map fun p => (p.1, k * p.2)
  nonempty := by simpa using equity.nonempty
  ascending := List.pairwise_map.mpr equity.ascending
  positive := by
    intro p hp
    obtain ⟨q, hq, rfl⟩ := List.mem_map.mp hp
    exact mul_pos hk (equity.positive q hq)

section Scaled
variable {k : ℚ} (hk : 0 < k) (equity : EquitySeries ℚ)

@[simp] theorem points_scaled :
    (equity.scaled k hk).points = equity.points.map fun p => (p.1, k * p.2) := rfl

@[simp] theorem values_scaled : (equity.scaled k hk).values = equity.values.map (k * ·) := by
  simp [values]

@[simp] theorem index_scaled : (equity.scaled k hk).index = equity.index := by
  simp [index]

@[simp] theorem firstIndex_scaled : (equity.scaled k hk).firstIndex = equity.firstIndex := by
  simp [firstIndex]

@[simp] theorem lastIndex_scaled : (equity.scaled k hk).lastIndex = equity.lastIndex := by
  simp [lastIndex]

@[simp] theorem firstValue_scaled : (equity.scaled k hk).firstValue = k * equity.firstValue := by
  simp [firstValue]

@[simp] theorem lastValue_scaled : (equity.scaled k hk).lastValue = k * equity.lastValue := by
  simp [lastValue]

@[simp] theorem days_scaled : (equity.scaled k hk).days = equity.days := by
  simp [days]

@[simp] theorem avgNav_scaled : (equity.scaled k hk).avgNav = k * equity.avgNav := by
  simp [avgNav, seriesMean_mul]

theorem ratio_scaled : (equity.scaled k hk).lastValue / (equity.scaled k hk).firstValue =
    equity.lastValue / equity.firstValue := by
  rw [lastValue_scaled, firstValue_scaled]
  exact mul_div_mul_left _ _ hk.ne'

@[simp] theorem rawReturn_scaled : (equity.scaled k hk).rawReturn = equity.rawReturn := by
  rw [rawReturn, ratio_scaled, rawReturn]

@[simp] theorem dailyReturns_scaled : (equity.scaled k hk).dailyReturns = equity.dailyReturns := by
  have hstep : ∀ a b : ℚ, k * b / (k * a) - 1 = b / a - 1 := by
    intro a b
    rw [mul_div_mul_left b a hk.ne']
  simp only [dailyReturns, values_scaled, ← List.map_tail, List.zipWith_map, hstep]

@[simp] theorem asof_scaled (t : Instant) :
    (equity.scaled k hk).asof t = (equity.asof t).map (k * ·) := by
  simp [asof, List.filter_map, Function.comp_def]

end Scaled

end EquitySeries

/-! ## The metrics -/

section Metrics
variable {k : ℚ} (hk : 0 < k) (equity : EquitySeries ℚ) (series : Series ℚ)

theorem mddPct_scaled : mddPct (equity.scaled k hk) = mddPct equity := by
  have hloss : ∀ e m : ℚ, (k * e - k * m) / (k * m) = (e - m) / m := by
    intro e m
    rw [← mul_sub, mul_div_mul_left _ m hk.ne']
  simp only [mddPct, EquitySeries.values_scaled, cummax_mul hk, List.zipWith_map, hloss]

theorem underwater_scaled : underwater (equity.scaled k hk) = underwater equity := by
  have hbelow : ∀ e m : ℚ, k * e < k * m ↔ e < m := fun e m => mul_lt_mul_iff_right₀ hk
  simp only [underwater, EquitySeries.values_scaled, cummax_mul hk, List.zipWith_map, hbelow]

theorem periodReturns_scaled (points : List Instant) :
    periodReturns (equity.scaled k hk) points = periodReturns equity points := by
  induction points with
  | nil => rfl
  | cons t points ih =>
    rw [periodReturns, periodReturns, EquitySeries.asof_scaled, ih]
    cases hstart : equity.asof t with
    | none => rfl
    | some start =>
      have hsign : k * start ≤ 0 ↔ start ≤ 0 := mul_nonpos_iff_of_pos hk start
      have hgain : ∀ stop : Option ℚ,
          (stop.map (k * ·)).getD 0 / (k * start) = stop.getD 0 / start := by
        intro stop
        cases stop with
        | none => simp
        | some stop => exact mul_div_mul_left stop start hk.ne'
      simp only [Option.map_some, EquitySeries.lastIndex_scaled, EquitySeries.asof_scaled, hgain]
      by_cases hzero : start ≤ 0
      · rw [if_pos hzero, if_pos (hsign.mpr hzero)]
      · rw [if_neg hzero, if_neg (fun h => hzero (hsign.mp h))]

/-- A multiple of a series is let through, or refused with the same text, as the series is. -/
theorem validateEquity_scaled : validateEquity (mapValues (k * ·) series) =
    EquitySeries.scaled k hk <$> validateEquity series := by
  have hempty : mapValues (k * ·) series = [] ↔ series = [] := List.map_eq_nil_iff
  have hasc : (mapValues (k * ·) series).Pairwise (fun p q => p.1 ≤ q.1) ↔
      series.Pairwise fun p q => p.1 ≤ q.1 := List.pairwise_map
  have hna : (∃ p ∈ mapValues (k * ·) series, p.2 = none) ↔ ∃ p ∈ series, p.2 = none := by
    simp [mapValues]
  have hknown : known (mapValues (k * ·) series) = (known series).map fun p => (p.1, k * p.2) := by
    simp [known, mapValues, List.filterMap_map, List.map_filterMap, Function.comp_def]
  have hpos : (∃ p ∈ known (mapValues (k * ·) series), p.2 ≤ 0) ↔ ∃ p ∈ known series, p.2 ≤ 0 := by
    simp [hknown, mul_nonpos_iff_of_pos hk]
  unfold validateEquity
  simp only [hempty, hasc, hna, hpos]
  split_ifs
  · rfl
  · rfl
  · rfl
  · exact congrArg Except.ok (EquitySeries.ext_points hknown)
  · rfl

/-- What follows a validation follows that of a multiple. -/
theorem bind_validateEquity_scaled {α : Type} (f : EquitySeries ℚ → Except PyExc α) :
    (validateEquity (mapValues (k * ·) series) >>= f) =
      validateEquity series >>= fun equity => f (equity.scaled k hk) := by
  rw [validateEquity_scaled hk, bind_map_left]

include hk

theorem calcDrawdownDuration_scaled :
    calcDrawdownDuration (mapValues (k * ·) series) = calcDrawdownDuration series := by
  simp only [calcDrawdownDuration, bind_validateEquity_scaled hk, underwater_scaled,
    EquitySeries.index_scaled, EquitySeries.points_scaled, List.length_map]

theorem calcRebalancePeriodReturns_scaled (dates : List Instant) :
    calcRebalancePeriodReturns (mapValues (k * ·) series) dates =
      calcRebalancePeriodReturns series dates := by
  simp only [calcRebalancePeriodReturns, bind_validateEquity_scaled hk, periodReturns_scaled,
    EquitySeries.lastIndex_scaled]

theorem calcTotalReturn_scaled (decimals : ℤ) :
    calcTotalReturn (mapValues (k * ·) series) decimals = calcTotalReturn series decimals := by
  simp only [calcTotalReturn, bind_validateEquity_scaled hk, EquitySeries.rawReturn_scaled]

theorem calcPeriodProfit_scaled :
    calcPeriodProfit (mapValues (k * ·) series) = (k * ·) <$> calcPeriodProfit series := by
  simp only [calcPeriodProfit, bind_validateEquity_scaled hk, EquitySeries.lastValue_scaled,
    EquitySeries.firstValue_scaled, map_bind, map_pure, mul_sub]

theorem calcMaxDrawdown_scaled (decimals : ℤ) :
    calcMaxDrawdown (mapValues (k * ·) series) decimals = calcMaxDrawdown series decimals := by
  simp only [calcMaxDrawdown, bind_validateEquity_scaled hk, mddPct_scaled]

section Annualized
variable (math : FloatMath)

theorem calcCagr_scaled (daysPerYear decimals : ℤ) :
    calcCagr math (mapValues (k * ·) series) daysPerYear decimals =
      calcCagr math series daysPerYear decimals := by
  simp only [calcCagr, bind_validateEquity_scaled hk, EquitySeries.days_scaled,
    EquitySeries.ratio_scaled]

theorem calcAlpha_scaled (benchmark : Series ℚ) (daysPerYear : ℤ) :
    calcAlpha math (mapValues (k * ·) series) benchmark daysPerYear =
      calcAlpha math series benchmark daysPerYear := by
  simp only [calcAlpha, calcCagr_scaled hk]

theorem calcVolatility_scaled (tradingDaysPerYear : ℤ) :
    calcVolatility math (mapValues (k * ·) series) tradingDaysPerYear =
      calcVolatility math series tradingDaysPerYear := by
  simp only [calcVolatility, bind_validateEquity_scaled hk, EquitySeries.dailyReturns_scaled]

theorem calcSharpeRatio_scaled (riskFreeRate : ℚ) (tradingDaysPerYear : ℤ) :
    calcSharpeRatio math (mapValues (k * ·) series) riskFreeRate tradingDaysPerYear =
      calcSharpeRatio math series riskFreeRate tradingDaysPerYear := by
  simp only [calcSharpeRatio, bind_validateEquity_scaled hk, EquitySeries.dailyReturns_scaled]

end Annualized

/-- The amounts of a turnover `k` times. -/
def TurnoverResult.scaled (k : ℚ) (r : TurnoverResult) : TurnoverResult where
  turnoverRate := r.turnoverRate
  totalBuyValue := r.totalBuyValue.map (k * ·)
  totalSellValue := r.totalSellValue.map (k * ·)
  avgNav := k * r.avgNav

theorem floatMin_mul (a b : Option ℚ) :
    floatMin (a.map (k * ·)) (b.map (k * ·)) = (floatMin a b).map (k * ·) := by
  cases a with
  | none => rfl
  | some a =>
    cases b with
    | none => rfl
    | some b =>
      have hless : k * b < k * a ↔ b < a := mul_lt_mul_iff_right₀ hk
      simp only [floatMin, Option.map_some, hless]
      split_ifs
      · rfl
      · rfl

theorem calcTurnover_scaled (buy sell : Option ℚ) (daysPerYear : ℤ) :
    calcTurnover (mapValues (k * ·) series) (buy.map (k * ·)) (sell.map (k * ·)) true daysPerYear =
      TurnoverResult.scaled k <$> calcTurnover series buy sell true daysPerYear := by
  have hsign : ∀ nav : ℚ, k * nav ≤ 0 ↔ nav ≤ 0 := mul_nonpos_iff_of_pos hk
  have hrate : ∀ traded nav : ℚ, k * traded / (k * nav) = traded / nav := by
    intro traded nav
    exact mul_div_mul_left traded nav hk.ne'
  simp only [calcTurnover, bind_validateEquity_scaled hk, EquitySeries.avgNav_scaled,
    EquitySeries.days_scaled, hsign, if_true, floatMin_mul hk, Option.map_map, Function.comp_def,
    hrate, map_bind]
  congr 1
  funext equity
  by_cases hzero : equity.avgNav ≤ 0
  · simp [hzero, TurnoverResult.scaled]
  · simp [hzero, TurnoverResult.scaled]

end Metrics

/-! ## The equity -/

def SnapshotRow.scaled (k : ℤ) (s : SnapshotRow) : SnapshotRow :=
  { s with cashAmount := s.cashAmount.map (k * ·) }

def HoldingRow.scaled (k : ℤ) (row : HoldingRow) : HoldingRow :=
  { row with holdingQty := k * row.holdingQty }

def SnapshotStore.scaled (k : ℤ) (db : SnapshotStore) : SnapshotStore where
  snapshots := db.snapshots.map (SnapshotRow.scaled k)
  holdings := db.holdings.map (HoldingRow.scaled k)

def SnapshotView.scaled (k : ℤ) (s : SnapshotView) : SnapshotView where
  tradingDate := s.tradingDate
  cashAmount := k * s.cashAmount
  holdings := s.holdings.mapValues (k * ·)

section Snapshots
variable (k : ℤ) (db : SnapshotStore)

theorem getSnapshotsByPeriod_scaled (accountNo accountProductCode : String)
    (startDate endDate : ℤ) :
    (db.scaled k).getSnapshotsByPeriod accountNo accountProductCode startDate endDate =
      (db.getSnapshotsByPeriod accountNo accountProductCode startDate endDate).map
        (SnapshotRow.scaled k) := by
  simp only [SnapshotStore.getSnapshotsByPeriod, SnapshotStore.scaled, List.filter_map]
  rw [List.map_mergeSort]
  · rfl
  · intro a _ b _
    rfl

theorem getHoldingsBySnapshotIds_scaled (snapshotIds : List ℕ) :
    (db.scaled k).getHoldingsBySnapshotIds snapshotIds =
      (db.getHoldingsBySnapshotIds snapshotIds).map (HoldingRow.scaled k) := by
  simp only [SnapshotStore.getHoldingsBySnapshotIds, SnapshotStore.scaled, List.filter_map]
  rw [List.map_mergeSort]
  · rfl
  · intro a _ b _
    rfl

theorem snapshotView_scaled (holdings : List HoldingRow) (s : SnapshotRow) :
    snapshotView (holdings.map (HoldingRow.scaled k)) (s.scaled k) =
      (snapshotView holdings s).scaled k := by
  have hcash : (((s.cashAmount.map (k * ·)).getD 0 : ℤ) : ℚ) = k * ((s.cashAmount.getD 0 : ℤ) : ℚ) := by
    cases s.cashAmount with
    | none => simp
    | some cash => simp
  have hrows : groupedHoldings (holdings.map (HoldingRow.scaled k)) s.id =
      (groupedHoldings holdings s.id).mapValues (k * ·) := by
    rw [groupedHoldings, groupedHoldings, ← Dict.ofList_map, List.filter_map, List.map_map,
      List.map_map]
    rfl
  simp only [snapshotView, SnapshotView.scaled, Dict.mapValues] at hrows ⊢
  simp only [SnapshotRow.scaled, hcash, hrows]
  rfl

theorem heldCodes_scaled (views : List SnapshotView) :
    heldCodes (views.map (SnapshotView.scaled k)) = heldCodes views := by
  simp [heldCodes, List.flatMap_map, SnapshotView.scaled]

theorem ordered_scaled (views : List SnapshotView) :
    ordered (views.map (SnapshotView.scaled k)) = (ordered views).map (SnapshotView.scaled k) := by
  unfold ordered
  rw [List.map_mergeSort]
  intro a _ b _
  rfl

theorem qty_scaled (s : SnapshotView) (code : String) : (s.scaled k).qty code = k * s.qty code := by
  simp only [SnapshotView.qty, SnapshotView.scaled, Dict.get?_mapValues]
  cases s.holdings.get? code with
  | none => simp
  | some q => rfl

theorem carryForward_mapValues {ν μ : Type} (f : ν → μ) (xs : List (ℤ × Option ν))
    (target : List ℤ) :
    carryForward (mapValues f xs) target = mapValues f <$> carryForward xs target := by
  rw [carryForward, carryForward, carry_mapValues]
  cases TimeIndex.carry xs target with
  | none => rfl
  | some ys => rfl

theorem equityOf_scaled (frame : CloseTable) (t : Instant) (qty : Option (List ℤ))
    (cash : Option ℚ) :
    frame.equityOf t (qty.map (List.map (k * ·))) (cash.map (k * ·)) =
      k * frame.equityOf t qty cash := by
  have hrow : (qty.map (List.map (k * ·))).getD (frame.columns.map fun _ => 0) =
      (qty.getD (frame.columns.map fun _ => 0)).map (k * ·) := by
    cases qty with
    | none => simp
    | some row => rfl
  have hcash : (cash.map ((k : ℚ) * ·)).getD 0 = k * cash.getD 0 := by
    cases cash with
    | none => simp
    | some cash => rfl
  have hproduct : ∀ (code : String) (q : ℤ), (frame.close t code).map (· * ((k * q : ℤ) : ℚ)) =
      ((frame.close t code).map (· * (q : ℚ))).map ((k : ℚ) * ·) := by
    intro code q
    rw [Option.map_map]
    congr 1
    funext close
    rw [Function.comp_apply, Int.cast_mul]
    ring
  have hsum : ∀ xs : List ℚ, (xs.map ((k : ℚ) * ·)).sum = k * xs.sum := by
    intro xs
    simpa using List.sum_map_mul_left xs id (k : ℚ)
  have hzip : ∀ row : List ℤ, List.zipWith (fun code (q : ℤ) =>
      ((frame.close t code).map (· * (q : ℚ))).map ((k : ℚ) * ·)) frame.columns row =
        (List.zipWith (fun code (q : ℤ) => (frame.close t code).map (· * (q : ℚ)))
          frame.columns row).map (Option.map ((k : ℚ) * ·)) := by
    intro row
    rw [List.map_zipWith]
  simp only [CloseTable.equityOf, hrow, hcash, List.zipWith_map_right, hproduct, hzip,
    List.reduceOption_map, hsum, mul_add]

/-- Every amount `k` times. -/
def scaledPoints (k : ℤ) (equity : List (Instant × ℚ)) : List (Instant × ℚ) :=
  equity.map fun p => (p.1, k * p.2)

theorem assembleEquity_scaled (frame : CloseTable) (views : List SnapshotView)
    (asOfDate : Instant) :
    frame.assembleEquity (views.map (SnapshotView.scaled k)) asOfDate =
      scaledPoints k <$> frame.assembleEquity views asOfDate := by
  have hqty : ∀ rows : List SnapshotView,
      (rows.map (SnapshotView.scaled k)).map (fun s => (s.tradingDate, some (frame.columns.map s.qty))) =
        mapValues (List.map (k * ·))
          (rows.map fun s => (s.tradingDate, some (frame.columns.map s.qty))) := by
    intro rows
    have hdate : ∀ s : SnapshotView, (s.scaled k).tradingDate = s.tradingDate := fun _ => rfl
    simp [mapValues, qty_scaled, hdate, Function.comp_def]
  have hcash : ∀ rows : List SnapshotView,
      (rows.map (SnapshotView.scaled k)).map (fun s => (s.tradingDate, some s.cashAmount)) =
        mapValues ((k : ℚ) * ·) (rows.map fun s => (s.tradingDate, some s.cashAmount)) := by
    intro rows
    simp [mapValues, SnapshotView.scaled, Function.comp_def]
  unfold CloseTable.assembleEquity
  rw [ordered_scaled]
  cases ordered views with
  | nil => rfl
  | cons first rest =>
    have hfirst : (first.scaled k).tradingDate = first.tradingDate := rfl
    have hquantities := hqty (first :: rest)
    have hamounts := hcash (first :: rest)
    simp only [List.map_cons, hfirst] at hquantities hamounts ⊢
    rw [hquantities, hamounts, carryForward_mapValues, carryForward_mapValues]
    split_ifs
    · rfl
    · rfl
    · simp [equityOf_scaled, scaledPoints, mapValues, List.map_zipWith]

theorem buildEquitySeries_scaled (getOhlcv : OhlcvArgs → Except PyExc (PriceFrame (Option ℚ)))
    (accountNo accountProductCode : String) (startDate asOfDate : ℤ) :
    buildEquitySeries getOhlcv (db.scaled k) accountNo accountProductCode startDate asOfDate =
      scaledPoints k <$>
        buildEquitySeries getOhlcv db accountNo accountProductCode startDate asOfDate := by
  have hids : ∀ rows : List SnapshotRow,
      (rows.map (SnapshotRow.scaled k)).map (·.id) = rows.map (·.id) := by
    intro rows
    rw [List.map_map]
    rfl
  have hdates : ∀ rows : List SnapshotRow,
      (rows.map (SnapshotRow.scaled k)).map resolveTradingDate = rows.map resolveTradingDate := by
    intro rows
    rw [List.map_map]
    rfl
  have hviews : ∀ (rows : List SnapshotRow) (holdings : List HoldingRow),
      (rows.map (SnapshotRow.scaled k)).map (snapshotView (holdings.map (HoldingRow.scaled k))) =
        (rows.map (snapshotView holdings)).map (SnapshotView.scaled k) := by
    intro rows holdings
    simp [snapshotView_scaled]
  simp only [buildEquitySeries, getSnapshotsByPeriod_scaled, getHoldingsBySnapshotIds_scaled, hids,
    hdates, hviews, heldCodes_scaled, assembleEquity_scaled, List.isEmpty_map]
  split_ifs
  · rfl
  · rfl
  · rw [map_bind]

end Snapshots

/-! ## The fills -/

def StoredOrder.scaled (k : ℤ) (row : StoredOrder) : StoredOrder :=
  { row with
    order := { row.order with
      orderQty := k * row.order.orderQty
      filledQty := k * row.order.filledQty
      remainingQty := k * row.order.remainingQty } }

section Fills
variable {k : ℤ} (hk : 0 < k)
include hk

theorem getFilledOrdersByPeriod_scaled (rows : List StoredOrder)
    (accountNo accountProductCode : String) (startDate endDate : ℤ) :
    getFilledOrdersByPeriod (rows.map (StoredOrder.scaled k)) accountNo accountProductCode startDate
        endDate =
      (getFilledOrdersByPeriod rows accountNo accountProductCode startDate endDate).map
        fun row => (row.1, k * row.2.1, row.2.2) := by
  have hfilled : ∀ row : StoredOrder,
      0 < (row.scaled k).order.filledQty ↔ 0 < row.order.filledQty := by
    intro row
    exact mul_pos_iff_of_pos_left hk
  unfold getFilledOrdersByPeriod
  rw [List.filter_map, List.map_map, List.map_map]
  congr 1
  refine List.filter_congr fun row _ => ?_
  simp only [Function.comp_apply, hfilled]
  rfl

theorem addAmount_scaled (total : Option ℚ) (qty : ℤ) (price : Option Python.Decimal) :
    addAmount (total.map ((k : ℚ) * ·)) (k * qty, price) =
      (addAmount total (qty, price)).map ((k : ℚ) * ·) := by
  have hzero : k * qty = 0 ↔ qty = 0 := by
    rw [mul_eq_zero]
    omega
  unfold addAmount
  cases price with
  | none => rfl
  | some price =>
    simp only [hzero]
    split_ifs
    · rfl
    · cases total with
      | none => rfl
      | some total =>
        cases floatOfDecimal price with
        | none => rfl
        | some price =>
          have hsum : (k : ℚ) * total + price * (k * qty) = k * (total + price * qty) := by
            ring
          simp [hsum]

theorem loadTradeValues_scaled (rows : List (OrderAction × ℤ × Option Python.Decimal)) :
    loadTradeValues (rows.map fun row => (row.1, k * row.2.1, row.2.2)) =
      ((loadTradeValues rows).1.map ((k : ℚ) * ·), (loadTradeValues rows).2.map ((k : ℚ) * ·)) := by
  induction rows using List.reverseRecOn with
  | nil => simp [loadTradeValues]
  | append_singleton rows row ih =>
    unfold loadTradeValues at ih ⊢
    rw [List.map_append, List.map_singleton, List.foldl_append, List.foldl_append, ih]
    by_cases hbuy : row.1 = .buy
    · simp [hbuy, addAmount_scaled hk]
    · simp [hbuy, addAmount_scaled hk]

end Fills

/-! ## The answer -/

namespace PerformanceService

/-- The amounts of an answer `k` times, and everything else as it is. -/
def PerformanceRead.scaled (k : ℤ) (read : PerformanceRead) : PerformanceRead :=
  { read with
    returns := { read.returns with periodProfit := read.returns.periodProfit.map ((k : ℚ) * ·) }
    turnover := {
      turnoverRate := read.turnover.turnoverRate
      totalBuyValue := read.turnover.totalBuyValue.map ((k : ℚ) * ·)
      totalSellValue := read.turnover.totalSellValue.map ((k : ℚ) * ·)
      avgNav := read.turnover.avgNav.map ((k : ℚ) * ·) }
    navSeries := read.navSeries.map fun p => { p with nav := k * p.nav } }

namespace Request

/-- The request where the account has `k` times the cash, the shares and the fills. -/
def scaled (k : ℤ) (call : Request) : Request :=
  { call with
    db := call.db.scaled k
    orders := call.orders.map (StoredOrder.scaled k) }

/-- The figures in money `k` times. -/
def Figures.scaled (k : ℤ) (f : Figures) : Figures :=
  { f with
    turnover := f.turnover.map (TurnoverResult.scaled k)
    periodProfit := k * f.periodProfit }

section Scaled
variable {k : ℤ} (hk : 0 < k) (call : Request) (equity : List (Instant × ℚ))

theorem result_scaled : (call.scaled k).result = scaledPoints k <$> call.result :=
  buildEquitySeries_scaled k call.db call.getOhlcv call.accountNo call.accountProductCode
    call.startDate call.asOfDate

theorem periodDays_scaled : periodDays (scaledPoints k equity) = periodDays equity := by
  simp [periodDays, scaledPoints, Function.comp_def]

theorem benchmark_scaled (code : String) :
    (call.scaled k).benchmark (scaledPoints k equity) code = call.benchmark equity code := by
  simp [benchmark, scaledPoints, Function.comp_def, scaled]

include hk

theorem tradeValues_scaled : (call.scaled k).tradeValues =
    (call.tradeValues.1.map ((k : ℚ) * ·), call.tradeValues.2.map ((k : ℚ) * ·)) := by
  have hrows := getFilledOrdersByPeriod_scaled hk call.orders call.accountNo
    call.accountProductCode call.startDate call.asOfDate
  have hvalues := loadTradeValues_scaled hk (getFilledOrdersByPeriod call.orders call.accountNo
    call.accountProductCode call.startDate call.asOfDate)
  rw [← hrows] at hvalues
  exact hvalues

theorem turnover_scaled (series : Series ℚ) :
    (call.scaled k).turnover (mapValues ((k : ℚ) * ·) series) =
      Option.map (TurnoverResult.scaled k) <$> call.turnover series := by
  have hpos : (0 : ℚ) < k := Int.cast_pos.mpr hk
  have hdates : (call.scaled k).rebalanceDates = call.rebalanceDates := rfl
  unfold turnover
  rw [hdates, tradeValues_scaled hk call, calcTurnover_scaled hpos]
  split_ifs
  · simp [Functor.map_map]
  · rfl

theorem figures_scaled (benchmark benchmarkKosdaq : Option CloseSeries) :
    (call.scaled k).figures (scaledPoints k equity) benchmark benchmarkKosdaq =
      Figures.scaled k <$> call.figures equity benchmark benchmarkKosdaq := by
  have hpos : (0 : ℚ) < k := Int.cast_pos.mpr hk
  have hseries : (scaledPoints k equity).map (fun p => (p.1, some p.2)) =
      mapValues ((k : ℚ) * ·) (equity.map fun p => (p.1, some p.2)) := by
    simp [scaledPoints, mapValues]
  have hlength : (scaledPoints k equity).length = equity.length := List.length_map _
  have halpha : ∀ (hasAnnualized : Bool) (series : Series ℚ),
      (call.scaled k).alpha hasAnnualized (mapValues ((k : ℚ) * ·) series) benchmark =
        call.alpha hasAnnualized series benchmark := by
    intro hasAnnualized series
    cases benchmark with
    | none => rfl
    | some benchmark =>
      exact congrArg (onlyIf hasAnnualized) (calcAlpha_scaled hpos series call.math benchmark _)
  have hmath : (call.scaled k).math = call.math := rfl
  have hdates : (call.scaled k).rebalanceDates = call.rebalanceDates := rfl
  simp only [figures, hseries, hlength, hmath, hdates, halpha, periodDays_scaled,
    calcDrawdownDuration_scaled hpos, calcRebalancePeriodReturns_scaled hpos, turnover_scaled hk,
    calcTotalReturn_scaled hpos, calcPeriodProfit_scaled hpos, calcCagr_scaled hpos,
    calcMaxDrawdown_scaled hpos, calcVolatility_scaled hpos, calcSharpeRatio_scaled hpos,
    map_bind, bind_map_left, map_pure]
  rfl

theorem answer_scaled (benchmark : Option CloseSeries) (f : Figures) :
    (call.scaled k).answer (scaledPoints k equity) benchmark (f.scaled k) =
      (call.answer equity benchmark f).scaled k := by
  have hdates : (call.scaled k).rebalanceDates = call.rebalanceDates := rfl
  have hindex : (scaledPoints k equity).map Prod.fst = equity.map Prod.fst := by
    simp [scaledPoints, Function.comp_def]
  have hlength : (scaledPoints k equity).length = equity.length := List.length_map _
  have hrate : (f.turnover.map (TurnoverResult.scaled k)).bind TurnoverResult.turnoverRate =
      f.turnover.bind TurnoverResult.turnoverRate := by
    cases f.turnover with
    | none => rfl
    | some turnover => rfl
  have hnav : (f.turnover.map (TurnoverResult.scaled k)).map TurnoverResult.avgNav =
      (f.turnover.map TurnoverResult.avgNav).map ((k : ℚ) * ·) := by
    cases f.turnover with
    | none => rfl
    | some turnover => rfl
  have hpoints : (scaledPoints k equity).map (fun p => (⟨dateOf p.1, p.2,
      benchmark.bind fun series => (series.lookup p.1).join⟩ : NavPoint)) =
        (equity.map fun p => (⟨dateOf p.1, p.2,
          benchmark.bind fun series => (series.lookup p.1).join⟩ : NavPoint)).map
            fun p => { p with nav := k * p.nav } := by
    simp [scaledPoints]
  simp only [answer, Figures.scaled, PerformanceRead.scaled, hdates, hindex, hlength, hrate, hnav,
    hpoints, periodDays_scaled, tradeValues_scaled hk, Option.map_some]

theorem measure_scaled : (call.scaled k).measure (scaledPoints k equity) =
    PerformanceRead.scaled k <$> call.measure equity := by
  simp only [measure, benchmark_scaled, figures_scaled hk, answer_scaled hk, bind_map_left, map_bind,
    map_pure]

end Scaled

end Request

theorem empty_scaled (k : ℤ) : PerformanceRead.empty.scaled k = .empty := by
  simp [PerformanceRead.scaled, PerformanceRead.empty]

section Sizes
variable {k : ℤ} (hk : 0 < k) (call : Request)
include hk

theorem getPerformance_scaled :
    getPerformance (call.scaled k) = PerformanceRead.scaled k <$> getPerformance call := by
  unfold getPerformance
  rw [Request.result_scaled]
  cases call.result with
  | error e =>
    show (if e.isValueError then Except.ok PerformanceRead.empty else .error e) = _
    by_cases hvalue : e.isValueError
    · simp [hvalue, empty_scaled]
    · simp [hvalue]
  | ok equity =>
    have hlength : (scaledPoints k equity).length = equity.length := List.length_map _
    show (if (scaledPoints k equity).length < 2 then _ else _) = _
    rw [hlength]
    by_cases hshort : equity.length < 2
    · simp [hshort, empty_scaled]
    · simp [hshort, Request.measure_scaled hk]

end Sizes

end PerformanceService

end Autotrading
