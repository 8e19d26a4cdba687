import Autotrading.PositionPlan
import Autotrading.RebalanceExecutor
import Autotrading.SwingFigures

/-!
# One rebalance in detail

`get_rebalance_detail` of `app/services/rebalance/rebalance_query_service.py`, over the row that
`RebalanceExecutor.submit` stores, and what its figures say of the plan and of the orders.
-/
namespace Autotrading

/-- A row of `rebalances` with its counts and amounts. -/
structure RebalanceRow extends Rebalance where
  universeCount : ℤ
  buySignalCount : ℤ
  sellCount : ℤ
  buyCount : ℤ
  holdCount : ℤ
  totalSellValue : ℚ
  totalBuyValue : ℚ
  availableCashBefore : Option ℚ
  estimatedCashAfter : Option ℚ
  completedAt : Option Instant

/-- A row of `orders` with its times. -/
structure TimedOrder where
  order : Order
  submittedAt : Option Instant
  updatedAt : Instant

/-- `rebalance_record` of `submit`. -/
def RebalanceExecutor.record (result : StrategyResult) (d : DiffResult) (dryRun : Bool)
    (rebalanceId : RebalanceId) (executedAt : Instant) : RebalanceRow where
  id := rebalanceId
  executedAt
  dryRun
  universeCount := (result.metadata.universeCount.getD 0 : ℕ)
  buySignalCount := (buyCodes result).length
  sellCount := d.sellList.length
  buyCount := d.buyList.length
  holdCount := d.holdList.length
  totalSellValue := d.totalSellValue
  totalBuyValue := d.totalBuyValue
  availableCashBefore := some (d.availableCash : ℚ)
  estimatedCashAfter := some (d.estimatedCashAfter : ℚ)
  completedAt := none

namespace RebalanceQueryService

structure RebalanceOrderItem extends TimedOrder where
  fillDurationSeconds : Option ℚ

structure RebalanceExecutionSummary where
  signalCount : ℤ
  filledCount : ℤ
  failRate : ℚ
  availableCashBefore : Option ℚ
  estimatedCashAfter : Option ℚ
  cashRatio : Option ℚ
  rebalanceDurationSeconds : Option ℚ
  avgFillDurationSeconds : Option ℚ

structure RebalanceDetailResponse where
  rebalance : RebalanceRow
  executionSummary : RebalanceExecutionSummary
  orders : List RebalanceOrderItem

/-- `(later - earlier).total_seconds()`. -/
def totalSeconds (earlier later : Instant) : ℚ := ((later - earlier : ℤ) : ℚ) / 1000000

/-- `_calc_fill_duration_seconds`. -/
def calcFillDurationSeconds (order : TimedOrder) : Option ℚ :=
  order.submittedAt.map fun submittedAt =>
    if totalSeconds submittedAt order.updatedAt < 0 then 0
    else Python.round (totalSeconds submittedAt order.updatedAt) 2

/-- `_build_order_item`. -/
def buildOrderItem (order : TimedOrder) : RebalanceOrderItem :=
  { order with fillDurationSeconds := calcFillDurationSeconds order }

/-- `achieved_count`. -/
def achievedCount (rebalance : RebalanceRow) : ℤ := rebalance.buyCount + rebalance.holdCount

/-- `cash_ratio`. -/
def cashRatio (rebalance : RebalanceRow) : Except PyExc (Option ℚ) :=
  match rebalance.availableCashBefore with
  | none => .ok none
  | some before =>
    if 0 < before then
      match rebalance.estimatedCashAfter with
      | none => .error (.other "TypeError"
          "unsupported operand type(s) for /: 'NoneType' and 'decimal.Decimal'")
      | some after => .ok (some (Python.round (after / before) 4))
    else .ok none

/-- `_build_execution_summary`. -/
def buildExecutionSummary (rebalance : RebalanceRow) (orderItems : List RebalanceOrderItem) :
    Except PyExc RebalanceExecutionSummary := do
  let failRate := if 0 < rebalance.buySignalCount then
    Python.round (1 - (achievedCount rebalance : ℚ) / rebalance.buySignalCount) 4 else 0
  let cashRatio ← cashRatio rebalance
  let durations := orderItems.filterMap (·.fillDurationSeconds)
  pure {
    signalCount := rebalance.buySignalCount
    filledCount := rebalance.buyCount
    failRate
    availableCashBefore := rebalance.availableCashBefore
    estimatedCashAfter := rebalance.estimatedCashAfter
    cashRatio
    rebalanceDurationSeconds := rebalance.completedAt.map fun completedAt =>
      Python.round (totalSeconds rebalance.executedAt completedAt) 2
    avgFillDurationSeconds :=
      if durations = [] then none else some (Python.round (seriesMean durations) 2) }

/-- `get_orders_by_rebalance_id`: what was not submitted comes last. -/
def ordersByRebalanceId (orders : List TimedOrder) (rebalanceId : RebalanceId) : List TimedOrder :=
  (orders.filter fun o => o.order.rebalanceId = some rebalanceId).mergeSort fun a b =>
    match a.submittedAt, b.submittedAt with
    | some s, some t => s ≤ t
    | none, some _ => false
    | _, none => true

/-- `get_rebalance_detail`. The id is the key of the table. -/
def getRebalanceDetail (rebalances : List RebalanceRow) (orders : List TimedOrder)
    (rebalanceId : RebalanceId) : Except PyExc (Option RebalanceDetailResponse) :=
  match rebalances.find? fun r => r.id = rebalanceId with
  | none => .ok none
  | some rebalance => do
    let orderItems := (ordersByRebalanceId orders rebalanceId).map buildOrderItem
    let executionSummary ← buildExecutionSummary rebalance orderItems
    pure (some ⟨rebalance, executionSummary, orderItems⟩)

/-! ## The plan behind the counts -/

section Counts
variable (c : PositionDiffCalculator) (buyCodes : List String) (tradeIntents : List TradeIntent)
  (currentHoldings : List CurrentHolding) (availableCash : ℤ) (priceMap : Dict String ℤ)
  (nameMap : Dict String String)

/-- Each code that is kept is one of the codes to buy, and is kept once. -/
theorem length_holdList_le :
    (c.calculate buyCodes tradeIntents currentHoldings availableCash priceMap
        nameMap).holdList.length ≤
      (buyCodes.filter fun code =>
        code ∈ (PositionDiffCalculator.holdingMap currentHoldings).keys).length := by
  have hlength : (c.calculate buyCodes tradeIntents currentHoldings availableCash priceMap
      nameMap).holdList.length =
        (((PositionDiffCalculator.holdingMap currentHoldings).entries.filter
          fun e => e.1 ∈ buyCodes).map Prod.fst).length := by
    rw [List.length_map]
    exact List.length_map _
  have hnodup : (((PositionDiffCalculator.holdingMap currentHoldings).entries.filter
      fun e => e.1 ∈ buyCodes).map Prod.fst).Nodup :=
    (PositionDiffCalculator.holdingMap currentHoldings).nodup.sublist (List.filter_sublist.map _)
  rw [hlength]
  refine (hnodup.subperm ?_).length_le
  intro code hcode
  obtain ⟨e, he, rfl⟩ := List.mem_map.mp hcode
  rw [List.mem_filter, decide_eq_true_iff] at he
  exact List.mem_filter.mpr ⟨he.2, decide_eq_true (List.mem_map.mpr ⟨e, he.1, rfl⟩)⟩

/-- Not more codes are kept or bought than there are to buy, and every one of them is where as many
are. -/
theorem achieved_le :
    let d := c.calculate buyCodes tradeIntents currentHoldings availableCash priceMap nameMap
    d.buyList.length + d.holdList.length ≤ buyCodes.length ∧
      (d.buyList.length + d.holdList.length = buyCodes.length → ∀ code ∈ buyCodes,
        code ∈ d.holdList.map (·.stockCode) ∨ code ∈ d.buyList.map (·.stockCode)) := by
  intro d
  have hheld : d.holdList.length ≤ _ :=
    length_holdList_le c buyCodes tradeIntents currentHoldings availableCash priceMap nameMap
  have hsplit := List.length_eq_length_filter_add (l := buyCodes)
    fun code => decide (code ∈ (PositionDiffCalculator.holdingMap currentHoldings).keys)
  have hnew : PositionDiffCalculator.newBuyCodes buyCodes currentHoldings = buyCodes.filter
      fun code => !decide (code ∈ (PositionDiffCalculator.holdingMap currentHoldings).keys) := by
    simp [PositionDiffCalculator.newBuyCodes]
  have hbuys : d.buyList = _ := PositionDiffCalculator.calculate_buyList c buyCodes tradeIntents
    currentHoldings availableCash priceMap nameMap
  have hbought : d.buyList.length ≤
      (PositionDiffCalculator.newBuyCodes buyCodes currentHoldings).length := by
    rw [hbuys]
    exact List.length_filterMap_le _ _
  rw [hnew] at hbought
  constructor
  · omega
  · intro hall code hcode
    by_cases hrow : code ∈ currentHoldings.map (·.stockCode)
    · left
      exact (PositionDiffCalculator.mem_holdList_codes c buyCodes tradeIntents currentHoldings
        availableCash priceMap nameMap).mpr ⟨hrow, hcode⟩
    · right
      have hfull : d.buyList.length =
          (PositionDiffCalculator.newBuyCodes buyCodes currentHoldings).length := by
        rw [hnew]
        omega
      rw [hbuys, List.filterMap_length_eq_length] at hfull
      have hmem : code ∈ PositionDiffCalculator.newBuyCodes buyCodes currentHoldings := by
        rw [PositionDiffCalculator.newBuyCodes, List.mem_filter, decide_eq_true_iff]
        exact ⟨hcode, by simpa [PositionDiffCalculator.holdingMap] using hrow⟩
      obtain ⟨item, hitem⟩ := Option.isSome_iff_exists.mp (hfull code hmem)
      rw [hbuys, List.mem_map]
      exact ⟨item, List.mem_filterMap.mpr ⟨code, hmem, hitem⟩,
        (PositionDiffCalculator.buyItem_bounds tradeIntents priceMap nameMap hitem).1⟩

end Counts

/-! ## The figures -/

section Figures
variable {x : ℚ}

theorem one_le_roundHalfEven (h : 1 / 2 < x) : 1 ≤ Python.roundHalfEven x := by
  by_cases hlarge : 1 ≤ x
  · have hfloor : 1 ≤ ⌊x⌋ := Int.le_floor.mpr (by exact_mod_cast hlarge)
    have hround := floor_le_roundHalfEven x
    omega
  · have hfloor : ⌊x⌋ = 0 := by
      rw [Int.floor_eq_iff]
      push_cast
      constructor
      · linarith
      · linarith
    have hup : ¬ (x - ⌊x⌋ < 1 / 2 ∨ x - ⌊x⌋ = 1 / 2 ∧ ⌊x⌋ % 2 = 0) := by
      rw [hfloor]
      push_cast
      rintro (hlow | ⟨htie, -⟩)
      · linarith
      · linarith
    have hround : Python.roundHalfEven x = ⌊x⌋ + 1 := if_neg hup
    omega

theorem round_round (x : ℚ) : Python.round (Python.round x 2) 2 = Python.round x 2 := by
  have hscaled : Python.round x 2 * 10 ^ (2 : ℤ) = (Python.roundHalfEven (x * 10 ^ (2 : ℤ)) : ℚ) := by
    rw [Python.round]
    exact div_mul_cancel₀ _ (by norm_num)
  conv_lhs => rw [Python.round, hscaled, BacktestExecutor.roundHalfEven_intCast]
  rw [Python.round]

/-- A mean is not below every value, nor above every value. -/
theorem mean_between {xs : List ℚ} (h : xs ≠ []) :
    ∃ lo ∈ xs, ∃ hi ∈ xs, lo ≤ seriesMean xs ∧ seriesMean xs ≤ hi := by
  have hlength : (0 : ℚ) < xs.length := Nat.cast_pos.mpr (List.length_pos_iff.mpr h)
  obtain ⟨lo, hlo⟩ := Option.ne_none_iff_exists'.mp (mt List.min?_eq_none_iff.mp h)
  obtain ⟨hi, hhi⟩ := Option.ne_none_iff_exists'.mp (mt List.max?_eq_none_iff.mp h)
  rw [List.min?_eq_some_iff] at hlo
  rw [List.max?_eq_some_iff] at hhi
  refine ⟨lo, hlo.1, hi, hhi.1, ?_, ?_⟩
  · rw [seriesMean, le_div_iff₀ hlength]
    have hsum := List.card_nsmul_le_sum xs lo hlo.2
    rw [nsmul_eq_mul] at hsum
    linarith
  · rw [seriesMean, div_le_iff₀ hlength]
    have hsum := List.sum_le_card_nsmul xs hi hhi.2
    rw [nsmul_eq_mul] at hsum
    linarith

theorem duration_of_buildOrderItem {order : TimedOrder} {duration : ℚ}
    (h : (buildOrderItem order).fillDurationSeconds = some duration) :
    0 ≤ duration ∧ Python.round duration 2 = duration := by
  obtain ⟨submittedAt, -, rfl⟩ := Option.map_eq_some_iff.mp h
  split_ifs with hearly
  · exact ⟨le_rfl, round_zero 2⟩
  · exact ⟨round_nonneg (not_lt.mp hearly), round_round _⟩

theorem failRate_spec {achieved signals : ℕ} (hle : achieved ≤ signals) (hsome : 0 < signals) :
    0 ≤ Python.round (1 - (achieved : ℚ) / signals) 4 ∧
      Python.round (1 - (achieved : ℚ) / signals) 4 ≤ 1 ∧
      (signals < 20000 → Python.round (1 - (achieved : ℚ) / signals) 4 = 0 → achieved = signals) := by
  have hpos : (0 : ℚ) < signals := Nat.cast_pos.mpr hsome
  have hcast : (achieved : ℚ) ≤ signals := Nat.cast_le.mpr hle
  have hshare : (achieved : ℚ) / signals ≤ 1 := (div_le_one hpos).mpr hcast
  have hnonneg : 0 ≤ (achieved : ℚ) / signals := by positivity
  refine ⟨round_nonneg (by linarith), ?_, ?_⟩
  · have hone : Python.round 1 4 = 1 := by decide +kernel
    rw [← hone]
    exact round_mono (by linarith)
  · intro hfew hzero
    by_contra hne
    have hmissed : (achieved : ℚ) + 1 ≤ signals := by
      exact_mod_cast (show achieved + 1 ≤ signals by omega)
    have hbound : (signals : ℚ) < 20000 := by exact_mod_cast hfew
    -- one signal that is missed is more than half of the last digit
    have hhalf : (1 : ℚ) / 2 < (1 - (achieved : ℚ) / signals) * 10 ^ (4 : ℤ) := by
      have hpart : (1 : ℚ) / 20000 < 1 - (achieved : ℚ) / signals := by
        rw [one_sub_div hpos.ne', div_lt_div_iff₀ (by norm_num) hpos]
        linarith
      have hpow : (10 : ℚ) ^ (4 : ℤ) = 10000 := by norm_num
      rw [hpow]
      linarith
    have hup := one_le_roundHalfEven hhalf
    rw [Python.round, div_eq_zero_iff] at hzero
    obtain hnone | hpow := hzero
    · have hround : Python.roundHalfEven ((1 - (achieved : ℚ) / signals) * 10 ^ (4 : ℤ)) = 0 := by
        exact_mod_cast hnone
      omega
    · norm_num at hpow

end Figures

/-! ## What a detail tells -/

/-- The row of a plan, however the rebalance has gone on. -/
structure Recorded (result : StrategyResult) (d : DiffResult) (row : RebalanceRow) : Prop where
  signals : row.buySignalCount = (RebalanceExecutor.buyCodes result).length
  buys : row.buyCount = d.buyList.length
  holds : row.holdCount = d.holdList.length
  before : row.availableCashBefore = some (d.availableCash : ℚ)
  after : row.estimatedCashAfter = some (d.estimatedCashAfter : ℚ)

theorem recorded_record (result : StrategyResult) (d : DiffResult) (dryRun : Bool)
    (rebalanceId : RebalanceId) (executedAt : Instant) :
    Recorded result d (RebalanceExecutor.record result d dryRun rebalanceId executedAt) :=
  ⟨rfl, rfl, rfl, rfl, rfl⟩

/-- What a detail says of the plan and of the orders. -/
structure DetailTells (result : StrategyResult) (d : DiffResult) (orders : List TimedOrder)
    (detail : RebalanceDetailResponse) : Prop where
  failRate_nonneg : 0 ≤ detail.executionSummary.failRate
  failRate_le : detail.executionSummary.failRate ≤ 1
  none_missed : (RebalanceExecutor.buyCodes result).length < 20000 →
    detail.executionSummary.failRate = 0 → ∀ code ∈ RebalanceExecutor.buyCodes result,
      code ∈ d.holdList.map (·.stockCode) ∨ code ∈ d.buyList.map (·.stockCode)
  unmeasured : detail.executionSummary.avgFillDurationSeconds = none ↔
    ∀ item ∈ detail.orders, item.fillDurationSeconds = none
  measured : ∀ average, detail.executionSummary.avgFillDurationSeconds = some average →
    ∃ fast ∈ detail.orders, ∃ slow ∈ detail.orders, ∃ lo hi,
      fast.fillDurationSeconds = some lo ∧ slow.fillDurationSeconds = some hi ∧
        0 ≤ lo ∧ lo ≤ average ∧ average ≤ hi
  orders_perm : (detail.orders.map (·.toTimedOrder)).Perm
    (orders.filter fun o => o.order.rebalanceId = some detail.rebalance.id)

section Detail
variable {result : StrategyResult} {d : DiffResult} {row : RebalanceRow}
  {items : List RebalanceOrderItem} {summary : RebalanceExecutionSummary}

/-- Of a row that a plan has left the summary is always built. -/
theorem buildExecutionSummary_ok (hrow : Recorded result d row) (items : List RebalanceOrderItem) :
    ∃ summary, buildExecutionSummary row items = .ok summary := by
  unfold buildExecutionSummary cashRatio
  rw [hrow.before, hrow.after]
  by_cases hpos : (0 : ℚ) < d.availableCash
  · simp only [hpos, if_true]
    exact ⟨_, rfl⟩
  · simp only [hpos, if_false]
    exact ⟨_, rfl⟩

theorem failRate_of_summary (h : buildExecutionSummary row items = .ok summary) :
    summary.failRate = if 0 < row.buySignalCount then
      Python.round (1 - (achievedCount row : ℚ) / row.buySignalCount) 4 else 0 := by
  obtain ⟨ratio, -, hsummary⟩ := of_bind_ok h
  obtain rfl := Except.ok.inj hsummary
  rfl

theorem average_of_summary (h : buildExecutionSummary row items = .ok summary) :
    summary.avgFillDurationSeconds =
      if items.filterMap (·.fillDurationSeconds) = [] then none
      else some (Python.round (seriesMean (items.filterMap (·.fillDurationSeconds))) 2) := by
  obtain ⟨ratio, -, hsummary⟩ := of_bind_ok h
  obtain rfl := Except.ok.inj hsummary
  rfl

/-- The average of what is shown is between the shortest and the longest of it. -/
theorem average_between {orders : List TimedOrder} {average : ℚ}
    (h : buildExecutionSummary row (orders.map buildOrderItem) = .ok summary)
    (haverage : summary.avgFillDurationSeconds = some average) :
    ∃ fast ∈ orders.map buildOrderItem, ∃ slow ∈ orders.map buildOrderItem, ∃ lo hi,
      fast.fillDurationSeconds = some lo ∧ slow.fillDurationSeconds = some hi ∧
        0 ≤ lo ∧ lo ≤ average ∧ average ≤ hi := by
  rw [average_of_summary h] at haverage
  split_ifs at haverage with hempty
  obtain rfl := Option.some.inj haverage
  obtain ⟨lo, hlo, hi, hhi, hlow, hhigh⟩ := mean_between hempty
  obtain ⟨fast, hfast, hlo⟩ := List.mem_filterMap.mp hlo
  obtain ⟨slow, hslow, hhi⟩ := List.mem_filterMap.mp hhi
  obtain ⟨order, -, hfastest⟩ := List.mem_map.mp hfast
  obtain ⟨order', -, hslowest⟩ := List.mem_map.mp hslow
  obtain ⟨hnonneg, hround⟩ := @duration_of_buildOrderItem order lo (hfastest ▸ hlo)
  obtain ⟨-, hround'⟩ := @duration_of_buildOrderItem order' hi (hslowest ▸ hhi)
  refine ⟨fast, hfast, slow, hslow, lo, hi, hlo, hhi, hnonneg, ?_, ?_⟩
  · exact hround ▸ round_mono hlow
  · exact (round_mono hhigh).trans hround'.le

end Detail

/-- A plan buys or keeps no more codes than are to be bought, and all of them when it is as many. -/
theorem achieved_of_diff {x : RebalanceExecutor} {result : StrategyResult} {answers : SubmitAnswers}
    {d : DiffResult} (hplan : x.diff result answers = .ok d) :
    d.buyList.length + d.holdList.length ≤ (RebalanceExecutor.buyCodes result).length ∧
      (d.buyList.length + d.holdList.length = (RebalanceExecutor.buyCodes result).length →
        ∀ code ∈ RebalanceExecutor.buyCodes result,
          code ∈ d.holdList.map (·.stockCode) ∨ code ∈ d.buyList.map (·.stockCode)) := by
  obtain ⟨holdingsRaw, -, hrest⟩ := of_bind_ok hplan
  obtain ⟨currentHoldings, -, hrest⟩ := of_bind_ok hrest
  obtain ⟨availableCash, -, hrest⟩ := of_bind_ok hrest
  obtain rfl := Except.ok.inj hrest
  exact achieved_le x.diffCalculator (RebalanceExecutor.buyCodes result) result.orders
    currentHoldings availableCash (RebalanceExecutor.priceMap result)
    (RebalanceExecutor.nameMap result)

/-- The rate of the row that a plan has left. -/
theorem failRate_of_recorded {result : StrategyResult} {d : DiffResult} {row : RebalanceRow}
    {items : List RebalanceOrderItem} {summary : RebalanceExecutionSummary}
    (hrow : Recorded result d row) (hsummary : buildExecutionSummary row items = .ok summary)
    (hle : d.buyList.length + d.holdList.length ≤ (RebalanceExecutor.buyCodes result).length) :
    0 ≤ summary.failRate ∧ summary.failRate ≤ 1 ∧
      ((RebalanceExecutor.buyCodes result).length < 20000 → summary.failRate = 0 →
        d.buyList.length + d.holdList.length = (RebalanceExecutor.buyCodes result).length) := by
  have hrate := failRate_of_summary hsummary
  rw [achievedCount, hrow.signals, hrow.buys, hrow.holds] at hrate
  by_cases hsome : 0 < (RebalanceExecutor.buyCodes result).length
  · have hfigures := failRate_spec hle hsome
    rw [if_pos (by exact_mod_cast hsome)] at hrate
    push_cast at hrate hfigures
    rw [hrate]
    exact hfigures
  · rw [if_neg (by exact_mod_cast hsome)] at hrate
    exact ⟨hrate.ge, by rw [hrate]; norm_num, fun _ _ => by omega⟩

/-- The detail of a rebalance whose row a plan has left: it is there, and what it says of the plan
and of the orders is so. -/
theorem detail_tells (x : RebalanceExecutor) (result : StrategyResult) (answers : SubmitAnswers)
    (d : DiffResult) (hplan : x.diff result answers = .ok d) (rebalances : List RebalanceRow)
    (orders : List TimedOrder) (row : RebalanceRow) (hrow : Recorded result d row)
    (hfound : rebalances.find? (fun r => r.id = row.id) = some row) :
    ∃ detail, getRebalanceDetail rebalances orders row.id = .ok (some detail) ∧
      detail.rebalance = row ∧ DetailTells result d orders detail := by
  obtain ⟨summary, hsummary⟩ := buildExecutionSummary_ok hrow
    ((ordersByRebalanceId orders row.id).map buildOrderItem)
  refine ⟨⟨row, summary, (ordersByRebalanceId orders row.id).map buildOrderItem⟩, ?_, rfl, ?_⟩
  · unfold getRebalanceDetail
    rw [hfound]
    dsimp only
    rw [hsummary]
    rfl
  have hachieved := achieved_of_diff hplan
  have hspec := failRate_of_recorded hrow hsummary hachieved.1
  constructor
  · exact hspec.1
  · exact hspec.2.1
  · intro hfew hzero
    exact hachieved.2 (hspec.2.2 hfew hzero)
  · rw [average_of_summary hsummary, ite_eq_left_iff]
    simp [List.filterMap_eq_nil_iff]
  · intro average hsome
    exact average_between hsummary hsome
  · rw [List.map_map]
    have hsame : (ordersByRebalanceId orders row.id).map
        ((·.toTimedOrder) ∘ buildOrderItem) = ordersByRebalanceId orders row.id :=
      List.map_id _
    rw [hsame]
    exact List.mergeSort_perm _ _

/-- Of two signals one is too expensive for its share; the other one is bought within a minute. -/
theorem detail_tells_sample :
    let x : RebalanceExecutor := ⟨{}, ⟨.market, "12345678", "01", false, 180⟩⟩
    let result : StrategyResult :=
      { orders := [⟨"005930", "A", .buy, some 70000, none, none⟩,
          ⟨"207940", "B", .buy, some 900000, none, none⟩]
        metadata := {} }
    let answers : SubmitAnswers := ⟨.ok [], .ok 1000000, .ok ()⟩
    let bought : Order :=
      { id := 1, accountNo := "12345678", accountProductCode := "01", stockCode := "005930",
        orderPos := .buy, orderKind := .new, orderType := .market, orderPrice := none, orderQty := 7,
        status := .filled, createdAt := 0, rebalanceId := some 7 }
    let orders : List TimedOrder := [⟨bought, some 0, 60000000⟩]
    ∃ d detail, x.diff result answers = .ok d ∧
      getRebalanceDetail [RebalanceExecutor.record result d false 7 0] orders 7 = .ok (some detail) ∧
      DetailTells result d orders detail := by
  intro x result answers bought orders
  obtain ⟨d, hplan⟩ : ∃ d, x.diff result answers = .ok d := ⟨_, rfl⟩
  obtain ⟨detail, hdetail, -, htells⟩ := detail_tells x result answers d hplan
    [RebalanceExecutor.record result d false 7 0] orders
    (RebalanceExecutor.record result d false 7 0) (recorded_record result d false 7 0) (by simp)
  exact ⟨d, detail, hplan, hdetail, htells⟩

end RebalanceQueryService

end Autotrading
