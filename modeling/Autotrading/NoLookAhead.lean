import Autotrading.ExactColumns

/-!
# A backtest does not look ahead

Data that agree up to a date give the same daily records and the same closed trades up to it,
whatever comes later: every step of the two loops reads its data up to its own date.
-/
namespace Autotrading.BacktestExecutor

open DatedLoop

variable {ν : Type} {t date : Instant}

/-! ## The dates -/

section Dates
variable {period : Instant → ℤ}

theorem mem_of_mem_getRebalanceDates {seen : List ℤ} {dates : List Instant}
    (h : date ∈ getRebalanceDates period seen dates) : date ∈ dates := by
  induction dates generalizing seen with
  | nil => cases h
  | cons d dates ih =>
    rw [getRebalanceDates] at h
    split at h
    · exact List.mem_cons_of_mem _ (ih h)
    · rcases List.mem_cons.mp h with rfl | h
      · exact List.mem_cons_self
      · exact List.mem_cons_of_mem _ (ih h)

/-- Whether a date opens its period depends on the dates before it. -/
theorem getRebalanceDates_append (seen : List ℤ) (before after : List Instant) :
    ∃ seen', getRebalanceDates period seen (before ++ after) =
      getRebalanceDates period seen before ++ getRebalanceDates period seen' after := by
  induction before generalizing seen with
  | nil => exact ⟨seen, rfl⟩
  | cons d before ih =>
    by_cases hseen : period d ∈ seen
    · obtain ⟨seen', h⟩ := ih seen
      refine ⟨seen', ?_⟩
      simpa [getRebalanceDates, hseen] using h
    · obtain ⟨seen', h⟩ := ih (period d :: seen)
      refine ⟨seen', ?_⟩
      simpa [getRebalanceDates, hseen] using h

theorem mem_getRebalanceDates_filter {dates : List Instant} (hsorted : dates.Pairwise (· ≤ ·))
    (h : date ≤ t) :
    date ∈ getRebalanceDates period [] (dates.filter (· ≤ t)) ↔
      date ∈ getRebalanceDates period [] dates := by
  have hsplit := @filter_append_filter _ _ dates t hsorted
  obtain ⟨seen', happend⟩ := @getRebalanceDates_append period [] (dates.filter (· ≤ t))
    (dates.filter (t < ·))
  rw [← hsplit] at happend
  rw [happend, List.mem_append]
  refine ⟨.inl, fun hmem => hmem.resolve_right fun hlate => ?_⟩
  have hbehind := (List.mem_filter.mp (mem_of_mem_getRebalanceDates hlate)).2
  rw [decide_eq_true_iff] at hbehind
  exact absurd h (not_le.mpr hbehind)

theorem pairwise_commonDates (data : PriceData ν) : (commonDates data).Pairwise (· < ·) := by
  unfold commonDates
  split
  · exact .nil
  · exact pairwise_sortedSet _

theorem commonDates_upTo (data : PriceData ν) (t : Instant) :
    commonDates (data.upTo t) = (commonDates data).filter (· ≤ t) := by
  obtain ⟨entries, hentries⟩ := data
  cases entries with
  | nil => rfl
  | cons e es =>
    refine sortedSet_eq_filter fun i => ?_
    simp only [List.mem_filter, PriceFrame.mem_index_upTo, List.all_map, List.all_eq_true,
      Function.comp_apply, decide_eq_true_iff]
    constructor
    · rintro ⟨⟨hmem, hle⟩, hall⟩
      exact ⟨⟨hmem, fun e' he' => (hall e' he').1⟩, hle⟩
    · rintro ⟨⟨hmem, hall⟩, hle⟩
      exact ⟨⟨hmem, hle⟩, fun e' he' => ⟨hall e' he', hle⟩⟩

theorem stockData_upTo (data : BacktestData ν) (t : Instant) :
    stockData (data.upTo t) = (stockData data).upTo t := by
  show (data.prices.mapValues (·.upTo t)).filter _ = (data.prices.filter _).mapValues (·.upTo t)
  exact Dict.filter_mapValues fun _ _ => rfl

theorem pairwise_tradingDates (data : BacktestData ν) : (tradingDates data).Pairwise (· < ·) := by
  unfold tradingDates
  split
  · exact pairwise_sortedSet _
  · exact pairwise_sortedSet _

theorem tradingDates_upTo (data : BacktestData ν) (t : Instant) :
    tradingDates (data.upTo t) = (tradingDates data).filter (· ≤ t) := by
  have hbenchmark : (data.upTo t).prices.get? "__benchmark__" =
      (data.prices.get? "__benchmark__").map (·.upTo t) := PriceData.get?_upTo
  unfold tradingDates
  rw [hbenchmark, stockData_upTo]
  cases data.prices.get? "__benchmark__" with
  | some df => exact sortedSet_eq_filter fun i => PriceFrame.mem_index_upTo
  | none =>
    refine sortedSet_eq_filter fun i => ?_
    simp only [PriceData.upTo, Dict.mapValues, List.mem_flatMap, List.mem_map]
    constructor
    · rintro ⟨_, ⟨e, he, rfl⟩, hi⟩
      obtain ⟨hmem, hle⟩ := PriceFrame.mem_index_upTo.mp hi
      exact ⟨⟨e, he, hmem⟩, hle⟩
    · rintro ⟨⟨e, he, hmem⟩, hle⟩
      exact ⟨_, ⟨e, he, rfl⟩, PriceFrame.mem_index_upTo.mpr ⟨hmem, hle⟩⟩

end Dates

variable [Column ν]

/-! ## Rebalancing -/

section Rebalance
variable {data : PriceData ν}
  {generateSignal : PriceData ν → Except PyExc (List (String × StrategySignal))}
  {period : Instant → ℤ}

theorem holdingsValue_upTo (h : date ≤ t) (positions : List (String × ν)) :
    holdingsValue (data.upTo t) date positions = holdingsValue data date positions := by
  unfold holdingsValue
  simp only [PriceData.close?_upTo h]

theorem sellPosition_upTo (h : date ≤ t) : sellPosition (data.upTo t) date = sellPosition data date := by
  funext cash p
  unfold sellPosition
  rw [PriceData.close?_upTo h]

theorem rebalancePositions_upTo (h : date ≤ t) (s : Portfolio ν) :
    rebalancePositions generateSignal (data.upTo t) s date =
      rebalancePositions generateSignal data s date := by
  unfold rebalancePositions closeAt
  simp only [PriceData.sliced_upTo h, PriceData.close?_upTo h, sellPosition_upTo h]

/-- The loop of `_run_rebalance` reads the past only. -/
theorem causal_rebalance : Causal PriceData.upTo commonDates fun data : PriceData ν =>
    rebalanceDay generateSignal (getRebalanceDates period [] (commonDates data)) data where
  sorted := pairwise_commonDates
  times_cut := commonDates_upTo
  step_cut data t s date _ h := by
    have hrebalance : decide (date ∈ getRebalanceDates period [] (commonDates (data.upTo t))) =
        decide (date ∈ getRebalanceDates period [] (commonDates data)) := by
      rw [decide_eq_decide, commonDates_upTo]
      exact mem_getRebalanceDates_filter ((pairwise_commonDates data).imp le_of_lt) h
    unfold rebalanceDay
    rw [hrebalance, rebalancePositions_upTo h]
    simp only [holdingsValue_upTo h]

theorem rebalancePositions_records {s s' : Portfolio ν}
    (h : rebalancePositions generateSignal data s date = .ok s') : s'.records = s.records := by
  unfold rebalancePositions at h
  obtain ⟨signals, -, h⟩ := of_bind_ok h
  dsimp only at h
  split at h
  · rw [← Except.ok.inj h]
  · obtain ⟨positions, -, h⟩ := of_bind_ok h
    rw [← Except.ok.inj h]

theorem logsAt_rebalance (rebalanceDates : List Instant) (data : PriceData ν) :
    LogsAt Portfolio.records DailyRecord.date (rebalanceDay generateSignal rebalanceDates data) := by
  intro s date s' h
  unfold rebalanceDay at h
  obtain ⟨s₁, hpositions, h⟩ := of_bind_ok h
  have hrecords : s₁.records = s.records := by
    split at hpositions
    · exact rebalancePositions_records hpositions
    · rw [← Except.ok.inj hpositions]
  rw [← Except.ok.inj h]
  refine ⟨_, congrArg (· ++ _) hrecords, ?_⟩
  intro r hr
  rw [List.mem_singleton.mp hr]

end Rebalance

/-! ## Direct trades -/

section DirectTrade
variable {x : BacktestExecutor ν} {strategy : ReversalVolumeStrategy ν} {data : BacktestData ν}
  {stocks : PriceData ν}

theorem positionsValue_upTo (h : date ≤ t) (positions : List (SwingPosition ν)) :
    positionsValue (stocks.upTo t) date positions = positionsValue stocks date positions :=
  holdingsValue_upTo h _

theorem exitPositions_upTo (h : date ≤ t) (book : SwingBook ν) :
    exitPositions strategy (stocks.upTo t) date book = exitPositions strategy stocks date book := by
  have hexit : exitPosition strategy (stocks.upTo t) date = exitPosition strategy stocks date := by
    funext pos
    unfold exitPosition
    simp only [ReversalVolumeStrategy.shouldExit_upTo h, PriceData.close?_upTo h]
  unfold exitPositions
  rw [hexit]

theorem enterPositions_upTo (h : date ≤ t) {dfBenchmark : Option (PriceFrame ν)}
    (hdate : ∀ df, dfBenchmark = some df → date ∈ df.index) (dfUniverse : List UniverseRow)
    (book : SwingBook ν) :
    x.enterPositions strategy dfUniverse (dfBenchmark.map (·.upTo t)) (stocks.upTo t) date book =
      x.enterPositions strategy dfUniverse dfBenchmark stocks date book := by
  have henter : ∀ totalEquity numNew, enterPosition strategy (stocks.upTo t) date totalEquity numNew =
      enterPosition strategy stocks date totalEquity numNew := by
    intro totalEquity numNew
    funext book row
    unfold enterPosition
    rw [PriceData.close?_upTo h]
  unfold enterPositions
  simp only [ReversalVolumeStrategy.generateEntrySignals_upTo h hdate, positionsValue_upTo h, henter]

/-- The loop of `_run_direct_trade` reads the past only. -/
theorem causal_directTrade : Causal BacktestData.upTo tradingDates (x.directTradeDay strategy) where
  sorted := pairwise_tradingDates
  times_cut := tradingDates_upTo
  step_cut data t book date hmem h := by
    have hbenchmark : (data.upTo t).prices.get? "__benchmark__" =
        (data.prices.get? "__benchmark__").map (·.upTo t) := PriceData.get?_upTo
    have hdate : ∀ df, data.prices.get? "__benchmark__" = some df → date ∈ df.index := by
      intro df hdf
      unfold tradingDates at hmem
      rw [hdf] at hmem
      exact mem_sortedSet.mp hmem
    unfold directTradeDay
    simp only [hbenchmark, stockData_upTo, exitPositions_upTo h, enterPositions_upTo h hdate,
      positionsValue_upTo h]
    rfl

/-- The second step of a day closes no trade and records no day. -/
theorem enterPositions_logs {dfUniverse : List UniverseRow} {dfBenchmark : Option (PriceFrame ν)}
    {book book' : SwingBook ν}
    (h : x.enterPositions strategy dfUniverse dfBenchmark stocks date book = .ok book') :
    book'.tradeRecords = book.tradeRecords ∧ book'.records = book.records := by
  have henter : ∀ totalEquity numNew (rows : List (Candidate ν)) (book : SwingBook ν),
      (rows.foldl (enterPosition strategy stocks date totalEquity numNew) book).tradeRecords =
          book.tradeRecords ∧
        (rows.foldl (enterPosition strategy stocks date totalEquity numNew) book).records =
          book.records := by
    intro totalEquity numNew rows
    induction rows with
    | nil => exact fun _ => ⟨rfl, rfl⟩
    | cons row rows ih =>
      intro book
      have hone : (enterPosition strategy stocks date totalEquity numNew book row).tradeRecords =
            book.tradeRecords ∧
          (enterPosition strategy stocks date totalEquity numNew book row).records =
            book.records := by
        unfold enterPosition
        dsimp only
        split
        · exact ⟨rfl, rfl⟩
        · split <;> split <;> exact ⟨rfl, rfl⟩
      rw [List.foldl_cons]
      exact ⟨(ih _).1.trans hone.1, (ih _).2.trans hone.2⟩
  unfold enterPositions at h
  dsimp only at h
  split at h
  · obtain ⟨candidates, -, h⟩ := of_bind_ok h
    rw [← Except.ok.inj h]
    exact henter _ _ _ _
  · rw [← Except.ok.inj h]
    exact ⟨rfl, rfl⟩

theorem exitDate_of_exitPosition {pos : SwingPosition ν} {r : SwingTradeRecord ν}
    (h : exitPosition strategy stocks date pos = .inr r) : r.exitDate = date := by
  unfold exitPosition at h
  dsimp only at h
  split at h
  · cases h
  · split at h
    · cases h
    · rw [← Sum.inr.inj h]

theorem logsAt_records (data : BacktestData ν) :
    LogsAt SwingBook.records DailyRecord.date (x.directTradeDay strategy data) := by
  intro book date book' h
  unfold directTradeDay at h
  obtain ⟨book₁, henter, h⟩ := of_bind_ok h
  have hrecords : book₁.records = book.records := (enterPositions_logs henter).2
  rw [← Except.ok.inj h]
  refine ⟨_, congrArg (· ++ _) hrecords, ?_⟩
  intro r hr
  rw [List.mem_singleton.mp hr]

theorem logsAt_tradeRecords (data : BacktestData ν) :
    LogsAt SwingBook.tradeRecords SwingTradeRecord.exitDate (x.directTradeDay strategy data) := by
  intro book date book' h
  unfold directTradeDay at h
  obtain ⟨book₁, henter, h⟩ := of_bind_ok h
  have htrades := (enterPositions_logs henter).1
  rw [← Except.ok.inj h]
  refine ⟨_, htrades, ?_⟩
  intro r hr
  obtain ⟨result, hresult, hright⟩ := List.mem_filterMap.mp hr
  obtain ⟨pos, -, hexit⟩ := List.mem_map.mp hresult
  rw [Sum.getRight?_eq_some_iff.mp hright] at hexit
  exact exitDate_of_exitPosition hexit

end DirectTrade

/-! ## Two runs -/

theorem loop_of_runRebalance {x : BacktestExecutor ν}
    {generateSignal : PriceData ν → Except PyExc (List (String × StrategySignal))}
    {data : BacktestData ν} {r : BacktestResult ν} (h : x.runRebalance generateSignal data = .ok r) :
    ∃ s, (commonDates data.prices).foldlM (rebalanceDay generateSignal
        (getRebalanceDates x.rebalanceInterval [] (commonDates data.prices)) data.prices)
        ⟨x.initialCash, .empty, []⟩ = .ok s ∧ r = ⟨s.records, []⟩ := by
  unfold runRebalance at h
  split at h
  · cases h
  · obtain ⟨s, hloop, h⟩ := of_bind_ok h
    exact ⟨s, hloop, (Except.ok.inj h).symm⟩

theorem loop_of_runDirectTrade {x : BacktestExecutor ν} {strategy : ReversalVolumeStrategy ν}
    {data : BacktestData ν} {r : BacktestResult ν} (h : x.runDirectTrade strategy data = .ok r) :
    ∃ book, (tradingDates data).foldlM (x.directTradeDay strategy data)
        ⟨x.initialCash, [], [], none, []⟩ = .ok book ∧ r = ⟨book.records, book.tradeRecords⟩ := by
  unfold runDirectTrade at h
  split at h
  · next hnone =>
    have hnil : tradingDates data = [] := by
      unfold tradingDates
      rw [hnone.1, List.isEmpty_iff.mp hnone.2]
      rfl
    rw [hnil]
    exact ⟨_, rfl, (Except.ok.inj h).symm⟩
  · obtain ⟨book, hloop, h⟩ := of_bind_ok h
    split at h
    · cases h
    · exact ⟨book, hloop, (Except.ok.inj h).symm⟩

/-- Runs on data with the same keys, the same universe and the same rows up to `t` have the same
daily records up to `t` and the same trades that were closed up to `t`. -/
theorem no_look_ahead (x : BacktestExecutor ν) {data₁ data₂ : BacktestData ν}
    (hagree : BacktestData.AgreeUpTo t data₁ data₂) {r₁ r₂ : BacktestResult ν}
    (h₁ : x.run data₁ = .ok r₁) (h₂ : x.run data₂ = .ok r₂) :
    logged DailyRecord.date t r₁.records = logged DailyRecord.date t r₂.records ∧
      logged SwingTradeRecord.exitDate t r₁.tradeRecords =
        logged SwingTradeRecord.exitDate t r₂.tradeRecords := by
  have hcut := hagree.upTo_eq
  unfold run at h₁ h₂
  cases hstrategy : x.strategy with
  | rebalance generateSignal =>
    rw [hstrategy] at h₁ h₂
    obtain ⟨s₁, hloop₁, rfl⟩ := loop_of_runRebalance h₁
    obtain ⟨s₂, hloop₂, rfl⟩ := loop_of_runRebalance h₂
    have hprices : data₁.prices.upTo t = data₂.prices.upTo t := congrArg BacktestData.prices hcut
    exact ⟨causal_rebalance.logged_eq (fun data => logsAt_rebalance _ data) hprices hloop₁ hloop₂, rfl⟩
  | directTrade strategy =>
    rw [hstrategy] at h₁ h₂
    obtain ⟨book₁, hloop₁, rfl⟩ := loop_of_runDirectTrade h₁
    obtain ⟨book₂, hloop₂, rfl⟩ := loop_of_runDirectTrade h₂
    constructor
    · exact causal_directTrade.logged_eq logsAt_records hcut hloop₁ hloop₂
    · exact causal_directTrade.logged_eq logsAt_tradeRecords hcut hloop₁ hloop₂

/-! ## Four days of one stock -/

open scoped SortOrder

/-- A row of day `day`. -/
def rowOfDay (day : ℤ) (close volume : ℚ) : OhlcvRow ℚ :=
  ⟨day * 86400000000, close, close, close, close, volume, 0⟩

/-- The stock falls by a tenth at three times its volume and recovers; the close of the last day is
open. -/
def fourDays (last : ℚ) : PriceFrame ℚ where
  rows := [rowOfDay 0 100 1, rowOfDay 1 90 3, rowOfDay 2 100 1, rowOfDay 3 last 1]
  ascending := by simp [rowOfDay]

def dataOfFourDays (last : ℚ) : BacktestData ℚ where
  prices := ⟨[("__benchmark__", fourDays last), ("005930", fourDays last)], by simp⟩
  dfUniverse := [⟨"005930", none⟩]

/-- A day's fall is bought, and sold at a gain or a loss of a tenth. -/
def swingStrategy : ReversalVolumeStrategy ℚ where
  reversalDays := 1
  reversalPct := 1
  volumeAvgDays := 1
  volumeSpikeRatio := 2
  maxDrawdownPct := -1 / 2
  takeProfitPct := 1 / 10
  stopLossPct := -1 / 10
  maxHoldingDays := 5
  maxPositions := 1
  marketFilterEnabled := true
  marketMaDays := 2
  cooldownDays := 3

/-- One position at a time. -/
def swingTrader : BacktestExecutor ℚ where
  strategy := .directTrade swingStrategy
  initialCash := 900
  rebalanceInterval := id
  rvMaxPositions := 1
  rvCooldownDays := 3

theorem agreeUpTo_fourDays (last last' : ℚ) :
    BacktestData.AgreeUpTo (2 * 86400000000) (dataOfFourDays last) (dataOfFourDays last') := by
  have hframe : ∀ (close : ℚ) code df, (dataOfFourDays close).prices.get? code = some df →
      df = fourDays close := by
    intro close code df h
    have hmem := Dict.mem_entries.mpr h
    simp only [dataOfFourDays, List.mem_cons, Prod.mk.injEq, List.not_mem_nil, or_false] at hmem
    tauto
  refine ⟨rfl, fun code df₁ df₂ h₁ h₂ row hrow => ?_, rfl⟩
  rw [hframe last code df₁ h₁, hframe last' code df₂ h₂]
  have hlate : ∀ close : ℚ, row ≠ rowOfDay 3 close 1 := by
    intro close heq
    have hdate : row.date = 3 * 86400000000 := congrArg OhlcvRow.date heq
    rw [hdate] at hrow
    exact absurd hrow (by decide)
  simp [fourDays, hlate]

/-- The trade that closes on day 2 does not depend on the close of day 3. -/
theorem no_look_ahead_sample :
    ∃ r₁ r₂, swingTrader.run (dataOfFourDays 50) = .ok r₁ ∧
      swingTrader.run (dataOfFourDays 200) = .ok r₂ ∧
      (logged SwingTradeRecord.exitDate (2 * 86400000000) r₁.tradeRecords).length = 1 ∧
      logged DailyRecord.date (2 * 86400000000) r₁.records =
        logged DailyRecord.date (2 * 86400000000) r₂.records ∧
      logged SwingTradeRecord.exitDate (2 * 86400000000) r₁.tradeRecords =
        logged SwingTradeRecord.exitDate (2 * 86400000000) r₂.tradeRecords := by
  obtain ⟨r₁, h₁, htrades⟩ : ∃ r, swingTrader.run (dataOfFourDays 50) = .ok r ∧
      (logged SwingTradeRecord.exitDate (2 * 86400000000) r.tradeRecords).length = 1 := by
    have hrun : ((swingTrader.run (dataOfFourDays 50)).toOption.any fun r =>
        (logged SwingTradeRecord.exitDate (2 * 86400000000) r.tradeRecords).length = 1) = true := by
      decide +kernel
    obtain ⟨r, hr, hlength⟩ := (Option.any_eq_true _ _).mp hrun
    exact ⟨r, ok_of_toOption hr, of_decide_eq_true hlength⟩
  obtain ⟨r₂, h₂⟩ : ∃ r, swingTrader.run (dataOfFourDays 200) = .ok r := by
    have hrun : (swingTrader.run (dataOfFourDays 200)).toOption.isSome = true := by decide +kernel
    obtain ⟨r, hr⟩ := Option.isSome_iff_exists.mp hrun
    exact ⟨r, ok_of_toOption hr⟩
  exact ⟨r₁, r₂, h₁, h₂, htrades, no_look_ahead swingTrader (agreeUpTo_fourDays 50 200) h₁ h₂⟩

end Autotrading.BacktestExecutor
