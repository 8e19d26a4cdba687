import Autotrading.BacktestMetrics
import Autotrading.NoLookAhead
import Autotrading.SwingSteps
import Mathlib.Algebra.BigOperators.Ring.Finset

/-!
# The days of direct trades

A position counts its days, a trade has the days of its position, and a record has the number of the
positions of its date. Over a run the three are one account.
-/
namespace Autotrading.BacktestExecutor

open DatedLoop

section Spec
variable {ν : Type} [Column ν] {x : BacktestExecutor ν} {strategy : ReversalVolumeStrategy ν}
  {stocks : PriceData ν} {data : BacktestData ν} {date : Instant} {book book' : SwingBook ν}

/-- The reason that a trade gives the strategy, in the order in which it asks for them. -/
def reasonOf (strategy : ReversalVolumeStrategy ν) (t : SwingTradeRecord ν) : Option ExitReason :=
  if strategy.takeProfitPct ≤ t.returnPct then some .takeProfit
  else if t.returnPct ≤ strategy.stopLossPct then some .stopLoss
  else if strategy.maxHoldingDays ≤ t.holdingDays then some .timeExit
  else none

/-- A trade is recorded with its reason. -/
def Reasoned (strategy : ReversalVolumeStrategy ν) (t : SwingTradeRecord ν) : Prop :=
  ∃ reason, reasonOf strategy t = some reason ∧ t.exitReason = reason.value

/-- A position is a day older, or closed at that age for a reason. -/
inductive Ages (strategy : ReversalVolumeStrategy ν) (date : Instant) (pos : SwingPosition ν) :
    SwingPosition ν ⊕ SwingTradeRecord ν → Prop
  | stays : Ages strategy date pos (.inl { pos with holdingDays := pos.holdingDays + 1 })
  | closes {t : SwingTradeRecord ν} : t.entryDate = pos.entryDate → t.exitDate = date →
      t.holdingDays = pos.holdingDays + 1 → Reasoned strategy t → Ages strategy date pos (.inr t)

/-- An exit is only ever decided with a close, for the reason of the trade that it makes. -/
theorem shouldExit_cases (pos : SwingPosition ν) :
    strategy.shouldExit pos date stocks = ⟨false, none⟩ ∨
      ∃ price reason, stocks.close? pos.stockCode date = some price ∧
        strategy.shouldExit pos date stocks = ⟨true, some reason⟩ ∧
        ∀ t : SwingTradeRecord ν, t.returnPct = (price - pos.entryPrice) / pos.entryPrice →
          t.holdingDays = pos.holdingDays → reasonOf strategy t = some reason := by
  unfold ReversalVolumeStrategy.shouldExit reasonOf
  cases hprice : stocks.close? pos.stockCode date with
  | none => exact .inl rfl
  | some price =>
    dsimp only
    by_cases hprofit : strategy.takeProfitPct ≤ (price - pos.entryPrice) / pos.entryPrice
    · refine .inr ⟨price, .takeProfit, rfl, if_pos hprofit, ?_⟩
      intro t hreturn _
      rw [hreturn, if_pos hprofit]
    · by_cases hloss : (price - pos.entryPrice) / pos.entryPrice ≤ strategy.stopLossPct
      · refine .inr ⟨price, .stopLoss, rfl, ?_, ?_⟩
        · rw [if_neg hprofit, if_pos hloss]
        · intro t hreturn _
          rw [hreturn, if_neg hprofit, if_pos hloss]
      · by_cases hdays : strategy.maxHoldingDays ≤ pos.holdingDays
        · refine .inr ⟨price, .timeExit, rfl, ?_, ?_⟩
          · rw [if_neg hprofit, if_neg hloss, if_pos hdays]
          · intro t hreturn hheld
            rw [hreturn, hheld, if_neg hprofit, if_neg hloss, if_pos hdays]
        · refine .inl ?_
          rw [if_neg hprofit, if_neg hloss, if_neg hdays]

/-- No day is taken back. -/
theorem ages_exitPosition (pos : SwingPosition ν) :
    Ages strategy date pos (exitPosition strategy stocks date pos) := by
  unfold exitPosition
  dsimp only
  have hcases := @shouldExit_cases ν _ strategy stocks date
    { pos with holdingDays := pos.holdingDays + 1 }
  obtain hstays | ⟨price, reason, hprice, hexits, hreason⟩ := hcases
  · simp only [hstays]
    exact .stays
  · simp only [hexits]
    dsimp only at hprice
    rw [hprice]
    exact .closes rfl rfl rfl ⟨reason, hreason _ rfl rfl, rfl⟩

/-- A position that is opened on a date. -/
def Opens (date : Instant) (pos : SwingPosition ν) : Prop :=
  pos.entryDate = date ∧ pos.holdingDays = 0

/-- The entries open positions behind the ones there are. -/
theorem exists_opened (adopted : List (Candidate ν)) (book : SwingBook ν) :
    ∃ opened, (enterAll strategy stocks date adopted book).positions = book.positions ++ opened ∧
      ∀ pos ∈ opened, Opens date pos := by
  refine enterAll_invariant (fun _ entered => ∃ opened,
    entered.positions = book.positions ++ opened ∧ ∀ pos ∈ opened, Opens date pos) ?_
    ⟨[], by simp, by simp⟩
  intro row rest before after hbefore henters
  obtain ⟨opened, hpositions, hopens⟩ := hbefore
  cases henters with
  | passes => exact ⟨opened, hpositions, hopens⟩
  | buys =>
    refine ⟨opened ++ [_], by rw [hpositions, List.append_assoc], ?_⟩
    intro pos hpos
    rcases List.mem_append.mp hpos with hold | hnew
    · exact hopens pos hold
    · rw [List.mem_singleton.mp hnew]
      exact ⟨rfl, rfl⟩

/-- What a date does to the positions and the trades. -/
theorem day_spec (h : x.directTradeDay strategy data book date = .ok book') :
    ∃ results opened, List.Forall₂ (Ages strategy date) book.positions results ∧
      (∀ pos ∈ opened, Opens date pos) ∧
      book'.positions = results.filterMap Sum.getLeft? ++ opened ∧
      book'.tradeRecords = book.tradeRecords ++ results.filterMap Sum.getRight? := by
  refine ⟨book.positions.map (exitPosition strategy (stockData data) date), ?_⟩
  have hages : List.Forall₂ (Ages strategy date) book.positions
      (book.positions.map (exitPosition strategy (stockData data) date)) := by
    rw [List.forall₂_map_right_iff, List.forall₂_same]
    intro pos _
    exact ages_exitPosition pos
  obtain ⟨entered, hbook, hentered⟩ := directTradeDay_cases h
  rw [hbook]
  rcases hentered with ⟨_, heq⟩ | ⟨_, signals, _, heq⟩
  · refine ⟨[], hages, by simp, ?_, ?_⟩
    · rw [heq, List.append_nil]
      rfl
    · rw [heq]
      rfl
  · obtain ⟨opened, hpositions, hopens⟩ := @exists_opened ν _ strategy (stockData data) date
      (signals.take (x.freeSlots (exitPositions strategy (stockData data) date book)).toNat)
      (exitPositions strategy (stockData data) date book)
    refine ⟨opened, hages, hopens, ?_, ?_⟩
    · rw [heq, hpositions]
      rfl
    · rw [heq, (enterAll_frame strategy (stockData data) date _ _).1]
      rfl

end Spec

/-! ## The days of the positions -/

section Account
variable {ν : Type} [Column ν] {x : BacktestExecutor ν} {strategy : ReversalVolumeStrategy ν}
  {stocks : PriceData ν} {data : BacktestData ν} {date d : Instant} {book book' : SwingBook ν}
  {dates : List Instant} {positions : List (SwingPosition ν)} {pos : SwingPosition ν}
  {t : SwingTradeRecord ν} {results : List (SwingPosition ν ⊕ SwingTradeRecord ν)}

/-- The days of the trades, and those of the positions with the one they were opened on. -/
def positionDays (book : SwingBook ν) : ℤ :=
  (book.tradeRecords.map (·.holdingDays)).sum + (book.positions.map (·.holdingDays + 1)).sum

/-- Every position that stays is counted once more. -/
theorem positionDays_of_ages (h : List.Forall₂ (Ages strategy date) positions results) :
    ((results.filterMap Sum.getRight?).map (·.holdingDays)).sum +
        ((results.filterMap Sum.getLeft?).map (·.holdingDays + 1)).sum =
      (positions.map (·.holdingDays + 1)).sum + (results.filterMap Sum.getLeft?).length := by
  induction h with
  | nil => rfl
  | cons hages _ ih =>
    cases hages with
    | stays =>
      simp only [List.filterMap_cons, Sum.getRight?_inl, Sum.getLeft?_inl, List.map_cons,
        List.sum_cons, List.length_cons]
      omega
    | closes _ _ hdays _ =>
      simp only [List.filterMap_cons, Sum.getRight?_inr, Sum.getLeft?_inr, List.map_cons,
        List.sum_cons, hdays]
      omega

theorem positionDays_day (h : x.directTradeDay strategy data book date = .ok book') :
    positionDays book' = positionDays book + book'.positions.length := by
  obtain ⟨results, opened, hages, hopens, hpositions, htrades⟩ := day_spec h
  have hkept := positionDays_of_ages hages
  have hnew : (opened.map (·.holdingDays + 1)).sum = (opened.length : ℤ) := by
    have hone : opened.map (·.holdingDays + 1) = opened.map fun _ => (1 : ℤ) :=
      List.map_congr_left fun pos hpos => by rw [(hopens pos hpos).2]; rfl
    rw [hone]
    simp
  unfold positionDays
  rw [hpositions, htrades]
  simp only [List.map_append, List.sum_append, List.length_append, Nat.cast_add]
  omega

/-- Day after day, the positions that the records count are the days of the trades and of the
positions that are left. -/
theorem sum_numHoldings
    (hrun : dates.foldlM (x.directTradeDay strategy data) x.openingBook = .ok book) :
    ((book.records.map (·.numHoldings)).sum : ℤ) = positionDays book := by
  refine foldlM_invariant (fun book : SwingBook ν =>
    ((book.records.map (·.numHoldings)).sum : ℤ) = positionDays book) ?_ ?_ hrun
  · intro date _ before after hbefore hday
    rw [records_of_day hday, positionDays_day hday, ← hbefore]
    simp [dayRecord]
  · rfl

/-- A mean times the number of its values is their sum, also where there are none. -/
theorem seriesMean_mul_length {α : Type} (f : α → ℚ) (values : List α) :
    seriesMean (values.map f) * values.length = (values.map f).sum := by
  unfold seriesMean
  rw [List.length_map]
  by_cases hnil : values = []
  · simp [hnil]
  · have hne : (values.length : ℚ) ≠ 0 := by
      exact_mod_cast (List.length_pos_iff.mpr hnil).ne'
    exact div_mul_cancel₀ _ hne

/-- The average number of positions over the days is the average holding of the trades, taken as
often as there are trades, and what the open positions add. -/
theorem position_days_balance (x : BacktestExecutor ν) (strategy : ReversalVolumeStrategy ν)
    (data : BacktestData ν) {dates : List Instant} {book : SwingBook ν}
    (hrun : dates.foldlM (x.directTradeDay strategy data) x.openingBook = .ok book) :
    avgPositionCount book.records * book.records.length =
      avgHoldingDays book.tradeRecords * book.tradeRecords.length +
        (book.positions.map fun pos => (pos.holdingDays : ℚ) + 1).sum := by
  have hsum : (((book.records.map (·.numHoldings)).sum : ℤ) : ℚ) = (positionDays book : ℚ) := by
    rw [sum_numHoldings hrun]
  have hcounts : (positionDays book : ℚ) = (book.tradeRecords.map fun t => (t.holdingDays : ℚ)).sum +
      (book.positions.map fun pos => (pos.holdingDays : ℚ) + 1).sum := by
    unfold positionDays
    rw [Int.cast_add, Int.cast_list_sum, Int.cast_list_sum, List.map_map, List.map_map]
    simp [Function.comp_def]
  rw [hcounts, Int.cast_list_sum, List.map_map] at hsum
  rw [avgPositionCount, avgHoldingDays, seriesMean_mul_length, seriesMean_mul_length, ← hsum]
  simp [Function.comp_def]

end Account

/-! ## The trades behind a record -/

section Trades
variable {ν : Type} [Column ν] {x : BacktestExecutor ν} {strategy : ReversalVolumeStrategy ν}
  {stocks : PriceData ν} {data : BacktestData ν} {date d : Instant} {book book' : SwingBook ν}
  {dates : List Instant} {positions : List (SwingPosition ν)} {pos : SwingPosition ν}
  {t : SwingTradeRecord ν} {results : List (SwingPosition ν ⊕ SwingTradeRecord ν)}

/-- Every position and every trade has the number of the dates since its entry, and a record counts
the trades that span its date and the positions opened by then. -/
structure Timed (dates : List Instant) (book : SwingBook ν) : Prop where
  opened : ∀ pos ∈ book.positions, pos.entryDate ∈ dates ∧
    pos.holdingDays = dates.countP (pos.entryDate < ·)
  traded : ∀ t ∈ book.tradeRecords, t.entryDate ∈ dates ∧ t.exitDate ∈ dates ∧
    t.entryDate < t.exitDate ∧
    t.holdingDays = dates.countP fun d => t.entryDate < d ∧ d ≤ t.exitDate
  recorded : book.records.map (·.date) = dates
  held : ∀ r ∈ book.records, r.numHoldings =
    (book.tradeRecords.countP fun t => t.entryDate ≤ r.date ∧ r.date < t.exitDate) +
      book.positions.countP fun pos => pos.entryDate ≤ r.date

theorem kept_of_ages (h : List.Forall₂ (Ages strategy date) positions results)
    (hpos : pos ∈ results.filterMap Sum.getLeft?) :
    ∃ pos' ∈ positions, pos.entryDate = pos'.entryDate ∧ pos.holdingDays = pos'.holdingDays + 1 := by
  induction h with
  | nil => cases hpos
  | @cons pos' _ _ _ hages _ ih =>
    cases hages with
    | stays =>
      rcases List.mem_cons.mp hpos with heq | hrest
      · exact ⟨pos', List.mem_cons_self, by rw [heq], by rw [heq]⟩
      · obtain ⟨other, hother, hkept⟩ := ih hrest
        exact ⟨other, List.mem_cons_of_mem _ hother, hkept⟩
    | closes =>
      obtain ⟨other, hother, hkept⟩ := ih hpos
      exact ⟨other, List.mem_cons_of_mem _ hother, hkept⟩

theorem closed_of_ages (h : List.Forall₂ (Ages strategy date) positions results)
    (ht : t ∈ results.filterMap Sum.getRight?) :
    ∃ pos ∈ positions, t.entryDate = pos.entryDate ∧ t.exitDate = date ∧
      t.holdingDays = pos.holdingDays + 1 ∧ Reasoned strategy t := by
  induction h with
  | nil => cases ht
  | @cons pos _ _ _ hages _ ih =>
    cases hages with
    | stays =>
      obtain ⟨other, hother, hclosed⟩ := ih ht
      exact ⟨other, List.mem_cons_of_mem _ hother, hclosed⟩
    | closes hentry hexit hdays hreason =>
      rcases List.mem_cons.mp ht with heq | hrest
      · rw [heq]
        exact ⟨pos, List.mem_cons_self, hentry, hexit, hdays, hreason⟩
      · obtain ⟨other, hother, hclosed⟩ := ih hrest
        exact ⟨other, List.mem_cons_of_mem _ hother, hclosed⟩

/-- What was held on an earlier date stays so, as a position or as a trade. -/
theorem countP_of_ages (h : List.Forall₂ (Ages strategy date) positions results) (hd : d < date) :
    ((results.filterMap Sum.getRight?).countP fun t => t.entryDate ≤ d ∧ d < t.exitDate) +
        ((results.filterMap Sum.getLeft?).countP fun pos => pos.entryDate ≤ d) =
      positions.countP fun pos => pos.entryDate ≤ d := by
  induction h with
  | nil => rfl
  | cons hages _ ih =>
    cases hages with
    | stays =>
      simp only [List.filterMap_cons, Sum.getRight?_inl, Sum.getLeft?_inl, List.countP_cons]
      omega
    | closes hentry hexit _ _ =>
      simp only [List.filterMap_cons, Sum.getRight?_inr, Sum.getLeft?_inr, List.countP_cons, hentry,
        hexit, hd, and_true]
      omega

theorem le_of_mem_concat (hlate : ∀ d ∈ dates, d < date) (hd : d ∈ dates ++ [date]) : d ≤ date := by
  rcases List.mem_append.mp hd with hold | hlast
  · exact (hlate d hold).le
  · exact (List.mem_singleton.mp hlast).le

/-- The positions behind a date: one that is kept is a day older, and none has passed since the
date itself. -/
theorem Timed.opened_day {new : List (SwingPosition ν)} (h : Timed dates book)
    (hlate : ∀ d ∈ dates, d < date)
    (hages : List.Forall₂ (Ages strategy date) book.positions results)
    (hopens : ∀ pos ∈ new, Opens date pos)
    (hpos : pos ∈ results.filterMap Sum.getLeft? ++ new) : pos.entryDate ∈ dates ++ [date] ∧
      pos.holdingDays = (dates ++ [date]).countP (pos.entryDate < ·) := by
  rcases List.mem_append.mp hpos with hkept | hnew
  · obtain ⟨before, hbefore, hentry, hdays⟩ := kept_of_ages hages hkept
    obtain ⟨hmem, hcount⟩ := h.opened before hbefore
    rw [hentry, hdays, hcount, List.countP_append]
    refine ⟨List.mem_append_left _ hmem, ?_⟩
    simp [hlate _ hmem]
  · obtain ⟨hentry, hdays⟩ := hopens pos hnew
    have hnone : (dates ++ [date]).countP (date < ·) = 0 := by
      rw [List.countP_eq_zero]
      intro d hd
      simpa using le_of_mem_concat hlate hd
    rw [hentry, hdays, hnone]
    exact ⟨by simp, rfl⟩

/-- The trades behind a date: one that is closed has the days of its position and the date. -/
theorem Timed.traded_day (h : Timed dates book) (hlate : ∀ d ∈ dates, d < date)
    (hages : List.Forall₂ (Ages strategy date) book.positions results)
    (ht : t ∈ book.tradeRecords ++ results.filterMap Sum.getRight?) :
    t.entryDate ∈ dates ++ [date] ∧ t.exitDate ∈ dates ++ [date] ∧ t.entryDate < t.exitDate ∧
      t.holdingDays = (dates ++ [date]).countP fun d => t.entryDate < d ∧ d ≤ t.exitDate := by
  rcases List.mem_append.mp ht with hold | hnew
  · obtain ⟨hentry, hexit, hlt, hdays⟩ := h.traded t hold
    refine ⟨List.mem_append_left _ hentry, List.mem_append_left _ hexit, hlt, ?_⟩
    rw [hdays, List.countP_append]
    simp [hlate _ hexit]
  · obtain ⟨before, hbefore, hentry, hexit, hdays, -⟩ := closed_of_ages hages hnew
    obtain ⟨hmem, hcount⟩ := h.opened before hbefore
    rw [hentry, hexit, hdays, hcount]
    refine ⟨List.mem_append_left _ hmem, by simp, hlate _ hmem, ?_⟩
    have hsame : dates.countP (fun d => before.entryDate < d ∧ d ≤ date) =
        dates.countP (before.entryDate < ·) := by
      refine List.countP_congr fun d hd => ?_
      simp [(hlate d hd).le]
    rw [List.countP_append, hsame]
    simp [hlate _ hmem]

theorem Timed.day (h : Timed dates book) (hlate : ∀ d ∈ dates, d < date)
    (hday : x.directTradeDay strategy data book date = .ok book') :
    Timed (dates ++ [date]) book' := by
  obtain ⟨results, opened, hages, hopens, hpositions, htrades⟩ := day_spec hday
  have hrecords := records_of_day hday
  have hopened := fun pos (hpos : pos ∈ book'.positions) =>
    h.opened_day hlate hages hopens (hpositions ▸ hpos)
  have htraded := fun t (ht : t ∈ book'.tradeRecords) => h.traded_day hlate hages (htrades ▸ ht)
  have hrecorded : book'.records.map (·.date) = dates ++ [date] := by
    rw [hrecords, List.map_append, h.recorded]
    rfl
  refine ⟨hopened, htraded, hrecorded, ?_⟩
  intro r hr
  rw [hrecords] at hr
  rcases List.mem_append.mp hr with hold | hlast
  · have hd : r.date < date := hlate _ (h.recorded ▸ List.mem_map_of_mem hold)
    have hnone : opened.countP (fun pos => pos.entryDate ≤ r.date) = 0 := by
      rw [List.countP_eq_zero]
      intro pos hpos
      rw [(hopens pos hpos).1]
      simpa using hd
    rw [h.held r hold, htrades, hpositions, List.countP_append, List.countP_append, hnone,
      ← countP_of_ages hages hd]
    omega
  · rw [List.mem_singleton.mp hlast]
    have hspan : book'.tradeRecords.countP (fun t => t.entryDate ≤ date ∧ date < t.exitDate) = 0 := by
      rw [List.countP_eq_zero]
      intro t ht
      simp [not_lt.mpr (le_of_mem_concat hlate (htraded t ht).2.1)]
    have hall : book'.positions.countP (fun pos => pos.entryDate ≤ date) = book'.positions.length := by
      rw [List.countP_eq_length]
      intro pos hpos
      exact decide_eq_true (le_of_mem_concat hlate (hopened pos hpos).1)
    show book'.positions.length = _ + _
    show _ = book'.tradeRecords.countP (fun t => t.entryDate ≤ date ∧ date < t.exitDate) +
      book'.positions.countP (fun pos => pos.entryDate ≤ date)
    rw [hspan, hall, Nat.zero_add]

/-- In every run the trades and the positions that are left account for the days and the holdings
that are recorded. -/
theorem trades_explain_holdings (x : BacktestExecutor ν) (strategy : ReversalVolumeStrategy ν)
    (data : BacktestData ν) {dates : List Instant} (hdates : dates <+: tradingDates data)
    {book : SwingBook ν}
    (hrun : dates.foldlM (x.directTradeDay strategy data) x.openingBook = .ok book) :
    Timed dates book := by
  have hsorted := (pairwise_tradingDates data).sublist hdates.sublist
  refine foldlM_along Timed ⟨by simp [openingBook], by simp [openingBook], rfl,
    by simp [openingBook]⟩ ?_ hrun
  intro before date after book₁ book₂ heq _ htimed hday
  rw [heq, List.pairwise_append] at hsorted
  exact htimed.day (fun d hd => hsorted.2.2 d hd date List.mem_cons_self) hday

end Trades

open scoped SortOrder

/-- One trade of a day, and nothing left. -/
theorem trades_explain_holdings_sample : ∃ book,
    (tradingDates (dataOfFourDays 50)).foldlM
      (swingTrader.directTradeDay swingStrategy (dataOfFourDays 50)) swingTrader.openingBook = .ok book ∧
    Timed (tradingDates (dataOfFourDays 50)) book ∧
    book.tradeRecords.map (·.holdingDays) = [1] ∧ book.records.map (·.numHoldings) = [0, 1, 0, 0] := by
  have hrun : (((tradingDates (dataOfFourDays 50)).foldlM
      (swingTrader.directTradeDay swingStrategy (dataOfFourDays 50))
      swingTrader.openingBook).toOption.any fun book =>
        book.tradeRecords.map (·.holdingDays) = [1] ∧
          book.records.map (·.numHoldings) = [0, 1, 0, 0]) = true := by
    decide +kernel
  obtain ⟨book, hbook, hvalues⟩ := (Option.any_eq_true _ _).mp hrun
  exact ⟨book, ok_of_toOption hbook, trades_explain_holdings swingTrader swingStrategy
    (dataOfFourDays 50) (List.prefix_refl _) (ok_of_toOption hbook), of_decide_eq_true hvalues⟩

/-- The position of two days that is open after the second one. -/
theorem position_days_balance_sample : ∃ book,
    [0, 86400000000].foldlM (swingTrader.directTradeDay swingStrategy (dataOfFourDays 50))
      swingTrader.openingBook = .ok book ∧
    avgPositionCount book.records * book.records.length =
      avgHoldingDays book.tradeRecords * book.tradeRecords.length +
        (book.positions.map fun pos => (pos.holdingDays : ℚ) + 1).sum ∧
    book.positions.length = 1 := by
  have hrun : (([0, 86400000000].foldlM
      (swingTrader.directTradeDay swingStrategy (dataOfFourDays 50))
      swingTrader.openingBook).toOption.any fun book => book.positions.length = 1) = true := by
    decide +kernel
  obtain ⟨book, hbook, hlength⟩ := (Option.any_eq_true _ _).mp hrun
  exact ⟨book, ok_of_toOption hbook, position_days_balance swingTrader swingStrategy
    (dataOfFourDays 50) (ok_of_toOption hbook), of_decide_eq_true hlength⟩

end Autotrading.BacktestExecutor
