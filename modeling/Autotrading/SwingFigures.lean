import Autotrading.HoldingDays

/-!
# The figures of direct trades

What the trade and the exposure metrics of a run say together.
-/
namespace Autotrading.BacktestExecutor

open DatedLoop

/-! ## The slots -/

section Slots
variable {ν : Type} [Column ν] {x : BacktestExecutor ν} {strategy : ReversalVolumeStrategy ν}
  {data : BacktestData ν} {date : Instant} {book book' : SwingBook ν} {dates : List Instant}

/-- Neither positions nor candidates are more than the slots, now and in the records. -/
structure Slotted (x : BacktestExecutor ν) (book : SwingBook ν) : Prop where
  positions : book.positions.length ≤ x.rvMaxPositions.toNat
  candidates : book.candidates.getD 0 ≤ x.rvMaxPositions.toNat
  records : ∀ r ∈ book.records, r.numHoldings ≤ x.rvMaxPositions.toNat ∧
    ∃ n ≤ x.rvMaxPositions.toNat, r.numSignals = some n

theorem Slotted.day (h : Slotted x book)
    (hday : x.directTradeDay strategy data book date = .ok book') : Slotted x book' := by
  have hcodes := (codes_exitPositions strategy (stockData data) date book).length_le
  rw [List.length_map, List.length_map] at hcodes
  have hbefore := h.positions
  have hfound := h.candidates
  have hrecords := records_of_day hday
  obtain ⟨entered, hbook, hentered⟩ := directTradeDay_cases hday
  have hslots : entered.positions.length ≤ x.rvMaxPositions.toNat ∧
      entered.candidates.getD 0 ≤ x.rvMaxPositions.toNat := by
    rcases hentered with ⟨_, heq⟩ | ⟨hruns, signals, _, heq⟩
    · rw [heq]
      exact ⟨hcodes.trans hbefore, hfound⟩
    · have hfree := hruns.1
      have htake := List.length_take_le
        (x.freeSlots (exitPositions strategy (stockData data) date book)).toNat signals
      have hlength := length_enterAll_le strategy (stockData data) date
        (signals.take (x.freeSlots (exitPositions strategy (stockData data) date book)).toNat)
        (exitPositions strategy (stockData data) date book)
      have hcandidates := (enterAll_frame strategy (stockData data) date
        (signals.take (x.freeSlots (exitPositions strategy (stockData data) date book)).toNat)
        (exitPositions strategy (stockData data) date book)).2.2
      rw [heq, hcandidates, Option.getD_some]
      unfold freeSlots at hfree htake hlength ⊢
      constructor
      · omega
      · omega
  have hpositions : book'.positions = entered.positions := by rw [hbook]
  have hcandidates : book'.candidates = entered.candidates := by rw [hbook]
  constructor
  · rw [hpositions]
    exact hslots.1
  · rw [hcandidates]
    exact hslots.2
  · intro r hr
    rw [hrecords] at hr
    rcases List.mem_append.mp hr with hold | hnew
    · exact h.records r hold
    · rw [List.mem_singleton.mp hnew]
      refine ⟨?_, _, ?_, rfl⟩
      · show book'.positions.length ≤ _
        rw [hpositions]
        exact hslots.1
      · rw [hcandidates]
        exact hslots.2

theorem slotted_run
    (hrun : dates.foldlM (x.directTradeDay strategy data) x.openingBook = .ok book) :
    Slotted x book := by
  refine foldlM_invariant (Slotted x) ?_ ⟨Nat.zero_le _, Nat.zero_le _, by simp [openingBook]⟩ hrun
  intro date _ before after hbefore hday
  exact hbefore.day hday

/-- A result that is not empty is that of a run over the dates. -/
theorem of_runDirectTrade {result : BacktestResult ν}
    (hrun : x.runDirectTrade strategy data = .ok result) (hne : result ≠ ⟨[], []⟩) :
    ∃ book, (tradingDates data).foldlM (x.directTradeDay strategy data) x.openingBook = .ok book ∧
      result.records = book.records ∧ result.tradeRecords = book.tradeRecords := by
  unfold runDirectTrade at hrun
  split_ifs at hrun with hnone
  · exact absurd (Except.ok.inj hrun).symm hne
  · obtain ⟨book, hbook, hresult⟩ := of_bind_ok hrun
    split_ifs at hresult
    refine ⟨book, hbook, ?_⟩
    rw [← Except.ok.inj hresult]
    exact ⟨rfl, rfl⟩

end Slots

/-! ## Exposure -/

section Exposure
variable {ν : Type} {df : List (DailyRecord ν)} {n : ℕ}

theorem roundHalfEven_intCast (z : ℤ) : Python.roundHalfEven (z : ℚ) = z := by
  unfold Python.roundHalfEven
  simp

theorem round_natCast (n : ℕ) : Python.round (n : ℚ) 2 = n := by
  have hscaled : (n : ℚ) * 10 ^ (2 : ℤ) = ((n * 100 : ℤ) : ℚ) := by
    push_cast
    norm_num
  rw [Python.round, hscaled, roundHalfEven_intCast]
  push_cast
  norm_num

/-- The mean of counts of at most `n` is at most `n`. -/
theorem seriesMean_le {values : List ℚ} (hnonneg : ∀ v ∈ values, 0 ≤ v) (hle : ∀ v ∈ values, v ≤ n) :
    0 ≤ seriesMean values ∧ seriesMean values ≤ n := by
  by_cases hnil : values = []
  · simp [hnil, seriesMean]
  · exact seriesMean_mem values hnil fun v hv => ⟨hnonneg v hv, hle v hv⟩

theorem le_maxConcurrentPositions {r : DailyRecord ν} (hr : r ∈ df) :
    r.numHoldings ≤ maxConcurrentPositions df := by
  unfold maxConcurrentPositions
  have hmem : r.numHoldings ∈ df.map (·.numHoldings) := List.mem_map_of_mem hr
  obtain ⟨m, hm⟩ := Option.isSome_iff_exists.mp (List.isSome_max?_of_mem hmem)
  rw [hm]
  exact (List.max?_eq_some_iff.mp hm).2 _ hmem

theorem maxConcurrentPositions_le (h : ∀ r ∈ df, r.numHoldings ≤ n) :
    maxConcurrentPositions df ≤ n := by
  unfold maxConcurrentPositions
  cases hm : (df.map (·.numHoldings)).max? with
  | none => exact Nat.zero_le _
  | some m =>
    obtain ⟨r, hr, hheld⟩ := List.mem_map.mp (List.max?_eq_some_iff.mp hm).1
    rw [Option.getD_some, ← hheld]
    exact h r hr

theorem avgPositionCount_mem (df : List (DailyRecord ν)) :
    0 ≤ avgPositionCount df ∧ avgPositionCount df ≤ maxConcurrentPositions df := by
  refine seriesMean_le ?_ ?_
  · intro v hv
    obtain ⟨r, -, rfl⟩ := List.mem_map.mp hv
    exact Nat.cast_nonneg _
  · intro v hv
    obtain ⟨r, hr, rfl⟩ := List.mem_map.mp hv
    exact_mod_cast le_maxConcurrentPositions hr

/-- Positions are held on the days with positions, and no more of them than at the most. -/
theorem avgPositionCount_le (df : List (DailyRecord ν)) :
    avgPositionCount df ≤ maxConcurrentPositions df * (daysWithPositionsPct df / 100) := by
  have hsum : (df.map fun r => (r.numHoldings : ℚ)).sum ≤
      maxConcurrentPositions df * (df.countP (0 < ·.numHoldings) : ℚ) := by
    have hmax : ∀ r ∈ df, r.numHoldings ≤ maxConcurrentPositions df :=
      fun r hr => le_maxConcurrentPositions hr
    generalize maxConcurrentPositions df = most at hmax ⊢
    induction df with
    | nil => simp
    | cons r df ih =>
      have hrest := ih fun other hother => hmax other (List.mem_cons_of_mem _ hother)
      have hle : (r.numHoldings : ℚ) ≤ most := by exact_mod_cast hmax r List.mem_cons_self
      rw [List.map_cons, List.sum_cons, List.countP_cons]
      by_cases hheld : 0 < r.numHoldings
      · simp only [hheld, decide_true, if_true]
        push_cast
        linarith
      · simp only [hheld, decide_false, Bool.false_eq_true, if_false, Nat.add_zero]
        have hzero : (r.numHoldings : ℚ) = 0 := by exact_mod_cast Nat.eq_zero_of_not_pos hheld
        linarith
  have hshare : daysWithPositionsPct df / 100 = (df.countP (0 < ·.numHoldings) : ℚ) / df.length := by
    unfold daysWithPositionsPct
    ring
  rw [hshare, avgPositionCount, seriesMean, List.length_map, ← mul_div_assoc]
  exact div_le_div_of_nonneg_right hsum (Nat.cast_nonneg _)

theorem daysWithPositionsPct_mem (df : List (DailyRecord ν)) :
    0 ≤ daysWithPositionsPct df ∧ daysWithPositionsPct df ≤ 100 := by
  have hcount : (df.countP (0 < ·.numHoldings) : ℚ) ≤ df.length := by
    exact_mod_cast List.countP_le_length
  have hshare : (df.countP (0 < ·.numHoldings) : ℚ) / df.length ≤ 1 :=
    div_le_one_of_le₀ hcount (Nat.cast_nonneg _)
  have hnonneg : (0 : ℚ) ≤ (df.countP (0 < ·.numHoldings) : ℚ) / df.length := by positivity
  unfold daysWithPositionsPct
  constructor
  · linarith
  · linarith

theorem slotUtilizationPct_mem {df : List (DailyRecord ν)} {maxPositions : ℤ}
    (hnonneg : 0 ≤ avgPositionCount df) (hle : avgPositionCount df ≤ maxPositions.toNat) :
    0 ≤ slotUtilizationPct df (slotsOf maxPositions) ∧
      slotUtilizationPct df (slotsOf maxPositions) ≤ 100 := by
  unfold slotUtilizationPct slotsOf
  split_ifs with hzero hfive hpos
  · rw [hzero] at hle
    have hnone : avgPositionCount df = 0 := le_antisymm (by simpa using hle) hnonneg
    simp [hnone]
  · exact absurd (by decide) hfive
  · have hslots : (0 : ℚ) < maxPositions := by exact_mod_cast hpos
    have hcast : ((maxPositions.toNat : ℕ) : ℚ) = maxPositions := by
      exact_mod_cast Int.toNat_of_nonneg hpos.le
    rw [hcast] at hle
    have hshare : avgPositionCount df / maxPositions ≤ 1 := (div_le_one hslots).mpr hle
    have hshare' : 0 ≤ avgPositionCount df / maxPositions := div_nonneg hnonneg hslots.le
    constructor
    · linarith
    · linarith
  · simp

theorem avgDailySignals_mem {df : List (DailyRecord ν)}
    (h : ∀ r ∈ df, ∃ k ≤ n, r.numSignals = some k) : 0 ≤ avgDailySignals df ∧ avgDailySignals df ≤ n := by
  unfold avgDailySignals
  split_ifs
  · refine seriesMean_le ?_ ?_
    · intro v hv
      obtain ⟨r, -, rfl⟩ := List.mem_map.mp hv
      exact Nat.cast_nonneg _
    · intro v hv
      obtain ⟨r, hr, rfl⟩ := List.mem_map.mp hv
      obtain ⟨k, hk, hsignals⟩ := h r hr
      rw [hsignals, Option.getD_some]
      exact_mod_cast hk
  · exact ⟨le_rfl, Nat.cast_nonneg n⟩

end Exposure

section Exits
variable [SortOrder] {x : BacktestExecutor ℚ} {strategy : ReversalVolumeStrategy ℚ}
  {data : BacktestData ℚ} {book : SwingBook ℚ} {dates : List Instant} {t : SwingTradeRecord ℚ}
  {trades : List (SwingTradeRecord ℚ)} {reason : ExitReason}

/-- Trades have their reasons, after at least a day. -/
theorem reasoned_run
    (hrun : dates.foldlM (x.directTradeDay strategy data) x.openingBook = .ok book) :
    ∀ t ∈ book.tradeRecords, Reasoned strategy t ∧ 1 ≤ t.holdingDays := by
  refine (foldlM_invariant (fun book : SwingBook ℚ => (∀ pos ∈ book.positions, 0 ≤ pos.holdingDays) ∧
    ∀ t ∈ book.tradeRecords, Reasoned strategy t ∧ 1 ≤ t.holdingDays) ?_
      ⟨by simp [openingBook], by simp [openingBook]⟩ hrun).2
  intro date _ before after hbefore hday
  obtain ⟨results, opened, hages, hopens, hpositions, htrades⟩ := day_spec hday
  constructor
  · intro pos hpos
    rw [hpositions] at hpos
    rcases List.mem_append.mp hpos with hkept | hnew
    · obtain ⟨pos', hpos', -, hdays⟩ := kept_of_ages hages hkept
      have hearlier := hbefore.1 pos' hpos'
      omega
    · rw [(hopens pos hnew).2]
  · intro t ht
    rw [htrades] at ht
    rcases List.mem_append.mp ht with hold | hnew
    · exact hbefore.2 t hold
    · obtain ⟨pos, hpos, -, -, hdays, hreason⟩ := closed_of_ages hages hnew
      have hearlier := hbefore.1 pos hpos
      exact ⟨hreason, by omega⟩

theorem exitReason_iff (h : Reasoned strategy t) :
    t.exitReason = reason.value ↔ reasonOf strategy t = some reason := by
  obtain ⟨reason', hreason, hvalue⟩ := h
  rw [hvalue, hreason, Option.some_inj]
  cases reason' <;> cases reason <;> decide

/-- A trade that takes its profit has gained, where the profit is one. -/
theorem gain_of_takeProfit (hprofit : 0 < strategy.takeProfitPct)
    (h : reasonOf strategy t = some .takeProfit) : 0 < t.returnPct := by
  have htake : strategy.takeProfitPct ≤ t.returnPct := by
    by_contra hnot
    unfold reasonOf at h
    rw [if_neg hnot] at h
    split_ifs at h <;> cases h
  exact hprofit.trans_le htake

theorem loss_of_stopLoss (hloss : strategy.stopLossPct < 0)
    (h : reasonOf strategy t = some .stopLoss) : t.returnPct < 0 := by
  have hstop : t.returnPct ≤ strategy.stopLossPct := by
    by_contra hnot
    unfold reasonOf at h
    rw [if_neg hnot] at h
    split_ifs at h <;> cases h
  exact hstop.trans_lt hloss

omit [SortOrder] in
/-- Trades that have one of the three reasons are counted under them. -/
theorem count_reasons (h : ∀ t ∈ trades, ∃ reason : ExitReason, t.exitReason = reason.value) :
    (trades.map (·.exitReason)).count ExitReason.takeProfit.value +
        (trades.map (·.exitReason)).count ExitReason.stopLoss.value +
      (trades.map (·.exitReason)).count ExitReason.timeExit.value = trades.length := by
  induction trades with
  | nil => rfl
  | cons t trades ih =>
    have hrest := ih fun other hother => h other (List.mem_cons_of_mem _ hother)
    obtain ⟨reason, hvalue⟩ := h t List.mem_cons_self
    have hother : ∀ a b : ExitReason, (a.value == b.value) = decide (a = b) := by
      intro a b
      cases a <;> cases b <;> decide
    simp only [List.map_cons, List.count_cons, List.length_cons, hvalue, hother]
    cases reason with
    | takeProfit =>
      simp only [reduceCtorEq, decide_true, decide_false, Bool.false_eq_true, if_true, if_false]
      omega
    | stopLoss =>
      simp only [reduceCtorEq, decide_true, decide_false, Bool.false_eq_true, if_true, if_false]
      omega
    | timeExit =>
      simp only [reduceCtorEq, decide_true, decide_false, Bool.false_eq_true, if_true, if_false]
      omega

/-- Profits are taken with gains. -/
theorem count_takeProfit_le (hprofit : 0 < strategy.takeProfitPct)
    (h : ∀ t ∈ trades, Reasoned strategy t) :
    (trades.map (·.exitReason)).count ExitReason.takeProfit.value ≤
      (trades.map (·.returnPct)).countP (0 < ·) := by
  rw [List.count, List.countP_map, List.countP_map]
  refine List.countP_mono_left fun t ht hreason => ?_
  have hgain := gain_of_takeProfit hprofit ((exitReason_iff (h t ht)).mp (by simpa using hreason))
  simpa using hgain

/-- Losses are stopped apart from the gains. -/
theorem count_stopLoss_le (hloss : strategy.stopLossPct < 0)
    (h : ∀ t ∈ trades, Reasoned strategy t) :
    (trades.map (·.returnPct)).countP (0 < ·) +
      (trades.map (·.exitReason)).count ExitReason.stopLoss.value ≤ trades.length := by
  have hrest : (trades.map (·.exitReason)).count ExitReason.stopLoss.value ≤
      trades.countP fun t => ¬ decide (0 < t.returnPct) = true := by
    rw [List.count, List.countP_map]
    refine List.countP_mono_left fun t ht hreason => ?_
    have hfell := loss_of_stopLoss hloss ((exitReason_iff (h t ht)).mp (by simpa using hreason))
    simpa using hfell.le
  have hsplit := List.length_eq_countP_add_countP (fun t : SwingTradeRecord ℚ =>
    decide (0 < t.returnPct)) (l := trades)
  rw [List.countP_map]
  show trades.countP (fun t => decide (0 < t.returnPct)) + _ ≤ _
  omega

end Exits

/-! ## Rounded percentages -/

theorem roundHalfEven_add_even (y : ℚ) (k : ℤ) :
    Python.roundHalfEven (y + (2 * k : ℤ)) = Python.roundHalfEven y + 2 * k := by
  have hpart : y + (2 * k : ℤ) - (⌊y⌋ + 2 * k : ℤ) = y - ⌊y⌋ := by
    push_cast
    ring
  have hparity : (⌊y⌋ + 2 * k) % 2 = ⌊y⌋ % 2 := by omega
  unfold Python.roundHalfEven
  dsimp only
  rw [Int.floor_add_intCast, hpart, hparity]
  split_ifs
  · rfl
  · ring

/-- What is left of a hundred. -/
theorem round_hundred_sub (y : ℚ) : Python.round (100 - y) 2 = 100 - Python.round y 2 := by
  have hpow : (10 : ℚ) ^ (2 : ℤ) = 100 := by norm_num
  have hscaled : (100 - y) * 100 = -(y * 100) + (2 * 5000 : ℤ) := by
    push_cast
    ring
  rw [Python.round, Python.round, hpow, hscaled, roundHalfEven_add_even, roundHalfEven_neg]
  push_cast
  ring

/-! ## The shares of the exits -/

section Shares
variable {df : List (DailyRecord ℚ)} {trades : List (SwingTradeRecord ℚ)}

/-- The metrics of trades that there are. -/
theorem swing_rates (hne : trades ≠ []) :
    (calcSwingTradeMetrics df trades).winRate =
        Python.round (winRatePct (trades.map (·.returnPct))) 2 ∧
      (calcSwingTradeMetrics df trades).takeProfitPct = Python.round (exitPct trades .takeProfit) 2 ∧
      (calcSwingTradeMetrics df trades).stopLossPct = Python.round (exitPct trades .stopLoss) 2 ∧
      (calcSwingTradeMetrics df trades).avgHoldingDays = Python.round (avgHoldingDays trades) 2 := by
  have hempty : trades.isEmpty = false := by simpa using hne
  have hlength : 0 < (trades.map (·.returnPct)).length := by
    rw [List.length_map]
    exact List.length_pos_iff.mpr hne
  unfold calcSwingTradeMetrics
  rw [hempty]
  refine ⟨?_, rfl, rfl, rfl⟩
  simp only [Bool.false_eq_true, if_false, tradeMetricsOf, hlength, if_true, winRatePct]

/-- Shares of a hundred are ordered as the numbers behind them. -/
theorem share_le {a b n : ℕ} (h : a ≤ b) : (a : ℚ) / n * 100 ≤ b / n * 100 := by
  have hcast : (a : ℚ) ≤ b := by exact_mod_cast h
  have hshare : (a : ℚ) / n ≤ b / n := div_le_div_of_nonneg_right hcast (Nat.cast_nonneg n)
  linarith

theorem one_le_avgHoldingDays (hne : trades ≠ []) (h : ∀ t ∈ trades, 1 ≤ t.holdingDays) :
    1 ≤ avgHoldingDays trades := by
  have hpos : (0 : ℚ) < (trades.map fun t => (t.holdingDays : ℚ)).length := by
    rw [List.length_map]
    exact_mod_cast List.length_pos_iff.mpr hne
  have hsum := List.card_nsmul_le_sum (trades.map fun t => (t.holdingDays : ℚ)) 1 (by
    intro days hdays
    obtain ⟨t, ht, rfl⟩ := List.mem_map.mp hdays
    exact_mod_cast h t ht)
  rw [avgHoldingDays, seriesMean, le_div_iff₀ hpos, one_mul]
  simpa using hsum

theorem share_all {n : ℕ} (h : n ≠ 0) : (n : ℚ) / n * 100 = 100 := by
  have hcast : (n : ℚ) ≠ 0 := by exact_mod_cast h
  rw [div_self hcast, one_mul]

end Shares

open scoped SortOrder

theorem run_fourDays : (swingTrader.runDirectTrade swingStrategy (dataOfFourDays 50)).toOption.any
    (fun result => result.records ≠ [] ∧ result.tradeRecords.length = 1) = true := by
  decide +kernel

end Autotrading.BacktestExecutor
