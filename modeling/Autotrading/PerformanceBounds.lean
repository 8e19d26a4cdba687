import Autotrading.PerformanceFailures
import Mathlib.Tactic.Positivity

/-!
# What the metrics of one answer say of each other

The metrics are measured on one equity series: no loss that is shown is larger than the maximum
drawdown, and no drawdown is longer than the period. Both hold of the rounded figures.
-/
namespace Autotrading

/-! ## Rounding -/

section Rounding
variable {x y : ℚ} {decimals : ℤ}

theorem floor_le_roundHalfEven (x : ℚ) : ⌊x⌋ ≤ Python.roundHalfEven x := by
  unfold Python.roundHalfEven
  dsimp only
  split_ifs
  · exact le_rfl
  · omega

theorem roundHalfEven_le_floor (x : ℚ) : Python.roundHalfEven x ≤ ⌊x⌋ + 1 := by
  unfold Python.roundHalfEven
  dsimp only
  split_ifs
  · omega
  · exact le_rfl

/-- Between two integers the larger number is rounded up where the smaller one is. -/
theorem roundHalfEven_mono (h : x ≤ y) : Python.roundHalfEven x ≤ Python.roundHalfEven y := by
  have hfloor : ⌊x⌋ ≤ ⌊y⌋ := Int.floor_le_floor h
  obtain heq | hlt := hfloor.eq_or_lt
  · by_cases hdown : y - ⌊y⌋ < 1 / 2 ∨ y - ⌊y⌋ = 1 / 2 ∧ ⌊y⌋ % 2 = 0
    · have hx : x - ⌊x⌋ < 1 / 2 ∨ x - ⌊x⌋ = 1 / 2 ∧ ⌊x⌋ % 2 = 0 := by
        rw [heq]
        obtain hlow | ⟨htie, heven⟩ := hdown
        · left
          linarith
        · obtain hlow | hsame := h.lt_or_eq
          · left
            linarith
          · right
            exact ⟨by rw [hsame, htie], heven⟩
      have hrx : Python.roundHalfEven x = ⌊x⌋ := if_pos hx
      have hry := floor_le_roundHalfEven y
      omega
    · have hry : Python.roundHalfEven y = ⌊y⌋ + 1 := if_neg hdown
      have hrx := roundHalfEven_le_floor x
      omega
  · have hrx := roundHalfEven_le_floor x
    have hry := floor_le_roundHalfEven y
    omega

/-- A tie goes to the even neighbour on either side of zero. -/
theorem roundHalfEven_neg (x : ℚ) : Python.roundHalfEven (-x) = -Python.roundHalfEven x := by
  have hle := Int.floor_le x
  have hlt := Int.lt_floor_add_one x
  by_cases hint : x = ⌊x⌋
  · have hfloor : ⌊-x⌋ = -⌊x⌋ := by
      rw [hint, Int.floor_intCast, ← Int.cast_neg, Int.floor_intCast]
    have hx : Python.roundHalfEven x = ⌊x⌋ := if_pos (.inl (by linarith))
    have hneg : Python.roundHalfEven (-x) = ⌊-x⌋ := by
      refine if_pos (.inl ?_)
      rw [hfloor, Int.cast_neg]
      linarith
    rw [hx, hneg, hfloor]
  · have hpart : (⌊x⌋ : ℚ) < x := lt_of_le_of_ne hle (Ne.symm hint)
    have hfloor : ⌊-x⌋ = -⌊x⌋ - 1 := by
      rw [Int.floor_eq_iff]
      push_cast
      constructor
      · linarith
      · linarith
    by_cases hdown : x - ⌊x⌋ < 1 / 2 ∨ x - ⌊x⌋ = 1 / 2 ∧ ⌊x⌋ % 2 = 0
    · have hx : Python.roundHalfEven x = ⌊x⌋ := if_pos hdown
      have hup : ¬ (-x - ⌊-x⌋ < 1 / 2 ∨ -x - ⌊-x⌋ = 1 / 2 ∧ ⌊-x⌋ % 2 = 0) := by
        rw [hfloor]
        push_cast
        rintro (hlow | ⟨htie, heven⟩)
        · obtain hlow' | ⟨htie', -⟩ := hdown
          · linarith
          · linarith
        · obtain hlow' | ⟨-, heven'⟩ := hdown
          · linarith
          · omega
      have hneg : Python.roundHalfEven (-x) = ⌊-x⌋ + 1 := if_neg hup
      rw [hx, hneg, hfloor]
      omega
    · have hx : Python.roundHalfEven x = ⌊x⌋ + 1 := if_neg hdown
      have hlow : -x - ⌊-x⌋ < 1 / 2 ∨ -x - ⌊-x⌋ = 1 / 2 ∧ ⌊-x⌋ % 2 = 0 := by
        rw [hfloor]
        push_cast
        rw [not_or, not_lt, not_and] at hdown
        obtain heq | hmore := hdown.1.eq_or_lt
        · have hodd := hdown.2 heq.symm
          right
          exact ⟨by linarith, by omega⟩
        · left
          linarith
      have hneg : Python.roundHalfEven (-x) = ⌊-x⌋ := if_pos hlow
      rw [hx, hneg, hfloor]
      omega

theorem round_mono (h : x ≤ y) : Python.round x decimals ≤ Python.round y decimals := by
  have hpow : (0 : ℚ) < 10 ^ decimals := zpow_pos (by norm_num) decimals
  have hscaled := roundHalfEven_mono (mul_le_mul_of_nonneg_right h hpow.le)
  exact div_le_div_of_nonneg_right (by exact_mod_cast hscaled) hpow.le

theorem round_neg (x : ℚ) (decimals : ℤ) : Python.round (-x) decimals = -Python.round x decimals := by
  rw [Python.round, neg_mul, roundHalfEven_neg, Int.cast_neg, neg_div]
  rfl

theorem round_zero (decimals : ℤ) : Python.round 0 decimals = 0 := by
  simp [Python.round, Python.roundHalfEven]

theorem round_nonneg (h : 0 ≤ x) : 0 ≤ Python.round x decimals :=
  (round_zero decimals).symm.le.trans (round_mono h)

theorem round_nonpos (h : x ≤ 0) : Python.round x decimals ≤ 0 :=
  (round_mono h).trans (round_zero decimals).le

theorem round_hundred : Python.round 100 2 = 100 := by decide +kernel

end Rounding

/-! ## Losses and the maximum drawdown -/

section Losses
variable {equity : EquitySeries ℚ} {t t' : Instant} {v w r : ℚ} {points : List Instant}

/-- The values as of two times are values of the series, the later one not before the other. -/
theorem exists_index_asof (hle : t ≤ t') (hv : equity.asof t = some v)
    (hw : equity.asof t' = some w) :
    ∃ i j : ℕ, i ≤ j ∧ equity.values[i]? = some v ∧ equity.values[j]? = some w := by
  obtain ⟨before, date, after, hpoints, hdate, hafter⟩ := asof_iff.mp hv
  obtain ⟨before', date', after', hpoints', -, hafter'⟩ := asof_iff.mp hw
  refine ⟨before.length, before'.length, ?_, ?_, ?_⟩
  · by_contra! hless
    -- otherwise the point found for `t` comes behind the one found for `t'`
    have hmem : (date, v) ∈ after' := by
      have hat : equity.points[before.length]? = some (date, v) := by simp [hpoints]
      rw [hpoints', List.getElem?_append_right (by omega)] at hat
      obtain ⟨n, hn⟩ : ∃ n, before.length - before'.length = n + 1 :=
        ⟨before.length - before'.length - 1, by omega⟩
      rw [hn, List.getElem?_cons_succ] at hat
      exact List.mem_of_getElem? hat
    have hlate := hafter' _ hmem
    exact absurd (hdate.trans hle) (not_le.mpr hlate)
  · simp [EquitySeries.values, hpoints]
  · simp [EquitySeries.values, hpoints']

/-- From one value to a later one no more is lost than the maximum drawdown. -/
theorem neg_mddPct_le {i j : ℕ} (hle : i ≤ j) (hv : equity.values[i]? = some v)
    (hw : equity.values[j]? = some w) : -mddPct equity ≤ (w / v - 1) * 100 := by
  have hpos := equity.values_pos hv
  have hbound := (isGreatest_mddPct equity).2 ⟨_, ⟨i, j, v, w, hle, hv, hw, rfl⟩, rfl⟩
  dsimp only at hbound
  have hloss : (v - w) / v = 1 - w / v := by
    rw [sub_div, div_self hpos.ne']
  rw [hloss] at hbound
  linarith

theorem mddPct_nonneg (equity : EquitySeries ℚ) : 0 ≤ mddPct equity :=
  (maxDrawdown_spec equity 0).2.2.1

/-- The return of a period is between two values of the series. -/
theorem neg_mddPct_le_periodReturn (hsorted : points.Pairwise (· < ·))
    (hlast : ∀ t ∈ points, t ≤ equity.lastIndex) (h : r ∈ periodReturns equity points) :
    -mddPct equity ≤ r * 100 := by
  induction points with
  | nil => simp [periodReturns] at h
  | cons t points ih =>
    rw [List.pairwise_cons] at hsorted
    have hrest := ih hsorted.2 fun t ht => hlast t (List.mem_cons_of_mem _ ht)
    cases hv : equity.asof t with
    | none =>
      rw [periodReturns_early (asof_eq_none_iff.mp hv)] at h
      exact hrest h
    | some v =>
      rw [periodReturns_cons hv] at h
      obtain rfl | h := List.mem_cons.mp h
      · have hle : t ≤ points.headD equity.lastIndex := by
          cases points with
          | nil => exact hlast t List.mem_cons_self
          | cons next points => exact (hsorted.1 next List.mem_cons_self).le
        cases hw : equity.asof (points.headD equity.lastIndex) with
        | none =>
          have hearly := asof_eq_none_iff.mp hw
          have hnot : ¬ t < equity.firstIndex := by
            intro hlt
            rw [asof_eq_none_iff.mpr hlt] at hv
            cases hv
          exact absurd (hle.trans_lt hearly) hnot
        | some w =>
          obtain ⟨i, j, hij, hi, hj⟩ := exists_index_asof hle hv hw
          exact neg_mddPct_le hij hi hj
      · exact hrest h

/-- The mean lies between bounds of the values. -/
theorem seriesMean_mem (values : List ℚ) {a b : ℚ} (hne : values ≠ [])
    (h : ∀ x ∈ values, a ≤ x ∧ x ≤ b) : a ≤ seriesMean values ∧ seriesMean values ≤ b := by
  have hpos : (0 : ℚ) < values.length := by exact_mod_cast List.length_pos_iff.mpr hne
  have hlow : values.length • a ≤ values.sum := List.card_nsmul_le_sum values a fun x hx => (h x hx).1
  have hhigh : values.sum ≤ values.length • b := List.sum_le_card_nsmul values b fun x hx => (h x hx).2
  rw [nsmul_eq_mul, mul_comm] at hlow hhigh
  rw [seriesMean, le_div_iff₀ hpos, div_le_iff₀ hpos]
  exact ⟨hlow, hhigh⟩

/-- The mean of the losses is a loss, and not beyond the bound of all of them. -/
theorem mean_losses {returns : List ℚ} (hbound : ∀ r ∈ returns, -mddPct equity ≤ r * 100)
    (hne : (returns.filter (· < 0)).isEmpty = false) :
    -mddPct equity ≤ seriesMean (returns.filter (· < 0)) * 100 ∧
      seriesMean (returns.filter (· < 0)) * 100 ≤ 0 := by
  have hmean := seriesMean_mem (returns.filter (· < 0)) (a := -mddPct equity / 100) (b := 0)
    (by
      intro hnil
      rw [hnil] at hne
      cases hne)
    (by
      intro r hr
      obtain ⟨hmem, hloss⟩ := List.mem_filter.mp hr
      have hr := hbound r hmem
      constructor
      · linarith
      · exact (of_decide_eq_true hloss).le)
  constructor
  · linarith [hmean.1]
  · linarith [hmean.2]

theorem mean_wins (returns : List ℚ) : 0 ≤ seriesMean (returns.filter (0 < ·)) * 100 := by
  have hsum : 0 ≤ (returns.filter (0 < ·)).sum :=
    List.sum_nonneg fun r hr => (of_decide_eq_true (List.mem_filter.mp hr).2).le
  have hmean : 0 ≤ seriesMean (returns.filter (0 < ·)) := div_nonneg hsum (Nat.cast_nonneg _)
  linarith

theorem winRatePct_mem {returns : List ℚ} (hne : returns ≠ []) :
    0 ≤ winRatePct returns ∧ winRatePct returns ≤ 100 := by
  have hlength : (0 : ℚ) < returns.length := by exact_mod_cast List.length_pos_iff.mpr hne
  have hcount : (returns.countP (0 < ·) : ℚ) ≤ returns.length := by
    exact_mod_cast List.countP_le_length
  have hrate := (div_le_one hlength).mpr hcount
  have hnonneg : (0 : ℚ) ≤ (returns.countP (0 < ·) : ℚ) / returns.length := by positivity
  unfold winRatePct
  constructor
  · linarith
  · linarith

/-- What the period returns of a series come to in the answer. -/
theorem winMetrics_bounds (equity : EquitySeries ℚ) {returns : List ℚ}
    (hbound : ∀ r ∈ returns, -mddPct equity ≤ r * 100) :
    -Python.round (mddPct equity) 2 ≤ (calcWinMetrics returns 2).avgLoss ∧
      (calcWinMetrics returns 2).avgLoss ≤ 0 ∧ 0 ≤ (calcWinMetrics returns 2).avgWin ∧
      0 ≤ (calcWinMetrics returns 2).winRate ∧ (calcWinMetrics returns 2).winRate ≤ 100 := by
  have hmdd : 0 ≤ Python.round (mddPct equity) 2 := round_nonneg (mddPct_nonneg equity)
  by_cases hempty : returns = []
  · subst hempty
    have hwin : calcWinMetrics [] 2 = ⟨0, 0, 0, 0, none⟩ := rfl
    rw [hwin]
    exact ⟨neg_nonpos.mpr hmdd, le_rfl, le_rfl, le_rfl, by norm_num⟩
  · have hmetrics : returns.isEmpty = false := by simpa using hempty
    have hrate := winRatePct_mem hempty
    simp only [calcWinMetrics, hmetrics, Bool.false_eq_true, if_false]
    refine ⟨?_, ?_, ?_, round_nonneg hrate.1, ?_⟩
    · rw [← round_neg]
      apply round_mono
      split_ifs with hlosses
      · exact neg_nonpos.mpr (mddPct_nonneg equity)
      · exact (mean_losses hbound (Bool.eq_false_iff.mpr hlosses)).1
    · apply round_nonpos
      split_ifs with hlosses
      · exact le_rfl
      · exact (mean_losses hbound (Bool.eq_false_iff.mpr hlosses)).2
    · apply round_nonneg
      split_ifs with hwins
      · exact le_rfl
      · exact mean_wins returns
    · have hround : Python.round (winRatePct returns) 2 ≤ Python.round 100 2 := round_mono hrate.2
      rwa [round_hundred] at hround

theorem neg_mddPct_le_rawReturn (equity : EquitySeries ℚ) : -mddPct equity ≤ equity.rawReturn := by
  have hlen := equity.length_pos
  refine neg_mddPct_le (Nat.zero_le (equity.points.length - 1)) ?_ ?_
  · rw [EquitySeries.values, List.getElem?_map, EquitySeries.firstValue, ← List.head?_eq_getElem?,
      List.head?_eq_some_head equity.nonempty]
    rfl
  · rw [EquitySeries.values, List.getElem?_map, EquitySeries.lastValue,
      ← List.getLast?_eq_getElem?, List.getLast?_eq_getLast_of_ne_nil equity.nonempty]
    rfl

end Losses

/-! ## Days -/

section Days
variable {equity : EquitySeries ℚ} {d : DrawdownDuration}

theorem mem_index_bounds {i : ℕ} {t : Instant} (h : equity.index[i]? = some t) :
    equity.firstIndex ≤ t ∧ t ≤ equity.lastIndex := by
  obtain ⟨p, hp, rfl⟩ := List.mem_map.mp (List.mem_of_getElem? h)
  exact ⟨firstIndex_le hp, le_lastIndex hp⟩

theorem daysBetween_mono {a b a' b' : Instant} (ha : a' ≤ a) (hb : b ≤ b') :
    daysBetween a b ≤ daysBetween a' b' :=
  Int.ediv_le_ediv (by decide) (sub_le_sub hb ha)

theorem days_nonneg (equity : EquitySeries ℚ) : 0 ≤ equity.days := by
  have hhead := le_lastIndex (List.head_mem equity.nonempty)
  exact Int.ediv_nonneg (sub_nonneg.mpr hhead) (by decide)

/-- A drawdown is no longer than the period, and the one that goes on no longer than the longest. -/
theorem drawdownDays_le (h : calcDrawdownDuration equity.toSeries = .ok d) :
    0 ≤ d.currentDays ∧ d.currentDays ≤ d.maxDays ∧ d.maxDays ≤ equity.days ∧
      (d.isRecovered = true → d.currentDays = 0) := by
  obtain ⟨d', hd, hsome, hnone, -, hrun, hrecovered, hle⟩ := drawdownDuration_spec equity
  rw [h] at hd
  obtain rfl := Except.ok.inj hd
  refine ⟨?_, hle, ?_, hrecovered⟩
  · cases hflag : d.isRecovered with
    | true => exact (hrecovered hflag).ge
    | false =>
      obtain ⟨first, hfirst, hdays⟩ := hrun hflag
      rw [hfirst.runDays_iff.mp hdays]
      exact hfirst.segmentDays_nonneg
  · by_cases hexists : ∃ first stop, DrawdownRun equity first stop
    · obtain ⟨first, stop, -, peak, finish, peakDate, finishDate, -, -, hpeak, hfinish, hmax⟩ :=
        (hsome hexists).1
      rw [hmax]
      exact daysBetween_mono (mem_index_bounds hpeak).1 (mem_index_bounds hfinish).2
    · rw [hnone hexists]
      exact days_nonneg equity

end Days

namespace PerformanceService

/-! ## What an answer is made of -/

section Answers
variable {call : Request} {equity : List (Instant × ℚ)} {read : PerformanceRead}

/-- The equity behind an answer, and the figures that are shown of it. -/
structure Measured (call : Request) (equity : EquitySeries ℚ) (read : PerformanceRead) : Prop where
  totalReturn : read.returns.totalReturn = some (Python.round equity.rawReturn 2)
  maxDrawdown : read.risk.maxDrawdown = some (Python.round (mddPct equity) 2)
  duration : ∃ d, calcDrawdownDuration equity.toSeries = .ok d ∧
    read.risk.mddMaxDays = some d.maxDays ∧ read.risk.mddCurrentDays = some d.currentDays ∧
      read.risk.isRecovered = some d.isRecovered
  trading : ∃ returns,
    calcRebalancePeriodReturns equity.toSeries (call.rebalanceDates.map timestamp) = .ok returns ∧
      read.trading.winRate = some (calcWinMetrics returns 2).winRate ∧
      read.trading.avgWin = some (calcWinMetrics returns 2).avgWin ∧
      read.trading.avgLoss = some (calcWinMetrics returns 2).avgLoss
  days : read.period.days = equity.days
  navSeries : read.navSeries.map (fun p => (p.date, p.nav)) =
    equity.points.map fun p => (dateOf p.1, p.2)

theorem getLastD_eq_getLast {xs : List Instant} (h : xs ≠ []) (a : Instant) :
    xs.getLastD a = xs.getLast h := by
  rw [List.getLastD_eq_getLast?, List.getLast?_eq_getLast_of_ne_nil h, Option.getD_some]

theorem days_eq (equity : EquitySeries ℚ) :
    daysBetween ((equity.points.map Prod.fst).headD 0) ((equity.points.map Prod.fst).getLastD 0) =
      equity.days := by
  have hne : equity.points.map Prod.fst ≠ [] := by simpa using equity.nonempty
  rw [EquitySeries.days, getLastD_eq_getLast hne, List.getLast_map, EquitySeries.firstIndex,
    EquitySeries.lastIndex]
  congr 1
  obtain ⟨p, rest, hpoints⟩ := List.exists_cons_of_ne_nil equity.nonempty
  simp [hpoints]

/-- The metrics are of a series without a gap and above zero, or there are none. -/
theorem of_measure (h : call.measure equity = .ok read) :
    ∃ e : EquitySeries ℚ, e.points = equity ∧ Measured call e read := by
  unfold Request.measure at h
  obtain ⟨benchmark, -, h⟩ := of_bind_ok h
  obtain ⟨benchmarkKosdaq, -, h⟩ := of_bind_ok h
  obtain ⟨figures, hfigures, h⟩ := of_bind_ok h
  obtain rfl := Except.ok.inj h
  obtain ⟨d, hduration, hfigures⟩ := of_bind_ok hfigures
  obtain ⟨returns, hreturns, hfigures⟩ := of_bind_ok hfigures
  obtain ⟨turnover, -, hfigures⟩ := of_bind_ok hfigures
  obtain ⟨totalReturn, htotal, hfigures⟩ := of_bind_ok hfigures
  obtain ⟨benchmarkReturn, -, hfigures⟩ := of_bind_ok hfigures
  obtain ⟨kosdaqReturn, -, hfigures⟩ := of_bind_ok hfigures
  obtain ⟨periodProfit, -, hfigures⟩ := of_bind_ok hfigures
  obtain ⟨cagr, -, hfigures⟩ := of_bind_ok hfigures
  obtain ⟨alpha, -, hfigures⟩ := of_bind_ok hfigures
  obtain ⟨maxDrawdown, hmdd, hfigures⟩ := of_bind_ok hfigures
  obtain ⟨volatility, -, hfigures⟩ := of_bind_ok hfigures
  obtain ⟨sharpeRatio, -, hfigures⟩ := of_bind_ok hfigures
  obtain rfl := Except.ok.inj hfigures
  obtain ⟨e, hvalid, -⟩ := of_bind_ok htotal
  have hseries := toSeries_of_validateEquity hvalid
  have hpoints : e.points = equity := by
    have hknown := congrArg known hseries
    rw [known_toSeries, known, List.filterMap_map] at hknown
    exact hknown.symm.trans List.filterMap_some
  subst hpoints
  rw [hseries] at hduration hreturns htotal hmdd
  rw [calcTotalReturn, validateEquity_toSeries] at htotal
  rw [calcMaxDrawdown, validateEquity_toSeries] at hmdd
  obtain rfl := Except.ok.inj htotal
  obtain rfl := Except.ok.inj hmdd
  refine ⟨e, rfl, rfl, rfl, ⟨d, hduration, rfl, rfl, rfl⟩, ⟨returns, hreturns, rfl, rfl, rfl⟩,
    days_eq e, ?_⟩
  exact List.map_map

/-- An answer is empty, or it measures an equity of two points and more. -/
theorem of_getPerformance (h : getPerformance call = .ok read) :
    read = .empty ∨ ∃ e : EquitySeries ℚ, call.result = .ok e.points ∧ 2 ≤ e.points.length ∧
      Measured call e read := by
  unfold getPerformance at h
  cases hresult : call.result with
  | error e =>
    rw [hresult] at h
    dsimp only at h
    split_ifs at h
    exact .inl (Except.ok.inj h).symm
  | ok equity =>
    rw [hresult] at h
    dsimp only at h
    split_ifs at h with hshort
    · exact .inl (Except.ok.inj h).symm
    · obtain ⟨e, rfl, hmeasured⟩ := of_measure h
      exact .inr ⟨e, rfl, not_lt.mp hshort, hmeasured⟩

/-! ## Three days -/

def dayBars : List (OhlcvRow (Option ℚ)) :=
  [EquityCall.closeBar 20544 180000, EquityCall.closeBar 20545 171000, EquityCall.closeBar 20546 190000]

/-- 11 shares of 005930 from 2026-04-01 on, and a provider that has no rows of an index. -/
def elevenShares (stop : ℤ) : Request where
  getOhlcv args :=
    if args.code = "005930" then
      .ok ⟨dayBars.filter fun row => row.date ≤ timestamp stop,
        List.Pairwise.filter _ (by simp [dayBars, EquityCall.closeBar, timestamp, microsecondsPerDay])⟩
    else .error (.other "ValueError" "")
  db := ⟨[⟨1, 0, "REBALANCE", "12345678", "01", some 570000, some 20544⟩], [⟨1, "005930", 11⟩]⟩
  accountNo := "12345678"
  accountProductCode := "01"
  startDate := 20544
  asOfDate := stop
  math := ⟨fun x _ => x, fun x => x⟩
  rebalances := []
  orders := []

theorem views_elevenShares {stop : ℤ} (h : 20544 ≤ stop) : (elevenShares stop).views =
    [⟨timestamp 20544, 570000, ⟨[("005930", 11)], by decide⟩⟩] := by
  have hsnapshots : (elevenShares stop).snapshots = (elevenShares stop).db.snapshots := by
    show (List.filter _ _).mergeSort _ = _
    have hfilter : (elevenShares stop).db.snapshots.filter (fun s =>
        s.accountNo = (elevenShares stop).accountNo ∧
          s.accountProductCode = (elevenShares stop).accountProductCode ∧
            s.snapshotType = "REBALANCE" ∧ s.tradingDate.any fun date =>
              (elevenShares stop).startDate ≤ date ∧ date ≤ (elevenShares stop).asOfDate) =
        (elevenShares stop).db.snapshots := by
      simp [elevenShares, h]
    rw [hfilter, List.mergeSort_of_pairwise]
    exact List.pairwise_singleton _ _
  rw [EquityCall.views, hsnapshots]
  show [snapshotView ((List.filter _ _).mergeSort _) _] = _
  rw [List.mergeSort_of_pairwise]
  · rfl
  · exact List.pairwise_singleton _ _

theorem answer_elevenShares {stop : ℤ} (h : stop = 20545 ∨ stop = 20546) :
    ∃ read, getPerformance (elevenShares stop) = .ok read ∧ read ≠ .empty := by
  have hstart : 20544 ≤ stop := by omega
  have hviews := views_elevenShares hstart
  have hheld : heldCodes (elevenShares stop).views = ["005930"] := by
    rw [hviews]
    decide +kernel
  have hdates : ((elevenShares stop).views.map SnapshotView.tradingDate).Nodup := by
    rw [hviews]
    exact List.nodup_singleton _
  have hrows : ∀ code ∈ heldCodes (elevenShares stop).views, (elevenShares stop).closes code ≠ [] := by
    rw [hheld]
    intro code hcode
    obtain rfl := List.mem_singleton.mp hcode
    obtain rfl | rfl := h
    · decide +kernel
    · decide +kernel
  have hdays : daysCovered (elevenShares stop).views (elevenShares stop).closeTable.filled.zeroed
      (timestamp (elevenShares stop).asOfDate) =
        (dayBars.map (·.date)).filter (· ≤ timestamp stop) := by
    unfold EquityCall.closeTable
    rw [hviews]
    obtain rfl | rfl := h
    · decide +kernel
    · decide +kernel
  have hpositive : ∀ t ∈ dayBars.map (·.date), ∀ s ∈ snapshotAt (elevenShares stop).views t,
      0 < nav (elevenShares stop).closeTable.filled.zeroed s t := by
    unfold EquityCall.closeTable
    rw [hviews]
    obtain rfl | rfl := h
    · decide +kernel
    · decide +kernel
  obtain ⟨equity, hok, hindex, hequity⟩ := EquityCall.exists_result (by simp [hheld]) hrows hdates
    (by
      rw [hdays]
      obtain rfl | rfl := h
      · decide +kernel
      · decide +kernel)
  refine exists_answer hok ?_ ?_ ?_ ?_
  · rw [← List.length_map Prod.fst, hindex, hdays]
    obtain rfl | rfl := h
    · decide +kernel
    · decide +kernel
  · intro p hp
    obtain ⟨s, hs, hvalue⟩ := hequity p hp
    have hday : p.1 ∈ equity.map Prod.fst := List.mem_map_of_mem hp
    rw [hindex, hdays] at hday
    rw [hvalue]
    exact hpositive p.1 (List.mem_filter.mp hday).1 s hs
  · intro hunusable
    cases hunusable
  · intro hunusable
    cases hunusable

/-! ## The figures of an answer -/

end Answers

end PerformanceService

end Autotrading
