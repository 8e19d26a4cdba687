import Autotrading.Performance
import Mathlib.Tactic.Linarith

/-!
# When a performance request fails

An equity that cannot be built gives an empty answer. One that was built is in order and without a
gap, so of the checks of the metrics only the one for values above zero can fail; and a benchmark
that the provider has no rows for is left out, while one with a day without a close fails them all.
-/
namespace Autotrading

open DatedLoop (sortedSet)

namespace EquityCall

variable {call : EquityCall} {equity : List (Instant × ℚ)}

/-- The equity that is returned: the trading days in order, each with its net asset value. -/
theorem of_result (h : call.result = .ok equity) :
    (∀ t, t ∈ equity.map Prod.fst ↔ call.Covered t) ∧ (equity.map Prod.fst).Pairwise (· < ·) ∧
      equity ≠ [] ∧ ∀ p ∈ equity, ∃ s, snapshotAt call.views p.1 = some s ∧
        p.2 = nav call.closeTable.filled.zeroed s p.1 := by
  obtain ⟨hheld, hfetched⟩ := of_result_ok h
  rw [result_eq hheld hfetched] at h
  obtain ⟨hdays, hcolumns, hdates⟩ := of_assembleEquity_ok h
  obtain ⟨equity', hok, hindex, hvalues⟩ := assembleEquity_of_distinct hdates hcolumns hdays
  rw [h] at hok
  obtain rfl := Except.ok.inj hok
  refine ⟨fun t => ?_, ?_, ?_, hvalues⟩
  · rw [hindex]
    exact mem_daysCovered
  · rw [hindex]
    exact call.closeTable.filled.zeroed.ascending.filter _
  · intro hnil
    rw [hnil] at hindex
    exact hdays hindex.symm

/-- With a snapshot that holds something, rows for every code and one snapshot a day there is an
equity of the trading days. -/
theorem exists_result (hheld : heldCodes call.views ≠ [])
    (hfetched : ∀ code ∈ heldCodes call.views, call.closes code ≠ [])
    (hdates : (call.views.map SnapshotView.tradingDate).Nodup)
    (hdays : daysCovered call.views call.closeTable.filled.zeroed (timestamp call.asOfDate) ≠ []) :
    ∃ equity, call.result = .ok equity ∧
      equity.map Prod.fst =
        daysCovered call.views call.closeTable.filled.zeroed (timestamp call.asOfDate) ∧
      ∀ p ∈ equity, ∃ s, snapshotAt call.views p.1 = some s ∧
        p.2 = nav call.closeTable.filled.zeroed s p.1 := by
  obtain ⟨code, hcode⟩ := List.exists_mem_of_ne_nil _ hheld
  have hcolumns : call.closeTable.filled.zeroed.columns ≠ [] :=
    List.ne_nil_of_mem (columns_closeTable.mpr hcode)
  obtain ⟨equity, hok, hindex, hvalues⟩ := assembleEquity_of_distinct hdates hcolumns hdays
  exact ⟨equity, (result_eq hheld hfetched).trans hok, hindex, hvalues⟩

end EquityCall

namespace PerformanceService

section Failures
variable {call : Request} {equity : List (Instant × ℚ)} {code : String} {series : CloseSeries}

/-- What the provider answers for an index. -/
def Request.index (call : Request) (equity : List (Instant × ℚ)) (code : String) :
    Except PyExc CloseSeries :=
  fetchCloseSeries call.getOhlcv code (dateOf ((equity.map Prod.fst).headD 0)) call.asOfDate

/-- An index that fails the request: an exception that is no `ValueError`, or a day without a close
above zero. -/
def Request.Unusable (call : Request) (equity : List (Instant × ℚ)) (code : String) : Prop :=
  match call.index equity code with
  | .error e => e.isValueError = false
  | .ok series => ∃ p ∈ series, ∀ v, p.2 = some v → v ≤ 0

/-- The series of the provider are in order. -/
theorem pairwise_index (h : call.index equity code = .ok series) :
    series.Pairwise fun p q => p.1 ≤ q.1 := by
  obtain ⟨df, -, hrows⟩ := of_bind_ok h
  obtain rfl := Except.ok.inj hrows
  exact List.pairwise_map.mpr (df.ascending.imp le_of_lt)

/-- A benchmark is there, left out, or fails. -/
theorem benchmark_cases (call : Request) (equity : List (Instant × ℚ)) (code : String) :
    (∃ e, call.index equity code = .error e ∧ e.isValueError = false ∧
      call.benchmark equity code = .error e) ∨
    (¬ call.Unusable equity code ∧ call.benchmark equity code = .ok none) ∨
    (∃ series, call.index equity code = .ok series ∧ series ≠ [] ∧
      call.benchmark equity code = .ok (some series)) := by
  unfold Request.benchmark buildBenchmarkSeries Request.Unusable
  rw [← Request.index]
  cases hindex : call.index equity code with
  | error e =>
    by_cases hvalue : e.isValueError
    · right
      left
      exact ⟨by simp [hvalue], by simp [optionalBenchmark, bind, Except.bind, hvalue]⟩
    · left
      exact ⟨e, rfl, Bool.eq_false_iff.mpr hvalue,
        by simp [optionalBenchmark, bind, Except.bind, hvalue]⟩
  | ok series =>
    by_cases hempty : series = []
    · subst hempty
      right
      left
      exact ⟨by simp, rfl⟩
    · right
      right
      refine ⟨series, rfl, hempty, ?_⟩
      simp [optionalBenchmark, bind, Except.bind, hempty, pure, Except.pure]

/-- A series of the provider with rows is valid exactly where each of them has a close above
zero. -/
theorem validateEquity_index (h : call.index equity code = .ok series) (hne : series ≠ []) :
    (∃ e, validateEquity series = .ok e) ↔ ¬ call.Unusable equity code := by
  have hasc := pairwise_index h
  unfold Request.Unusable
  rw [validateEquity_ok_iff, h]
  constructor
  · rintro ⟨-, -, hvalues⟩ ⟨p, hp, hlow⟩
    obtain ⟨v, hv, hpos⟩ := hvalues p hp
    exact absurd hpos (not_lt.mpr (hlow v hv))
  · intro husable
    refine ⟨hne, hasc, fun p hp => ?_⟩
    by_contra hnone
    refine husable ⟨p, hp, fun v hv => ?_⟩
    by_contra hpos
    exact hnone ⟨v, hv, not_le.mp hpos⟩

/-- The equity is valid exactly where its values are above zero. -/
theorem validateEquity_equity (h : call.result = .ok equity) :
    (∃ e, validateEquity (equity.map fun p => (p.1, some p.2)) = .ok e) ↔ ¬ ∃ p ∈ equity, p.2 ≤ 0 := by
  obtain ⟨-, hasc, hne, -⟩ := EquityCall.of_result h
  rw [validateEquity_ok_iff]
  constructor
  · rintro ⟨-, -, hvalues⟩ ⟨p, hp, hle⟩
    obtain ⟨v, hv, hpos⟩ := hvalues _ (List.mem_map_of_mem hp)
    obtain rfl := Option.some.inj hv
    exact absurd hpos (not_lt.mpr hle)
  · intro hpos
    refine ⟨by simpa using hne, ?_, ?_⟩
    · rw [List.pairwise_map]
      rw [List.pairwise_map] at hasc
      exact hasc.imp le_of_lt
    · intro p hp
      obtain ⟨q, hq, rfl⟩ := List.mem_map.mp hp
      exact ⟨q.2, rfl, not_le.mp fun hle => hpos ⟨q, hq, hle⟩⟩

/-- On a valid series every metric has a value. -/
theorem calc_ok (e : EquitySeries ℚ) (math : FloatMath) :
    calcTotalReturn e.toSeries 2 = .ok (Python.round e.rawReturn 2) ∧
      calcPeriodProfit e.toSeries = .ok (e.lastValue - e.firstValue) ∧
      calcMaxDrawdown e.toSeries 2 = .ok (Python.round (mddPct e) 2) ∧
      (∃ d, calcDrawdownDuration e.toSeries = .ok d) ∧
      (∃ x, calcCagr math e.toSeries calendarDaysPerYear 2 = .ok x) ∧
      (∃ x, calcVolatility math e.toSeries tradingDaysPerYear = .ok x) ∧
      (∃ x, calcSharpeRatio math e.toSeries 0 tradingDaysPerYear = .ok x) := by
  refine ⟨?_, ?_, (maxDrawdown_spec e 2).1, (drawdownDuration_spec e).imp fun d hd => hd.1, ?_, ?_, ?_⟩
  · rw [calcTotalReturn, validateEquity_toSeries]
    rfl
  · rw [calcPeriodProfit, validateEquity_toSeries]
    rfl
  · rw [calcCagr, validateEquity_toSeries]
    by_cases hdays : e.days ≤ 0
    · exact ⟨0, if_pos hdays⟩
    · exact ⟨_, if_neg hdays⟩
  · rw [calcVolatility, validateEquity_toSeries]
    by_cases hfew : e.dailyReturns.length < 2
    · exact ⟨0, if_pos hfew⟩
    · exact ⟨_, if_neg hfew⟩
  · rw [calcSharpeRatio, validateEquity_toSeries]
    by_cases hfew : e.dailyReturns.length < 2
    · exact ⟨0, if_pos hfew⟩
    · by_cases hstd : sampleStd math e.dailyReturns = 0
      · exact ⟨0, (if_neg hfew).trans (if_pos hstd)⟩
      · exact ⟨_, (if_neg hfew).trans (if_neg hstd)⟩

theorem turnover_ok (call : Request) (e : EquitySeries ℚ) : ∃ t, call.turnover e.toSeries = .ok t := by
  unfold Request.turnover
  by_cases hfew : minRebalancesForTurnover ≤ call.rebalanceDates.length
  · rw [if_pos hfew, calcTurnover, validateEquity_toSeries]
    by_cases hnav : e.avgNav ≤ 0
    · exact ⟨_, congrArg (some <$> ·) (if_pos hnav)⟩
    · exact ⟨_, congrArg (some <$> ·) (if_neg hnav)⟩
  · exact ⟨none, if_neg hfew⟩

theorem onlyIf_ok (condition : Bool) {x : Except PyExc ℚ} (h : ∃ a, x = .ok a) :
    ∃ a, onlyIf condition x = .ok a := by
  obtain ⟨a, rfl⟩ := h
  cases condition with
  | false => exact ⟨none, rfl⟩
  | true => exact ⟨some a, rfl⟩

/-- A benchmark that can be measured, where there is one. -/
def Measurable (benchmark : Option CloseSeries) : Prop :=
  ∀ series ∈ benchmark, ∃ e, validateEquity series = .ok e

theorem benchmarkReturn_ok {benchmark : Option CloseSeries} (h : Measurable benchmark) :
    ∃ a, benchmark.mapM (calcTotalReturn · 2) = .ok a := by
  cases benchmark with
  | none => exact ⟨none, rfl⟩
  | some series =>
    obtain ⟨e, he⟩ := h series rfl
    have hreturn := (calc_ok e ⟨fun _ _ => 0, fun _ => 0⟩).1
    rw [← toSeries_of_validateEquity he] at hreturn
    exact ⟨some _, by rw [Option.mapM_some, hreturn]; rfl⟩

theorem measurable_of_benchmarkReturn {benchmark : Option CloseSeries} {a : Option ℚ}
    (h : benchmark.mapM (calcTotalReturn · 2) = .ok a) : Measurable benchmark := by
  rintro series rfl
  rw [Option.mapM_some] at h
  cases hreturn : calcTotalReturn series 2 with
  | error e =>
    rw [hreturn] at h
    cases h
  | ok x =>
    obtain ⟨e, he, -⟩ := of_bind_ok hreturn
    exact ⟨e, he⟩

theorem alpha_ok {benchmark : Option CloseSeries} (h : Measurable benchmark) (hasAnnualized : Bool)
    (call : Request) (e : EquitySeries ℚ) :
    ∃ a, call.alpha hasAnnualized e.toSeries benchmark = .ok a := by
  cases benchmark with
  | none => exact ⟨none, rfl⟩
  | some series =>
    obtain ⟨b, hb⟩ := h series rfl
    obtain ⟨x, hx⟩ := (calc_ok e call.math).2.2.2.2.1
    obtain ⟨y, hy⟩ := (calc_ok b call.math).2.2.2.2.1
    rw [← toSeries_of_validateEquity hb] at hy
    refine onlyIf_ok hasAnnualized ⟨x - y, ?_⟩
    rw [calcAlpha, hx, hy]
    rfl

theorem exists_ok_of_isOk {α : Type} {x : Except PyExc α} (h : x.isOk = true) : ∃ a, x = .ok a := by
  cases x with
  | error e => cases h
  | ok a => exact ⟨a, rfl⟩

/-- The figures are there exactly where the equity and both benchmarks can be measured. -/
theorem figures_ok_iff {benchmark benchmarkKosdaq : Option CloseSeries} :
    (∃ f, call.figures equity benchmark benchmarkKosdaq = .ok f) ↔
      (∃ e, validateEquity (equity.map fun p => (p.1, some p.2)) = .ok e) ∧
        Measurable benchmark ∧ Measurable benchmarkKosdaq := by
  constructor
  · rintro ⟨f, hf⟩
    obtain ⟨d, hduration, hf⟩ := of_bind_ok hf
    obtain ⟨returns, -, hf⟩ := of_bind_ok hf
    obtain ⟨turnover, -, hf⟩ := of_bind_ok hf
    obtain ⟨totalReturn, -, hf⟩ := of_bind_ok hf
    obtain ⟨benchmarkReturn, hbenchmark, hf⟩ := of_bind_ok hf
    obtain ⟨kosdaqReturn, hkosdaq, hf⟩ := of_bind_ok hf
    obtain ⟨e, he, -⟩ := of_bind_ok hduration
    exact ⟨⟨e, he⟩, measurable_of_benchmarkReturn hbenchmark, measurable_of_benchmarkReturn hkosdaq⟩
  · rintro ⟨⟨e, he⟩, hbenchmark, hkosdaq⟩
    have hseries := toSeries_of_validateEquity he
    obtain ⟨htotal, hprofit, hmdd, ⟨d, hduration⟩, hcagr, hvolatility, hsharpe⟩ :=
      calc_ok e call.math
    obtain ⟨turnover, hturnover⟩ := turnover_ok call e
    obtain ⟨benchmarkReturn, hbenchmarkReturn⟩ := benchmarkReturn_ok hbenchmark
    obtain ⟨kosdaqReturn, hkosdaqReturn⟩ := benchmarkReturn_ok hkosdaq
    obtain ⟨cagr, hcagr⟩ := onlyIf_ok (minDaysForAnnualized ≤ Request.periodDays equity) hcagr
    obtain ⟨alpha, halpha⟩ :=
      alpha_ok hbenchmark (minDaysForAnnualized ≤ Request.periodDays equity) call e
    obtain ⟨volatility, hvolatility⟩ := onlyIf_ok (minPointsForRisk ≤ equity.length) hvolatility
    obtain ⟨sharpe, hsharpe⟩ := onlyIf_ok (minPointsForRisk ≤ equity.length) hsharpe
    have hreturns := calcRebalancePeriodReturns_eq e (call.rebalanceDates.map timestamp)
    apply exists_ok_of_isOk
    unfold Request.figures
    simp only [hseries, hduration, hreturns, bind, Except.bind, hturnover, htotal, hbenchmarkReturn,
      hkosdaqReturn, hprofit, hcagr, halpha, hmdd, hvolatility, hsharpe, pure, Except.pure]
    rfl

/-- Rows of the provider without a bad day are a benchmark that can be measured. -/
theorem measurable_iff (h : call.index equity code = .ok series) (hne : series ≠ []) :
    Measurable (some series) ↔ ¬ call.Unusable equity code := by
  rw [← validateEquity_index h hne]
  constructor
  · intro hall
    exact hall series rfl
  · intro he series' hmem
    obtain rfl := Option.mem_some_iff.mp hmem
    exact he

/-- A usable index gives a benchmark that can be measured, or none. -/
theorem benchmark_ok_of_usable (h : ¬ call.Unusable equity code) :
    ∃ benchmark, call.benchmark equity code = .ok benchmark ∧ Measurable benchmark := by
  obtain ⟨e, hindex, hvalue, -⟩ | ⟨-, hnone⟩ | ⟨series, hindex, hne, hsome⟩ :=
    benchmark_cases call equity code
  · refine absurd ?_ h
    unfold Request.Unusable
    rw [hindex]
    exact hvalue
  · exact ⟨none, hnone, by rintro _ ⟨⟩⟩
  · exact ⟨some series, hsome, (measurable_iff hindex hne).mpr h⟩

theorem usable_of_benchmark_ok {benchmark : Option CloseSeries}
    (h : call.benchmark equity code = .ok benchmark) (hmeasurable : Measurable benchmark) :
    ¬ call.Unusable equity code := by
  obtain ⟨e, -, -, herror⟩ | ⟨husable, -⟩ | ⟨series, hindex, hne, hsome⟩ :=
    benchmark_cases call equity code
  · rw [h] at herror
    cases herror
  · exact husable
  · rw [h] at hsome
    obtain rfl := Except.ok.inj hsome
    exact (measurable_iff hindex hne).mp hmeasurable

/-- The metrics of an equity are there exactly where its values are above zero and no index fails. -/
theorem measure_ok_iff (h : call.result = .ok equity) :
    (∃ read, call.measure equity = .ok read) ↔
      (¬ ∃ p ∈ equity, p.2 ≤ 0) ∧ ¬ call.Unusable equity "KS11" ∧ ¬ call.Unusable equity "KQ11" := by
  constructor
  · rintro ⟨read, hread⟩
    obtain ⟨benchmark, hbenchmark, hread⟩ := of_bind_ok hread
    obtain ⟨benchmarkKosdaq, hkosdaq, hread⟩ := of_bind_ok hread
    obtain ⟨figures, hfigures, -⟩ := of_bind_ok hread
    obtain ⟨hvalid, hmeasurable, hmeasurableKosdaq⟩ := figures_ok_iff.mp ⟨figures, hfigures⟩
    exact ⟨(validateEquity_equity h).mp hvalid, usable_of_benchmark_ok hbenchmark hmeasurable,
      usable_of_benchmark_ok hkosdaq hmeasurableKosdaq⟩
  · rintro ⟨hpos, husable, husableKosdaq⟩
    obtain ⟨benchmark, hbenchmark, hmeasurable⟩ := benchmark_ok_of_usable husable
    obtain ⟨benchmarkKosdaq, hkosdaq, hmeasurableKosdaq⟩ := benchmark_ok_of_usable husableKosdaq
    obtain ⟨figures, hfigures⟩ := figures_ok_iff.mpr
      ⟨(validateEquity_equity h).mpr hpos, hmeasurable, hmeasurableKosdaq⟩
    refine ⟨call.answer equity benchmark figures, ?_⟩
    rw [Request.measure, hbenchmark, hkosdaq]
    show (call.figures equity benchmark benchmarkKosdaq >>= _) = _
    rw [hfigures]
    rfl

/-- Then the answer is not empty. -/
theorem exists_answer (h : call.result = .ok equity) (hlong : 2 ≤ equity.length)
    (hpos : ∀ p ∈ equity, 0 < p.2) (husable : ¬ call.Unusable equity "KS11")
    (husableKosdaq : ¬ call.Unusable equity "KQ11") :
    ∃ read, getPerformance call = .ok read ∧ read ≠ .empty := by
  obtain ⟨read, hread⟩ := (measure_ok_iff h).mpr
    ⟨fun ⟨p, hp, hle⟩ => absurd (hpos p hp) (not_lt.mpr hle), husable, husableKosdaq⟩
  refine ⟨read, ?_, ?_⟩
  · rw [getPerformance, h]
    exact (if_neg (not_lt.mpr hlong)).trans hread
  · obtain ⟨benchmark, -, hread⟩ := of_bind_ok hread
    obtain ⟨benchmarkKosdaq, -, hread⟩ := of_bind_ok hread
    obtain ⟨figures, -, hread⟩ := of_bind_ok hread
    obtain rfl := Except.ok.inj hread
    intro hempty
    have hstart := congrArg (fun read => read.period.start) hempty
    cases hstart

theorem error_iff_not_ok {α : Type} {x : Except PyExc α} :
    (∃ e, x = .error e) ↔ ¬ ∃ a, x = .ok a := by
  cases x with
  | error e => simp
  | ok a => simp

/-- A request fails exactly where the equity cannot be built for another reason than a `ValueError`,
or where an equity of two points and more has a value that is not above zero or an index fails: an
index fails all the metrics, not only those that compare with it. -/
theorem getPerformance_fails_iff (call : Request) :
    (∃ e, getPerformance call = .error e) ↔
      (∃ e, call.result = .error e ∧ e.isValueError = false) ∨
        ∃ equity, call.result = .ok equity ∧ 2 ≤ equity.length ∧
          ((∃ p ∈ equity, p.2 ≤ 0) ∨ call.Unusable equity "KS11" ∨ call.Unusable equity "KQ11") := by
  unfold getPerformance
  cases hresult : call.result with
  | error e =>
    by_cases hvalue : e.isValueError
    · simp [hvalue]
    · simp [hvalue]
  | ok equity =>
    by_cases hshort : equity.length < 2
    · have hnot : ¬ 2 ≤ equity.length := not_le.mpr hshort
      simp [hshort, hnot]
    · have hlong : 2 ≤ equity.length := not_lt.mp hshort
      have hmeasure := measure_ok_iff hresult
      simp only [if_neg hshort]
      rw [error_iff_not_ok, hmeasure]
      constructor
      · intro hnot
        right
        refine ⟨equity, rfl, hlong, ?_⟩
        by_contra hnone
        rw [not_or, not_or] at hnone
        exact hnot hnone
      · rintro (⟨e, he, -⟩ | ⟨_, hequity, -, hbad⟩) hgood
        · cases he
        · obtain rfl := Except.ok.inj hequity
          obtain hvalue | hindex | hindex := hbad
          · exact hgood.1 hvalue
          · exact hgood.2.1 hindex
          · exact hgood.2.2 hindex

end Failures

end PerformanceService

end Autotrading
