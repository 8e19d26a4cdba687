import Autotrading.BacktestServices
import Autotrading.SelfFinancing

/-!
# The warm-up of a rebalanced backtest

`run_backtest` trades through the warm-up like through any other days and cuts its records off
afterwards.
-/
namespace Autotrading.BacktestExecutor

open DatedLoop

/-! ## The dates that open a period -/

section Periods
variable {period : Instant → ℤ} {date : Instant} {dates : List Instant}

theorem mem_getRebalanceDates_iff {seen : List ℤ} (hsorted : dates.Pairwise (· < ·)) :
    date ∈ getRebalanceDates period seen dates ↔
      date ∈ dates ∧ period date ∉ seen ∧
        ∀ earlier ∈ dates, earlier < date → period earlier ≠ period date := by
  induction dates generalizing seen with
  | nil => simp [getRebalanceDates]
  | cons d dates ih =>
    rw [List.pairwise_cons] at hsorted
    have hself : ∀ {x}, x ∈ dates → d < x ∧ x ≠ d := fun hx => ⟨hsorted.1 _ hx, (hsorted.1 _ hx).ne'⟩
    rw [getRebalanceDates]
    by_cases hseen : period d ∈ seen
    · rw [if_pos hseen, ih hsorted.2, List.mem_cons, List.forall_mem_cons]
      constructor
      · rintro ⟨hmem, hnew, hfirst⟩
        refine ⟨.inr hmem, hnew, ?_, hfirst⟩
        rintro - heq
        exact hnew (heq ▸ hseen)
      · rintro ⟨hmem, hnew, -, hfirst⟩
        refine ⟨hmem.resolve_left ?_, hnew, hfirst⟩
        rintro rfl
        exact hnew hseen
    · rw [if_neg hseen, List.mem_cons, ih hsorted.2, List.mem_cons, not_or, List.mem_cons,
        List.forall_mem_cons]
      constructor
      · rintro (rfl | ⟨hmem, hnew, hfirst⟩)
        · exact ⟨.inl rfl, hseen, fun h => absurd h (lt_irrefl _),
            fun earlier he h => absurd h (lt_asymm (hself he).1)⟩
        · exact ⟨.inr hmem, hnew.2, fun _ => Ne.symm hnew.1, hfirst⟩
      · rintro ⟨hmem, hnew, hd, hfirst⟩
        by_cases heq : date = d
        · exact .inl heq
        · have hrest := hmem.resolve_left heq
          exact .inr ⟨hrest, ⟨Ne.symm (hd (hself hrest).1), hnew⟩, hfirst⟩

/-- Some date opens the period of a date. -/
theorem exists_mem_getRebalanceDates {seen : List ℤ} (h : date ∈ dates) (hnew : period date ∉ seen) :
    ∃ first ∈ getRebalanceDates period seen dates, period first = period date := by
  induction dates generalizing seen with
  | nil => cases h
  | cons d dates ih =>
    rw [getRebalanceDates]
    by_cases hseen : period d ∈ seen
    · rw [if_pos hseen]
      refine ih ((List.mem_cons.mp h).resolve_left ?_) hnew
      rintro rfl
      exact hnew hseen
    · rw [if_neg hseen]
      by_cases hsame : period d = period date
      · exact ⟨d, List.mem_cons_self, hsame⟩
      · have hrest : date ∈ dates := by
          refine (List.mem_cons.mp h).resolve_left ?_
          rintro rfl
          exact hsame rfl
        have hnew' : period date ∉ period d :: seen := by
          rw [List.mem_cons, not_or]
          exact ⟨Ne.symm hsame, hnew⟩
        obtain ⟨first, hfirst, heq⟩ := ih hrest hnew'
        exact ⟨first, List.mem_cons_of_mem _ hfirst, heq⟩

/-- Late dates open the same periods as alone if no early date is in one of them. -/
theorem getRebalanceDates_late_iff {early late : List Instant}
    (hsorted : (early ++ late).Pairwise (· < ·)) :
    (∀ date ∈ late, date ∈ getRebalanceDates period [] (early ++ late) ↔
        date ∈ getRebalanceDates period [] late) ↔
      ∀ date ∈ late, period date ∉ early.map period := by
  have hlate := (List.pairwise_append.mp hsorted).2.1
  have hbefore := (List.pairwise_append.mp hsorted).2.2
  have hopens : ∀ date ∈ late, date ∈ getRebalanceDates period [] (early ++ late) ↔
      period date ∉ early.map period ∧ date ∈ getRebalanceDates period [] late := by
    intro date hdate
    rw [mem_getRebalanceDates_iff hsorted, mem_getRebalanceDates_iff hlate, List.mem_map]
    constructor
    · rintro ⟨-, -, hfirst⟩
      refine ⟨?_, hdate, List.not_mem_nil, fun earlier he => hfirst earlier ?_⟩
      · rintro ⟨earlier, he, heq⟩
        exact hfirst earlier (List.mem_append_left _ he) (hbefore earlier he date hdate) heq
      · exact List.mem_append_right _ he
    · rintro ⟨hnone, -, -, hfirst⟩
      refine ⟨List.mem_append_right _ hdate, List.not_mem_nil, fun earlier he hlt heq => ?_⟩
      rcases List.mem_append.mp he with hearly | hmem
      · exact hnone ⟨earlier, hearly, heq⟩
      · exact hfirst earlier hmem hlt heq
  constructor
  · intro hsame date hdate
    have hnew : period date ∉ ([] : List ℤ) := List.not_mem_nil
    obtain ⟨first, hfirst, hperiod⟩ := exists_mem_getRebalanceDates hdate hnew
    have hmem := mem_of_mem_getRebalanceDates hfirst
    rw [← hperiod]
    exact ((hopens first hmem).mp ((hsame first hmem).mpr hfirst)).1
  · intro hnone date hdate
    rw [hopens date hdate]
    exact and_iff_right (hnone date hdate)

end Periods

/-! ## Runs from two portfolios -/

section Loop
variable {ν : Type} [Column ν] {data : PriceData ν} {date : Instant} {s s' : Portfolio ν}
  {generateSignal : PriceData ν → Except PyExc (List (String × StrategySignal))}
  {rebalanceDates dates : List Instant}

/-- A portfolio with records before its own. -/
def Portfolio.behind (before : List (DailyRecord ν)) (s : Portfolio ν) : Portfolio ν :=
  { s with records := before ++ s.records }

theorem rebalancePositions_behind (before : List (DailyRecord ν)) (s : Portfolio ν) :
    rebalancePositions generateSignal data (s.behind before) date =
      (rebalancePositions generateSignal data s date).map (·.behind before) := by
  unfold rebalancePositions Portfolio.behind
  cases generateSignal (data.sliced date) with
  | error e => rfl
  | ok signals =>
    show ite _ _ _ = Except.map _ (ite _ _ _)
    split
    · rfl
    · dsimp only
      generalize (List.foldlM _ _ _ : Except PyExc (Dict String ν)) = bought
      cases bought with
      | error e => rfl
      | ok positions => rfl

theorem rebalanceDay_behind (before : List (DailyRecord ν)) (s : Portfolio ν) :
    rebalanceDay generateSignal rebalanceDates data (s.behind before) date =
      (rebalanceDay generateSignal rebalanceDates data s date).map (·.behind before) := by
  unfold rebalanceDay
  dsimp only
  split
  · rw [rebalancePositions_behind]
    cases rebalancePositions generateSignal data s date with
    | error e => rfl
    | ok traded => exact congrArg Except.ok (by simp [Portfolio.behind])
  · exact congrArg Except.ok (by simp [Portfolio.behind])

/-- The records before a run change nothing in it. -/
theorem foldlM_behind (before : List (DailyRecord ν)) (s : Portfolio ν) :
    dates.foldlM (rebalanceDay generateSignal rebalanceDates data) (s.behind before) =
      (dates.foldlM (rebalanceDay generateSignal rebalanceDates data) s).map (·.behind before) := by
  induction dates generalizing s with
  | nil => rfl
  | cons date dates ih =>
    rw [List.foldlM_cons, List.foldlM_cons, rebalanceDay_behind]
    cases rebalanceDay generateSignal rebalanceDates data s date with
    | error e => rfl
    | ok s₁ => exact ih s₁

theorem record_of_rebalanceDay
    (h : rebalanceDay generateSignal rebalanceDates data s date = .ok s') :
    ∃ r, s'.records = s.records ++ [r] ∧ r.date = date ∧
      r.rebalance = decide (date ∈ rebalanceDates) := by
  unfold rebalanceDay at h
  obtain ⟨traded, htraded, h⟩ := of_bind_ok h
  have hrecords : traded.records = s.records := by
    split at htraded
    · exact rebalancePositions_records htraded
    · rw [← Except.ok.inj htraded]
  rw [← Except.ok.inj h]
  exact ⟨_, congrArg (· ++ _) hrecords, rfl, rfl⟩

/-- A run adds one record for each date, which says whether it is a date of a rebalance. -/
theorem records_of_run
    (h : dates.foldlM (rebalanceDay generateSignal rebalanceDates data) s = .ok s') :
    ∃ new, s'.records = s.records ++ new ∧
      new.map (fun r => (r.date, r.rebalance)) =
        dates.map fun date => (date, decide (date ∈ rebalanceDates)) := by
  induction dates generalizing s with
  | nil =>
    rw [← Except.ok.inj h]
    exact ⟨[], (List.append_nil _).symm, rfl⟩
  | cons date dates ih =>
    obtain ⟨s₁, hday, hrest⟩ := foldlM_cons_ok h
    obtain ⟨r, hr, hdate, hflag⟩ := record_of_rebalanceDay hday
    obtain ⟨new, hnew, hdates⟩ := ih hrest
    refine ⟨r :: new, ?_, ?_⟩
    · rw [hnew, hr, List.append_assoc, List.singleton_append]
    · rw [List.map_cons, List.map_cons, hdates, hdate, hflag]

theorem dates_of_run
    (h : dates.foldlM (rebalanceDay generateSignal rebalanceDates data) s = .ok s') :
    ∃ new, s'.records = s.records ++ new ∧ ∀ r ∈ new, r.date ∈ dates := by
  obtain ⟨new, hnew, hpairs⟩ := records_of_run h
  refine ⟨new, hnew, fun r hr => ?_⟩
  have hpair := List.mem_map_of_mem (f := fun r : DailyRecord ν => (r.date, r.rebalance)) hr
  rw [hpairs] at hpair
  obtain ⟨date, hdate, heq⟩ := List.mem_map.mp hpair
  rw [← (Prod.mk.inj heq).1]
  exact hdate

/-- A run goes on from a portfolio as from one that has no records yet. -/
theorem resumed_of_run
    (h : dates.foldlM (rebalanceDay generateSignal rebalanceDates data) s = .ok s') :
    ∃ e, dates.foldlM (rebalanceDay generateSignal rebalanceDates data) ⟨s.cash, s.positions, []⟩ =
        .ok e ∧
      s'.records = s.records ++ e.records := by
  have hbehind : s = Portfolio.behind s.records ⟨s.cash, s.positions, []⟩ := by
    simp [Portfolio.behind]
  rw [hbehind, foldlM_behind] at h
  cases hrun : dates.foldlM (rebalanceDay generateSignal rebalanceDates data)
      ⟨s.cash, s.positions, []⟩ with
  | error e =>
    rw [hrun] at h
    cases h
  | ok e =>
    rw [hrun] at h
    refine ⟨e, rfl, ?_⟩
    rw [← Except.ok.inj h]
    rfl

end Loop

section Exact
variable [SortOrder] {data : PriceData ℚ} {date : Instant} {s₁ s₂ e₁ : Portfolio ℚ}
  {generateSignal : PriceData ℚ → Except PyExc (List (String × StrategySignal))}
  {rebalanceDates rebalanceDates' : List Instant}

/-- A rebalance asks of a portfolio what it is worth. -/
theorem rebalanceDay_of_wealth (hdate : date ∈ rebalanceDates) (hrecords : s₁.records = s₂.records)
    (hwealth : wealth data date s₁ = wealth data date s₂) :
    rebalanceDay generateSignal rebalanceDates data s₁ date =
      rebalanceDay generateSignal rebalanceDates data s₂ date := by
  have hpositions : rebalancePositions generateSignal data s₁ date =
      rebalancePositions generateSignal data s₂ date := by
    unfold wealth at hwealth
    unfold rebalancePositions
    rw [cash_of_sold, cash_of_sold, hwealth, hrecords]
  unfold rebalanceDay
  dsimp only
  rw [if_pos (decide_eq_true hdate), if_pos (decide_eq_true hdate), hpositions]

/-- Two runs over the same dates, the second with a rebalance on the first of them, give the same
records if they rebalance on the same dates and start from the same wealth. -/
theorem same_records_iff {first : Instant} {rest : List Instant} (h₁ : s₁.records = [])
    (h₂ : s₂.records = []) (hfirst : first ∈ rebalanceDates')
    (hcloses : ∀ code price, data.close? code first = some price → price ≠ 0)
    (hrun : (first :: rest).foldlM (rebalanceDay generateSignal rebalanceDates data) s₁ = .ok e₁) :
    (∃ e₂, (first :: rest).foldlM (rebalanceDay generateSignal rebalanceDates' data) s₂ = .ok e₂ ∧
        e₂.records = e₁.records) ↔
      (∀ date ∈ first :: rest, date ∈ rebalanceDates ↔ date ∈ rebalanceDates') ∧
        wealth data first s₁ = wealth data first s₂ := by
  constructor
  · rintro ⟨e₂, hrun₂, hsame⟩
    obtain ⟨new₁, hnew₁, hdates₁⟩ := records_of_run hrun
    obtain ⟨new₂, hnew₂, hdates₂⟩ := records_of_run hrun₂
    rw [h₁, List.nil_append] at hnew₁
    rw [h₂, List.nil_append] at hnew₂
    rw [hnew₁, hnew₂] at hsame
    rw [hsame, hdates₁] at hdates₂
    have hflags : ∀ date ∈ first :: rest, date ∈ rebalanceDates ↔ date ∈ rebalanceDates' := by
      intro date hdate
      have heq := List.map_inj_left.mp hdates₂ date hdate
      exact decide_eq_decide.mp (Prod.mk.inj heq).2
    refine ⟨hflags, ?_⟩
    obtain ⟨m₁, hday₁, hrest₁⟩ := foldlM_cons_ok hrun
    obtain ⟨m₂, hday₂, hrest₂⟩ := foldlM_cons_ok hrun₂
    obtain ⟨r₁, hr₁, -, -, hcases₁⟩ := recorded_wealth hcloses hday₁
    obtain ⟨r₂, hr₂, -, -, hcases₂⟩ := recorded_wealth hcloses hday₂
    have hhead : r₁ = r₂ := by
      obtain ⟨later₁, hlater₁, -⟩ := records_of_run hrest₁
      obtain ⟨later₂, hlater₂, -⟩ := records_of_run hrest₂
      rw [hr₁, h₁, hnew₁] at hlater₁
      rw [hr₂, h₂, hnew₂, hsame, hlater₁] at hlater₂
      exact (List.cons.inj hlater₂).1
    have hin₁ := (hflags first List.mem_cons_self).mpr hfirst
    obtain ⟨-, signals₁, hsignals₁, hequity₁, -⟩ := hcases₁.resolve_left fun h => h.1 hin₁
    obtain ⟨-, signals₂, hsignals₂, hequity₂, -⟩ := hcases₂.resolve_left fun h => h.1 hfirst
    rw [hsignals₁] at hsignals₂
    obtain rfl := Except.ok.inj hsignals₂
    rw [hhead, hequity₂] at hequity₁
    exact (mul_left_cancel₀ (shareHeld_ne_zero _) hequity₁).symm
  · rintro ⟨hflags, hwealth⟩
    refine ⟨e₁, ?_, rfl⟩
    have hday := fun date (hdate : date ∈ first :: rest) (s : Portfolio ℚ) =>
      show rebalanceDay generateSignal rebalanceDates' data s date =
        rebalanceDay generateSignal rebalanceDates data s date by
      have hflag : decide (date ∈ rebalanceDates') = decide (date ∈ rebalanceDates) :=
        decide_eq_decide.mpr (hflags date hdate).symm
      unfold rebalanceDay
      rw [hflag]
    have hin := (hflags first List.mem_cons_self).mpr hfirst
    rw [foldlM_congr hday, ← hrun, List.foldlM_cons, List.foldlM_cons,
      rebalanceDay_of_wealth hin (h₁.trans h₂.symm) hwealth]

end Exact

/-! ## The backtest with a warm-up -/

section Start
variable {ν : Type} [Column ν] (initialCash : ν) (period : Instant → ℤ)
  (generateSignal : PriceData ν → Except PyExc (List (String × StrategySignal)))
  (data : PriceData ν) (start : Instant)

/-- The common dates before the start. -/
def warmupDates : List Instant := (commonDates data).filter (· < start)

/-- The common dates from the start on. -/
def datesFrom : List Instant := (commonDates data).filter (start ≤ ·)

/-- The simulation whose dates are those from the start on. The rows before it are history. -/
def simulationFrom : Except PyExc (List (DailyRecord ν)) :=
  ((datesFrom data start).foldlM
    (rebalanceDay generateSignal (getRebalanceDates period [] (datesFrom data start)) data)
    ⟨initialCash, .empty, []⟩).map (·.records)

omit [Column ν] in
theorem commonDates_split : commonDates data = warmupDates data start ++ datesFrom data start := by
  have hsplit := filter_append_filter_not (p := fun date => decide (date < start)) ?_
    ((pairwise_commonDates data).imp le_of_lt)
  · refine hsplit.trans (congrArg (warmupDates data start ++ ·) (List.filter_congr fun date _ => ?_))
    rw [← decide_not, decide_eq_decide, not_lt]
  · intro i j hle hj
    rw [decide_eq_true_iff] at hj ⊢
    exact hle.trans_lt hj

end Start

section Exact
variable [SortOrder] {data : PriceData ℚ} {start : Instant} {initialCash : ℚ} {period : Instant → ℤ}
  {generateSignal : PriceData ℚ → Except PyExc (List (String × StrategySignal))}

/-- The warm-up opens no period of a later date, and what it leaves is worth the initial cash on the
first of them. -/
def LeavesNoTrace (initialCash : ℚ) (period : Instant → ℤ)
    (generateSignal : PriceData ℚ → Except PyExc (List (String × StrategySignal)))
    (data : PriceData ℚ) (start : Instant) : Prop :=
  ∀ first ∈ (datesFrom data start).head?,
    (∀ date ∈ datesFrom data start, period date ∉ (warmupDates data start).map period) ∧
      ∀ s, (warmupDates data start).foldlM
          (rebalanceDay generateSignal (getRebalanceDates period [] (commonDates data)) data)
          ⟨initialCash, .empty, []⟩ = .ok s → wealth data first s = initialCash

/-- The records from the start on are those of the late dates. -/
theorem filter_late_records {rebalanceDates : List Instant} {s e : Portfolio ℚ}
    (hwarmup : (warmupDates data start).foldlM
      (rebalanceDay generateSignal rebalanceDates data) ⟨initialCash, .empty, []⟩ = .ok s)
    (hresumed : (datesFrom data start).foldlM
      (rebalanceDay generateSignal rebalanceDates data) ⟨s.cash, s.positions, []⟩ = .ok e) :
    (s.records ++ e.records).filter (fun r => start ≤ r.date) = e.records := by
  obtain ⟨early, hearly, hbefore⟩ := dates_of_run hwarmup
  obtain ⟨late, hlate, hfrom⟩ := dates_of_run hresumed
  have hnone : early.filter (fun r => start ≤ r.date) = [] := by
    rw [List.filter_eq_nil_iff]
    intro r hr
    have hlt := (List.mem_filter.mp (hbefore r hr)).2
    rw [decide_eq_true_iff] at hlt ⊢
    exact not_le.mpr hlt
  have hall : late.filter (fun r => start ≤ r.date) = late := by
    rw [List.filter_eq_self]
    intro r hr
    exact (List.mem_filter.mp (hfrom r hr)).2
  rw [List.nil_append] at hearly hlate
  rw [List.filter_append, hearly, hlate, hnone, hall, List.nil_append]

/-- Where a run comes to its end, the records from the start on are those of the simulation from the
start on if the warm-up leaves no trace. -/
theorem records_from_iff
    (hcloses : ∀ date ∈ commonDates data, ∀ code price, data.close? code date = some price → price ≠ 0)
    {final : Portfolio ℚ}
    (hrun : (commonDates data).foldlM
      (rebalanceDay generateSignal (getRebalanceDates period [] (commonDates data)) data)
      ⟨initialCash, .empty, []⟩ = .ok final) :
    simulationFrom initialCash period generateSignal data start =
        .ok (final.records.filter fun r => start ≤ r.date) ↔
      LeavesNoTrace initialCash period generateSignal data start := by
  have hsplit := commonDates_split data start
  have hsorted := pairwise_commonDates data
  have hrun' := hrun
  rw [hsplit] at hrun' hsorted
  obtain ⟨s, hwarmup, hlate⟩ := foldlM_append_ok hrun'
  rw [← hsplit] at hwarmup hlate
  obtain ⟨e, hresumed, hfinal⟩ := resumed_of_run hlate
  have hcut : final.records.filter (fun r => start ≤ r.date) = e.records := by
    rw [hfinal]
    exact filter_late_records hwarmup hresumed
  have hopened : ∀ s', (warmupDates data start).foldlM
      (rebalanceDay generateSignal (getRebalanceDates period [] (commonDates data)) data)
      ⟨initialCash, .empty, []⟩ = .ok s' → s' = s := by
    intro s' hs'
    rw [hwarmup] at hs'
    exact (Except.ok.inj hs').symm
  rw [hcut]
  unfold simulationFrom LeavesNoTrace
  cases hdates : datesFrom data start with
  | nil =>
    rw [hdates] at hresumed
    rw [← Except.ok.inj hresumed]
    exact iff_of_true rfl (by simp)
  | cons first rest =>
    rw [hdates] at hresumed hsplit hsorted
    have hfirst : first ∈ getRebalanceDates period [] (first :: rest) := by
      simp [getRebalanceDates]
    have hcommon : first ∈ commonDates data := by simp [hsplit]
    have hopening : wealth data first ⟨initialCash, .empty, []⟩ = initialCash := add_zero _
    have hsame := same_records_iff rfl (show (⟨initialCash, .empty, []⟩ : Portfolio ℚ).records = []
      from rfl) hfirst (hcloses first hcommon) hresumed
    rw [hsplit, getRebalanceDates_late_iff hsorted, hopening] at hsame
    constructor
    · intro hmap
      have hrecords : ∃ e₂, (first :: rest).foldlM
          (rebalanceDay generateSignal (getRebalanceDates period [] (first :: rest)) data)
          ⟨initialCash, .empty, []⟩ = .ok e₂ ∧ e₂.records = e.records := by
        cases hsim : (first :: rest).foldlM
            (rebalanceDay generateSignal (getRebalanceDates period [] (first :: rest)) data)
            ⟨initialCash, .empty, []⟩ with
        | error e =>
          rw [hsim] at hmap
          cases hmap
        | ok e₂ =>
          rw [hsim] at hmap
          exact ⟨e₂, rfl, Except.ok.inj hmap⟩
      obtain ⟨hperiods, hwealth⟩ := hsame.mp hrecords
      intro first' hfirst'
      obtain rfl : first = first' := Option.some.inj hfirst'
      refine ⟨hperiods, fun s' hs' => ?_⟩
      rw [hopened s' hs']
      exact hwealth
    · intro htrace
      obtain ⟨hperiods, hwealth⟩ := htrace first rfl
      obtain ⟨e₂, hsim, hrecords⟩ := hsame.mpr ⟨hperiods, hwealth s hwarmup⟩
      rw [hsim, ← hrecords]
      rfl

/-- What a rebalanced backtest with a warm-up that returns has run and returned. -/
theorem run_of_runBacktest {μ : Type} {svc : BacktestServices ℚ μ} {rvMaxPositions rvCooldownDays : ℤ}
    {benchmarkCode : String} {stop : Instant} {stockCodes : List String} {warmupDays : ℤ}
    {output : BacktestOutput ℚ μ} (hwarmup : 0 < warmupDays)
    (hdata : svc.loadOhlcvData stockCodes start stop warmupDays = .ok data)
    (h : svc.runBacktest rvMaxPositions rvCooldownDays (.rebalance generateSignal) benchmarkCode start
      stop initialCash stockCodes period warmupDays = .ok output) :
    ∃ final : Portfolio ℚ, (commonDates data).foldlM
        (rebalanceDay generateSignal (getRebalanceDates period [] (commonDates data)) data)
        ⟨initialCash, .empty, []⟩ = .ok final ∧
      output.result = final.records.filter (fun r => start ≤ r.date) ∧
      ∃ b, BacktestServices.benchmarkReturn output.benchmarkDf = .ok b ∧
        svc.calculateMetrics output.result b none = .ok output.metrics := by
  unfold BacktestServices.runBacktest at h
  obtain ⟨⟨loaded, benchmarkDf⟩, hloaded, h⟩ := of_bind_ok h
  obtain ⟨run, hrun, h⟩ := of_bind_ok h
  obtain ⟨result, hresult, h⟩ := of_bind_ok h
  obtain ⟨b, hb, h⟩ := of_bind_ok h
  obtain ⟨metrics, hmetrics, h⟩ := of_bind_ok h
  rw [← Except.ok.inj h]
  have hprices : loaded.prices = data := by
    unfold BacktestServices.loadData at hloaded
    dsimp only at hloaded
    split at hloaded
    · cases hloaded
    · rw [hdata] at hloaded
      obtain ⟨_, heq, hloaded⟩ := of_bind_ok hloaded
      obtain ⟨_, _, hloaded⟩ := of_bind_ok hloaded
      rw [← (Prod.mk.inj (Except.ok.inj hloaded)).1, ← Except.ok.inj heq]
  obtain ⟨final, hfinal, hrecords⟩ := loop_of_runRebalance hrun
  rw [hprices] at hfinal
  rw [if_pos hwarmup, hrecords] at hresult
  have hcut : result = final.records.filter fun r => start ≤ r.date := by
    unfold BacktestServices.cutWarmup at hresult
    split at hresult
    · cases hresult
    · exact (Except.ok.inj hresult).symm
  exact ⟨final, hfinal, hcut, b, hb, hmetrics⟩

/-- A backtest with a warm-up returns the simulation from the start on, and its metrics, if the
warm-up leaves no trace. -/
theorem warmup_supplies_history_iff {μ : Type} (svc : BacktestServices ℚ μ)
    {rvMaxPositions rvCooldownDays : ℤ} {benchmarkCode : String} {stop : Instant}
    {stockCodes : List String} {warmupDays : ℤ} {output : BacktestOutput ℚ μ}
    (hwarmup : 0 < warmupDays)
    (hdata : svc.loadOhlcvData stockCodes start stop warmupDays = .ok data)
    (hcloses : ∀ date ∈ commonDates data, ∀ code price, data.close? code date = some price → price ≠ 0)
    (hrun : svc.runBacktest rvMaxPositions rvCooldownDays (.rebalance generateSignal) benchmarkCode
      start stop initialCash stockCodes period warmupDays = .ok output) :
    (∃ records b, simulationFrom initialCash period generateSignal data start = .ok records ∧
        output.result = records ∧ BacktestServices.benchmarkReturn output.benchmarkDf = .ok b ∧
        svc.calculateMetrics records b none = .ok output.metrics) ↔
      LeavesNoTrace initialCash period generateSignal data start := by
  obtain ⟨final, hfinal, hresult, b, hb, hmetrics⟩ := run_of_runBacktest hwarmup hdata hrun
  rw [← records_from_iff hcloses hfinal, ← hresult]
  constructor
  · rintro ⟨records, _, hsim, heq, -, -⟩
    rw [heq]
    exact hsim
  · intro hsim
    exact ⟨output.result, b, hsim, rfl, hb, hmetrics⟩

end Exact

/-! ## Two stocks with two days of warm-up -/

open scoped SortOrder

/-- The market of the two stocks. The metrics are the result itself. -/
def twoStocksServices : BacktestServices ℚ (List (DailyRecord ℚ)) where
  getOhlcv code dataStart _ :=
    match twoStocks.get? code with
    | some df => .ok ⟨df.rows.filter (dataStart ≤ ·.date), df.ascending.filter _⟩
    | none => .error (.other "KeyError" code)
  buildUniverse _ _ := .error (.other "AttributeError" "build_universe")
  minusBusinessDays start n := start - n * 86400000000
  calculateMetrics records _ _ := .ok records

/-- Everything is bought once there are three days of history. -/
def buyLate (data : PriceData ℚ) : Except PyExc (List (String × StrategySignal)) :=
  .ok (data.entries.map fun e => (e.1, if e.2.rows.length < 3 then .hold else .buy))

/-- Nothing is bought in the warm-up. -/
theorem warmup_supplies_history_iff_sample : ∃ output,
    twoStocksServices.runBacktest 1 3 (.rebalance buyLate) "005930" (2 * 86400000000)
      (2 * 86400000000) 1000 ["005930", "000660"] everyOtherDay.rebalanceInterval 2 = .ok output ∧
    simulationFrom 1000 everyOtherDay.rebalanceInterval buyLate twoStocks (2 * 86400000000) =
      .ok output.result ∧
    output.result.map (·.equity) = [1000] := by
  have hrun : (twoStocksServices.runBacktest 1 3 (.rebalance buyLate) "005930" (2 * 86400000000)
      (2 * 86400000000) 1000 ["005930", "000660"] everyOtherDay.rebalanceInterval 2).toOption.any
        (fun output => output.result.map (·.equity) = [1000]) = true := by
    decide +kernel
  obtain ⟨output, houtput, hequity⟩ := (Option.any_eq_true _ _).mp hrun
  have hdata : twoStocksServices.loadOhlcvData ["005930", "000660"] (2 * 86400000000)
      (2 * 86400000000) 2 = .ok twoStocks := rfl
  have hcloses : twoStocks.PositiveCloses := by decide +kernel
  have hwarmup : ((warmupDates twoStocks (2 * 86400000000)).foldlM
      (rebalanceDay buyLate (getRebalanceDates everyOtherDay.rebalanceInterval []
        (commonDates twoStocks)) twoStocks) ⟨1000, .empty, []⟩).toOption.any
          (fun s => wealth twoStocks (2 * 86400000000) s = 1000) = true := by
    decide +kernel
  obtain ⟨s, hs, hwealth⟩ := (Option.any_eq_true _ _).mp hwarmup
  have htrace : LeavesNoTrace 1000 everyOtherDay.rebalanceInterval buyLate twoStocks
      (2 * 86400000000) := by
    have hdates : datesFrom twoStocks (2 * 86400000000) = [2 * 86400000000] := by decide +kernel
    intro first hfirst
    rw [hdates] at hfirst ⊢
    obtain rfl : 2 * 86400000000 = first := Option.some.inj hfirst
    refine ⟨by decide +kernel, fun s' hs' => ?_⟩
    rw [ok_of_toOption hs] at hs'
    rw [← Except.ok.inj hs']
    exact of_decide_eq_true hwealth
  obtain ⟨records, _, hsim, hresult, -, -⟩ := (warmup_supplies_history_iff twoStocksServices
    (by decide) hdata (fun _ _ _ _ hprice => (hcloses.close?_pos hprice).ne')
    (ok_of_toOption houtput)).mpr htrace
  exact ⟨output, ok_of_toOption houtput, hresult ▸ hsim, of_decide_eq_true hequity⟩

/-- What is bought on the first day of the warm-up is worth 1050 at the start. -/
theorem warmup_trades_remain : ∃ output records,
    twoStocksServices.runBacktest 1 3 (.rebalance buyAll) "005930" (2 * 86400000000)
      (2 * 86400000000) 1000 ["005930", "000660"] everyOtherDay.rebalanceInterval 2 = .ok output ∧
    simulationFrom 1000 everyOtherDay.rebalanceInterval buyAll twoStocks (2 * 86400000000) =
      .ok records ∧
    output.result.map (·.equity) = [1050] ∧ records.map (·.equity) = [1000] := by
  have hrun : (twoStocksServices.runBacktest 1 3 (.rebalance buyAll) "005930" (2 * 86400000000)
      (2 * 86400000000) 1000 ["005930", "000660"] everyOtherDay.rebalanceInterval 2).toOption.any
        (fun output => output.result.map (·.equity) = [1050]) = true := by
    decide +kernel
  have hsim : (simulationFrom 1000 everyOtherDay.rebalanceInterval buyAll twoStocks
      (2 * 86400000000)).toOption.any (fun records => records.map (·.equity) = [1000]) = true := by
    decide +kernel
  obtain ⟨output, houtput, hequity⟩ := (Option.any_eq_true _ _).mp hrun
  obtain ⟨records, hrecords, hfresh⟩ := (Option.any_eq_true _ _).mp hsim
  exact ⟨output, records, ok_of_toOption houtput, ok_of_toOption hrecords,
    of_decide_eq_true hequity, of_decide_eq_true hfresh⟩

end Autotrading.BacktestExecutor
