import Autotrading.DatedLoop
import Autotrading.EquityMetrics
import Mathlib.Algebra.Order.BigOperators.Group.List
import Mathlib.Tactic.FieldSimp
import Mathlib.Tactic.Ring

/-!
# Returns between rebalances

`calc_rebalance_period_returns` and `calc_win_metrics` of `app/strategy/metrics/core.py`. Dates are
compared as timestamps.
-/
namespace Autotrading

open DatedLoop (sortedSet)

namespace EquitySeries

variable {ν : Type} [LinearOrder ν] [Zero ν]

/-- `equity.asof(t)`; before the first date there is nothing. -/
def asof (equity : EquitySeries ν) (t : Instant) : Option ν :=
  (equity.points.filter fun p => p.1 ≤ t).getLast?.map Prod.snd

def firstIndex (equity : EquitySeries ν) : Instant := (equity.points.head equity.nonempty).1

def lastIndex (equity : EquitySeries ν) : Instant := (equity.points.getLast equity.nonempty).1

def lastValue (equity : EquitySeries ν) : ν := (equity.points.getLast equity.nonempty).2

/-- The value of the last point dated up to `t`. -/
def IsAsOf (equity : EquitySeries ν) (t : Instant) (v : ν) : Prop :=
  ∃ before date after, equity.points = before ++ (date, v) :: after ∧ date ≤ t ∧
    ∀ p ∈ after, t < p.1

end EquitySeries

/-- The returns from each point to the next one, and from the last one to the end. A point with a
value is followed by points with one. -/
def periodReturns (equity : EquitySeries ℚ) : List Instant → List ℚ
  | [] => []
  | startPoint :: points =>
    let endPoint := points.headD equity.lastIndex
    match equity.asof startPoint with
    | none => periodReturns equity points
    | some startValue =>
      if startValue ≤ 0 then periodReturns equity points
      else ((equity.asof endPoint).getD 0 / startValue - 1) :: periodReturns equity points

/-- `calc_rebalance_period_returns`. -/
def calcRebalancePeriodReturns (equity : Series ℚ) (rebalanceDates : List Instant) :
    Except PyExc (List ℚ) := do
  let equity ← validateEquity equity
  if rebalanceDates.isEmpty then pure []
  else
    let points := (sortedSet rebalanceDates).filter (· ≤ equity.lastIndex)
    if points.isEmpty then pure []
    else pure (periodReturns equity points)

/-! ## Telescoping -/

section Telescope
variable {equity : EquitySeries ℚ} {t : Instant} {v : ℚ} {points dates : List Instant}

theorem firstIndex_le {p : Instant × ℚ} (h : p ∈ equity.points) : equity.firstIndex ≤ p.1 := by
  obtain ⟨q, rest, hpoints⟩ := List.exists_cons_of_ne_nil equity.nonempty
  have hfirst : equity.firstIndex = q.1 := by simp [EquitySeries.firstIndex, hpoints]
  have hsorted := equity.ascending
  rw [hpoints] at h hsorted
  rw [hfirst]
  obtain rfl | hmem := List.mem_cons.mp h
  · exact le_rfl
  · exact (List.pairwise_cons.mp hsorted).1 p hmem

theorem le_lastIndex {p : Instant × ℚ} (h : p ∈ equity.points) : p.1 ≤ equity.lastIndex := by
  have hsplit := List.dropLast_append_getLast equity.nonempty
  have hsorted := equity.ascending
  rw [← hsplit, List.pairwise_append] at hsorted
  rw [← hsplit, List.mem_append, List.mem_singleton] at h
  obtain hearly | rfl := h
  · exact hsorted.2.2 p hearly _ (List.mem_singleton_self _)
  · exact le_rfl

/-- A value is the one as of a time exactly when it is dated up to it and the next one is not. -/
theorem asof_iff : equity.asof t = some v ↔ equity.IsAsOf t v := by
  unfold EquitySeries.asof
  rw [List.getLast?_filter, Option.map_eq_some_iff]
  constructor
  · rintro ⟨⟨date, v⟩, hfind, rfl⟩
    obtain ⟨hle, after, before, heq, hafter⟩ := List.find?_eq_some_iff_append.mp hfind
    have hpoints : equity.points = before.reverse ++ (date, v) :: after.reverse := by
      rw [← List.reverse_reverse equity.points, heq]
      simp
    refine ⟨before.reverse, date, after.reverse, hpoints, by simpa using hle, fun p hp => ?_⟩
    simpa using hafter p (List.mem_reverse.mp hp)
  · rintro ⟨before, date, after, hpoints, hle, hafter⟩
    refine ⟨(date, v), List.find?_eq_some_iff_append.mpr
      ⟨by simpa using hle, after.reverse, before.reverse, by simp [hpoints], fun p hp => ?_⟩, rfl⟩
    simpa using hafter p (List.mem_reverse.mp hp)

theorem asof_eq_none_iff : equity.asof t = none ↔ t < equity.firstIndex := by
  have hhead : equity.points.head equity.nonempty ∈ equity.points := List.head_mem _
  unfold EquitySeries.asof
  rw [Option.map_eq_none_iff, List.getLast?_eq_none_iff, List.filter_eq_nil_iff]
  constructor
  · intro hnone
    exact not_le.mp fun hle => hnone _ hhead (decide_eq_true hle)
  · intro hlt p hp
    have hle := firstIndex_le hp
    simpa using hlt.trans_le hle

theorem asof_lastIndex (equity : EquitySeries ℚ) :
    equity.asof equity.lastIndex = some equity.lastValue := by
  refine asof_iff.mpr ⟨equity.points.dropLast, equity.lastIndex, [], ?_, le_rfl, by simp⟩
  exact (List.dropLast_append_getLast equity.nonempty).symm

theorem asof_pos (h : equity.asof t = some v) : 0 < v := by
  obtain ⟨before, date, after, hpoints, -, -⟩ := asof_iff.mp h
  exact equity.positive (date, v) (by simp [hpoints])

/-- A point before the first date opens no period. -/
theorem periodReturns_early (h : t < equity.firstIndex) :
    periodReturns equity (t :: points) = periodReturns equity points := by
  rw [periodReturns, asof_eq_none_iff.mpr h]

/-- A point with a value opens a period. -/
theorem periodReturns_cons (h : equity.asof t = some v) :
    periodReturns equity (t :: points) =
      ((equity.asof (points.headD equity.lastIndex)).getD 0 / v - 1) ::
        periodReturns equity points := by
  rw [periodReturns, h]
  exact if_neg (not_le.mpr (asof_pos h))

/-- The periods from a point with a value on come to the end of the series. -/
theorem prod_periodReturns (hsorted : (t :: points).Pairwise (· < ·)) (h : equity.asof t = some v) :
    ((periodReturns equity (t :: points)).map (1 + ·)).prod = equity.lastValue / v := by
  induction points generalizing t v with
  | nil =>
    rw [periodReturns_cons h, List.headD_nil, asof_lastIndex, periodReturns]
    simp
  | cons next points ih =>
    rw [List.pairwise_cons] at hsorted
    have hlater : ¬ next < equity.firstIndex := by
      intro hearly
      have hnone := asof_eq_none_iff.mpr ((hsorted.1 next List.mem_cons_self).trans hearly)
      rw [h] at hnone
      cases hnone
    obtain ⟨w, hw⟩ := Option.ne_none_iff_exists'.mp fun hnone => hlater (asof_eq_none_iff.mp hnone)
    have hrest := ih hsorted.2 hw
    have hv := asof_pos h
    have hwpos := asof_pos hw
    rw [periodReturns_cons h, List.map_cons, List.prod_cons, hrest, List.headD_cons, hw,
      Option.getD_some]
    field_simp
    ring

/-- Points before the first date are passed over. -/
theorem periodReturns_of_find? {start : Instant} (hsorted : points.Pairwise (· < ·))
    (h : points.find? (equity.firstIndex ≤ ·) = some start) : ∃ v, equity.asof start = some v ∧
      ((periodReturns equity points).map (1 + ·)).prod = equity.lastValue / v := by
  induction points with
  | nil => cases h
  | cons t points ih =>
    by_cases hearly : t < equity.firstIndex
    · rw [List.find?_cons_of_neg (by simpa using hearly)] at h
      rw [periodReturns_early hearly]
      exact ih (List.pairwise_cons.mp hsorted).2 h
    · rw [List.find?_cons_of_pos (by simpa using hearly)] at h
      obtain rfl := Option.some.inj h
      obtain ⟨v, hv⟩ := Option.ne_none_iff_exists'.mp fun hnone =>
        hearly (asof_eq_none_iff.mp hnone)
      exact ⟨v, hv, prod_periodReturns hsorted hv⟩

theorem periodReturns_eq_nil (h : ∀ t ∈ points, t < equity.firstIndex) :
    periodReturns equity points = [] := by
  induction points with
  | nil => rfl
  | cons t points ih =>
    rw [periodReturns_early (h t List.mem_cons_self)]
    exact ih fun t' ht' => h t' (List.mem_cons_of_mem _ ht')

/-- In a list in order the first that is found is the least. -/
theorem find?_of_isLeast {p : Instant → Bool} (hsorted : points.Pairwise (· < ·))
    (h : IsLeast {d | d ∈ points ∧ p d = true} t) : points.find? p = some t := by
  obtain ⟨⟨hmem, hp⟩, hleast⟩ := h
  obtain ⟨before, after, heq⟩ := List.append_of_mem hmem
  rw [heq, List.pairwise_append] at hsorted
  rw [List.find?_eq_some_iff_append]
  refine ⟨hp, before, after, heq, fun d hd => ?_⟩
  have hlt : d < t := hsorted.2.2 d hd t List.mem_cons_self
  rw [Bool.not_eq_true', Bool.eq_false_iff]
  intro hpd
  have hle := hleast ⟨by rw [heq]; exact List.mem_append_left _ hd, hpd⟩
  exact absurd hlt (not_lt.mpr hle)

/-- The points are looked up whether there are any or not. -/
theorem calcRebalancePeriodReturns_eq (equity : EquitySeries ℚ) (dates : List Instant) :
    calcRebalancePeriodReturns equity.toSeries dates =
      .ok (periodReturns equity ((sortedSet dates).filter (· ≤ equity.lastIndex))) := by
  rw [calcRebalancePeriodReturns, validateEquity_toSeries]
  show (if dates.isEmpty then pure [] else _) = _
  split_ifs with hdates hpoints
  · rw [List.isEmpty_iff] at hdates
    rw [hdates]
    rfl
  · rw [List.isEmpty_iff] at hpoints
    rw [hpoints]
    rfl
  · rfl

/-- What is gained between the rebalances is what is gained from the first one in the series to its
end, in whatever order and however often the rebalances are listed. -/
theorem periodReturns_telescope (equity : EquitySeries ℚ) (dates : List Instant) :
    ∃ returns, calcRebalancePeriodReturns equity.toSeries dates = .ok returns ∧
      (∀ start, IsLeast {d | d ∈ dates ∧ equity.firstIndex ≤ d ∧ d ≤ equity.lastIndex} start →
        ∃ v, equity.IsAsOf start v ∧ (returns.map (1 + ·)).prod = equity.lastValue / v) ∧
      ((¬ ∃ d ∈ dates, equity.firstIndex ≤ d ∧ d ≤ equity.lastIndex) → returns = []) ∧
      ∀ dates' : List Instant, (∀ d, d ∈ dates' ↔ d ∈ dates) →
        calcRebalancePeriodReturns equity.toSeries dates' = .ok returns := by
  have hsorted : ((sortedSet dates).filter (· ≤ equity.lastIndex)).Pairwise (· < ·) :=
    (DatedLoop.pairwise_sortedSet dates).filter _
  have hmem : ∀ d, d ∈ (sortedSet dates).filter (· ≤ equity.lastIndex) ↔
      d ∈ dates ∧ d ≤ equity.lastIndex := by
    intro d
    simp
  refine ⟨_, calcRebalancePeriodReturns_eq equity dates, ?_, ?_, ?_⟩
  · intro start hstart
    have hleast : IsLeast {d | d ∈ (sortedSet dates).filter (· ≤ equity.lastIndex) ∧
        decide (equity.firstIndex ≤ d) = true} start := by
      constructor
      · exact ⟨(hmem start).mpr ⟨hstart.1.1, hstart.1.2.2⟩, decide_eq_true hstart.1.2.1⟩
      · intro d hd
        have hd' := (hmem d).mp hd.1
        exact hstart.2 ⟨hd'.1, of_decide_eq_true hd.2, hd'.2⟩
    obtain ⟨v, hv, hprod⟩ := periodReturns_of_find? hsorted (find?_of_isLeast hsorted hleast)
    exact ⟨v, asof_iff.mp hv, hprod⟩
  · intro hnone
    refine periodReturns_eq_nil fun d hd => ?_
    have hd' := (hmem d).mp hd
    exact not_le.mp fun hlate => hnone ⟨d, hd'.1, hlate, hd'.2⟩
  · intro dates' hsame
    have hset : sortedSet dates' = sortedSet dates :=
      DatedLoop.eq_of_mem_iff (DatedLoop.pairwise_sortedSet _) (DatedLoop.pairwise_sortedSet _)
        fun d => by simpa using hsame d
    rw [calcRebalancePeriodReturns_eq, hset]

end Telescope

/-! ## Wins and losses -/

structure WinMetrics where
  periodCount : ℕ
  winRate : ℚ
  avgWin : ℚ
  avgLoss : ℚ
  profitFactor : Option ℚ
  deriving DecidableEq

/-- `values.mean()`. -/
def seriesMean (values : List ℚ) : ℚ := values.sum / values.length

/-- `win_rate_pct`. -/
def winRatePct (values : List ℚ) : ℚ := (values.countP (0 < ·) : ℚ) / values.length * 100

/-- `calc_win_metrics`. -/
def calcWinMetrics (periodReturns : List ℚ) (decimals : ℤ) : WinMetrics :=
  if periodReturns.isEmpty then ⟨0, 0, 0, 0, none⟩
  else
    let wins := periodReturns.filter (0 < ·)
    let losses := periodReturns.filter (· < 0)
    let grossProfit := wins.sum
    let grossLoss := |losses.sum|
    let avgWinPct := if wins.isEmpty then 0 else seriesMean wins * 100
    let avgLossPct := if losses.isEmpty then 0 else seriesMean losses * 100
    { periodCount := periodReturns.length
      winRate := Python.round (winRatePct periodReturns) decimals
      avgWin := Python.round avgWinPct decimals
      avgLoss := Python.round avgLossPct decimals
      profitFactor :=
        if 0 < grossLoss ∧ 0 < grossProfit then some (grossProfit / grossLoss) else none }

/-- Without a loss there is no profit factor, otherwise it is the gain by the loss; and the win rate
counts the wins. -/
def MeetsContract (returns : List ℚ) (decimals : ℤ) : Prop :=
  ((calcWinMetrics returns decimals).profitFactor = none ↔ ¬ ∃ r ∈ returns, r < 0) ∧
    ((∃ r ∈ returns, r < 0) → (calcWinMetrics returns decimals).profitFactor =
      some ((returns.filter (0 < ·)).sum / |(returns.filter (· < 0)).sum|)) ∧
    ∃ rate, (calcWinMetrics returns decimals).winRate = Python.round rate decimals ∧
      (calcWinMetrics returns decimals).periodCount = returns.length ∧
      rate * returns.length = 100 * (returns.countP (0 < ·) : ℚ)

section Contract
variable {returns : List ℚ} {decimals : ℤ}

theorem sum_wins_pos : 0 < (returns.filter (0 < ·)).sum ↔ ∃ r ∈ returns, 0 < r := by
  constructor
  · intro hpos
    by_contra hnone
    have hempty : returns.filter (0 < ·) = [] := by
      rw [List.filter_eq_nil_iff]
      intro r hr hwin
      exact hnone ⟨r, hr, of_decide_eq_true hwin⟩
    rw [hempty] at hpos
    simp at hpos
  · rintro ⟨r, hr, hwin⟩
    have hmem : r ∈ returns.filter (0 < ·) := List.mem_filter.mpr ⟨hr, decide_eq_true hwin⟩
    refine List.sum_pos _ (fun x hx => ?_) (List.ne_nil_of_mem hmem)
    exact of_decide_eq_true (List.mem_filter.mp hx).2

theorem sum_losses_neg (h : ∃ r ∈ returns, r < 0) : (returns.filter (· < 0)).sum < 0 := by
  have hflip : (returns.map (-·)).filter (0 < ·) = (returns.filter (· < 0)).map (-·) := by
    rw [List.filter_map]
    congr 2
    funext r
    simp
  obtain ⟨r, hr, hloss⟩ := h
  have hpos : 0 < ((returns.map (-·)).filter (0 < ·)).sum :=
    sum_wins_pos.mpr ⟨-r, List.mem_map_of_mem hr, neg_pos.mpr hloss⟩
  have hsum : ((returns.filter (· < 0)).map (-·)).sum = -(returns.filter (· < 0)).sum :=
    (List.sum_neg _).symm
  rw [hflip, hsum, neg_pos] at hpos
  exact hpos

theorem abs_sum_losses_pos : 0 < |(returns.filter (· < 0)).sum| ↔ ∃ r ∈ returns, r < 0 := by
  constructor
  · intro hpos
    by_contra hnone
    have hempty : returns.filter (· < 0) = [] := by
      rw [List.filter_eq_nil_iff]
      intro r hr hloss
      exact hnone ⟨r, hr, of_decide_eq_true hloss⟩
    rw [hempty] at hpos
    simp at hpos
  · intro h
    exact abs_pos.mpr (sum_losses_neg h).ne

theorem winRate_spec (returns : List ℚ) (decimals : ℤ) :
    ∃ rate, (calcWinMetrics returns decimals).winRate = Python.round rate decimals ∧
      (calcWinMetrics returns decimals).periodCount = returns.length ∧
      rate * returns.length = 100 * (returns.countP (0 < ·) : ℚ) := by
  by_cases hempty : returns = []
  · subst hempty
    refine ⟨0, ?_, rfl, by simp⟩
    simp [calcWinMetrics, Python.round, Python.roundHalfEven]
  · have hlength : (returns.length : ℚ) ≠ 0 := by
      simpa using hempty
    have hmetrics : returns.isEmpty = false := by simpa using hempty
    refine ⟨winRatePct returns, ?_, ?_, ?_⟩
    · simp [calcWinMetrics, hmetrics]
    · simp [calcWinMetrics, hmetrics]
    · rw [winRatePct]
      field_simp

theorem profitFactor_eq (returns : List ℚ) (decimals : ℤ) :
    (calcWinMetrics returns decimals).profitFactor =
      if (∃ r ∈ returns, r < 0) ∧ ∃ r ∈ returns, 0 < r then
        some ((returns.filter (0 < ·)).sum / |(returns.filter (· < 0)).sum|)
      else none := by
  by_cases hempty : returns = []
  · subst hempty
    simp [calcWinMetrics]
  · have hmetrics : returns.isEmpty = false := by simpa using hempty
    simp only [calcWinMetrics, hmetrics, Bool.false_eq_true, if_false, abs_sum_losses_pos,
      sum_wins_pos]

/-- The contract is met exactly where there is a win or no loss. -/
theorem meetsContract_iff (returns : List ℚ) (decimals : ℤ) :
    MeetsContract returns decimals ↔ (∃ r ∈ returns, 0 < r) ∨ ∀ r ∈ returns, 0 ≤ r := by
  have hrate := winRate_spec returns decimals
  have hnoloss : (∀ r ∈ returns, 0 ≤ r) ↔ ¬ ∃ r ∈ returns, r < 0 := by
    simp
  unfold MeetsContract
  rw [profitFactor_eq, hnoloss]
  by_cases hloss : ∃ r ∈ returns, r < 0
  · by_cases hwin : ∃ r ∈ returns, 0 < r
    · rw [if_pos ⟨hloss, hwin⟩]
      exact iff_of_true ⟨by simp [hloss], fun _ => rfl, hrate⟩ (.inl hwin)
    · rw [if_neg fun h => hwin h.2]
      refine iff_of_false ?_ ?_
      · intro h
        exact h.1.mp rfl hloss
      · rintro (h | h)
        · exact hwin h
        · exact h hloss
  · rw [if_neg fun h => hloss h.1]
    exact iff_of_true ⟨by simp [hloss], fun h => absurd h hloss, hrate⟩ (.inr hloss)

/-- Two periods that both lost are shown without a profit factor, as if nothing was lost. -/
theorem allLosses_fails : ¬ MeetsContract [-1 / 10, -1 / 5] 2 := by
  rw [meetsContract_iff]
  decide +kernel

end Contract

end Autotrading
