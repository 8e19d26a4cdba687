import Autotrading.EquityMetrics

/-!
# How long an equity series is under water

`calc_drawdown_duration` of `app/strategy/metrics/core.py`, and what it measures: the runs of days
below the running maximum, from the peak before a run to the recovery.
-/
namespace Autotrading

open RunningMax (cummax IsRun runEnd)

structure DrawdownDuration where
  maxDays : ℤ
  currentDays : ℤ
  isRecovered : Bool
  deriving DecidableEq

/-- The outer loop of `calc_drawdown_duration`. -/
def durationLoop (underwater : List Bool) (index : List Instant) (pos : ℕ)
    (found : DrawdownDuration) :
    DrawdownDuration :=
  match _hpos : underwater[pos]? with
  | none => found
  | some false => durationLoop underwater index (pos + 1) found
  | some true =>
    let stop := runEnd underwater pos
    let peakDate := index.getD (pos - 1) 0
    if stop < underwater.length then
      let days := daysBetween peakDate (index.getD stop 0)
      durationLoop underwater index stop { found with maxDays := max found.maxDays days }
    else
      let days := daysBetween peakDate (index.getLastD 0)
      durationLoop underwater index stop ⟨max found.maxDays days, days, false⟩
termination_by underwater.length - pos
decreasing_by
  · have hlt := (List.getElem?_eq_some_iff.mp _hpos).1
    omega
  · have hlt := RunningMax.lt_runEnd _hpos
    have hpos := (List.getElem?_eq_some_iff.mp _hpos).1
    omega
  · have hlt := RunningMax.lt_runEnd _hpos
    have hpos := (List.getElem?_eq_some_iff.mp _hpos).1
    omega

section Flags
variable {ν : Type} [LinearOrder ν] [Zero ν]

def underwater (equity : EquitySeries ν) : List Bool :=
  List.zipWith (fun e m => decide (e < m)) equity.values (cummax equity.values)

/-- `calc_drawdown_duration`. -/
def calcDrawdownDuration (equity : Series ν) : Except PyExc DrawdownDuration := do
  let equity ← validateEquity equity
  if equity.points.length < 2 then pure ⟨0, 0, true⟩
  else pure (durationLoop (underwater equity) equity.index 0 ⟨0, 0, true⟩)

end Flags

/-! ## The reference -/

section Reference
variable {ν : Type} [LinearOrder ν] [Zero ν] (equity : EquitySeries ν)

/-- On day `i` the series is below its maximum so far. -/
def Below (i : ℕ) : Prop :=
  ∃ v, equity.values[i]? = some v ∧ ∃ j ≤ i, ∃ m, equity.values[j]? = some m ∧ v < m

/-- The days from `first` up to `stop`, without `stop`, are below the maximum, and neither the day
before nor the day behind is. -/
structure DrawdownRun (first stop : ℕ) : Prop where
  lt : first < stop
  below : ∀ i, first ≤ i → i < stop → Below equity i
  before : ∀ i, i + 1 = first → ¬ Below equity i
  after : ¬ Below equity stop

/-- The calendar days from the last day before a run that is not below the maximum to the first one
behind the run, or to the last day of the series where there is none. -/
def RunDays (first stop : ℕ) (days : ℤ) : Prop :=
  ∃ peak finish peakDate finishDate,
    IsGreatest {i | i < first ∧ ¬ Below equity i} peak ∧
    (IsLeast {i | stop ≤ i ∧ i < equity.points.length ∧ ¬ Below equity i} finish ∨
      (∀ i, stop ≤ i → i < equity.points.length → Below equity i) ∧
        finish + 1 = equity.points.length) ∧
    equity.index[peak]? = some peakDate ∧ equity.index[finish]? = some finishDate ∧
    days = daysBetween peakDate finishDate

/-- Between midnights the calendar days are counted. -/
theorem daysBetween_midnight (a b : ℤ) :
    daysBetween (a * 86400000000) (b * 86400000000) = b - a := by
  rw [daysBetween, ← sub_mul]
  exact Int.mul_ediv_cancel (b - a) (by decide)

end Reference

/-! ## What the loop finds -/

/-- The days that the loop counts for a run. -/
def segmentDays (index : List Instant) (first stop : ℕ) : ℤ :=
  daysBetween (index.getD (first - 1) 0)
    (if stop < index.length then index.getD stop 0 else index.getLastD 0)

/-- The longest run from `pos` on, or what was found before where that is longer. -/
structure Longest (flags : List Bool) (index : List Instant) (pos : ℕ) (found result : ℤ) :
    Prop where
  le : found ≤ result
  attained : result = found ∨ ∃ first stop, pos ≤ first ∧ IsRun flags first stop ∧
    result = segmentDays index first stop
  bound : ∀ first stop, pos ≤ first → IsRun flags first stop → segmentDays index first stop ≤ result

/-- The result takes in what was found before and the runs from `pos` on. -/
structure Sums (flags : List Bool) (index : List Instant) (pos : ℕ)
    (found result : DrawdownDuration) : Prop where
  longest : Longest flags index pos found.maxDays result.maxDays
  unrecovered : ∀ first, pos ≤ first → IsRun flags first flags.length →
    result.currentDays = segmentDays index first flags.length ∧ result.isRecovered = false
  recovered : (∀ first, pos ≤ first → ¬ IsRun flags first flags.length) →
    result.currentDays = found.currentDays ∧ result.isRecovered = found.isRecovered

section Loop
variable {flags : List Bool} {index : List Instant} {pos stop : ℕ} {days before after : ℤ}
  {found result : DrawdownDuration}

/-- A day that is not below the maximum changes nothing. -/
theorem Sums.step (hflag : flags[pos]? ≠ some true) (h : Sums flags index (pos + 1) found result) :
    Sums flags index pos found result := by
  have hlater : ∀ {first stop}, pos ≤ first → IsRun flags first stop → pos + 1 ≤ first := by
    intro first stop hle hrun
    by_contra hlt
    obtain rfl : first = pos := by omega
    exact hflag (hrun.set first le_rfl hrun.lt)
  have hlongest : Longest flags index pos found.maxDays result.maxDays := by
    refine ⟨h.longest.le, ?_, fun first stop hle hrun => ?_⟩
    · obtain heq | ⟨first, stop, hle, hrun, heq⟩ := h.longest.attained
      · exact .inl heq
      · exact .inr ⟨first, stop, by omega, hrun, heq⟩
    · exact h.longest.bound first stop (hlater hle hrun) hrun
  refine ⟨hlongest, fun first hle hrun => h.unrecovered first (hlater hle hrun) hrun, ?_⟩
  intro hnone
  exact h.recovered fun first hle => hnone first (by omega)

/-- A run comes before the runs behind it. -/
theorem Longest.run (hrun : IsRun flags pos stop) (hdays : segmentDays index pos stop = days)
    (h : Longest flags index stop (max before days) after) :
    Longest flags index pos before after where
  le := (le_max_left before days).trans h.le
  attained := by
    obtain heq | ⟨first, stop', hle, hlater, heq⟩ := h.attained
    · obtain hmax | hmax := max_choice before days
      · exact .inl (heq.trans hmax)
      · exact .inr ⟨pos, stop, le_rfl, hrun, by rw [heq, hmax, hdays]⟩
    · exact .inr ⟨first, stop', hrun.lt.le.trans hle, hlater, heq⟩
  bound first stop' hle hlater := by
    have hstop := hrun.stop_eq
    obtain ⟨rfl, rfl⟩ | hbehind := hlater.eq_or_le hle
    · rw [← hstop, hdays]
      exact (le_max_right before days).trans h.le
    · exact h.bound first stop' (hstop ▸ hbehind) hlater

theorem durationLoop_sums (hlen : index.length = flags.length)
    (hbefore : flags[pos]? = some true → ∀ i, i + 1 = pos → flags[i]? ≠ some true) :
    Sums flags index pos found (durationLoop flags index pos found) := by
  fun_induction durationLoop flags index pos found with
  | case1 pos found hnone =>
    have hlate : flags.length ≤ pos := List.getElem?_eq_none_iff.mp hnone
    have hnot : ∀ {first stop}, pos ≤ first → ¬ IsRun flags first stop := by
      intro first stop hle hrun
      have hset := (List.getElem?_eq_some_iff.mp (hrun.set first le_rfl hrun.lt)).1
      omega
    exact ⟨⟨le_rfl, .inl rfl, fun _ _ hle hrun => absurd hrun (hnot hle)⟩,
      fun _ hle hrun => absurd hrun (hnot hle), fun _ => ⟨rfl, rfl⟩⟩
  | case2 pos found hflag ih =>
    refine Sums.step (by simp [hflag]) (ih ?_)
    intro _ i hi
    obtain rfl : i = pos := by omega
    simp [hflag]
  | case3 pos found hflag stop peakDate hlt days ih =>
    -- the run ends before the series does
    have hrun : IsRun flags pos stop := RunningMax.isRun_runEnd hflag (hbefore hflag)
    have hdays : segmentDays index pos stop = days := by
      rw [segmentDays, if_pos (by omega)]
    have hrest := ih fun hset => absurd hset hrun.after
    refine ⟨hrest.longest.run hrun hdays, fun first hle hlast => ?_, fun hnone => ?_⟩
    · obtain ⟨-, heq⟩ | hbehind := hlast.eq_or_le hle
      · omega
      · exact hrest.unrecovered first hbehind hlast
    · exact hrest.recovered fun first hle => hnone first (hrun.lt.le.trans hle)
  | case4 pos found hflag stop peakDate hlt days ih =>
    -- the run goes on to the end of the series
    have hpos := (List.getElem?_eq_some_iff.mp hflag).1
    have hstop : stop = flags.length := by
      have hle : stop ≤ flags.length := RunningMax.runEnd_le hpos.le
      omega
    have hrun : IsRun flags pos stop := RunningMax.isRun_runEnd hflag (hbefore hflag)
    have hdays : segmentDays index pos stop = days := by
      rw [segmentDays, if_neg (by omega)]
    have hrest := ih fun hset => absurd hset hrun.after
    have hnone : ∀ first, stop ≤ first → ¬ IsRun flags first flags.length := by
      intro first hle hlast
      have hlt := hlast.lt
      omega
    refine ⟨hrest.longest.run hrun hdays, fun first hle hlast => ?_, fun hno => ?_⟩
    · obtain ⟨rfl, -⟩ | hbehind := hlast.eq_or_le hle
      · rw [← hstop, hdays]
        exact hrest.recovered hnone
      · exact absurd hlast (hnone first hbehind)
    · exact absurd (hstop ▸ hrun) (hno pos le_rfl)

end Loop

/-! ## The loop and the reference -/

section Durations
variable {ν : Type} [LinearOrder ν] [Zero ν] {equity : EquitySeries ν} {first stop i : ℕ}

@[simp] theorem length_underwater (equity : EquitySeries ν) :
    (underwater equity).length = equity.points.length := by
  simp [underwater]

theorem underwater_iff : (underwater equity)[i]? = some true ↔ Below equity i := by
  unfold underwater Below
  rw [List.getElem?_zipWith]
  cases hv : equity.values[i]? with
  | none => simp
  | some v =>
    have hi : i < (cummax equity.values).length := by
      rw [RunningMax.length_cummax]
      exact (List.getElem?_eq_some_iff.mp hv).1
    have hm : (cummax equity.values)[i]? = some (cummax equity.values)[i] :=
      List.getElem?_eq_getElem hi
    obtain ⟨⟨j, hj, hpeak⟩, hmax⟩ := RunningMax.isGreatest_cummax hm
    rw [hm]
    simp only [Option.some.injEq, exists_eq_left', decide_eq_true_iff]
    constructor
    · intro hlt
      exact ⟨j, hj, _, hpeak, hlt⟩
    · rintro ⟨j', hj', m, hj'', hlt⟩
      exact hlt.trans_le (hmax ⟨j', hj', hj''⟩)

theorem isRun_iff : IsRun (underwater equity) first stop ↔ DrawdownRun equity first stop := by
  constructor
  · intro h
    exact ⟨h.lt, fun i hle hlt => underwater_iff.mp (h.set i hle hlt),
      fun i hi hbelow => h.before i hi (underwater_iff.mpr hbelow),
      fun hbelow => h.after (underwater_iff.mpr hbelow)⟩
  · intro h
    exact ⟨h.lt, fun i hle hlt => underwater_iff.mpr (h.below i hle hlt),
      fun i hi hset => h.before i hi (underwater_iff.mp hset),
      fun hset => h.after (underwater_iff.mp hset)⟩

theorem Below.lt_length (h : Below equity i) : i < equity.points.length := by
  obtain ⟨v, hv, -⟩ := h
  simpa using (List.getElem?_eq_some_iff.mp hv).1

/-- Nothing is before the first day. -/
theorem not_below_zero (equity : EquitySeries ν) : ¬ Below equity 0 := by
  rintro ⟨v, hv, j, hj, m, hm, hlt⟩
  obtain rfl := Nat.le_zero.mp hj
  rw [hv] at hm
  exact absurd hlt (Option.some.inj hm).ge.not_gt

theorem DrawdownRun.first_pos (h : DrawdownRun equity first stop) : 0 < first := by
  by_contra hzero
  obtain rfl : first = 0 := by omega
  exact not_below_zero equity (h.below 0 le_rfl h.lt)

theorem DrawdownRun.stop_le (h : DrawdownRun equity first stop) : stop ≤ equity.points.length := by
  have hlt := h.lt
  have hlast : Below equity (stop - 1) := h.below (stop - 1) (by omega) (by omega)
  have hlength := hlast.lt_length
  omega

/-- The peak is the day before the run. -/
theorem DrawdownRun.isGreatest_peak (h : DrawdownRun equity first stop) :
    IsGreatest {i | i < first ∧ ¬ Below equity i} (first - 1) := by
  have hpos := h.first_pos
  constructor
  · exact ⟨by omega, h.before (first - 1) (by omega)⟩
  · intro i hi
    have hlt : i < first := hi.1
    omega

theorem getD_of_getElem? {xs : List Instant} {a : Instant} (h : xs[i]? = some a) :
    xs.getD i 0 = a := by
  rw [List.getD_eq_getElem?_getD, h, Option.getD_some]

/-- The loop counts the days of the reference, and no others. -/
theorem DrawdownRun.runDays_iff (h : DrawdownRun equity first stop) {days : ℤ} :
    RunDays equity first stop days ↔ days = segmentDays equity.index first stop := by
  have hpos := h.first_pos
  have hlt := h.lt
  have hle := h.stop_le
  have hlen := equity.length_index
  have hlast : equity.index.getLastD 0 = equity.index.getD (equity.points.length - 1) 0 := by
    rw [List.getLastD_eq_getLast?, List.getLast?_eq_getElem?, hlen, List.getD_eq_getElem?_getD]
  constructor
  · rintro ⟨peak, finish, peakDate, finishDate, hpeak, hfinish, hpeakDate, hfinishDate, rfl⟩
    obtain rfl : peak = first - 1 := hpeak.unique h.isGreatest_peak
    have hend : (if stop < equity.index.length then equity.index.getD stop 0
        else equity.index.getLastD 0) = finishDate := by
      obtain hleast | ⟨hnone, hfinish⟩ := hfinish
      · have hin : stop < equity.points.length := hleast.1.1.trans_lt hleast.1.2.1
        obtain rfl : finish = stop := le_antisymm (hleast.2 ⟨le_rfl, hin, h.after⟩) hleast.1.1
        rw [if_pos (hlen ▸ hin), getD_of_getElem? hfinishDate]
      · have hout : ¬ stop < equity.index.length := by
          intro hin
          exact h.after (hnone stop le_rfl (hlen ▸ hin))
        obtain rfl : finish = equity.points.length - 1 := by omega
        rw [if_neg hout, hlast, getD_of_getElem? hfinishDate]
    rw [segmentDays, getD_of_getElem? hpeakDate, hend]
  · rintro rfl
    have hat : ∀ i, i < equity.points.length → equity.index[i]? = some (equity.index.getD i 0) := by
      intro i hi
      rw [List.getD_eq_getElem?_getD, List.getElem?_eq_getElem (hlen.symm ▸ hi), Option.getD_some]
    by_cases hin : stop < equity.points.length
    · refine ⟨first - 1, stop, _, _, h.isGreatest_peak, .inl ⟨⟨le_rfl, hin, h.after⟩, ?_⟩,
        hat _ (by omega), hat _ hin, ?_⟩
      · intro i hi
        exact hi.1
      · rw [segmentDays, if_pos (hlen.symm ▸ hin)]
    · refine ⟨first - 1, equity.points.length - 1, _, _, h.isGreatest_peak, .inr ⟨?_, by omega⟩,
        hat _ (by omega), hat _ (by omega), ?_⟩
      · intro i hi hlt
        omega
      · rw [segmentDays, if_neg (hlen.symm ▸ hin), hlast]

/-- Time does not run backwards from a peak. -/
theorem DrawdownRun.segmentDays_nonneg (h : DrawdownRun equity first stop) :
    0 ≤ segmentDays equity.index first stop := by
  obtain ⟨peak, finish, peakDate, finishDate, hpeak, hfinish, hpeakDate, hfinishDate, hdays⟩ :=
    h.runDays_iff.mpr rfl
  have hlt : peak < first := hpeak.1.1
  have hstop := h.lt
  have hle := h.stop_le
  have hlater : peak ≤ finish := by
    obtain hleast | ⟨-, hlast⟩ := hfinish
    · have hbehind : stop ≤ finish := hleast.1.1
      omega
    · omega
  have hdates := equity.index_mono hlater hpeakDate hfinishDate
  rw [hdays]
  exact Int.ediv_nonneg (sub_nonneg.mpr hdates) (by decide)

/-- A day below the maximum is in a run. -/
theorem exists_run_start (h : Below equity i) :
    ∃ first ≤ i, (∀ k, first ≤ k → k ≤ i → Below equity k) ∧
      ∀ k, k + 1 = first → ¬ Below equity k := by
  induction i with
  | zero => exact absurd h (not_below_zero equity)
  | succ i ih =>
    by_cases hbelow : Below equity i
    · obtain ⟨first, hle, hall, hbefore⟩ := ih hbelow
      refine ⟨first, by omega, fun k hk hki => ?_, hbefore⟩
      obtain rfl | hlt := hki.eq_or_lt
      · exact h
      · exact hall k hk (by omega)
    · refine ⟨i + 1, le_rfl, fun k hk hki => ?_, fun k hk => ?_⟩
      · obtain rfl : k = i + 1 := by omega
        exact h
      · obtain rfl : k = i := by omega
        exact hbelow

/-- The last day is below the maximum exactly when a run goes on to the end. -/
theorem below_last_iff (equity : EquitySeries ν) :
    Below equity (equity.points.length - 1) ↔
      ∃ first, DrawdownRun equity first equity.points.length := by
  have hpos := equity.length_pos
  constructor
  · intro h
    obtain ⟨first, hle, hall, hbefore⟩ := exists_run_start h
    refine ⟨first, by omega, fun i hi hlt => hall i hi (by omega), hbefore, fun hafter => ?_⟩
    exact lt_irrefl _ hafter.lt_length
  · rintro ⟨first, h⟩
    have hlt := h.lt
    exact h.below _ (by omega) (by omega)

theorem calcDrawdownDuration_sums (equity : EquitySeries ν) :
    ∃ d, calcDrawdownDuration equity.toSeries = .ok d ∧
      Sums (underwater equity) equity.index 0 ⟨0, 0, true⟩ d := by
  by_cases hshort : equity.points.length < 2
  · have hnot : ∀ {first stop}, ¬ IsRun (underwater equity) first stop := by
      intro first stop hrun
      have h := isRun_iff.mp hrun
      have hpos := h.first_pos
      have hlt := h.lt
      have hle := h.stop_le
      omega
    refine ⟨⟨0, 0, true⟩, ?_, ⟨le_rfl, .inl rfl, fun _ _ _ hrun => absurd hrun hnot⟩,
      fun _ _ hrun => absurd hrun hnot, fun _ => ⟨rfl, rfl⟩⟩
    rw [calcDrawdownDuration, validateEquity_toSeries]
    exact if_pos hshort
  · refine ⟨durationLoop (underwater equity) equity.index 0 ⟨0, 0, true⟩, ?_,
      durationLoop_sums (by simp) fun _ i hi => by omega⟩
    rw [calcDrawdownDuration, validateEquity_toSeries]
    exact if_neg hshort

section Sums
variable {d : DrawdownDuration}

theorem Sums.runDays_le (hsums : Sums (underwater equity) equity.index 0 ⟨0, 0, true⟩ d)
    (h : DrawdownRun equity first stop) : segmentDays equity.index first stop ≤ d.maxDays :=
  hsums.longest.bound first stop (Nat.zero_le _) (isRun_iff.mpr h)

/-- The maximum is taken by a run. -/
theorem Sums.isGreatest_maxDays (hsums : Sums (underwater equity) equity.index 0 ⟨0, 0, true⟩ d)
    (h : DrawdownRun equity first stop) :
    IsGreatest {days | ∃ first stop, DrawdownRun equity first stop ∧
      RunDays equity first stop days} d.maxDays := by
  constructor
  · obtain hzero | ⟨first', stop', -, hlongest, heq⟩ := hsums.longest.attained
    · -- the longest run takes less than a day
      have hnonneg := h.segmentDays_nonneg
      have hle := hsums.runDays_le h
      have heq : d.maxDays = segmentDays equity.index first stop := by
        change d.maxDays = 0 at hzero
        omega
      exact ⟨first, stop, h, h.runDays_iff.mpr heq⟩
    · have h' := isRun_iff.mp hlongest
      exact ⟨first', stop', h', h'.runDays_iff.mpr heq⟩
  · rintro days ⟨first', stop', h', hdays⟩
    rw [h'.runDays_iff.mp hdays]
    exact hsums.runDays_le h'

theorem Sums.maxDays_eq_zero (hsums : Sums (underwater equity) equity.index 0 ⟨0, 0, true⟩ d)
    (hnone : ¬ ∃ first stop, DrawdownRun equity first stop) : d.maxDays = 0 := by
  obtain hzero | ⟨first, stop, -, hlongest, -⟩ := hsums.longest.attained
  · exact hzero
  · exact absurd ⟨first, stop, isRun_iff.mp hlongest⟩ hnone

/-- A run to the end is the current one. -/
theorem Sums.current_of_run (hsums : Sums (underwater equity) equity.index 0 ⟨0, 0, true⟩ d)
    (h : DrawdownRun equity first equity.points.length) :
    d.currentDays = segmentDays equity.index first equity.points.length ∧
      d.isRecovered = false := by
  have hlast := hsums.unrecovered first (Nat.zero_le _)
  rw [length_underwater] at hlast
  exact hlast (isRun_iff.mpr h)

theorem Sums.current_of_none (hsums : Sums (underwater equity) equity.index 0 ⟨0, 0, true⟩ d)
    (hnone : ¬ ∃ first, DrawdownRun equity first equity.points.length) :
    d.currentDays = 0 ∧ d.isRecovered = true := by
  have hlast := hsums.recovered
  rw [length_underwater] at hlast
  exact hlast fun first _ h => hnone ⟨first, isRun_iff.mp h⟩

end Sums

/-- The days of the longest run, whether the series is back at its maximum, and the days of the run
that it ends in where it is not. -/
theorem drawdownDuration_spec (equity : EquitySeries ν) :
    ∃ d, calcDrawdownDuration equity.toSeries = .ok d ∧
      ((∃ first stop, DrawdownRun equity first stop) →
        IsGreatest {days | ∃ first stop, DrawdownRun equity first stop ∧
          RunDays equity first stop days} d.maxDays) ∧
      ((¬ ∃ first stop, DrawdownRun equity first stop) → d.maxDays = 0) ∧
      (d.isRecovered = true ↔ ¬ Below equity (equity.points.length - 1)) ∧
      (d.isRecovered = false → ∃ first, DrawdownRun equity first equity.points.length ∧
        RunDays equity first equity.points.length d.currentDays) ∧
      (d.isRecovered = true → d.currentDays = 0) ∧
      d.currentDays ≤ d.maxDays := by
  obtain ⟨d, hrun, hsums⟩ := calcDrawdownDuration_sums equity
  refine ⟨d, hrun, fun ⟨_, _, h⟩ => hsums.isGreatest_maxDays h, hsums.maxDays_eq_zero, ?_⟩
  rw [below_last_iff]
  by_cases hlast : ∃ first, DrawdownRun equity first equity.points.length
  · obtain ⟨first, h⟩ := hlast
    obtain ⟨hdays, hunrecovered⟩ := hsums.current_of_run h
    have hle : d.currentDays ≤ d.maxDays := hdays ▸ hsums.runDays_le h
    have hexists : ∃ first, DrawdownRun equity first equity.points.length := ⟨first, h⟩
    refine ⟨?_, fun _ => ⟨first, h, h.runDays_iff.mpr hdays⟩, ?_, hle⟩
    · simp [hunrecovered, hexists]
    · simp [hunrecovered]
  · obtain ⟨hdays, hrecovered⟩ := hsums.current_of_none hlast
    have hle : d.currentDays ≤ d.maxDays := hdays ▸ hsums.longest.le
    refine ⟨?_, ?_, fun _ => hdays, hle⟩
    · simp [hrecovered, hlast]
    · simp [hrecovered]

end Durations

end Autotrading
