import Autotrading.ReversalVolume
import Autotrading.RunningMax
import Mathlib.Algebra.Order.Field.Basic
import Mathlib.Algebra.Order.Ring.Rat
import Mathlib.Data.Rat.Floor

/-!
# Metrics of an equity series

`_validate_equity` and `calc_max_drawdown` of `app/strategy/metrics/core.py`. The index of a series
is always one of dates here; `none` is a missing value.
-/
namespace Autotrading

open RunningMax (cummax)

/-- `round(x)`: halves go to the even number. -/
def Python.roundHalfEven (x : ℚ) : ℤ :=
  let q := ⌊x⌋
  let r := x - q
  if r < 1 / 2 ∨ r = 1 / 2 ∧ q % 2 = 0 then q else q + 1

/-- `round(x, decimals)`. -/
def Python.round (x : ℚ) (decimals : ℤ) : ℚ :=
  Python.roundHalfEven (x * 10 ^ decimals) / 10 ^ decimals

/-- A series over dates. -/
abbrev Series (ν : Type) : Type := List (Instant × Option ν)

/-- A series that `_validate_equity` lets through. -/
structure EquitySeries (ν : Type) [LinearOrder ν] [Zero ν] where
  points : List (Instant × ν)
  nonempty : points ≠ []
  ascending : points.Pairwise fun p q => p.1 ≤ q.1
  positive : ∀ p ∈ points, 0 < p.2

namespace EquitySeries

variable {ν : Type} [LinearOrder ν] [Zero ν]

def index (equity : EquitySeries ν) : List Instant := equity.points.map Prod.fst

def values (equity : EquitySeries ν) : List ν := equity.points.map Prod.snd

def toSeries (equity : EquitySeries ν) : Series ν := equity.points.map fun p => (p.1, some p.2)

@[simp] theorem length_index (equity : EquitySeries ν) :
    equity.index.length = equity.points.length := by
  simp [index]

@[simp] theorem length_values (equity : EquitySeries ν) :
    equity.values.length = equity.points.length := by
  simp [values]

theorem ext_points {a b : EquitySeries ν} (h : a.points = b.points) : a = b := by
  cases a
  cases b
  cases h
  rfl

theorem length_pos (equity : EquitySeries ν) : 0 < equity.points.length :=
  List.length_pos_iff.mpr equity.nonempty

theorem values_pos (equity : EquitySeries ν) {i : ℕ} {v : ν} (h : equity.values[i]? = some v) :
    0 < v := by
  obtain ⟨p, hp, rfl⟩ := List.mem_map.mp (List.mem_of_getElem? h)
  exact equity.positive p hp

/-- A later date is not an earlier one. -/
theorem index_mono (equity : EquitySeries ν) {i j : ℕ} {a b : Instant} (hle : i ≤ j)
    (ha : equity.index[i]? = some a) (hb : equity.index[j]? = some b) : a ≤ b := by
  have hsorted : equity.index.Pairwise (· ≤ ·) := List.pairwise_map.mpr equity.ascending
  obtain ⟨hi, rfl⟩ := List.getElem?_eq_some_iff.mp ha
  obtain ⟨hj, rfl⟩ := List.getElem?_eq_some_iff.mp hb
  obtain rfl | hlt := hle.eq_or_lt
  · exact le_rfl
  · exact List.pairwise_iff_getElem.mp hsorted i j hi hj hlt

end EquitySeries

/-- The values that are there, with their dates. -/
def known {ν : Type} (equity : Series ν) : List (Instant × ν) :=
  equity.filterMap fun p => p.2.map fun v => (p.1, v)

/-- A series without missing values is the series of its values. -/
theorem map_known {ν : Type} {series : Series ν} (h : ∀ p ∈ series, p.2 ≠ none) :
    (known series).map (fun p => (p.1, some p.2)) = series := by
  unfold known
  induction series with
  | nil => rfl
  | cons p series ih =>
    have hrest := ih fun q hq => h q (List.mem_cons_of_mem _ hq)
    obtain ⟨v, hv⟩ := Option.ne_none_iff_exists'.mp (h p List.mem_cons_self)
    rw [List.filterMap_cons_some (b := (p.1, v)) (by rw [hv]; rfl), List.map_cons, hrest, ← hv]

/-- `_validate_equity`. -/
def validateEquity {ν : Type} [LinearOrder ν] [Zero ν] (equity : Series ν) :
    Except PyExc (EquitySeries ν) :=
  if hempty : equity = [] then .error (.other "ValueError" "equity 가 비어 있습니다.")
  else if hasc : ¬ equity.Pairwise fun p q => p.1 ≤ q.1 then
    .error (.other "ValueError" "equity.index 는 오름차순이어야 합니다.")
  else if hna : ∃ p ∈ equity, p.2 = none then
    .error (.other "ValueError" "equity 에 결측치가 있습니다. 어댑터에서 처리하세요.")
  else if hpos : ∃ p ∈ known equity, p.2 ≤ 0 then
    .error (.other "ValueError" "equity 에 0 이하 값이 있습니다.")
  else .ok {
    points := known equity
    nonempty := by
      obtain ⟨p, hp⟩ := List.exists_mem_of_ne_nil equity hempty
      cases hv : p.2 with
      | none => exact absurd ⟨p, hp, hv⟩ hna
      | some v => exact List.ne_nil_of_mem (List.mem_filterMap.mpr ⟨p, hp, by rw [hv]; rfl⟩)
    ascending := by
      refine List.Pairwise.filterMap _ ?_ (not_not.mp hasc)
      intro p q hle p' hp q' hq
      obtain ⟨v, -, rfl⟩ := Option.map_eq_some_iff.mp hp
      obtain ⟨w, -, rfl⟩ := Option.map_eq_some_iff.mp hq
      exact hle
    positive := by
      intro p hp
      by_contra hle
      exact hpos ⟨p, hp, not_lt.mp hle⟩ }

section Validation
variable {ν : Type} [LinearOrder ν] [Zero ν]

theorem known_toSeries (equity : EquitySeries ν) : known equity.toSeries = equity.points := by
  rw [known, EquitySeries.toSeries, List.filterMap_map]
  exact List.filterMap_some

/-- The series that are let through are these. -/
theorem validateEquity_toSeries (equity : EquitySeries ν) :
    validateEquity equity.toSeries = .ok equity := by
  have hempty : equity.toSeries ≠ [] := by
    simpa [EquitySeries.toSeries] using equity.nonempty
  have hasc : equity.toSeries.Pairwise fun p q => p.1 ≤ q.1 :=
    List.pairwise_map.mpr equity.ascending
  have hna : ¬ ∃ p ∈ equity.toSeries, p.2 = none := by
    simp [EquitySeries.toSeries]
  have hpos : ¬ ∃ p ∈ known equity.toSeries, p.2 ≤ 0 := by
    rw [known_toSeries]
    rintro ⟨p, hp, hle⟩
    exact absurd (equity.positive p hp) (not_lt.mpr hle)
  rw [validateEquity, dif_neg hempty, dif_neg (not_not.mpr hasc), dif_neg hna, dif_neg hpos]
  exact congrArg Except.ok (EquitySeries.ext_points (known_toSeries equity))

theorem toSeries_of_validateEquity {series : Series ν} {equity : EquitySeries ν}
    (h : validateEquity series = .ok equity) : series = equity.toSeries := by
  unfold validateEquity at h
  split_ifs at h with hempty hasc hna hpos
  obtain rfl := Except.ok.inj h
  exact (map_known fun p hp hnone => hna ⟨p, hp, hnone⟩).symm

/-- A series is let through exactly when it is not empty, in order, complete and above zero. -/
theorem validateEquity_ok_iff {series : Series ν} :
    (∃ equity, validateEquity series = .ok equity) ↔
      series ≠ [] ∧ (series.Pairwise fun p q => p.1 ≤ q.1) ∧
        ∀ p ∈ series, ∃ v, p.2 = some v ∧ 0 < v := by
  constructor
  · rintro ⟨equity, hok⟩
    rw [toSeries_of_validateEquity hok]
    refine ⟨by simpa [EquitySeries.toSeries] using equity.nonempty,
      List.pairwise_map.mpr equity.ascending, ?_⟩
    intro p hp
    obtain ⟨q, hq, rfl⟩ := List.mem_map.mp hp
    exact ⟨q.2, rfl, equity.positive q hq⟩
  · rintro ⟨hempty, hasc, hvalues⟩
    have hna : ¬ ∃ p ∈ series, p.2 = none := by
      rintro ⟨p, hp, hnone⟩
      obtain ⟨v, hv, -⟩ := hvalues p hp
      rw [hv] at hnone
      cases hnone
    have hpos : ¬ ∃ p ∈ known series, p.2 ≤ 0 := by
      rintro ⟨q, hq, hle⟩
      obtain ⟨p, hp, heq⟩ := List.mem_filterMap.mp hq
      obtain ⟨v, hv, hlt⟩ := hvalues p hp
      rw [hv] at heq
      obtain rfl := Option.some.inj heq
      exact absurd hlt (not_lt.mpr hle)
    rw [validateEquity, dif_neg hempty, dif_neg (not_not.mpr hasc), dif_neg hna, dif_neg hpos]
    exact ⟨_, rfl⟩

end Validation

/-! ## The maximum drawdown -/

/-- `mdd_pct`. -/
def mddPct (equity : EquitySeries ℚ) : ℚ :=
  let runningMax := cummax equity.values
  let drawdown := List.zipWith (fun e m => (e - m) / m) equity.values runningMax
  |drawdown.min?.getD 0| * 100

/-- `calc_max_drawdown`. -/
def calcMaxDrawdown (equity : Series ℚ) (decimals : ℤ) : Except PyExc ℚ := do
  let equity ← validateEquity equity
  pure (Python.round (mddPct equity) decimals)

/-- The loss from one day to a later one or the same. -/
def Loss (equity : EquitySeries ℚ) (loss : ℚ) : Prop :=
  ∃ (i j : ℕ) (a b : ℚ), i ≤ j ∧ equity.values[i]? = some a ∧ equity.values[j]? = some b ∧
    loss = (a - b) / a

theorem mem_drawdown {equity : EquitySeries ℚ} {d : ℚ} :
    d ∈ List.zipWith (fun e m => (e - m) / m) equity.values (cummax equity.values) ↔
      ∃ (j : ℕ) (e m : ℚ), equity.values[j]? = some e ∧ (cummax equity.values)[j]? = some m ∧
        (e - m) / m = d := by
  rw [List.mem_iff_getElem?]
  simp only [List.getElem?_zipWith]
  constructor
  · rintro ⟨j, hj⟩
    cases he : equity.values[j]? with
    | none => simp [he] at hj
    | some e =>
      cases hm : (cummax equity.values)[j]? with
      | none => simp [he, hm] at hj
      | some m => exact ⟨j, e, m, he, hm, by simpa [he, hm] using hj⟩
  · rintro ⟨j, e, m, he, hm, hd⟩
    exact ⟨j, by simp [he, hm, hd]⟩

/-- The running maximum of a day is there, and it is the value of a day before or of the day. -/
theorem cummax_values {equity : EquitySeries ℚ} {j : ℕ} {e : ℚ} (he : equity.values[j]? = some e) :
    ∃ m, (cummax equity.values)[j]? = some m ∧ (∃ i ≤ j, equity.values[i]? = some m) ∧
      ∀ i ≤ j, ∀ a, equity.values[i]? = some a → a ≤ m := by
  obtain ⟨hj, -⟩ := List.getElem?_eq_some_iff.mp he
  have hlen : j < (cummax equity.values).length := by rwa [RunningMax.length_cummax]
  have hm : (cummax equity.values)[j]? = some (cummax equity.values)[j] :=
    List.getElem?_eq_getElem hlen
  have hgreatest := RunningMax.isGreatest_cummax hm
  exact ⟨_, hm, hgreatest.1, fun i hi a ha => hgreatest.2 ⟨i, hi, ha⟩⟩

/-- The loss from a higher value to the same one is larger. -/
theorem loss_mono {a b m : ℚ} (hb : 0 < b) (ha : 0 < a) (hle : a ≤ m) :
    (a - b) / a ≤ (m - b) / m := by
  have hm : 0 < m := ha.trans_le hle
  have hratio : b / m ≤ b / a := div_le_div_of_nonneg_left hb.le ha hle
  rw [sub_div, sub_div, div_self ha.ne', div_self hm.ne']
  linarith

/-- The maximum drawdown is the greatest loss. -/
theorem isGreatest_mddPct (equity : EquitySeries ℚ) :
    IsGreatest ((100 * ·) '' {loss | Loss equity loss}) (mddPct equity) := by
  have hne : List.zipWith (fun e m => (e - m) / m) equity.values (cummax equity.values) ≠ [] := by
    have hlen := equity.length_pos
    rw [← List.length_pos_iff, List.length_zipWith, RunningMax.length_cummax, min_self,
      equity.length_values]
    exact hlen
  obtain ⟨d, hd⟩ := Option.isSome_iff_exists.mp (List.isSome_min?_iff.mpr hne)
  obtain ⟨hmem, hleast⟩ := List.min?_eq_some_iff.mp hd
  obtain ⟨j, e, m, he, hm, hdrop⟩ := mem_drawdown.mp hmem
  have hgreatest := RunningMax.isGreatest_cummax hm
  obtain ⟨i, hi, hpeak⟩ := hgreatest.1
  have hmpos := equity.values_pos hpeak
  have hle : e ≤ m := hgreatest.2 ⟨j, le_rfl, he⟩
  have hneg : d ≤ 0 := by
    rw [← hdrop]
    exact div_nonpos_of_nonpos_of_nonneg (sub_nonpos.mpr hle) hmpos.le
  have habs : mddPct equity = 100 * (-d) := by
    show |_| * 100 = _
    rw [hd, Option.getD_some, abs_of_nonpos hneg, mul_comm]
  rw [habs]
  constructor
  · refine ⟨-d, ⟨i, j, m, e, hi, hpeak, he, ?_⟩, rfl⟩
    rw [← hdrop, ← neg_div, neg_sub]
  · rintro _ ⟨loss, ⟨i', j', a, b, hle', ha, hb, rfl⟩, rfl⟩
    obtain ⟨m', hm', -, hmax⟩ := cummax_values hb
    have hworse := loss_mono (equity.values_pos hb) (equity.values_pos ha) (hmax i' hle' a ha)
    have hbound : d ≤ (b - m') / m' := hleast _ (mem_drawdown.mpr ⟨j', b, m', hb, hm', rfl⟩)
    have hflip : (b - m') / m' = -((m' - b) / m') := by rw [← neg_div, neg_sub]
    dsimp only
    linarith

/-- The maximum drawdown before it is rounded: the greatest loss from a day to a later one, which is
never the whole and is nothing exactly when no value is below one before. -/
theorem maxDrawdown_spec (equity : EquitySeries ℚ) (decimals : ℤ) :
    calcMaxDrawdown equity.toSeries decimals = .ok (Python.round (mddPct equity) decimals) ∧
      IsGreatest ((100 * ·) '' {loss | Loss equity loss}) (mddPct equity) ∧
      0 ≤ mddPct equity ∧ mddPct equity < 100 ∧
      (mddPct equity = 0 ↔ equity.values.Pairwise (· ≤ ·)) := by
  have hgreatest := isGreatest_mddPct equity
  have hrun : calcMaxDrawdown equity.toSeries decimals =
      .ok (Python.round (mddPct equity) decimals) := by
    rw [calcMaxDrawdown, validateEquity_toSeries]
    rfl
  obtain ⟨loss, ⟨i, j, a, b, hij, ha, hb, rfl⟩, hmdd⟩ := hgreatest.1
  have hapos := equity.values_pos ha
  have hbpos := equity.values_pos hb
  have hnonneg : 0 ≤ mddPct equity := by
    have hnone : (100 : ℚ) * 0 ∈ (100 * ·) '' {loss | Loss equity loss} :=
      ⟨0, ⟨i, i, a, a, le_rfl, ha, ha, by simp⟩, rfl⟩
    simpa using hgreatest.2 hnone
  have hlt : mddPct equity < 100 := by
    have hpart : (a - b) / a < 1 := by
      rw [div_lt_one hapos]
      linarith
    rw [← hmdd]
    dsimp only
    linarith
  refine ⟨hrun, hgreatest, hnonneg, hlt, ?_⟩
  constructor
  · intro hzero
    rw [List.pairwise_iff_getElem]
    intro k l hk hl hkl
    have hloss := hgreatest.2 ⟨_, ⟨k, l, _, _, hkl.le, List.getElem?_eq_getElem hk,
      List.getElem?_eq_getElem hl, rfl⟩, rfl⟩
    have hpos := equity.values_pos (List.getElem?_eq_getElem hk)
    rw [hzero] at hloss
    have hnot : (equity.values[k] - equity.values[l]) / equity.values[k] ≤ 0 := by linarith
    rw [div_le_iff₀ hpos, zero_mul] at hnot
    linarith
  · intro hsorted
    have hrise : a ≤ b := by
      obtain ⟨hi, rfl⟩ := List.getElem?_eq_some_iff.mp ha
      obtain ⟨hj, rfl⟩ := List.getElem?_eq_some_iff.mp hb
      obtain rfl | hlt := hij.eq_or_lt
      · exact le_rfl
      · exact List.pairwise_iff_getElem.mp hsorted i j hi hj hlt
    have hpart : (a - b) / a ≤ 0 := div_nonpos_of_nonpos_of_nonneg (sub_nonpos.mpr hrise) hapos.le
    refine le_antisymm ?_ hnonneg
    rw [← hmdd]
    dsimp only
    linarith

end Autotrading
