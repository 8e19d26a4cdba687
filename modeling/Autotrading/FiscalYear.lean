import Autotrading.MetricsAdapters

/-!
# The fiscal year of a selection

`_infer_latest_available_fiscal_year` of `app/services/rebalance/rebalance_orchestrator.py` and
`_validate_lookahead` of `app/strategy/screener/base_screener.py`. The first one takes the year
from the clock in Seoul, the second one compares that year with the clock of the host.
-/
namespace Autotrading

/-! ## The year of a date -/

/-- The year, counted from March on, that a day of a cycle of 400 years falls in. -/
theorem yearOfCycle_spec {n y : ℤ} (h : 0 ≤ n ∧ n < 146097)
    (hy : y = (n - n / 1460 + n / 36524 - n / 146096) / 365) :
    (0 ≤ y ∧ y < 400) ∧ 365 * y + y / 4 - y / 100 ≤ n ∧
      n < 365 * (y + 1) + (y + 1) / 4 - (y + 1) / 100 + (y + 1) / 400 := by
  obtain ⟨a, ha⟩ : ∃ a, a = n / 1460 := ⟨_, rfl⟩
  obtain ⟨b, hb⟩ : ∃ b, b = n / 36524 := ⟨_, rfl⟩
  obtain ⟨e, he⟩ : ∃ e, e = n / 146096 := ⟨_, rfl⟩
  rw [← ha, ← hb, ← he] at hy
  -- the last day of the cycle is the one day of a fifth century
  have hbe : (b = 0 ∨ b = 1 ∨ b = 2 ∨ b = 3) ∧ e = 0 ∨ b = 4 ∧ e = 1 := by omega
  have hcentury : y / 100 = b - e := by omega
  have hquad : y / 4 ≤ a := by omega
  have hquad' : a ≤ (y + 1) / 4 := by omega
  have hyear : 0 ≤ y ∧ y < 400 := by omega
  have hlow : 365 * y + y / 4 - y / 100 ≤ n := by omega
  have hhigh : n < 365 * (y + 1) + (y + 1) / 4 - (y + 1) / 100 + (y + 1) / 400 := by
    by_cases hlast : (y + 1) / 100 = y / 100
    · have hleap : 0 ≤ (y + 1) / 400 := by omega
      omega
    · have hnext : y + 1 = 100 * (b - e + 1) := by omega
      omega
  exact ⟨hyear, hlow, hhigh⟩

theorem leapDays_cycle (c y : ℤ) : (400 * c + y) / 4 = 100 * c + y / 4 ∧
    (400 * c + y) / 100 = 4 * c + y / 100 ∧ (400 * c + y) / 400 = c + y / 400 := by
  omega

/-- A date is in its month or after it, and before the next year. -/
theorem date_bounds (date : ℤ) : monthStart (yearAndMonth date) ≤ date ∧
    date < monthStart ((yearAndMonth date).1 + 1, 1) := by
  obtain ⟨n, hn⟩ : ∃ n, n = (date + 719468) % 146097 := ⟨_, rfl⟩
  obtain ⟨c, hc⟩ : ∃ c, c = (date + 719468) / 146097 := ⟨_, rfl⟩
  obtain ⟨y, hy⟩ : ∃ y, y = (n - n / 1460 + n / 36524 - n / 146096) / 365 := ⟨_, rfl⟩
  have hdate : date = 146097 * c + n - 719468 := by omega
  obtain ⟨hyear, hlow, hhigh⟩ := yearOfCycle_spec (by omega) hy
  obtain ⟨day, hday⟩ : ∃ day, day = n - (365 * y + y / 4 - y / 100) := ⟨_, rfl⟩
  obtain ⟨m, hm⟩ : ∃ m, m = (5 * day + 2) / 153 := ⟨_, rfl⟩
  obtain ⟨hfour, hcent, hcycle⟩ := leapDays_cycle c y
  obtain ⟨hfour', hcent', hcycle'⟩ := leapDays_cycle c (y + 1)
  simp only [yearAndMonth]
  rw [← hn, ← hc, ← hy, ← hday, ← hm]
  clear hn hc hy
  split
  · next hspring =>
    simp only [monthStart]
    rw [if_pos (by omega), if_pos (by omega), if_neg (by omega), if_neg (by omega),
      Int.add_sub_cancel, hfour, hcent, hcycle]
    omega
  · next hwinter =>
    simp only [monthStart]
    rw [if_neg (by omega), if_neg (by omega), if_neg (by omega), if_neg (by omega),
      Int.add_sub_cancel, hfour, hcent, hcycle, Int.add_sub_cancel, add_assoc (400 * c) y 1, hfour',
      hcent', hcycle']
    omega

/-- The firsts of April come one after the other. -/
theorem april_le {y y' : ℤ} (h : y ≤ y') : monthStart (y, 4) ≤ monthStart (y', 4) := by
  simp only [monthStart]
  omega

/-! ## The look-ahead check -/

/-- `DISCLOSURE_MONTH`. -/
def disclosureMonth : ℤ := 4

/-- `_validate_lookahead`, with the date of `pd.Timestamp.today()`. -/
def validateLookahead (year : ℤ) (asOfDate : Option ℤ) (today : ℤ) : Except PyExc Unit :=
  let disclosureDate := monthStart (year + 1, disclosureMonth)
  let refDate := asOfDate.getD today
  if refDate < disclosureDate then
    .error (.other "ValueError" (s!"{year}년 결산보고서는 {isoformat disclosureDate} 이후에 사용 가능합니다. " ++
      s!"(현재 기준일: {isoformat refDate})"))
  else .ok ()

/-- `_infer_latest_available_fiscal_year`. -/
def inferLatestAvailableFiscalYear (now : Instant) : ℤ :=
  let date := kstDate now
  let year := (yearAndMonth date).1
  let fiscalCutoff := monthStart (year, 4) + 14
  if fiscalCutoff ≤ date then year - 1 else year - 2

theorem validateLookahead_eq_ok {year today : ℤ} {asOfDate : Option ℤ} :
    validateLookahead year asOfDate today = .ok () ↔
      monthStart (year + 1, 4) ≤ asOfDate.getD today := by
  unfold validateLookahead disclosureMonth
  by_cases h : asOfDate.getD today < monthStart (year + 1, 4)
  · simp [h]
  · simp only [h, if_false, true_iff]
    omega

/-- The reports of the inferred year are out for two weeks, or for the whole of another year. -/
theorem disclosed_inferred (now : Instant) :
    monthStart (inferLatestAvailableFiscalYear now + 1, 4) + 14 ≤ kstDate now := by
  obtain ⟨hmonth, -⟩ := date_bounds (kstDate now)
  have hin := month_bounds (kstDate now)
  unfold inferLatestAvailableFiscalYear
  dsimp only
  obtain ⟨⟨y, m⟩, hym⟩ : ∃ ym, ym = yearAndMonth (kstDate now) := ⟨_, rfl⟩
  rw [← hym] at hmonth hin ⊢
  split
  · next hout =>
    rw [sub_add_cancel]
    exact hout
  · have hlast : monthStart (y - 1, 4) + 28 ≤ monthStart (y, m) :=
      monthStart_lt (by omega) hin (.inl (by omega))
    have hyear : y - 2 + 1 = y - 1 := by ring
    rw [hyear]
    omega

/-- The inferred year, or one before it, is taken on any host whose date is not more than two weeks
behind the one in Seoul. -/
theorem validateLookahead_inferred {now : Instant} {today k : ℤ}
    (htoday : kstDate now ≤ today + 14) (hk : k ≤ 0) :
    validateLookahead (inferLatestAvailableFiscalYear now + k) none today = .ok () := by
  have hout := disclosed_inferred now
  have hle : monthStart (inferLatestAvailableFiscalYear now + k + 1, 4) ≤
      monthStart (inferLatestAvailableFiscalYear now + 1, 4) := april_le (by omega)
  rw [validateLookahead_eq_ok, Option.getD_none]
  omega

/-- The inferred year is the last one that the check takes, but in the first two weeks of April:
there the check takes the year after it, too, and no other. -/
theorem inferred_year_accepted (now : Instant) (k : ℤ) :
    validateLookahead (inferLatestAvailableFiscalYear now + k) none (kstDate now) = .ok () ↔
      k ≤ 0 ∨ k = 1 ∧ monthStart ((yearAndMonth (kstDate now)).1, 4) ≤ kstDate now ∧
        kstDate now < monthStart ((yearAndMonth (kstDate now)).1, 4) + 14 := by
  by_cases hk : k ≤ 0
  · exact iff_of_true (validateLookahead_inferred (by omega) hk) (.inl hk)
  · rw [or_iff_right hk]
    obtain ⟨-, hend⟩ := date_bounds (kstDate now)
    obtain ⟨y, hy⟩ : ∃ y, y = (yearAndMonth (kstDate now)).1 := ⟨_, rfl⟩
    rw [← hy] at hend ⊢
    have hnext : monthStart (y + 1, 1) + 28 ≤ monthStart (y + 1, 4) :=
      monthStart_lt (by omega) (by omega) (.inr ⟨rfl, by omega⟩)
    rw [validateLookahead_eq_ok, Option.getD_none]
    simp only [inferLatestAvailableFiscalYear, ← hy]
    split
    · next hout =>
      have hlate : monthStart (y + 1, 4) ≤ monthStart (y - 1 + k + 1, 4) := april_le (by omega)
      omega
    · next hnot =>
      by_cases hone : k = 1
      · have hyear : y - 2 + k + 1 = y := by omega
        rw [hyear]
        omega
      · have hlate : monthStart (y + 1, 4) ≤ monthStart (y - 2 + k + 1, 4) := april_le (by omega)
        omega

/-- 2026-04-29, 2026-03-15 and 2027-01-15, at noon in Seoul. -/
example : [20572, 20527, 20833].map (fun day => inferLatestAvailableFiscalYear
    (day * microsecondsPerDay + 10800000000)) = [2025, 2024, 2025] := by
  decide

end Autotrading
