import Autotrading.World

/-!
# The month of a rebalance

`has_completed_rebalance_in_month` of `app/repository/rebalance_repository.py` in a session
of any time zone. `date_trunc` takes the month of `executed_at` in that zone, and the first
of the month it is compared with is read as midnight in that zone; the caller and the
queries beside it convert to Seoul.
-/
namespace Autotrading

/-! ## The first of a month -/

/-- `date(year, month, 1)`. -/
def monthStart (yearAndMonth : ℤ × ℤ) : ℤ :=
  let year := if 2 < yearAndMonth.2 then yearAndMonth.1 else yearAndMonth.1 - 1
  let month := if 2 < yearAndMonth.2 then yearAndMonth.2 - 3 else yearAndMonth.2 + 9
  365 * year + year / 4 - year / 100 + year / 400 + (153 * month + 2) / 5 - 719468

/-- 1970-01-01, 2024-02-01, 2024-03-01 and 2026-12-01. -/
example : [(1970, 1), (2024, 2), (2024, 3), (2026, 12)].map monthStart = [0, 19754, 19783, 20788] := by
  decide

theorem month_bounds (date : ℤ) : 1 ≤ (yearAndMonth date).2 ∧ (yearAndMonth date).2 ≤ 12 := by
  simp only [yearAndMonth]
  split <;> dsimp only <;> omega

/-- A month is at least 28 days long. -/
theorem monthStart_lt {y y' m m' : ℤ} (hm : 1 ≤ m ∧ m ≤ 12) (hm' : 1 ≤ m' ∧ m' ≤ 12)
    (hlt : y < y' ∨ y = y' ∧ m < m') : monthStart (y, m) + 28 ≤ monthStart (y', m') := by
  simp only [monthStart]
  split <;> split <;> omega

theorem monthStart_apart {a b : ℤ × ℤ} (ha : 1 ≤ a.2 ∧ a.2 ≤ 12) (hb : 1 ≤ b.2 ∧ b.2 ≤ 12)
    (hne : a ≠ b) : monthStart a + 28 ≤ monthStart b ∨ monthStart b + 28 ≤ monthStart a := by
  obtain ⟨y, m⟩ := a
  obtain ⟨y', m'⟩ := b
  rw [Ne, Prod.mk.injEq] at hne
  by_cases hlt : y < y' ∨ y = y' ∧ m < m'
  · exact .inl (monthStart_lt ha hb hlt)
  · refine .inr (monthStart_lt hb ha ?_)
    omega

/-! ## The time zone of a session -/

/-- A time zone as PostgreSQL reads it: what is added to an instant for its local time, and
the instant of a local midnight. No zone is 16 hours from UTC. -/
structure SessionZone where
  offset : Instant → ℤ
  midnight : ℤ → Instant
  near : ∀ date, |midnight date - date * microsecondsPerDay| < 57600000000

namespace SessionZone

/-- The local date of an instant. -/
def localDate (z : SessionZone) (t : Instant) : ℤ := (t + z.offset t) / microsecondsPerDay

/-- `date_trunc('month', t)`. -/
def dateTruncMonth (z : SessionZone) (t : Instant) : Instant :=
  z.midnight (monthStart (yearAndMonth (z.localDate t)))

/-- `timestamptz = date`. -/
def eqDate (z : SessionZone) (t : Instant) (date : ℤ) : Bool := t = z.midnight date

/-- Midnights of the firsts of different months are different instants. -/
theorem midnight_inj (z : SessionZone) {a b : ℤ × ℤ} (ha : 1 ≤ a.2 ∧ a.2 ≤ 12)
    (hb : 1 ≤ b.2 ∧ b.2 ≤ 12) (h : z.midnight (monthStart a) = z.midnight (monthStart b)) : a = b := by
  by_contra hne
  have hnear := abs_lt.mp (z.near (monthStart a))
  have hnear' := abs_lt.mp (z.near (monthStart b))
  have hday : microsecondsPerDay = 86400000000 := rfl
  rw [h, hday] at hnear
  rw [hday] at hnear'
  obtain hlt | hlt := monthStart_apart ha hb hne
  · linarith [hnear.1, hnear'.2]
  · linarith [hnear.2, hnear'.1]

/-- Greenwich. -/
def utc : SessionZone where
  offset _ := 0
  midnight date := date * microsecondsPerDay
  near date := by simp

/-- Seoul, nine hours ahead. -/
def seoul : SessionZone where
  offset _ := 32400000000
  midnight date := date * microsecondsPerDay - 32400000000
  near date := by simp

end SessionZone

/-! ## The query -/

/-- A live rebalance that is running or has completed. -/
def Rebalance.counts (r : Rebalance) : Bool :=
  r.committed && r.status ∈ [.running, .completed] && !r.dryRun

/-- `has_completed_rebalance_in_month` in a session of the zone. -/
def hasCompletedRebalanceInMonth (z : SessionZone) (rows : List Rebalance) (targetMonth : ℤ) : Bool :=
  let firstOfMonth := monthStart (yearAndMonth targetMonth)
  rows.any fun r => r.counts && z.eqDate (z.dateTruncMonth r.executedAt) firstOfMonth

variable {z : SessionZone} {rows : List Rebalance} {targetMonth : ℤ}

/-- The query finds the rebalances of the month of the session. -/
theorem hasCompletedRebalanceInMonth_eq_true_iff :
    hasCompletedRebalanceInMonth z rows targetMonth = true ↔
      ∃ r ∈ rows, r.counts = true ∧
        yearAndMonth (z.localDate r.executedAt) = yearAndMonth targetMonth := by
  have heq : ∀ t : Instant,
      z.eqDate (z.dateTruncMonth t) (monthStart (yearAndMonth targetMonth)) = true ↔
        yearAndMonth (z.localDate t) = yearAndMonth targetMonth := by
    intro t
    rw [SessionZone.eqDate, SessionZone.dateTruncMonth, decide_eq_true_iff]
    constructor
    · exact z.midnight_inj (month_bounds _) (month_bounds _)
    · intro h
      rw [h]
  rw [hasCompletedRebalanceInMonth, List.any_eq_true]
  simp only [Bool.and_eq_true, heq]

/-- In Seoul it is the query of the gate. -/
theorem hasCompletedRebalanceInMonth_seoul (w : World) (targetMonth : ℤ) :
    hasCompletedRebalanceInMonth .seoul w.records targetMonth =
      w.inMonth (yearAndMonth targetMonth) := by
  have hdate : ∀ t : Instant, SessionZone.seoul.localDate t = kstDate t := fun t => rfl
  rw [Bool.eq_iff_iff, hasCompletedRebalanceInMonth_eq_true_iff, World.inMonth, List.any_eq_true]
  simp only [hdate, Rebalance.counts, Bool.and_eq_true, decide_eq_true_iff]

/-- A rebalance of the month in Seoul. -/
def InSeoulMonth (rows : List Rebalance) (targetMonth : ℤ) : Prop :=
  ∃ r ∈ rows, r.counts = true ∧
    yearAndMonth (kstDate r.executedAt) = yearAndMonth targetMonth

/-- The rebalances that only one of the two zones puts into the month are made up for: one
of the session by one of Seoul, and the other way round. -/
structure MadeUp (z : SessionZone) (rows : List Rebalance) (targetMonth : ℤ) : Prop where
  session : ∀ r ∈ rows, r.counts = true →
    yearAndMonth (z.localDate r.executedAt) = yearAndMonth targetMonth →
    yearAndMonth (kstDate r.executedAt) ≠ yearAndMonth targetMonth →
      ∃ r' ∈ rows, r'.counts = true ∧
        yearAndMonth (kstDate r'.executedAt) = yearAndMonth targetMonth
  seoul : ∀ r ∈ rows, r.counts = true →
    yearAndMonth (kstDate r.executedAt) = yearAndMonth targetMonth →
    yearAndMonth (z.localDate r.executedAt) ≠ yearAndMonth targetMonth →
      ∃ r' ∈ rows, r'.counts = true ∧
        yearAndMonth (z.localDate r'.executedAt) = yearAndMonth targetMonth

theorem answers_seoul_iff :
    (hasCompletedRebalanceInMonth z rows targetMonth = true ↔ InSeoulMonth rows targetMonth) ↔
      MadeUp z rows targetMonth := by
  rw [hasCompletedRebalanceInMonth_eq_true_iff, InSeoulMonth]
  constructor
  · intro h
    exact ⟨fun r hr hcounts hmonth _ => h.mp ⟨r, hr, hcounts, hmonth⟩,
      fun r hr hcounts hmonth _ => h.mpr ⟨r, hr, hcounts, hmonth⟩⟩
  · intro h
    constructor
    · rintro ⟨r, hr, hcounts, hmonth⟩
      by_cases hboth : yearAndMonth (kstDate r.executedAt) = yearAndMonth targetMonth
      · exact ⟨r, hr, hcounts, hboth⟩
      · exact h.session r hr hcounts hmonth hboth
    · rintro ⟨r, hr, hcounts, hmonth⟩
      by_cases hboth : yearAndMonth (z.localDate r.executedAt) = yearAndMonth targetMonth
      · exact ⟨r, hr, hcounts, hboth⟩
      · exact h.seoul r hr hcounts hmonth hboth

/-- The query tells of the month in Seoul exactly when the rebalances at the edges of the
month are made up for. It does so for all rebalances and dates exactly when the zone of the
session puts every instant into the month that it has in Seoul. -/
theorem hasCompletedRebalanceInMonth_iff (z : SessionZone) :
    (∀ rows targetMonth,
      (hasCompletedRebalanceInMonth z rows targetMonth = true ↔ InSeoulMonth rows targetMonth) ↔
        MadeUp z rows targetMonth) ∧
    ((∀ rows targetMonth,
        hasCompletedRebalanceInMonth z rows targetMonth = true ↔ InSeoulMonth rows targetMonth) ↔
      ∀ t, yearAndMonth (z.localDate t) = yearAndMonth (kstDate t)) := by
  refine ⟨fun rows targetMonth => answers_seoul_iff, fun h t => ?_, fun h rows targetMonth => ?_⟩
  · have hrow := (h [{ id := 0, executedAt := t, dryRun := false, committed := true }] (kstDate t)).mpr
      ⟨_, List.mem_cons_self, rfl, rfl⟩
    obtain ⟨r, hr, -, hmonth⟩ := hasCompletedRebalanceInMonth_eq_true_iff.mp hrow
    obtain rfl := List.mem_singleton.mp hr
    exact hmonth
  · rw [hasCompletedRebalanceInMonth_eq_true_iff, InSeoulMonth]
    simp only [h]

/-- A rebalance at half past eight on the first of April 2026 in Seoul, still March in
Greenwich. -/
def earlyRebalance : Rebalance where
  id := 0
  executedAt := 1774999800000000
  dryRun := false
  status := .completed
  committed := true

theorem earlyRebalance_not_found :
    ¬ (hasCompletedRebalanceInMonth .utc [earlyRebalance] 20544 = true ↔
      InSeoulMonth [earlyRebalance] 20544) := by
  have hseoul : InSeoulMonth [earlyRebalance] 20544 :=
    ⟨earlyRebalance, List.mem_cons_self, rfl, by decide⟩
  have hnot : hasCompletedRebalanceInMonth .utc [earlyRebalance] 20544 = false := by decide
  simp [hseoul, hnot]

end Autotrading
