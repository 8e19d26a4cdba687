import Autotrading.OrderTable

/-!
# The market calendar and the rebalance window

`app/utils/market_calendar.py`. Dates are counted in days and instants in microseconds
from 1970-01-01, both as in Seoul, nine hours ahead of UTC all year. QuantLib's calendar
is a parameter.
-/
namespace Autotrading

/-! ## Dates in Seoul -/

def microsecondsPerDay : ℤ := 86400000000

/-- `t.astimezone(KST)`, counted from midnight in Seoul. -/
def toKst (t : Instant) : ℤ := t + 32400000000

/-- `t.astimezone(KST).date()`. -/
def kstDate (t : Instant) : ℤ := toKst t / microsecondsPerDay

/-- `t.astimezone(KST).time()`. -/
def kstTime (t : Instant) : ℤ := toKst t % microsecondsPerDay

/-- `time(hour, minute)`. -/
def timeOfDay (hour minute : ℤ) : ℤ := (hour * 60 + minute) * 60000000

/-- The year and the month of a date of the Gregorian calendar. Years are counted from
March on, in cycles of 400. -/
def yearAndMonth (date : ℤ) : ℤ × ℤ :=
  let days := date + 719468
  let cycle := days / 146097
  let dayOfCycle := days % 146097
  let yearOfCycle :=
    (dayOfCycle - dayOfCycle / 1460 + dayOfCycle / 36524 - dayOfCycle / 146096) / 365
  let dayOfYear := dayOfCycle - (365 * yearOfCycle + yearOfCycle / 4 - yearOfCycle / 100)
  let month := (5 * dayOfYear + 2) / 153 + 3
  if month ≤ 12 then (400 * cycle + yearOfCycle, month)
  else (400 * cycle + yearOfCycle + 1, month - 12)

/-- 1970-01-01, 2024-02-29, 2024-03-01 and 2026-12-31. -/
example : [0, 19782, 19783, 20818].map yearAndMonth = [(1970, 1), (2024, 2), (2024, 3), (2026, 12)] := by
  decide

/-! ## The calendar -/

/-- A `KrxCalendar`: `isBusinessDay` and `advance` of QuantLib's calendar of the KRX,
with `KRX_EXTRA_HOLIDAYS` added. -/
structure KrxCalendar where
  isBusinessDay : ℤ → Bool
  advance : ℤ → ℤ → ℤ

namespace KrxCalendar

def nextBusinessDay (c : KrxCalendar) (d : ℤ) : ℤ := c.advance d 1

def adjustToNextBusinessDay (c : KrxCalendar) (d : ℤ) : ℤ :=
  if c.isBusinessDay d then d else c.nextBusinessDay d

def addBusinessDays (c : KrxCalendar) (d n : ℤ) : ℤ := c.advance d n

/-- A date is never adjusted to an earlier one. -/
theorem le_adjustToNextBusinessDay {c : KrxCalendar} (hc : ∀ d, d ≤ c.nextBusinessDay d) (d : ℤ) :
    d ≤ c.adjustToNextBusinessDay d := by
  unfold adjustToNextBusinessDay
  split
  · exact le_rfl
  · exact hc d

end KrxCalendar

/-! ## The window -/

inductive WindowDecision
  | runRebalance
  | skipNotBusinessDay
  | skipNotRebalanceDay
  | skipOutOfTimeWindow
  deriving DecidableEq

/-- A `RebalanceWindow`. -/
structure RebalanceWindow where
  calendar : KrxCalendar
  lastRebalanceDate : ℤ
  startTime : ℤ
  endTime : ℤ
  rebalanceIntervalDays : ℤ := 30
  maxDelayBusinessDays : ℤ := 2

namespace RebalanceWindow

def nextRebalanceDate (x : RebalanceWindow) : ℤ :=
  x.calendar.adjustToNextBusinessDay (x.lastRebalanceDate + x.rebalanceIntervalDays)

/-- The last day to which a rebalance may be delayed. -/
def delayEnd (x : RebalanceWindow) : ℤ :=
  x.calendar.addBusinessDays x.nextRebalanceDate x.maxDelayBusinessDays

/-- `decide` at `now`. -/
def decide (x : RebalanceWindow) (now : Instant) : WindowDecision :=
  let today := kstDate now
  let currentTime := kstTime now
  if !x.calendar.isBusinessDay today then .skipNotBusinessDay
  else if x.calendar.isBusinessDay today ∧ x.nextRebalanceDate ≤ today ∧ today ≤ x.delayEnd then
    if x.startTime ≤ currentTime ∧ currentTime < x.endTime then .runRebalance
    else .skipOutOfTimeWindow
  else .skipNotRebalanceDay

/-- A rebalance runs on a business day from the due date to the end of the delay, within
the hours of the window. -/
theorem decide_eq_run_iff (x : RebalanceWindow) (now : Instant) :
    x.decide now = .runRebalance ↔
      x.calendar.isBusinessDay (kstDate now) = true ∧ x.nextRebalanceDate ≤ kstDate now ∧
        kstDate now ≤ x.delayEnd ∧ x.startTime ≤ kstTime now ∧ kstTime now < x.endTime := by
  unfold decide
  by_cases hday : x.calendar.isBusinessDay (kstDate now) = true
  · by_cases hdue : x.nextRebalanceDate ≤ kstDate now ∧ kstDate now ≤ x.delayEnd
    · by_cases htime : x.startTime ≤ kstTime now ∧ kstTime now < x.endTime
      · simp [hday, hdue, htime]
      · simp [hday, hdue, htime]
    · have hnot : ¬ (x.nextRebalanceDate ≤ kstDate now ∧ kstDate now ≤ x.delayEnd ∧
          x.startTime ≤ kstTime now ∧ kstTime now < x.endTime) := by
        intro h
        exact hdue ⟨h.1, h.2.1⟩
      simp [hday, hdue, hnot]
  · simp [hday]

/-- When it runs, the interval since the last rebalance is over. -/
theorem interval_of_run {x : RebalanceWindow} {now : Instant}
    (hc : ∀ d, d ≤ x.calendar.nextBusinessDay d) (h : x.decide now = .runRebalance) :
    x.lastRebalanceDate + x.rebalanceIntervalDays ≤ kstDate now := by
  have hdue := ((x.decide_eq_run_iff now).mp h).2.1
  exact (KrxCalendar.le_adjustToNextBusinessDay hc _).trans hdue

end RebalanceWindow

end Autotrading
