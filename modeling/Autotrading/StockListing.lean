import Autotrading.ExactColumns
import Autotrading.MarketCalendar

/-!
# The list of stocks

The frame that `get_stock_list_raw` of `app/market/provider/fdr_provider.py` returns, with the
columns that the universes and the live scan read, and the business days of pandas, which are all
the weekdays.
-/
namespace Autotrading

/-- A row of the stock list. -/
structure ListedStock (ν : Type) where
  code : String
  name : String
  market : String
  marcap : ν
  stocks : ν
  deriving DecidableEq

/-- `df.head(n)`: a negative number leaves off as many rows at the end. -/
def Column.head {α : Type} (n : ℤ) (rows : List α) : List α :=
  if 0 ≤ n then rows.take n.toNat else rows.take (rows.length - n.natAbs)

theorem Column.head_sublist {α : Type} (n : ℤ) (rows : List α) :
    (Column.head n rows).Sublist rows := by
  unfold Column.head
  split_ifs
  · exact List.take_sublist _ _
  · exact List.take_sublist _ _

theorem Column.head_of_length_le {α : Type} {n : ℤ} {rows : List α} (h : rows.length ≤ n) :
    Column.head n rows = rows := by
  rw [Column.head, if_pos (by omega)]
  exact List.take_of_length_le (by omega)

/-- `df.tail(n)`: a negative number leaves off as many rows at the start. -/
def Column.tail {α : Type} (n : ℤ) (rows : List α) : List α :=
  if 0 ≤ n then rows.drop (rows.length - n.toNat) else rows.drop n.natAbs

/-- The day of the week of a date, Monday being 0. -/
def weekday (date : ℤ) : ℤ := (date + 3) % 7

/-- `date + BDay(n)`. -/
def plusBDays (date n : ℤ) : ℤ :=
  let wday := weekday date
  let weeks := n / 5
  let rest := (if n ≤ 0 ∧ 4 < wday then n + 1 else n) - 5 * weeks
  let days :=
    if rest = 0 ∧ 4 < wday then 4 - wday
    else if 4 < wday then (7 - wday) + (rest - 1)
    else if wday + rest ≤ 4 then rest
    else rest + 2
  date + (7 * weeks + days)

/-- Five business days behind Thursday 2025-01-02 and Saturday 2025-01-04, and five before it. -/
example : [plusBDays 20090 5, plusBDays 20092 5, plusBDays 20092 (-5)] = [20097, 20098, 20087] := by
  decide

end Autotrading
