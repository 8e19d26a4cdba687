import Autotrading.KisMessages
import Autotrading.PythonDict
import Mathlib.Data.List.Sort

/-!
# The momentum signal

`app/strategy/signals/momentum.py`. Prices and returns are exact where pandas computes
with floats, and rows of equal rank keep the order of the data, which pandas leaves open.
-/
namespace Autotrading

/-- A float of pandas: exact, or one of the values a division by zero gives. -/
inductive Python.Number
  | nan
  | negInf
  | finite (q : ℚ)
  | posInf
  deriving DecidableEq

namespace Python.Number

/-- `a / b` of two numpy numbers. -/
def div (a b : ℚ) : Number :=
  if b ≠ 0 then finite (a / b)
  else if 0 < a then posInf
  else if a < 0 then negInf
  else nan

/-- `x < y`, false of NaN. -/
def lt : Number → Number → Bool
  | nan, _ => false
  | _, nan => false
  | finite p, finite q => p < q
  | x, y => x ≠ y && (x = negInf || y = posInf)

end Python.Number

open Python (Number)

/-- An OHLCV frame: the closes in the order of the dates, `none` for a missing one, and
what `pd.to_datetime` says of its column of dates. -/
structure Ohlcv where
  close : List (Option ℚ)
  date : Except PyExc Unit

inductive StrategySignal
  | buy
  | sell
  | hold
  deriving DecidableEq

/-- A row of the signal frame. NaN is ranked nowhere. -/
structure SignalRow where
  code : String
  momentumReturn : Number
  rank : Option ℚ
  signal : StrategySignal

structure MomentumStrategy where
  lookbackDays : ℕ
  topN : ℤ
  absThreshold : ℚ

namespace MomentumStrategy

/-- The return over the last `lookback_days` closes. -/
def lookbackReturn (s : MomentumStrategy) (df : Ohlcv) : Except PyExc Number :=
  let recent :=
    if s.lookbackDays = 0 then df.close else df.close.drop (df.close.length - s.lookbackDays)
  match recent.head?, recent.getLast? with
  | some (some first), some (some last) => .ok (.div (last - first) first)
  | some _, some _ => .ok .nan
  | _, _ => .error (.other "IndexError" "single positional indexer is out-of-bounds")

/-- `Series.rank(ascending=False)`: the mean of the places that equal values share. -/
def rank (returns : List Number) (x : Number) : Option ℚ :=
  if x = .nan then none
  else
    let above : ℚ := returns.countP fun y => x.lt y
    some (above + ((returns.count x : ℚ) + 1) / 2)

def buys (s : MomentumStrategy) (ret : Number) (rank : Option ℚ) : Bool :=
  rank.any (fun r : ℚ => r ≤ s.topN) && (Number.finite s.absThreshold).lt ret

/-- Ascending, NaN last. -/
def rankLe (a b : SignalRow) : Bool :=
  match a.rank, b.rank with
  | some x, some y => x ≤ y
  | none, some _ => false
  | _, none => true

/-- `generate_signal`. A code with too few rows is left out. -/
def generateSignal (s : MomentumStrategy) (data : Dict String Ohlcv) :
    Except PyExc (List SignalRow) := do
  let long := data.entries.filter fun e => s.lookbackDays ≤ e.2.close.length
  let returns ← long.mapM fun e => do
    let ret ← s.lookbackReturn e.2
    pure (e.1, ret)
  let values := returns.map Prod.snd
  let rows := returns.map fun e =>
    let r := rank values e.2
    { code := e.1, momentumReturn := e.2, rank := r
      signal := if s.buys e.2 r then .buy else .sell : SignalRow }
  pure (rows.mergeSort rankLe)

variable {s : MomentumStrategy} {df : Ohlcv} {data : Dict String Ohlcv} {rows : List SignalRow}

theorem recent_ne_nil (hne : df.close ≠ []) (hlong : s.lookbackDays ≤ df.close.length) :
    (if s.lookbackDays = 0 then df.close
      else df.close.drop (df.close.length - s.lookbackDays)) ≠ [] := by
  by_cases hzero : s.lookbackDays = 0
  · rw [if_pos hzero]
    exact hne
  · have hpos : 0 < df.close.length := List.length_pos_iff.mpr hne
    rw [if_neg hzero, ← List.length_pos_iff, List.length_drop]
    omega

theorem lookbackReturn_ok (hne : df.close ≠ []) (hlong : s.lookbackDays ≤ df.close.length) :
    ∃ x, s.lookbackReturn df = .ok x := by
  have hrecent := recent_ne_nil hne hlong
  unfold lookbackReturn
  generalize (if s.lookbackDays = 0 then df.close
    else df.close.drop (df.close.length - s.lookbackDays)) = recent at hrecent ⊢
  obtain ⟨first, rest, rfl⟩ := List.exists_cons_of_ne_nil hrecent
  have hlast : (first :: rest).getLast? = some ((first :: rest).getLast hrecent) :=
    List.getLast?_eq_some_getLast hrecent
  simp only [List.head?_cons, hlast]
  split
  · exact ⟨_, rfl⟩
  · exact ⟨_, rfl⟩
  · simp_all

/-- A return that is a number comes from a last close that is there. -/
theorem lookbackReturn_last {x : Number} (hx : s.lookbackReturn df = .ok x) (hnan : x ≠ .nan) :
    ∃ q, df.close.getLast? = some (some q) := by
  simp only [lookbackReturn] at hx
  split at hx
  · next first last hfirst hlast =>
    refine ⟨last, ?_⟩
    by_cases hzero : s.lookbackDays = 0
    · rwa [if_pos hzero] at hlast
    · rw [if_neg hzero, List.getLast?_drop] at hlast
      split at hlast
      · cases hlast
      · exact hlast
  · exact absurd (Except.ok.inj hx).symm hnan
  · cases hx

theorem generateSignal_ok
    (hne : ∀ e ∈ data.entries, s.lookbackDays ≤ e.2.close.length → e.2.close ≠ []) :
    ∃ rows, s.generateSignal data = .ok rows := by
  have hreturns : ∃ returns, (data.entries.filter fun e => s.lookbackDays ≤ e.2.close.length).mapM
      (fun e => do let ret ← s.lookbackReturn e.2; pure (e.1, ret)) = Except.ok returns := by
    refine exists_mapM_ok fun e he => ?_
    rw [List.mem_filter, decide_eq_true_iff] at he
    obtain ⟨x, hx⟩ := lookbackReturn_ok (hne e he.1 he.2) he.2
    exact ⟨(e.1, x), by simp [hx, bind, Except.bind, pure, Except.pure]⟩
  obtain ⟨returns, hret⟩ := hreturns
  exact ⟨_, by simp only [generateSignal, hret]; rfl⟩

/-- Every row is the one of a frame that was loaded. -/
theorem generateSignal_row (h : s.generateSignal data = .ok rows) {row : SignalRow}
    (hrow : row ∈ rows) :
    (∃ df, data.get? row.code = some df ∧ s.lookbackReturn df = .ok row.momentumReturn) ∧
      (row.signal = .buy → s.buys row.momentumReturn row.rank = true) := by
  simp only [generateSignal] at h
  cases hret : (data.entries.filter fun e => s.lookbackDays ≤ e.2.close.length).mapM
      (fun e => do let ret ← s.lookbackReturn e.2; pure (e.1, ret)) with
  | error e => rw [hret] at h; cases h
  | ok returns =>
    rw [hret] at h
    obtain rfl := Except.ok.inj h
    rw [List.mem_mergeSort, List.mem_map] at hrow
    obtain ⟨e, he, rfl⟩ := hrow
    obtain ⟨entry, hentry, hx⟩ := mem_of_mapM_ok hret he
    constructor
    · refine ⟨entry.2, ?_⟩
      rw [List.mem_filter] at hentry
      cases hlook : s.lookbackReturn entry.2 with
      | error e => rw [hlook] at hx; cases hx
      | ok x =>
        rw [hlook] at hx
        obtain rfl := Except.ok.inj hx
        exact ⟨Dict.mem_entries.mp hentry.1, rfl⟩
    · intro hbuy
      by_contra hnot
      simp [hnot] at hbuy

theorem buys_number {x : Number} {r : Option ℚ} (h : s.buys x r = true) :
    x ≠ .nan ∧ ∃ q, r = some q := by
  rw [buys, Bool.and_eq_true] at h
  constructor
  · intro hx
    simp [hx, Number.lt] at h
  · cases r with
    | none => simp at h
    | some q => exact ⟨q, rfl⟩

end MomentumStrategy

end Autotrading
