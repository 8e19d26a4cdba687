import Autotrading.BacktestData
import Autotrading.KisMessages

/-!
# The reversal and volume strategy in a backtest

What `BacktestExecutor` calls of `app/strategy/strategies/reversal_volume_strategy.py`. Prices are
numbers of any kind with the operations that numpy and pandas have for a column; nothing about
these is assumed.
-/
namespace Autotrading

/-- What numpy and pandas compute with the values of a column. -/
class Column (ν : Type) where
  add : Add ν
  sub : Sub ν
  mul : Mul ν
  div : Div ν
  le : LE ν
  lt : LT ν
  zero : Zero ν
  one : One ν
  intCast : IntCast ν
  decidableLE : DecidableLE ν
  decidableLT : DecidableLT ν
  /-- `Series.mean`. -/
  mean : List ν → ν
  /-- The positions of the values in the order of `sort_values`. -/
  argsort : List ν → List ℕ
  /-- `int(x)`. -/
  toInt : ν → Except PyExc ℤ

namespace Column

-- Numbers that have operations of their own keep them.
section Operations
variable {ν : Type} [Column ν]

instance (priority := low) : Add ν := add

instance (priority := low) : Sub ν := sub

instance (priority := low) : Mul ν := mul

instance (priority := low) : Div ν := div

instance (priority := low) : LE ν := le

instance (priority := low) : LT ν := lt

instance (priority := low) : Zero ν := zero

instance (priority := low) : One ν := one

instance (priority := low) : IntCast ν := intCast

instance (priority := low) : DecidableLE ν := decidableLE

instance (priority := low) : DecidableLT ν := decidableLT

end Operations

/-- `xs.iloc[i]`. -/
def iloc {α : Type} (xs : List α) (i : ℤ) : Except PyExc α :=
  let position := if i < 0 then i + xs.length else i
  if position < 0 then .error (.other "IndexError" "single positional indexer is out-of-bounds")
  else
    match xs[position.toNat]? with
    | some x => .ok x
    | none => .error (.other "IndexError" "single positional indexer is out-of-bounds")

/-- The place of a bound of a slice in a list of `n`. -/
def bound (n : ℕ) (i : ℤ) : ℕ := if i < 0 then (i + n).toNat else min i.toNat n

/-- `xs.iloc[start:stop]`. -/
def ilocSlice {α : Type} (xs : List α) (start : ℤ) (stop : Option ℤ) : List α :=
  let first := bound xs.length start
  let last := (stop.map (bound xs.length)).getD xs.length
  (xs.drop first).take (last - first)

/-- `df.sort_values(key)`. -/
def sortValues {ν α : Type} [Column ν] (key : α → ν) (rows : List α) : List α :=
  (argsort (rows.map key)).filterMap fun i => rows[i]?

end Column

/-- A row of the frame of candidates. -/
structure Candidate (ν : Type) where
  code : String
  name : Option String
  returnPct : ν
  volumeRatio : ν
  deriving DecidableEq

structure SwingPosition (ν : Type) where
  stockCode : String
  stockName : String
  entryPrice : ν
  quantity : ν
  entryDate : Instant
  holdingDays : ℤ
  deriving DecidableEq

structure SwingTradeRecord (ν : Type) where
  stockCode : String
  stockName : String
  entryDate : Instant
  exitDate : Instant
  entryPrice : ν
  exitPrice : ν
  quantity : ν
  returnPct : ν
  holdingDays : ℤ
  exitReason : String
  deriving DecidableEq

inductive ExitReason
  | takeProfit
  | stopLoss
  | timeExit
  deriving DecidableEq

def ExitReason.value : ExitReason → String
  | .takeProfit => "take_profit"
  | .stopLoss => "stop_loss"
  | .timeExit => "time_exit"

structure ExitDecision where
  shouldExit : Bool
  reason : Option ExitReason
  deriving DecidableEq

/-- `(later - earlier).days`. -/
def daysBetween (earlier later : Instant) : ℤ := (later - earlier) / 86400000000

/-- The parameters that the methods called in a backtest read, and the number of positions. -/
structure ReversalVolumeStrategy (ν : Type) where
  reversalDays : ℤ
  reversalPct : ν
  volumeAvgDays : ℤ
  volumeSpikeRatio : ν
  maxDrawdownPct : ν
  takeProfitPct : ν
  stopLossPct : ν
  maxHoldingDays : ℤ
  maxPositions : ℤ
  marketFilterEnabled : Bool
  marketMaDays : ℤ
  cooldownDays : ℤ

namespace ReversalVolumeStrategy

variable {ν : Type} [Column ν]

/-- The return of a code in the second stage of `scan_from_data`, `none` where it is left out. -/
def reversalReturn (s : ReversalVolumeStrategy ν) (scanDate : Instant) (preloadedData : PriceData ν)
    (code : String) : Except PyExc (Option ν) :=
  match preloadedData.history? code scanDate with
  | none => pure none
  | some dfSlice =>
    if dfSlice.length < s.reversalDays + 1 then pure none
    else do
      let last ← Column.iloc dfSlice (-1)
      let before ← Column.iloc dfSlice (-(s.reversalDays + 1))
      pure (some (last.close / before.close - 1))

/-- The volume of a code over its average in the third stage, `none` where it is left out. -/
def volumeRatio (s : ReversalVolumeStrategy ν) (scanDate : Instant) (preloadedData : PriceData ν)
    (code : String) : Except PyExc (Option ν) :=
  match preloadedData.history? code scanDate with
  | none => pure none
  | some dfSlice =>
    if dfSlice.length < s.volumeAvgDays + 1 then pure none
    else do
      let cur ← Column.iloc dfSlice (-1)
      let avg := Column.mean
        (Column.ilocSlice (dfSlice.map (·.volume)) (-(s.volumeAvgDays + 1)) (some (-1)))
      pure (if 0 < avg then some (cur.volume / avg) else none)

/-- `_apply_risk_cut`. -/
def applyRiskCut (s : ReversalVolumeStrategy ν) (df : List (Candidate ν)) : List (Candidate ν) :=
  df.filter fun row => s.maxDrawdownPct < row.returnPct

/-- `scan_from_data`. The frames it gives up with have no rows. -/
def scanFromData (s : ReversalVolumeStrategy ν) (scanDate : Instant) (dfUniverse : List UniverseRow)
    (preloadedData : PriceData ν) : Except PyExc (List (Candidate ν)) := do
  -- the second stage: codes that have fallen, the ones that fell most
  let returns ← dfUniverse.mapM fun row => do
    let ret ← s.reversalReturn scanDate preloadedData row.code
    pure (ret.map fun ret => (row, ret))
  let df := (returns.filterMap id).filter fun row => row.2 < 0
  if df.isEmpty then pure []
  else
    let share ← Column.toInt (((df.length : ℤ) : ν) * s.reversalPct)
    let cutoff := max 1 share
    let df := (Column.sortValues (·.2) df).take cutoff.toNat
    -- the third stage: those with a spike in volume
    let ratios ← df.mapM fun row => do
      let ratio ← s.volumeRatio scanDate preloadedData row.1.code
      pure (ratio.map fun ratio => (⟨row.1.code, row.1.name, row.2, ratio⟩ : Candidate ν))
    let df := (ratios.filterMap id).filter fun row => s.volumeSpikeRatio ≤ row.volumeRatio
    if df.isEmpty then pure []
    else pure (Column.sortValues (·.returnPct) (s.applyRiskCut df))

/-- `_is_bear_market`. -/
def isBearMarket (s : ReversalVolumeStrategy ν) (date : Instant)
    (dfBenchmark : Option (PriceFrame ν)) : Except PyExc Bool :=
  match dfBenchmark with
  | none => pure true
  | some df =>
    if df.rows.isEmpty then pure true
    else
      let dfSlice := (df.upTo date).rows
      if dfSlice.length < s.marketMaDays + 1 then pure true
      else do
        let current ← Column.iloc dfSlice (-1)
        let ma := Column.mean (Column.ilocSlice (dfSlice.map (·.close)) (-s.marketMaDays) none)
        pure (current.close < ma)

/-- `should_exit`. -/
def shouldExit (s : ReversalVolumeStrategy ν) (position : SwingPosition ν) (date : Instant)
    (data : PriceData ν) : ExitDecision :=
  match data.close? position.stockCode date with
  | none => ⟨false, none⟩
  | some price =>
    let ret := (price - position.entryPrice) / position.entryPrice
    if s.takeProfitPct ≤ ret then ⟨true, some .takeProfit⟩
    else if ret ≤ s.stopLossPct then ⟨true, some .stopLoss⟩
    else if s.maxHoldingDays ≤ position.holdingDays then ⟨true, some .timeExit⟩
    else ⟨false, none⟩

/-- `generate_entry_signals`. -/
def generateEntrySignals (s : ReversalVolumeStrategy ν) (date : Instant)
    (dfUniverse : List UniverseRow) (preloadedData : PriceData ν)
    (currentPositions : List (SwingPosition ν)) (recentTradeHistory : List (SwingTradeRecord ν))
    (dfBenchmark : Option (PriceFrame ν)) : Except PyExc (List (Candidate ν)) := do
  let bear ← (if s.marketFilterEnabled then s.isBearMarket date dfBenchmark else pure true)
  if !bear then pure []
  else
    let candidates ← s.scanFromData date dfUniverse preloadedData
    let held := currentPositions.map (·.stockCode)
    let recentExits := (recentTradeHistory.filter fun t =>
      daysBetween t.exitDate date ≤ s.cooldownDays).map (·.stockCode)
    pure (candidates.filter fun row => row.code ∉ held ∧ row.code ∉ recentExits)

/-- `size_position`: an equal share of the cash. -/
def sizePosition (_ : ReversalVolumeStrategy ν) (_signal : Candidate ν) (availableCash _totalEquity : ν)
    (numNewEntries : ℤ) : ν :=
  if numNewEntries ≤ 0 then 0 else availableCash / (numNewEntries : ν)

/-! ## Nothing is read past the date -/

variable {s : ReversalVolumeStrategy ν} {date t : Instant} {data : PriceData ν}

theorem scanFromData_upTo (h : date ≤ t) (dfUniverse : List UniverseRow) :
    s.scanFromData date dfUniverse (data.upTo t) = s.scanFromData date dfUniverse data := by
  have hreturn : ∀ code, s.reversalReturn date (data.upTo t) code = s.reversalReturn date data code := by
    intro code
    unfold reversalReturn
    rw [PriceData.history?_upTo h]
  have hratio : ∀ code, s.volumeRatio date (data.upTo t) code = s.volumeRatio date data code := by
    intro code
    unfold volumeRatio
    rw [PriceData.history?_upTo h]
  unfold scanFromData
  simp only [hreturn, hratio]

/-- The benchmark is asked whether it has rows at all; one that has the date itself has. -/
theorem isBearMarket_upTo (h : date ≤ t) {df : PriceFrame ν} (hdate : date ∈ df.index) :
    s.isBearMarket date (some (df.upTo t)) = s.isBearMarket date (some df) := by
  have hrows : ∀ df : PriceFrame ν, date ∈ df.index → df.rows.isEmpty = false := by
    intro df hmem
    rw [List.isEmpty_eq_false_iff]
    intro hnil
    rw [PriceFrame.index, hnil] at hmem
    cases hmem
  have hcut := hrows (df.upTo t) (PriceFrame.mem_index_upTo.mpr ⟨hdate, h⟩)
  unfold isBearMarket
  simp only [hcut, hrows df hdate, PriceFrame.upTo_upTo h]

theorem shouldExit_upTo (h : date ≤ t) (position : SwingPosition ν) :
    s.shouldExit position date (data.upTo t) = s.shouldExit position date data := by
  unfold shouldExit
  rw [PriceData.close?_upTo h]

theorem generateEntrySignals_upTo (h : date ≤ t) {dfBenchmark : Option (PriceFrame ν)}
    (hdate : ∀ df, dfBenchmark = some df → date ∈ df.index) (dfUniverse : List UniverseRow)
    (currentPositions : List (SwingPosition ν)) (recentTradeHistory : List (SwingTradeRecord ν)) :
    s.generateEntrySignals date dfUniverse (data.upTo t) currentPositions recentTradeHistory
        (dfBenchmark.map (·.upTo t)) =
      s.generateEntrySignals date dfUniverse data currentPositions recentTradeHistory dfBenchmark := by
  have hbear : s.isBearMarket date (dfBenchmark.map (·.upTo t)) = s.isBearMarket date dfBenchmark := by
    cases hdf : dfBenchmark with
    | none => rfl
    | some df => exact isBearMarket_upTo h (hdate df hdf)
  unfold generateEntrySignals
  rw [hbear, scanFromData_upTo h]

end ReversalVolumeStrategy

end Autotrading
