import Autotrading.PiotroskiMomentum
import Autotrading.ReversalVolume
import Autotrading.StockListing

/-!
# The live scan of the reversal and volume strategy

`execute` and `scan` of `app/strategy/strategies/reversal_volume_strategy.py`, which take the data
from the provider stock by stock. A frame that a stage gives up with has no columns.
-/
namespace Autotrading

/-- `FDRMarketDataProvider` as the scan calls it. What a request raises is an `Exception`, of which
only the text is kept. -/
structure LiveProvider (ν : Type) where
  stockList : List (ListedStock ν)
  getOhlcv : String → ℤ → ℤ → Except String (List (OhlcvRow ν))

/-- The strategy with the parameters of the first stage. -/
structure LiveReversalVolume (ν : Type) extends ReversalVolumeStrategy ν where
  maxMarcap : ν
  minMarcap : ν
  avgAmountDays : ℤ
  topNLiquid : ℤ

/-- `SPECIAL_ENTITY_CODES`. -/
def specialEntityCodes : List String := ["088980"]

/-- A `TradeIntent` of a scan, with the two numbers that the text of its reason shows. -/
structure LiveReversalVolume.TradeIntent (ν : Type) where
  stockCode : String
  stockName : Option String
  side : TradeSide
  returnPct : ν
  volumeRatio : ν

/-- A `StrategyResult` of a scan, with the entries of its `metadata`. -/
structure LiveReversalVolume.StrategyResult (ν : Type) where
  strategyName : String
  orders : List (LiveReversalVolume.TradeIntent ν)
  scanDate : Option ℤ
  candidatesCount : ℕ

section Stages
variable {ν : Type} [Column ν]

namespace ReversalVolumeStrategy

/-- The return of a code in `_screen_reversal`, `none` where it is left out or something raises. -/
def liveReturn (s : ReversalVolumeStrategy ν) (p : LiveProvider ν) (startDate endDate : ℤ)
    (code : String) : Option ν :=
  match p.getOhlcv code startDate endDate with
  | .error _ => none
  | .ok df =>
    if df.length < s.reversalDays + 1 then none
    else Except.toOption do
      let last ← Column.iloc df (-1)
      let before ← Column.iloc df (-(s.reversalDays + 1))
      pure (last.close / before.close - 1)

/-- The volume of a code over its average in `_check_volume_spike`. -/
def liveRatio (s : ReversalVolumeStrategy ν) (p : LiveProvider ν) (startDate endDate : ℤ)
    (code : String) : Option ν :=
  match p.getOhlcv code startDate endDate with
  | .error _ => none
  | .ok df =>
    if df.length < s.volumeAvgDays + 1 then none
    else Option.join <| Except.toOption do
      let cur ← Column.iloc df (-1)
      let avg := Column.mean
        (Column.ilocSlice (df.map (·.volume)) (-(s.volumeAvgDays + 1)) (some (-1)))
      pure (if 0 < avg then some (cur.volume / avg) else none)

/-- `_screen_reversal`. -/
def screenReversal (s : ReversalVolumeStrategy ν) (p : LiveProvider ν)
    (dfUniverse : List UniverseRow) (startDate endDate : ℤ) :
    Except PyExc (Option (List (UniverseRow × ν))) := do
  let df := dfUniverse.filterMap fun row =>
    (s.liveReturn p startDate endDate row.code).map fun ret => (row, ret)
  if df.isEmpty then pure none
  else
    let df := df.filter fun row => row.2 < 0
    let share ← Column.toInt (((df.length : ℤ) : ν) * s.reversalPct)
    let cutoff := max 1 share
    pure (some ((Column.sortValues (·.2) df).take cutoff.toNat))

/-- `_check_volume_spike`. -/
def checkVolumeSpike (s : ReversalVolumeStrategy ν) (p : LiveProvider ν)
    (dfReversal : List (UniverseRow × ν)) (startDate endDate : ℤ) : Option (List (Candidate ν)) :=
  let df := dfReversal.filterMap fun row =>
    (s.liveRatio p startDate endDate row.1.code).map fun ratio =>
      (⟨row.1.code, row.1.name, row.2, ratio⟩ : Candidate ν)
  if df.isEmpty then none else some (df.filter fun row => s.volumeSpikeRatio ≤ row.volumeRatio)

/-- `scan` behind its first stage. -/
def scanUniverse (s : ReversalVolumeStrategy ν) (p : LiveProvider ν) (dfUniverse : List UniverseRow)
    (startDate endDate : ℤ) : Except PyExc (Option (List (Candidate ν))) := do
  if dfUniverse.isEmpty then pure none
  else
    let dfReversal ← s.screenReversal p dfUniverse startDate endDate
    match dfReversal with
    | none => pure none
    | some dfReversal =>
      if dfReversal.isEmpty then pure none
      else
        match s.checkVolumeSpike p dfReversal startDate endDate with
        | none => pure none
        | some dfVolume =>
          if dfVolume.isEmpty then pure none
          else pure (some (Column.sortValues (·.returnPct) (s.applyRiskCut dfVolume)))

/-- The rows that have a return. -/
def returned (s : ReversalVolumeStrategy ν) (p : LiveProvider ν) (dfUniverse : List UniverseRow)
    (startDate endDate : ℤ) : List (UniverseRow × ν) :=
  dfUniverse.filterMap fun row =>
    (s.liveReturn p startDate endDate row.code).map fun ret => (row, ret)

/-- The rows that have fallen. -/
def fallers (s : ReversalVolumeStrategy ν) (p : LiveProvider ν) (dfUniverse : List UniverseRow)
    (startDate endDate : ℤ) : List (UniverseRow × ν) :=
  (s.returned p dfUniverse startDate endDate).filter fun row => row.2 < 0

/-- The rows with a spike in volume. -/
def spikes (s : ReversalVolumeStrategy ν) (p : LiveProvider ν) (df : List (UniverseRow × ν))
    (startDate endDate : ℤ) : List (Candidate ν) :=
  (df.filterMap fun row =>
    (s.liveRatio p startDate endDate row.1.code).map fun ratio =>
      (⟨row.1.code, row.1.name, row.2, ratio⟩ : Candidate ν)).filter fun row =>
    s.volumeSpikeRatio ≤ row.volumeRatio

/-- The rows that fell most, `share` of them. -/
def mostFallen (s : ReversalVolumeStrategy ν) (p : LiveProvider ν) (dfUniverse : List UniverseRow)
    (startDate endDate : ℤ) (share : ℤ) : List (UniverseRow × ν) :=
  (Column.sortValues (·.2) (s.fallers p dfUniverse startDate endDate)).take (max 1 share).toNat

variable {s : ReversalVolumeStrategy ν} {p : LiveProvider ν} {dfUniverse : List UniverseRow}
  {df : List (UniverseRow × ν)} {startDate endDate share : ℤ}

theorem checkVolumeSpike_getD :
    (s.checkVolumeSpike p df startDate endDate).getD [] = s.spikes p df startDate endDate := by
  unfold checkVolumeSpike spikes
  dsimp only
  split_ifs with hempty
  · rw [List.isEmpty_iff] at hempty
    rw [hempty]
    rfl
  · rfl

theorem screenReversal_eq : s.screenReversal p dfUniverse startDate endDate =
    if (s.returned p dfUniverse startDate endDate).isEmpty then .ok none
    else (Column.toInt ((((s.fallers p dfUniverse startDate endDate).length : ℤ) : ν) *
      s.reversalPct)).map fun share =>
        some (s.mostFallen p dfUniverse startDate endDate share) := by
  show (if (s.returned p dfUniverse startDate endDate).isEmpty then _ else _) = _
  split_ifs
  · rfl
  · show Column.toInt ((((s.fallers p dfUniverse startDate endDate).length : ℤ) : ν) *
      s.reversalPct) >>= _ = _
    cases Column.toInt ((((s.fallers p dfUniverse startDate endDate).length : ℤ) : ν) *
      s.reversalPct) with
    | error e => rfl
    | ok share => rfl

theorem ne_nil_of_returned (h : s.returned p dfUniverse startDate endDate ≠ []) :
    dfUniverse ≠ [] := by
  rintro rfl
  exact h rfl

/-- Without a return of any code there is nothing to screen. -/
theorem scanUniverse_of_none (h : s.returned p dfUniverse startDate endDate = []) :
    s.scanUniverse p dfUniverse startDate endDate = .ok none := by
  unfold scanUniverse
  split_ifs
  · rfl
  · rw [screenReversal_eq, h]
    rfl

theorem scanUniverse_error {e : PyExc} (h : s.returned p dfUniverse startDate endDate ≠ [])
    (hshare : Column.toInt ((((s.fallers p dfUniverse startDate endDate).length : ℤ) : ν) *
      s.reversalPct) = .error e) :
    s.scanUniverse p dfUniverse startDate endDate = .error e := by
  have huniverse := ne_nil_of_returned h
  unfold scanUniverse
  rw [if_neg (by simpa using huniverse), screenReversal_eq, if_neg (by simpa using h), hshare]
  rfl

/-- The frame has columns exactly when a row is left behind the third stage. -/
theorem scanUniverse_of_share (h : s.returned p dfUniverse startDate endDate ≠ [])
    (hshare : Column.toInt ((((s.fallers p dfUniverse startDate endDate).length : ℤ) : ν) *
      s.reversalPct) = .ok share) :
    s.scanUniverse p dfUniverse startDate endDate = .ok
      (if (s.spikes p (s.mostFallen p dfUniverse startDate endDate share) startDate endDate).isEmpty
        then none
        else some (Column.sortValues (·.returnPct) (s.applyRiskCut
          (s.spikes p (s.mostFallen p dfUniverse startDate endDate share) startDate
            endDate)))) := by
  have huniverse := ne_nil_of_returned h
  have hscreen : s.screenReversal p dfUniverse startDate endDate =
      .ok (some (s.mostFallen p dfUniverse startDate endDate share)) := by
    rw [screenReversal_eq, if_neg (by simpa using h), hshare]
    rfl
  unfold scanUniverse
  rw [if_neg (by simpa using huniverse), hscreen]
  generalize s.mostFallen p dfUniverse startDate endDate share = df
  show (if df.isEmpty then (.ok none : Except PyExc (Option (List (Candidate ν)))) else _) = _
  have hspikes : (s.checkVolumeSpike p df startDate endDate).getD [] =
      s.spikes p df startDate endDate :=
    checkVolumeSpike_getD
  by_cases hempty : df = []
  · subst hempty
    rfl
  · rw [if_neg (by simpa using hempty), ← hspikes]
    cases hcheck : s.checkVolumeSpike p df startDate endDate with
    | none => rfl
    | some dfVolume =>
      rw [Option.getD_some]
      dsimp only
      split_ifs
      · rfl
      · rfl

end ReversalVolumeStrategy

namespace LiveReversalVolume

/-- `re.match(r"^\d{6}$", code)`. -/
def isSixDigits (code : String) : Bool := code.length = 6 && code.toList.all Char.isDigit

/-- The mean amount that was traded of a code, where there are bars enough. -/
def avgAmount (s : LiveReversalVolume ν) (p : LiveProvider ν) (startDate endDate : ℤ)
    (code : String) : Option ν :=
  match p.getOhlcv code startDate endDate with
  | .error _ => none
  | .ok df =>
    if s.avgAmountDays ≤ df.length then
      some (Column.mean ((Column.tail s.avgAmountDays df).map fun row => row.close * row.volume))
    else none

/-- `_filter_liquidity`. -/
def filterLiquidity (s : LiveReversalVolume ν) (p : LiveProvider ν) (startDate endDate : ℤ) :
    List UniverseRow :=
  let dfList := p.stockList.filter fun row => s.minMarcap ≤ row.marcap
  let dfList := dfList.filter fun row => row.marcap ≤ s.maxMarcap
  let dfList := dfList.filter fun row => isSixDigits row.code
  let dfList := dfList.filter fun row => row.code.toList.getLast? = some '0'
  let dfList := dfList.filter fun row => row.market ∈ ["KOSPI", "KOSDAQ", "KOSDAQ GLOBAL"]
  let dfList := dfList.filter fun row => row.code ∉ specialEntityCodes
  let df := dfList.filterMap fun row =>
    (s.avgAmount p startDate endDate row.code).map fun amount => (row, amount)
  (Column.head s.topNLiquid (Column.sortValues (fun row => 0 - row.2) df)).map fun row =>
    ⟨row.1.code, some row.1.name⟩

/-- The first day that a scan asks for. -/
def scanStart (s : LiveReversalVolume ν) (endDate : ℤ) : ℤ :=
  plusBDays endDate (-(max (max s.reversalDays s.avgAmountDays) s.volumeAvgDays + 10))

/-- `scan`. -/
def scan (s : LiveReversalVolume ν) (p : LiveProvider ν) (now : ℤ) (scanDate : Option ℤ) :
    Except PyExc (Option (List (Candidate ν))) :=
  let endDate := scanDate.getD now
  let startDate := s.scanStart endDate
  s.scanUniverse p (s.filterLiquidity p startDate endDate) startDate endDate

/-- `candidates["Code"]`: a frame without columns has none. -/
def withCodes (candidates : Option (List (Candidate ν))) : Except PyExc (List (Candidate ν)) :=
  match candidates with
  | some rows => .ok rows
  | none => .error (.other "KeyError" "'Code'")

/-- `execute`. -/
def execute (s : LiveReversalVolume ν) (p : LiveProvider ν) (now : ℤ) (scanDate : Option ℤ)
    (currentPositions : List String) : Except PyExc (StrategyResult ν) := do
  let scanned ← s.scan p now scanDate
  let candidates ← withCodes scanned
  let candidates := candidates.filter fun row => row.code ∉ currentPositions
  let availableSlots := s.maxPositions - currentPositions.length
  let candidates :=
    if availableSlots ≤ 0 then Column.head 0 candidates else Column.head availableSlots candidates
  let orders := candidates.map fun row =>
    (⟨row.code, row.name, .buy, row.returnPct, row.volumeRatio⟩ : TradeIntent ν)
  pure ⟨"ReversalVolume", orders, scanDate, candidates.length⟩

end LiveReversalVolume

end Stages

end Autotrading
