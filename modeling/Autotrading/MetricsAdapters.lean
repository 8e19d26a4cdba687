import Autotrading.DatedLoop
import Autotrading.Equity
import Autotrading.FdrProvider
import Autotrading.RebalanceMonths
import Mathlib.Data.List.ReduceOption
import Mathlib.Data.String.Basic

/-!
# The inputs of the metrics

`build_equity_series` of `app/strategy/metrics/adapters.py`, from the stored snapshots and the
market data provider. Dates are compared as timestamps. A close that is missing stays missing until
the sum of its row leaves it out.
-/
namespace Autotrading

open DatedLoop (sortedSet)
open TimeIndex (ffill)

/-- `pd.Timestamp` of a date. -/
def timestamp (date : ℤ) : Instant := date * microsecondsPerDay

/-- `s.zfill(width)`. -/
def zfill (width : ℕ) (s : List Char) : List Char :=
  let zeros := List.replicate (width - s.length) '0'
  match s with
  | '-' :: cs => '-' :: (zeros ++ cs)
  | '+' :: cs => '+' :: (zeros ++ cs)
  | cs => zeros ++ cs

/-- `date.isoformat()`. -/
def isoformat (date : ℤ) : String :=
  let (year, month) := yearAndMonth date
  let day := date - monthStart (year, month) + 1
  let digits (width : ℕ) (n : ℤ) := zfill width (toString n).toList
  String.ofList (digits 4 year ++ ['-'] ++ digits 2 month ++ ['-'] ++ digits 2 day)

/-! ## The stored snapshots -/

/-- A row of `portfolio_snapshots`. -/
structure SnapshotRow where
  id : ℕ
  snapshotAt : Instant
  snapshotType : String
  accountNo : String
  accountProductCode : String
  cashAmount : Option ℤ
  tradingDate : Option ℤ

/-- A row of `portfolio_snapshot_holdings`. -/
structure HoldingRow where
  snapshotId : ℕ
  stockCode : String
  holdingQty : ℤ

/-- The two tables. -/
structure SnapshotStore where
  snapshots : List SnapshotRow
  holdings : List HoldingRow

namespace SnapshotStore

variable (db : SnapshotStore)

/-- `get_snapshots_by_period`. -/
def getSnapshotsByPeriod (accountNo accountProductCode : String) (startDate endDate : ℤ) :
    List SnapshotRow :=
  (db.snapshots.filter fun s =>
    s.accountNo = accountNo ∧ s.accountProductCode = accountProductCode ∧
      s.snapshotType = "REBALANCE" ∧ s.tradingDate.any fun date => startDate ≤ date ∧ date ≤ endDate
    ).mergeSort fun a b => a.tradingDate.getD 0 ≤ b.tradingDate.getD 0

/-- `get_holdings_by_snapshot_ids`. -/
def getHoldingsBySnapshotIds (snapshotIds : List ℕ) : List HoldingRow :=
  (db.holdings.filter fun row => row.snapshotId ∈ snapshotIds).mergeSort fun a b =>
    a.snapshotId < b.snapshotId ∨ a.snapshotId = b.snapshotId ∧ a.stockCode ≤ b.stockCode

end SnapshotStore

/-- `_normalize_stock_code`. -/
def normalizeStockCode (code : String) : String := String.ofList (zfill 6 (Python.strip code))

/-- `_resolve_trading_date`. -/
def resolveTradingDate (snapshot : SnapshotRow) : ℤ :=
  snapshot.tradingDate.getD (kstDate snapshot.snapshotAt)

/-- `grouped[id]`: the quantities by code, of two rows of one code the later. -/
def groupedHoldings (holdings : List HoldingRow) (id : ℕ) : Dict String ℤ :=
  .ofList ((holdings.filter (·.snapshotId = id)).map fun row =>
    (normalizeStockCode row.stockCode, row.holdingQty))

def snapshotView (holdings : List HoldingRow) (s : SnapshotRow) : SnapshotView where
  tradingDate := timestamp (resolveTradingDate s)
  cashAmount := s.cashAmount.getD 0
  holdings := groupedHoldings holdings s.id

/-! ## The closes -/

/-- The closes of a code by day. A day may be without a close. -/
abbrev CloseSeries : Type := List (Instant × Option ℚ)

/-- A frame of closes: the days in order, the codes, and the closes that are there. -/
structure CloseTable where
  index : List Instant
  columns : List String
  close : Instant → String → Option ℚ
  ascending : index.Pairwise (· < ·)
  distinct : columns.Nodup

namespace CloseTable

/-- `pd.DataFrame(series_map).sort_index()`: the days of all the series. -/
def ofSeriesMap (seriesMap : Dict String CloseSeries) : CloseTable where
  index := sortedSet (seriesMap.entries.flatMap fun e => TimeIndex.index e.2)
  columns := seriesMap.keys
  close t code := (seriesMap.get? code).bind fun series => (series.lookup t).join
  ascending := DatedLoop.pairwise_sortedSet _
  distinct := by
    unfold Dict.keys
    exact seriesMap.nodup

/-- `frame.ffill()`. -/
def filled (frame : CloseTable) : CloseTable where
  index := frame.index
  columns := frame.columns
  close t code := ((ffill none (frame.index.map fun t => (t, frame.close t code))).lookup t).join
  ascending := frame.ascending
  distinct := frame.distinct

/-- The equity of a day. A product with a missing close is missing, and the sum of the row leaves
it out. -/
def equityOf (frame : CloseTable) (t : Instant) (qty : Option (List ℤ)) (cash : Option ℚ) : ℚ :=
  let row := qty.getD (frame.columns.map fun _ => 0)
  (List.zipWith (fun code (q : ℤ) => (frame.close t code).map (· * (q : ℚ))) frame.columns row
    ).reduceOption.sum + cash.getD 0

/-- `assemble_equity`. -/
def assembleEquity (snapshots : List SnapshotView) (closeFrame : CloseTable) (asOfDate : Instant) :
    Except PyExc (List (Instant × ℚ)) :=
  match ordered snapshots with
  | [] => .error (.other "ValueError" "스냅샷이 없습니다.")
  | first :: rest =>
    if closeFrame.index.isEmpty ∨ closeFrame.columns.isEmpty then
      .error (.other "ValueError" "종가 데이터가 비어 있습니다.")
    else
      let tradingDays := closeFrame.index.filter fun t => first.tradingDate ≤ t ∧ t ≤ asOfDate
      if tradingDays.isEmpty then .error (.other "ValueError" "해당 기간에 거래일이 없습니다.")
      else do
        let qtyFrame ← carryForward ((first :: rest).map fun s =>
          (s.tradingDate, some (closeFrame.columns.map s.qty))) tradingDays
        let cashSeries ← carryForward ((first :: rest).map fun s =>
          (s.tradingDate, some s.cashAmount)) tradingDays
        pure (List.zipWith (fun qty cash => (qty.1, closeFrame.equityOf qty.1 qty.2 cash.2))
          qtyFrame cashSeries)

/-- The frame with zeros for the closes that are missing. -/
def zeroed (frame : CloseTable) : CloseFrame where
  index := frame.index
  columns := frame.columns
  close t code := (frame.close t code).getD 0
  ascending := frame.ascending
  distinct := frame.distinct

section Projections
variable (frame : CloseTable) (t : Instant) (code : String)

@[simp] theorem filled_index : frame.filled.index = frame.index := rfl

@[simp] theorem filled_columns : frame.filled.columns = frame.columns := rfl

@[simp] theorem zeroed_index : frame.zeroed.index = frame.index := rfl

@[simp] theorem zeroed_columns : frame.zeroed.columns = frame.columns := rfl

@[simp] theorem zeroed_close : frame.zeroed.close t code = (frame.close t code).getD 0 := rfl

end Projections

end CloseTable

section Build
variable (getOhlcv : OhlcvArgs → Except PyExc (PriceFrame (Option ℚ)))

/-- `_fetch_close_series`. -/
def fetchCloseSeries (code : String) (start stop : ℤ) : Except PyExc CloseSeries := do
  let df ← getOhlcv ⟨code, isoformat start, isoformat stop⟩
  pure (df.rows.map fun row => (row.date, row.close))

/-- The body of the loop of `_build_close_frame`. -/
def closeSeriesOf (start stop : ℤ) (code : String) : Except PyExc (String × CloseSeries) := do
  let series ← fetchCloseSeries getOhlcv code start stop
  if series.isEmpty then
    .error (.other "ValueError" s!"FDR 종가 조회 실패 - 데이터 없음. code={code}")
  else pure (code, series)

/-- `_build_close_frame`. -/
def buildCloseFrame (codes : List String) (start stop : ℤ) : Except PyExc CloseTable := do
  let seriesMap ← codes.mapM (closeSeriesOf getOhlcv start stop)
  pure (CloseTable.ofSeriesMap (.ofList seriesMap)).filled

/-- The codes that the snapshots hold, in order. -/
def heldCodes (views : List SnapshotView) : List String :=
  sortedSet (views.flatMap fun v => v.holdings.keys)

/-- The first of the dates. -/
def firstDate (dates : List ℤ) : ℤ := dates.min?.getD 0

/-- `build_equity_series`. -/
def buildEquitySeries (db : SnapshotStore) (accountNo accountProductCode : String)
    (startDate asOfDate : ℤ) : Except PyExc (List (Instant × ℚ)) :=
  let snapshots := db.getSnapshotsByPeriod accountNo accountProductCode startDate asOfDate
  if snapshots.isEmpty then
    .error (.other "ValueError" (s!"스냅샷이 없습니다. account_no={accountNo}, " ++
      s!"기간={isoformat startDate}~{isoformat asOfDate}"))
  else
    let holdings := db.getHoldingsBySnapshotIds (snapshots.map (·.id))
    let views := snapshots.map (snapshotView holdings)
    let codes := heldCodes views
    if codes.isEmpty then .error (.other "ValueError" "스냅샷에 보유 종목이 없습니다.")
    else do
      let closeFrame ← buildCloseFrame getOhlcv codes (firstDate (snapshots.map resolveTradingDate)) asOfDate
      closeFrame.assembleEquity views (timestamp asOfDate)

end Build

/-! ## What the frame holds -/

namespace CloseTable

variable {frame : CloseTable} {snapshots : List SnapshotView} {asOfDate t : Instant} {code : String}

/-- Leaving a missing product out of the sum is taking zero for the close. -/
theorem sum_reduceOption (columns : List String) (row : List ℤ) (close : String → Option ℚ) :
    (List.zipWith (fun code (q : ℤ) => (close code).map (· * (q : ℚ))) columns row).reduceOption.sum =
      (List.zipWith (fun code (q : ℤ) => (close code).getD 0 * (q : ℚ)) columns row).sum := by
  induction columns generalizing row with
  | nil => rfl
  | cons code columns ih =>
    cases row with
    | nil => rfl
    | cons q row =>
      rw [List.zipWith_cons_cons, List.zipWith_cons_cons, List.sum_cons, ← ih]
      cases close code with
      | none => simp
      | some price => simp

/-- The equity is the one of the frame with zeros for the missing closes. -/
theorem assembleEquity_eq_zeroed (frame : CloseTable) :
    frame.assembleEquity snapshots asOfDate =
      Autotrading.assembleEquity snapshots frame.zeroed asOfDate := by
  have hday : ∀ t qty cash, frame.equityOf t qty cash = Autotrading.equityOf frame.zeroed t qty cash := by
    intro t qty cash
    rw [equityOf, sum_reduceOption]
    rfl
  unfold assembleEquity Autotrading.assembleEquity
  cases ordered snapshots with
  | nil => rfl
  | cons first rest =>
    simp only [hday, zeroed_index, zeroed_columns]
    rfl

/-- A close of the filled frame is the latest of its series up to the day. -/
theorem isLast_filled {seriesMap : Dict String CloseSeries} {series : CloseSeries}
    (hseries : seriesMap.get? code = some series)
    (hasc : (TimeIndex.index series).Pairwise (· < ·)) (ht : t ∈ (ofSeriesMap seriesMap).index) :
    TimeIndex.IsLast series t ((ofSeriesMap seriesMap).filled.close t code) := by
  have hall : ∀ t ∈ TimeIndex.index series, t ∈ (ofSeriesMap seriesMap).index := by
    intro t ht
    have hentry := Dict.mem_entries.mpr hseries
    exact DatedLoop.mem_sortedSet.mpr (List.mem_flatMap.mpr ⟨_, hentry, ht⟩)
  have hcolumn : ((ofSeriesMap seriesMap).index.map fun t =>
      (t, (ofSeriesMap seriesMap).close t code)) =
        (ofSeriesMap seriesMap).index.map fun t => (t, (series.lookup t).join) := by
    refine List.map_congr_left fun t _ => ?_
    show (t, (seriesMap.get? code).bind fun series => (series.lookup t).join) = _
    rw [hseries, Option.bind_some]
  have hindex : TimeIndex.index ((ofSeriesMap seriesMap).index.map fun t =>
      (t, (series.lookup t).join)) = (ofSeriesMap seriesMap).index := by
    rw [TimeIndex.index, List.map_map]
    exact List.map_id _
  have hlast := TimeIndex.isLast_ffill (hindex.symm ▸ (ofSeriesMap seriesMap).ascending)
    (hindex.symm ▸ ht)
  show TimeIndex.IsLast series t ((ffill none ((ofSeriesMap seriesMap).index.map fun t =>
    (t, (ofSeriesMap seriesMap).close t code))).lookup t).join
  rw [hcolumn]
  exact hlast.congr fun k' w => TimeIndex.mem_relabelled (hasc.imp ne_of_lt) hall

end CloseTable

end Autotrading
