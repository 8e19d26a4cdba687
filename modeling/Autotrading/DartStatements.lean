import Autotrading.MomentumStrategy
import Mathlib.Data.List.Dedup

/-!
# Stored statements

`app/repository/dart_financial_statement_repository.py` and
`DartProvider.get_bulk_financial_statements` of `app/market/provider/dart_provider.py`. A
column of amounts becomes a column of a frame: with no amount at all it keeps the `None`s
of the database, and one amount anywhere makes every NULL a NaN.
-/
namespace Autotrading

open Python (Number)

/-- A row of `dart_financial_statement`. -/
structure StatementRow where
  rceptNo : String
  sjDiv : String
  accountId : String
  reprtCode : String
  bsnsYear : String
  stockCode : String
  thstrmAmount : Option ℤ
  frmtrmAmount : Option ℤ
  bfefrmtrmAmount : Option ℤ
  deriving DecidableEq

/-- This term, the one before and the one before that. -/
inductive Term
  | thstrm
  | frmtrm
  | bfefrmtrm
  deriving DecidableEq

namespace StatementRow

/-- `getattr(r, f"{term}_amount")`. -/
def amount (r : StatementRow) : Term → Option ℤ
  | .thstrm => r.thstrmAmount
  | .frmtrm => r.frmtrmAmount
  | .bfefrmtrm => r.bfefrmtrmAmount

/-- The report of a year that a query asks for. -/
def IsOf (r : StatementRow) (bsnsYear reprtCode : String) : Prop :=
  r.bsnsYear = bsnsYear ∧ r.reprtCode = reprtCode

instance (r : StatementRow) (bsnsYear reprtCode : String) : Decidable (r.IsOf bsnsYear reprtCode) :=
  inferInstanceAs (Decidable (_ ∧ _))

end StatementRow

/-- A row of a frame of statements. `none` is Python's `None`. -/
structure FrameRow where
  sjDiv : String
  accountId : String
  stockCode : String
  amount : Term → Option Number

/-- `find_by_stock_codes`. -/
def findByStockCodes (table : List StatementRow) (stockCodes : List String)
    (bsnsYear reprtCode : String) : List StatementRow :=
  table.filter fun r => r.stockCode ∈ stockCodes ∧ r.IsOf bsnsYear reprtCode

/-- A cell of the column that pandas makes of nullable integers. -/
def frameCell (column : List (Option ℤ)) : Option ℤ → Option Number
  | some n => some (.finite n)
  | none => if column.all Option.isNone then none else some .nan

/-- `pd.DataFrame(records)`. -/
def frameRow (rows : List StatementRow) (r : StatementRow) : FrameRow where
  sjDiv := r.sjDiv
  accountId := r.accountId
  stockCode := r.stockCode
  amount term := frameCell (rows.map fun r' => r'.amount term) (r.amount term)

/-- `get_bulk_financial_statements`: the frame of the rows, grouped by stock code. -/
def getBulkFinancialStatements (table : List StatementRow) (stockCodes : List String) (year : ℤ)
    (reportCode : String) : Dict String (List FrameRow) :=
  let rows := findByStockCodes table stockCodes (toString year) reportCode
  let df := rows.map (frameRow rows)
  let codes := (df.map FrameRow.stockCode).dedup.mergeSort fun a b => a ≤ b
  .ofList (codes.map fun code => (code, df.filter fun r => r.stockCode = code))

variable {rows : List StatementRow} {column : List (Option ℤ)}

theorem frameCell_eq_none_iff {v : Option ℤ} (hv : v ∈ column) :
    frameCell column v = none ↔ ∀ w ∈ column, w = none := by
  cases v with
  | some n =>
    simp only [frameCell, reduceCtorEq, false_iff]
    intro h
    cases h _ hv
  | none => simp [frameCell]

/-- The rows of a code that the query returns. -/
def statementOf (table : List StatementRow) (stockCodes : List String) (year : ℤ)
    (reportCode code : String) : List StatementRow :=
  (findByStockCodes table stockCodes (toString year) reportCode).filter fun r => r.stockCode = code

/-- The frame of a code holds its rows in the order of the query. -/
theorem getBulk_eq_some {table : List StatementRow} {stockCodes : List String} {year : ℤ}
    {reportCode code : String} {df : List FrameRow}
    (h : (getBulkFinancialStatements table stockCodes year reportCode).get? code = some df) :
    df = (statementOf table stockCodes year reportCode code).map
      (frameRow (findByStockCodes table stockCodes (toString year) reportCode)) := by
  obtain ⟨before, after, hsplit, -⟩ := Dict.get?_ofList_eq_some.mp h
  have hmem := List.mem_append_right before (List.mem_cons_self (l := after) (a := (code, df)))
  rw [← hsplit] at hmem
  obtain ⟨r, -, heq⟩ := List.mem_map.mp hmem
  obtain ⟨rfl, rfl⟩ := Prod.mk.inj heq
  rw [List.filter_map]
  rfl

/-- Every code with a row has a frame. -/
theorem getBulk_of_mem {table : List StatementRow} {stockCodes : List String} {year : ℤ}
    {reportCode code : String} (h : statementOf table stockCodes year reportCode code ≠ []) :
    ∃ df, (getBulkFinancialStatements table stockCodes year reportCode).get? code = some df := by
  obtain ⟨r, hr⟩ := List.exists_mem_of_ne_nil _ h
  rw [statementOf, List.mem_filter, decide_eq_true_iff] at hr
  rw [← Dict.mem_keys_iff, getBulkFinancialStatements, Dict.mem_keys_ofList, List.map_map]
  refine List.mem_map.mpr ⟨code, ?_, rfl⟩
  rw [List.mem_mergeSort, List.mem_dedup, List.map_map]
  exact List.mem_map.mpr ⟨r, hr.1, hr.2⟩

end Autotrading
