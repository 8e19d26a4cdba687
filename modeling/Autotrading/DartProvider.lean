import Autotrading.DartStatements

/-!
# Fetching statements from DART

`DartProvider` of `app/market/provider/dart_provider.py`, with the negative cache of
`app/repository/dart_financial_statement_repository.py`. What DART answers, and whether the
database takes what is written, are inputs; every request made is returned.
-/
namespace Autotrading

inductive FsDiv
  | cfs
  | ofs
  deriving DecidableEq

inductive SjDiv
  | bs
  | is
  | cf
  | cis
  deriving DecidableEq

/-- What `client.get`, `raise_for_status` and `resp.json` raise. -/
inductive HttpFailure
  | status (code : ℕ)
  | timeout
  | connection
  | notJson
  deriving DecidableEq

def HttpFailure.exc : HttpFailure → PyExc
  | status code => .other "HTTPStatusError" s!"error response {code}"
  | timeout => .other "ReadTimeout" ""
  | connection => .other "ConnectError" "All connection attempts failed"
  | notJson => .other "JSONDecodeError" "Expecting value: line 1 column 1 (char 0)"

/-- An entry of `data["list"]`. -/
structure DartRow where
  rceptNo : String
  reprtCode : String
  bsnsYear : String
  sjDiv : String
  accountId : String
  thstrmAmount : Option String
  frmtrmAmount : Option String
  bfefrmtrmAmount : Option String
  deriving DecidableEq

/-- The answer to a request: a failure, or the `status` and the `list` of a body. -/
inductive DartReply
  | failure (f : HttpFailure)
  | body (status : Option String) (list : Option (List DartRow))
  deriving DecidableEq

/-- DART and the database during a call: the map of corporation codes, the answer for each
stock code, whether the `i`-th insert is taken, and whether the marks are. -/
structure Dart where
  corpCodes : Except HttpFailure (List (String × String))
  answer : String → FsDiv → SjDiv → DartReply
  takes : ℕ → Bool
  marks : Bool

/-- A request of the client. -/
structure DartRequest where
  stockCode : String
  fsDiv : FsDiv
  sjDiv : SjDiv
  deriving DecidableEq

/-- The two tables; an entry of `dart_unavailable` by its key. -/
structure DartStore where
  statements : List StatementRow
  unavailable : List (String × String × String)

namespace DartProvider
variable (d : Dart)

/-- `_get_corp_code`. -/
def getCorpCode (stockCode : String) : Except PyExc String :=
  match d.corpCodes with
  | .error f => .error f.exc
  | .ok codeMap =>
    match codeMap.lookup stockCode with
    | some corpCode => .ok corpCode
    | none => .error (.other "ValueError" s!"corp_code를 찾을 수 없습니다: {stockCode}")

/-- The frame of an answer, none where its status is not `000`. -/
def readReply : DartReply → Except PyExc (Option (List DartRow))
  | .failure f => .error f.exc
  | .body status list =>
    if status ≠ some "000" then .ok none
    else
      match list with
      | some rows => .ok (some rows)
      | none => .error (.other "KeyError" "'list'")

/-- The loop over the statements: what was requested, and the frames. -/
def requestAll (answer : SjDiv → DartReply) :
    List SjDiv → List SjDiv × Except PyExc (List (List DartRow))
  | [] => ([], .ok [])
  | sj :: rest =>
    match readReply (answer sj) with
    | .error e => ([sj], .error e)
    | .ok frame =>
      let (made, frames) := requestAll answer rest
      (sj :: made, frames.map fun fs => frame.toList ++ fs)

def sjDivs : List SjDiv := [.bs, .is, .cf, .cis]

/-- `get_financial_statements`. -/
def getFinancialStatements (stockCode : String) (year : ℤ) (fsDiv : FsDiv) :
    List DartRequest × Except PyExc (List DartRow) :=
  match getCorpCode d stockCode with
  | .error e => ([], .error e)
  | .ok _ =>
    let (made, frames) := requestAll (d.answer stockCode fsDiv) sjDivs
    (made.map fun sj => ⟨stockCode, fsDiv, sj⟩,
      match frames with
      | .error e => .error e
      | .ok [] =>
        .error (.other "RuntimeError" s!"재무제표 데이터를 찾을 수 없습니다: {stockCode} ({year})")
      | .ok frames => .ok frames.flatten)

/-- `except RuntimeError`. -/
def isRuntimeError : PyExc → Bool
  | .other type _ => type = "RuntimeError"
  | _ => false

/-- The statements of a code: `CFS`, and `OFS` after a `RuntimeError`. -/
def fetch (stockCode : String) (year : ℤ) : List DartRequest × Except PyExc (List DartRow) :=
  match getFinancialStatements d stockCode year .cfs with
  | (made, .ok df) => (made, .ok df)
  | (made, .error e) =>
    if isRuntimeError e then
      let (made', df) := getFinancialStatements d stockCode year .ofs
      (made ++ made', df)
    else (made, .error e)

/-- `pd.to_numeric` of an amount without its commas; a NaN is stored as NULL. -/
def toNumeric (text : Option String) : Option ℤ :=
  text.bind fun s => Python.int? (String.ofList (s.toList.filter fun c => c ≠ ',' ∧ c ≠ '_'))

def statementRow (stockCode : String) (r : DartRow) : StatementRow where
  rceptNo := r.rceptNo
  sjDiv := r.sjDiv
  accountId := r.accountId
  reprtCode := r.reprtCode
  bsnsYear := r.bsnsYear
  stockCode := stockCode
  thstrmAmount := toNumeric r.thstrmAmount
  frmtrmAmount := toNumeric r.frmtrmAmount
  bfefrmtrmAmount := toNumeric r.bfefrmtrmAmount

/-- `drop_duplicates(subset=["rcept_no", "sj_div", "account_id"], keep="last")`. -/
def dropDuplicates : List StatementRow → List StatementRow
  | [] => []
  | r :: rs =>
    if ∃ r' ∈ rs, r'.rceptNo = r.rceptNo ∧ r'.sjDiv = r.sjDiv ∧ r'.accountId = r.accountId then
      dropDuplicates rs
    else r :: dropDuplicates rs

/-- `bulk_insert_financial_statements` and the commit. An empty frame has no columns. -/
def bulkInsert (taken : Bool) (stockCode : String) (df : List DartRow)
    (table : List StatementRow) : Except PyExc (List StatementRow) :=
  if df.isEmpty then
    .error (.other "KeyError" "Index(['rcept_no', 'sj_div', 'account_id'], dtype='object')")
  else if taken then .ok (table ++ dropDuplicates (df.map (statementRow stockCode)))
  else .error (.other "IntegrityError" "duplicate key value violates unique constraint")

/-- `fetch_and_store`, the `i`-th of a call. -/
def fetchAndStore (i : ℕ) (stockCode : String) (year : ℤ) (table : List StatementRow) :
    List DartRequest × Except PyExc (List StatementRow) :=
  let (made, df) := fetch d stockCode year
  (made, df >>= fun df => bulkInsert (d.takes i) stockCode df table)

/-- Step 4: the requests made, the table, and the codes without statements. -/
def fetchMissing (year : ℤ) :
    ℕ → List String → List StatementRow → List DartRequest × List StatementRow × List String
  | _, [], table => ([], table, [])
  | i, code :: codes, table =>
    match fetchAndStore d i code year table with
    | (made, .ok table') =>
      let (made', table'', unavailable) := fetchMissing year (i + 1) codes table'
      (made ++ made', table'', unavailable)
    | (made, .error e) =>
      let (made', table'', unavailable) := fetchMissing year (i + 1) codes table
      (made ++ made', table'', if isRuntimeError e then code :: unavailable else unavailable)

/-- `find_existing_stock_codes`. -/
def findExistingStockCodes (store : DartStore) (stockCodes : List String)
    (bsnsYear reprtCode : String) : List String :=
  (findByStockCodes store.statements stockCodes bsnsYear reprtCode).map StatementRow.stockCode

/-- `find_unavailable_codes`. -/
def findUnavailableCodes (store : DartStore) (stockCodes : List String)
    (bsnsYear reprtCode : String) : List String :=
  stockCodes.filter fun c => (c, bsnsYear, reprtCode) ∈ store.unavailable

/-- The codes that a call requests. -/
def missingCodes (store : DartStore) (stockCodes : List String) (year : ℤ) (reprtCode : String) :
    List String :=
  stockCodes.filter fun c =>
    c ∉ findExistingStockCodes store stockCodes (toString year) reprtCode ∧
      c ∉ findUnavailableCodes store stockCodes (toString year) reprtCode

/-- `fetch_and_store_bulk`: the requests made, the store after it and what it returns. -/
def fetchAndStoreBulk (store : DartStore) (stockCodes : List String) (year : ℤ)
    (reprtCode : String) :
    List DartRequest × DartStore × Except PyExc (Dict String (List FrameRow)) :=
  let missing := missingCodes store stockCodes year reprtCode
  let (made, statements, unavailable) := fetchMissing d year 0 missing store.statements
  let store := { store with statements := statements }
  if unavailable.isEmpty then
    (made, store, .ok (getBulkFinancialStatements statements stockCodes year reprtCode))
  else if d.marks then
    let marked := unavailable.map fun c => (c, toString year, reprtCode)
    (made, { store with unavailable := store.unavailable ++ marked },
      .ok (getBulkFinancialStatements statements stockCodes year reprtCode))
  else (made, store, .error (.other "ProgrammingError" "the statement is not taken"))

end DartProvider

end Autotrading
