import Autotrading.DartCaches
import Autotrading.FScore
import Autotrading.FiscalYear
import Autotrading.IntText
import Autotrading.MarcapUniverse
import Autotrading.MomentumSelection
import Autotrading.PiotroskiMomentum

/-!
# From the universe to the orders

`apply_base_filters` of `app/strategy/universe/universe_filters.py`, `FScore.screen` and the
strategy on what it returns. A stock goes through filters, through the answers of DART and the
tables, through scores, a merge, price histories and ranks; the results here say which stocks are
bought in the end, with what, and when a selection fails.
-/
namespace Autotrading

open Python (Number)

/-! ## The filters of a universe -/

/-- `DART_UNAVAILABLE_CODES`. -/
def dartUnavailableCodes : List String := ["088980"]

/-- The pattern for six digits; its `$` stands before a newline at the end too. -/
def isSixDigits (code : String) : Bool :=
  let cs := if code.toList.getLast? = some '\n' then code.toList.dropLast else code.toList
  cs.length = 6 && cs.all fun c => (Python.decimalDigit? c).isSome

/-- `apply_base_filters`. -/
def applyBaseFilters (df : List UniverseStock) (excludePreferred : Bool)
    (markets : Option (List String)) : List UniverseStock :=
  let df := df.filter fun row => isSixDigits row.code
  let df :=
    if excludePreferred then df.filter fun row => row.code.toList.getLast? = some '0' else df
  let df := df.filter fun row => row.market ∈ markets.getD ["KOSPI", "KOSDAQ"]
  df.filter fun row => row.code ∉ dartUnavailableCodes

/-- A common stock of the two markets, and not one of those without statements. -/
structure UniverseStock.Ordinary (row : UniverseStock) : Prop where
  digits : isSixDigits row.code = true
  common : row.code.toList.getLast? = some '0'
  market : row.market = "KOSPI" ∨ row.market = "KOSDAQ"
  available : row.code ∉ dartUnavailableCodes

theorem mem_applyBaseFilters {df : List UniverseStock} {row : UniverseStock} :
    row ∈ applyBaseFilters df true none ↔ row ∈ df ∧ row.Ordinary := by
  simp only [applyBaseFilters, if_true, Option.getD_none, List.mem_filter, decide_eq_true_iff,
    List.mem_cons, List.not_mem_nil, or_false]
  constructor
  · intro h
    obtain ⟨⟨⟨⟨hrow, hdigits⟩, hcommon⟩, hmarket⟩, havailable⟩ := h
    exact ⟨hrow, hdigits, hcommon, hmarket, havailable⟩
  · intro h
    obtain ⟨hrow, hdigits, hcommon, hmarket, havailable⟩ := h
    exact ⟨⟨⟨⟨hrow, hdigits⟩, hcommon⟩, hmarket⟩, havailable⟩

/-! ## The screener -/

/-- `REPORT_CODE.ANNUAL`. -/
def reportCodeAnnual : String := "11011"

/-- An `FScore` with its threshold. -/
structure FScoreScreener extends FScore where
  threshold : ℤ

/-- A row of the frame of `screen`. The merge leaves the columns of a stock that it does not find
without values. -/
structure ScreenedRow where
  score : FScoreResult
  stock : Option UniverseStock
  pbr : Number

namespace FScoreScreener

/-- The loop over the frames: a code whose score raises is left out. -/
def scores (f : FScoreScreener) (financialData : Dict String (List FrameRow)) :
    List FScoreResult :=
  financialData.entries.filterMap fun e => (f.calculateFscore e.1 e.2).toOption

/-- `df_high["Marcap"] / df_high["equity"]`. -/
def pbr (stock : UniverseStock) (score : FScoreResult) : Number :=
  (Number.finite stock.marcap).quot (score.equity.getD .nan)

/-- `df_high.merge(df_marcap, on="code", how="left")`, and the column `pbr`. -/
def mergeMarcap (dfHigh : List FScoreResult) (dfUniverse : List UniverseStock) :
    List ScreenedRow :=
  dfHigh.flatMap fun score =>
    match dfUniverse.filter fun stock => stock.code = score.code with
    | [] => [⟨score, none, .nan⟩]
    | stocks => stocks.map fun stock => ⟨score, some stock, pbr stock score⟩

/-- `screen`: the requests made, the tables after it, and the frame. A frame of no scores has no
column to compare. -/
def screen (f : FScoreScreener) (d : Dart) (store : DartStore)
    (universeBuilder : Except PyExc (List UniverseStock)) (year : ℤ) (asOfDate : Option ℤ)
    (today : ℤ) : List DartRequest × DartStore × Except PyExc (List ScreenedRow) :=
  match validateLookahead year asOfDate today, universeBuilder with
  | .error e, _ => ([], store, .error e)
  | .ok (), .error e => ([], store, .error e)
  | .ok (), .ok df =>
    let dfUniverse := applyBaseFilters df true none
    let universeCodes := dfUniverse.map UniverseStock.code
    let (made, store, financialData) :=
      DartProvider.fetchAndStoreBulk d store universeCodes year reportCodeAnnual
    (made, store, do
      let financialData ← financialData
      let results := f.scores financialData
      if results.isEmpty then throw (.other "KeyError" "'fscore'")
      let dfHigh := results.filter fun score => (f.threshold : ℚ) ≤ score.fscore
      pure (mergeMarcap dfHigh dfUniverse))

/-- The score of a code, from the rows of a table that a query for the codes returns. -/
def Scored (f : FScoreScreener) (table : List StatementRow) (stockCodes : List String) (year : ℤ)
    (code : String) (score : FScoreResult) : Prop :=
  ∃ df, (getBulkFinancialStatements table stockCodes year reportCodeAnnual).get? code = some df ∧
    f.calculateFscore code df = .ok score

variable {f : FScoreScreener} {table : List StatementRow} {stockCodes : List String} {year : ℤ}
  {code : String} {score : FScoreResult}

theorem code_of_calculateFscore {g : FScore} {df : List FrameRow}
    (h : g.calculateFscore code df = .ok score) : score.code = code := by
  rw [FScore.calculateFscore, FScore.scoreOf] at h
  obtain ⟨-, -, h⟩ := of_bind_ok h
  obtain ⟨raw, -, h⟩ := of_bind_ok h
  rw [← Except.ok.inj h]

theorem mem_of_getBulk {df : List FrameRow} {reportCode : String}
    (h : (getBulkFinancialStatements table stockCodes year reportCode).get? code = some df) :
    code ∈ stockCodes := by
  have hkey := Dict.mem_keys_iff.mpr ⟨df, h⟩
  rw [getBulkFinancialStatements, Dict.mem_keys_ofList] at hkey
  simp only [List.map_map, List.mem_map, List.mem_mergeSort, List.mem_dedup] at hkey
  obtain ⟨_, ⟨r, hr, rfl⟩, rfl⟩ := hkey
  rw [findByStockCodes, List.mem_filter, decide_eq_true_iff] at hr
  exact hr.2.1

theorem Scored.code_eq (h : f.Scored table stockCodes year code score) : score.code = code := by
  obtain ⟨df, -, hscore⟩ := h
  exact code_of_calculateFscore hscore

theorem Scored.mem (h : f.Scored table stockCodes year code score) : code ∈ stockCodes := by
  obtain ⟨df, hdf, -⟩ := h
  exact mem_of_getBulk hdf

theorem mem_scores :
    score ∈ f.scores (getBulkFinancialStatements table stockCodes year reportCodeAnnual) ↔
      f.Scored table stockCodes year score.code score := by
  rw [scores, List.mem_filterMap]
  constructor
  · intro h
    obtain ⟨⟨code, df⟩, hdf, hscore⟩ := h
    have hok := ok_of_toOption hscore
    rw [code_of_calculateFscore hok]
    exact ⟨df, Dict.mem_entries.mp hdf, hok⟩
  · intro h
    obtain ⟨df, hdf, hscore⟩ := h
    exact ⟨(score.code, df), Dict.mem_entries.mpr hdf, by rw [hscore]; rfl⟩

/-- Every score finds its stocks where its code is one of the universe. -/
theorem mem_mergeMarcap {dfHigh : List FScoreResult} {dfUniverse : List UniverseStock}
    (h : ∀ score ∈ dfHigh, score.code ∈ dfUniverse.map UniverseStock.code) {row : ScreenedRow} :
    row ∈ mergeMarcap dfHigh dfUniverse ↔ ∃ score ∈ dfHigh, ∃ stock ∈ dfUniverse,
      stock.code = score.code ∧ row = ⟨score, some stock, pbr stock score⟩ := by
  rw [mergeMarcap, List.mem_flatMap]
  refine exists_congr fun score => and_congr_right fun hscore => ?_
  obtain ⟨stock, hstock, hcode⟩ := List.mem_map.mp (h score hscore)
  have hfound : ∀ stock, stock ∈ dfUniverse.filter (fun stock => stock.code = score.code) ↔
      stock ∈ dfUniverse ∧ stock.code = score.code := by
    intro stock
    rw [List.mem_filter, decide_eq_true_iff]
  split
  · next hnil =>
    have hmem := (hfound stock).mpr ⟨hstock, hcode⟩
    rw [hnil] at hmem
    simp at hmem
  · rw [List.mem_map]
    refine exists_congr fun stock => ?_
    rw [hfound, and_assoc, eq_comm (a := row)]

/-- DART has no statements of a code that was requested, and the database does not take the mark
that says so. -/
def MarksFail (d : Dart) (store : DartStore) (stockCodes : List String) (year : ℤ) : Prop :=
  d.marks = false ∧ ∃ code ∈ DartProvider.missingCodes store stockCodes year reportCodeAnnual,
    DartProvider.asked d code ≠ [] ∧ ∀ req ∈ DartProvider.asked d code,
      ¬ (DartProvider.replyTo d req).Raises ∧ ¬ (DartProvider.replyTo d req).IsData

/-- The codes that a universe is asked for. -/
def universeCodes (df : List UniverseStock) : List String :=
  (applyBaseFilters df true none).map UniverseStock.code

/-- The rows of the statements after a screening. -/
def tableAfter (d : Dart) (store : DartStore) (df : List UniverseStock) (year : ℤ) :
    List StatementRow :=
  (DartProvider.fetchAndStoreBulk d store (universeCodes df) year reportCodeAnnual).2.1.statements

/-- A call for the statements of codes fails where a mark does, and returns what is in the table
after it otherwise. -/
theorem fetchAndStoreBulk_spec (d : Dart) (store : DartStore) (stockCodes : List String)
    (year : ℤ) :
    (MarksFail d store stockCodes year ∧ ∃ e, (DartProvider.fetchAndStoreBulk d store stockCodes
        year reportCodeAnnual).2.2 = .error e) ∨
      ¬ MarksFail d store stockCodes year ∧
        (DartProvider.fetchAndStoreBulk d store stockCodes year reportCodeAnnual).2.2 =
          .ok (getBulkFinancialStatements (DartProvider.fetchAndStoreBulk d store stockCodes year
            reportCodeAnnual).2.1.statements stockCodes year reportCodeAnnual) := by
  obtain ⟨missing, hmissing⟩ : ∃ missing,
      missing = DartProvider.missingCodes store stockCodes year reportCodeAnnual := ⟨_, rfl⟩
  have hmem : ∀ c, c ∈ (DartProvider.fetchMissing d year 0 missing store.statements).2.2 ↔ _ :=
    fun c => DartProvider.mem_unavailable_fetchMissing d year
  obtain ⟨⟨made, statements, unavailable⟩, hout⟩ : ∃ out,
      out = DartProvider.fetchMissing d year 0 missing store.statements := ⟨_, rfl⟩
  rw [← hout] at hmem
  simp only [DartProvider.fetchAndStoreBulk, MarksFail, ← hmissing, ← hout]
  cases unavailable with
  | nil =>
    right
    constructor
    · intro hfail
      obtain ⟨-, code, hcode⟩ := hfail
      simpa using (hmem code).mpr hcode
    · simp
  | cons code rest =>
    have hcode := (hmem code).mp List.mem_cons_self
    cases hmarks : d.marks with
    | true => simp
    | false => exact .inl ⟨⟨rfl, code, hcode⟩, by simp⟩

variable {d : Dart} {store : DartStore} {df : List UniverseStock} {asOfDate : Option ℤ} {today : ℤ}

/-- The frame of a screening: every ordinary stock of the universe with a score that reaches the
threshold. -/
theorem screen_ok (hvalid : validateLookahead year asOfDate today = .ok ())
    (hmarks : ¬ MarksFail d store (universeCodes df) year)
    (hscored : f.Scored (tableAfter d store df year) (universeCodes df) year code score) :
    ∃ rows, (f.screen d store (.ok df) year asOfDate today).2.2 = .ok rows ∧
      ∀ row, row ∈ rows ↔ ∃ stock ∈ df, stock.Ordinary ∧ ∃ score,
        f.Scored (tableAfter d store df year) (universeCodes df) year stock.code score ∧
          f.threshold ≤ score.fscore ∧ row = ⟨score, some stock, pbr stock score⟩ := by
  obtain ⟨-, hfetch⟩ := (fetchAndStoreBulk_spec d store (universeCodes df) year).resolve_left
    fun h => hmarks h.1
  have hresults : f.scores (getBulkFinancialStatements (tableAfter d store df year)
      (universeCodes df) year reportCodeAnnual) ≠ [] := by
    refine List.ne_nil_of_mem (a := score) ?_
    rw [mem_scores, hscored.code_eq]
    exact hscored
  have hrows : (f.screen d store (.ok df) year asOfDate today).2.2 =
      .ok (mergeMarcap ((f.scores (getBulkFinancialStatements (tableAfter d store df year)
        (universeCodes df) year reportCodeAnnual)).filter fun score =>
          (f.threshold : ℚ) ≤ score.fscore) (applyBaseFilters df true none)) := by
    simp only [screen, hvalid]
    simp only [universeCodes, tableAfter] at hfetch hresults
    rw [hfetch]
    simp [bind, Except.bind, hresults, tableAfter, universeCodes]
    rfl
  refine ⟨_, hrows, fun row => ?_⟩
  rw [mem_mergeMarcap]
  · constructor
    · intro h
      obtain ⟨score, hscore, stock, hstock, hcode, rfl⟩ := h
      rw [List.mem_filter, decide_eq_true_iff, mem_scores, ← hcode] at hscore
      rw [mem_applyBaseFilters] at hstock
      exact ⟨stock, hstock.1, hstock.2, score, hscore.1, hscore.2, rfl⟩
    · intro h
      obtain ⟨stock, hstock, hordinary, score, hscore, hreach, rfl⟩ := h
      refine ⟨score, ?_, stock, mem_applyBaseFilters.mpr ⟨hstock, hordinary⟩,
        hscore.code_eq.symm, rfl⟩
      rw [List.mem_filter, decide_eq_true_iff, mem_scores, hscore.code_eq]
      exact ⟨hscore, hreach⟩
  · intro score hscore
    rw [List.mem_filter, mem_scores] at hscore
    exact hscore.1.mem

/-- What a screening can fail from. -/
theorem screen_error_iff {universeBuilder : Except PyExc (List UniverseStock)} :
    (∃ e, (f.screen d store universeBuilder year asOfDate today).2.2 = .error e) ↔
      validateLookahead year asOfDate today ≠ .ok () ∨ (∃ e, universeBuilder = .error e) ∨
        ∃ df, universeBuilder = .ok df ∧ (MarksFail d store (universeCodes df) year ∨
          ∀ code score, ¬ f.Scored (tableAfter d store df year) (universeCodes df) year code score)
      := by
  cases hvalid : validateLookahead year asOfDate today with
  | error e => simp [screen, hvalid]
  | ok _ =>
    cases universeBuilder with
    | error e => simp [screen, hvalid]
    | ok df =>
      simp only [ne_eq, not_true_eq_false, reduceCtorEq, exists_false, Except.ok.injEq,
        exists_eq_left', false_or]
      constructor
      · intro h
        obtain ⟨e, he⟩ := h
        by_contra hnot
        rw [not_or] at hnot
        obtain ⟨hmarks, hscored⟩ := hnot
        push Not at hscored
        obtain ⟨code, score, hscored⟩ := hscored
        obtain ⟨rows, hrows, -⟩ := screen_ok hvalid hmarks hscored
        rw [he] at hrows
        cases hrows
      · intro h
        obtain ⟨hfail, e, he⟩ | ⟨hmarks, hfetch⟩ :=
          fetchAndStoreBulk_spec d store (universeCodes df) year
        · simp only [universeCodes] at he
          refine ⟨e, ?_⟩
          simp only [screen, hvalid, he]
          rfl
        · have hnone := h.resolve_left hmarks
          have hresults : f.scores (getBulkFinancialStatements (tableAfter d store df year)
              (universeCodes df) year reportCodeAnnual) = [] := by
            rw [List.eq_nil_iff_forall_not_mem]
            intro score hscore
            exact hnone _ _ (mem_scores.mp hscore)
          simp only [universeCodes, tableAfter] at hfetch hresults
          refine ⟨.other "KeyError" "'fscore'", ?_⟩
          simp only [screen, hvalid, hfetch]
          simp [bind, Except.bind, hresults]
          rfl

end FScoreScreener

/-! ## The signals -/

namespace MomentumStrategy
variable {s : MomentumStrategy} {data : Dict String Ohlcv} {rows : List SignalRow} {code : String}

/-- The return of a code, whatever its closes are. -/
def returnNumber (s : MomentumStrategy) (df : Ohlcv) : Number :=
  (s.lookbackReturn df).toOption.getD .nan

/-- The returns that are ranked. -/
def returnNumbers (s : MomentumStrategy) (data : Dict String Ohlcv) : List Number :=
  (s.long data).map fun e => s.returnNumber e.2

/-- The signal of a code among them. -/
def rankedRow (s : MomentumStrategy) (data : Dict String Ohlcv) (e : String × Ohlcv) : SignalRow :=
  let r := rank (s.returnNumbers data) (s.returnNumber e.2)
  { code := e.1, momentumReturn := s.returnNumber e.2, rank := r
    signal := if s.buys (s.returnNumber e.2) r then .buy else .sell }

/-- A code whose return is above the threshold, with a mean place among the first `top_n`. -/
def Leads (s : MomentumStrategy) (data : Dict String Ohlcv) (code : String) : Prop :=
  ∃ df, data.get? code = some df ∧ s.lookbackDays ≤ df.close.length ∧
    (Number.finite s.absThreshold).lt (s.returnNumber df) = true ∧
      ((s.returnNumbers data).countP fun y => (s.returnNumber df).lt y) +
        ((s.returnNumbers data).count (s.returnNumber df) + 1 : ℚ) / 2 ≤ s.topN

theorem generateSignal_ranked (h : s.generateSignal data = .ok rows) :
    rows.Perm ((s.long data).map (s.rankedRow data)) := by
  rw [generateSignal] at h
  obtain ⟨rets, hret, h⟩ := of_bind_ok h
  have hmap : rets.map id = (s.long data).map fun e => (e.1, s.returnNumber e.2) := by
    refine map_of_mapM_ok hret fun e he y hy => ?_
    obtain ⟨x, hx, hy⟩ := of_bind_ok hy
    rw [← Except.ok.inj hy, id, returnNumber, hx]
    rfl
  rw [List.map_id] at hmap
  obtain rfl := Except.ok.inj h
  refine (List.mergeSort_perm _ _).trans ?_
  rw [hmap, List.map_map, List.map_map]
  refine .of_eq (List.map_congr_left fun e _ => ?_)
  simp only [rankedRow, returnNumbers, Function.comp_def]
  rfl

theorem buys_rank_iff {xs : List Number} {x : Number} : s.buys x (rank xs x) = true ↔
    (Number.finite s.absThreshold).lt x = true ∧
      (xs.countP fun y => x.lt y) + (xs.count x + 1 : ℚ) / 2 ≤ s.topN := by
  by_cases hnan : x = .nan
  · simp [hnan, buys, rank, Number.lt]
  · rw [buys, rank, if_neg hnan, Bool.and_eq_true, and_comm]
    simp

/-- The codes that are bought are the leaders. -/
theorem bought_iff_leads (h : s.generateSignal data = .ok rows) :
    code ∈ (rows.filter fun row => row.signal = .buy).map SignalRow.code ↔ s.Leads data code := by
  have hperm := generateSignal_ranked h
  simp only [List.mem_map, List.mem_filter, decide_eq_true_iff, hperm.mem_iff]
  constructor
  · intro hrow
    obtain ⟨row, ⟨⟨e, he, rfl⟩, hbuy⟩, rfl⟩ := hrow
    rw [long, List.mem_filter, decide_eq_true_iff] at he
    have hbuys : s.buys (s.returnNumber e.2) (rank (s.returnNumbers data) (s.returnNumber e.2)) := by
      by_contra hnot
      simp [rankedRow, hnot] at hbuy
    obtain ⟨hreturn, hplace⟩ := buys_rank_iff.mp hbuys
    exact ⟨e.2, Dict.mem_entries.mp he.1, he.2, hreturn, hplace⟩
  · intro hlead
    obtain ⟨df, hdf, hlong, hreturn, hplace⟩ := hlead
    refine ⟨s.rankedRow data (code, df), ⟨⟨(code, df), ?_, rfl⟩, ?_⟩, rfl⟩
    · rw [long, List.mem_filter, decide_eq_true_iff]
      exact ⟨Dict.mem_entries.mpr hdf, hlong⟩
    · have hbuys := buys_rank_iff.mpr ⟨hreturn, hplace⟩
      simp only [rankedRow, hbuys, if_true]

/-- No code has two signals. -/
theorem nodup_codes (h : s.generateSignal data = .ok rows) : (rows.map SignalRow.code).Nodup := by
  have hcodes : (rows.map SignalRow.code).Perm ((s.long data).map Prod.fst) := by
    refine ((generateSignal_ranked h).map SignalRow.code).trans ?_
    rw [List.map_map]
    exact .of_eq (List.map_congr_left fun e _ => rfl)
  refine hcodes.nodup_iff.mpr ?_
  exact data.nodup.sublist (List.filter_sublist.map Prod.fst)

end MomentumStrategy

/-! ## The orders -/

namespace PiotroskiMomentumStrategy
variable {momentum : MomentumStrategy} {dfUniverse : List (String × String)}
  {provider : OhlcvProvider} {year : ℤ} {result : StrategyResult}

/-- The orders are the bought signals, one by one. -/
theorem execute_orders (hne : dfUniverse ≠ [])
    (h : execute momentum (.ok dfUniverse) provider year = .ok result) : ∃ signals,
      momentum.generateSignal (loadOhlcv provider (dfUniverse.map Prod.fst)) = .ok signals ∧
        buildTradeIntents (signals.filter fun row => row.signal = .buy)
          (loadOhlcv provider (dfUniverse.map Prod.fst)) (Dict.ofList dfUniverse) =
            .ok result.orders := by
  rw [execute] at h
  obtain ⟨df, hdf, h⟩ := of_bind_ok h
  obtain rfl := Except.ok.inj hdf
  rw [if_neg hne] at h
  obtain ⟨signals, hsignals, h⟩ := of_bind_ok h
  obtain ⟨orders, horders, h⟩ := of_bind_ok h
  obtain rfl := Except.ok.inj h
  exact ⟨signals, hsignals, horders⟩

theorem tradeIntent_spec {data : Dict String Ohlcv} {nameMap : Dict String String}
    {row : SignalRow} {t : TradeIntent} (h : tradeIntent data nameMap row = .ok t) :
    t.stockCode = row.code ∧ t.side = .buy ∧
      t.stockName = (nameMap.get? row.code).getD row.code ∧
        priceHint data row.code = .ok t.priceHint ∧ t.momentumReturn = some row.momentumReturn := by
  rw [tradeIntent] at h
  obtain ⟨price, hprice, h⟩ := of_bind_ok h
  obtain ⟨momentumRank, hrank, h⟩ := of_bind_ok h
  obtain rfl := Except.ok.inj h
  exact ⟨rfl, rfl, rfl, hprice, rfl⟩

/-- The codes of the orders. -/
theorem codes_buildTradeIntents {data : Dict String Ohlcv} {nameMap : Dict String String}
    {rows : List SignalRow} {orders : List TradeIntent}
    (h : buildTradeIntents rows data nameMap = .ok orders) :
    orders.map TradeIntent.stockCode = rows.map SignalRow.code :=
  map_of_mapM_ok h fun _ _ _ ht => (tradeIntent_spec ht).1

end PiotroskiMomentumStrategy

/-- A selection: the screener and the signal of the strategy, what DART, the tables, the universe
and the provider answer, and the clocks of Seoul and of the host. -/
structure StrategyRun where
  screener : FScoreScreener
  momentum : MomentumStrategy
  dart : Dart
  store : DartStore
  universeBuilder : Except PyExc (List UniverseStock)
  provider : OhlcvProvider
  now : Instant
  today : ℤ

namespace StrategyRun

/-- Step 1 of the orchestrator: no year is the inferred one. -/
def fiscalYear (x : StrategyRun) (year : Option ℤ) : ℤ :=
  year.getD (inferLatestAvailableFiscalYear x.now)

/-- The first step of the strategy. -/
def screened (x : StrategyRun) (year : ℤ) : Except PyExc (List ScreenedRow) :=
  (x.screener.screen x.dart x.store x.universeBuilder year none x.today).2.2

/-- The columns `code` and `Name`. -/
def codesAndNames (rows : List ScreenedRow) : List (String × String) :=
  rows.map fun row => (row.score.code, (row.stock.map UniverseStock.name).getD "nan")

/-- The strategy as the orchestrator runs it. -/
def execute (x : StrategyRun) (year : Option ℤ) : Except PyExc StrategyResult :=
  PiotroskiMomentumStrategy.execute x.momentum
    ((x.screened (x.fiscalYear year)).map codesAndNames) x.provider (x.fiscalYear year)

/-- The price histories that are loaded for a frame. -/
def histories (x : StrategyRun) (rows : List ScreenedRow) : Dict String Ohlcv :=
  PiotroskiMomentumStrategy.loadOhlcv x.provider (rows.map fun row => row.score.code)

/-- A score of a code of the universe, as far as the tables can tell after the screening. -/
def Scored (x : StrategyRun) (df : List UniverseStock) (year : Option ℤ) (code : String)
    (score : FScoreResult) : Prop :=
  x.screener.Scored (FScoreScreener.tableAfter x.dart x.store df (x.fiscalYear year))
    (FScoreScreener.universeCodes df) (x.fiscalYear year) code score

variable {x : StrategyRun} {df : List UniverseStock} {year : Option ℤ} {rows : List ScreenedRow}
  {result : StrategyResult} {code : String}

theorem screened_rows (hdf : x.universeBuilder = .ok df)
    (hrows : x.screened (x.fiscalYear year) = .ok rows) {row : ScreenedRow} :
    row ∈ rows ↔ ∃ stock ∈ df, stock.Ordinary ∧ ∃ score, x.Scored df year stock.code score ∧
      x.screener.threshold ≤ score.fscore ∧
        row = ⟨score, some stock, FScoreScreener.pbr stock score⟩ := by
  have hnot : ¬ ∃ e, (x.screener.screen x.dart x.store x.universeBuilder (x.fiscalYear year) none
      x.today).2.2 = .error e := by
    intro he
    obtain ⟨e, he⟩ := he
    rw [screened, he] at hrows
    cases hrows
  rw [FScoreScreener.screen_error_iff, not_or, not_or, not_not] at hnot
  obtain ⟨hvalid, -, hnot⟩ := hnot
  push Not at hnot
  obtain ⟨hmarks, code, score, hscored⟩ := hnot df hdf
  obtain ⟨rows', hrows', hmem⟩ := FScoreScreener.screen_ok hvalid hmarks hscored
  rw [screened, hdf, hrows'] at hrows
  obtain rfl := Except.ok.inj hrows
  exact hmem row

/-- The codes of a frame are those of ordinary stocks whose score reaches the threshold. -/
theorem mem_codes (hdf : x.universeBuilder = .ok df)
    (hrows : x.screened (x.fiscalYear year) = .ok rows) :
    code ∈ rows.map (fun row => row.score.code) ↔
      (∃ stock ∈ df, stock.code = code ∧ stock.Ordinary) ∧
        ∃ score, x.Scored df year code score ∧ x.screener.threshold ≤ score.fscore := by
  rw [List.mem_map]
  constructor
  · intro h
    obtain ⟨row, hrow, rfl⟩ := h
    obtain ⟨stock, hstock, hordinary, score, hscored, hreach, rfl⟩ :=
      (screened_rows hdf hrows).mp hrow
    have hcode : score.code = stock.code := hscored.code_eq
    rw [hcode]
    exact ⟨⟨stock, hstock, rfl, hordinary⟩, score, hscored, hreach⟩
  · intro h
    obtain ⟨⟨stock, hstock, rfl, hordinary⟩, score, hscored, hreach⟩ := h
    exact ⟨_, (screened_rows hdf hrows).mpr ⟨stock, hstock, hordinary, score, hscored, hreach, rfl⟩,
      hscored.code_eq⟩

theorem leads_mem (h : x.momentum.Leads (x.histories rows) code) :
    code ∈ rows.map fun row => row.score.code := by
  obtain ⟨df, hdf, -⟩ := h
  obtain ⟨i, df', hi, -⟩ :=
    PiotroskiMomentumStrategy.mem_keys_loadOhlcv.mp (Dict.mem_keys_iff.mpr ⟨df, hdf⟩)
  exact List.mem_of_getElem? hi

/-- The orders of a selection with a frame: nothing for an empty one. -/
theorem execute_spec (hrows : x.screened (x.fiscalYear year) = .ok rows)
    (h : x.execute year = .ok result) : (rows = [] ∧ result.orders = []) ∨ ∃ signals,
      x.momentum.generateSignal (x.histories rows) = .ok signals ∧
        PiotroskiMomentumStrategy.buildTradeIntents
          (signals.filter fun row => row.signal = .buy) (x.histories rows)
          (Dict.ofList (codesAndNames rows)) = .ok result.orders := by
  rw [execute, hrows] at h
  have hcodes : (codesAndNames rows).map Prod.fst = rows.map fun row => row.score.code := by
    simp [codesAndNames]
  cases rows with
  | nil =>
    obtain rfl := Except.ok.inj h
    exact .inl ⟨rfl, rfl⟩
  | cons row rows =>
    right
    rw [histories, ← hcodes]
    exact PiotroskiMomentumStrategy.execute_orders (by simp [codesAndNames]) h

/-- A code of an ordinary stock of the universe, to which the statements of the year give a score
that reaches the threshold, and which leads the codes whose history was loaded. -/
structure Selected (x : StrategyRun) (df : List UniverseStock) (year : Option ℤ)
    (rows : List ScreenedRow) (code : String) : Prop where
  listed : ∃ stock ∈ df, stock.code = code ∧ stock.Ordinary
  scored : ∃ score, x.Scored df year code score ∧ x.screener.threshold ≤ score.fscore
  leads : x.momentum.Leads (x.histories rows) code

theorem selected_iff (hdf : x.universeBuilder = .ok df)
    (hrows : x.screened (x.fiscalYear year) = .ok rows) :
    x.Selected df year rows code ↔ x.momentum.Leads (x.histories rows) code := by
  constructor
  · exact Selected.leads
  · intro hlead
    obtain ⟨hlisted, hscored⟩ := (mem_codes hdf hrows).mp (leads_mem hlead)
    exact ⟨hlisted, hscored, hlead⟩

/-- The codes of the orders, none of which is there twice. -/
theorem codes_orders (hdf : x.universeBuilder = .ok df)
    (hrows : x.screened (x.fiscalYear year) = .ok rows) (h : x.execute year = .ok result) :
    (result.orders.map TradeIntent.stockCode).Nodup ∧
      ∀ code, code ∈ result.orders.map TradeIntent.stockCode ↔ x.Selected df year rows code := by
  obtain ⟨rfl, horders⟩ | ⟨signals, hsignals, horders⟩ := execute_spec hrows h
  · rw [horders]
    refine ⟨List.nodup_nil, fun code => ?_⟩
    rw [selected_iff hdf hrows]
    constructor
    · simp
    · intro hlead
      simpa using leads_mem hlead
  · rw [PiotroskiMomentumStrategy.codes_buildTradeIntents horders]
    constructor
    · exact (MomentumStrategy.nodup_codes hsignals).sublist
        (List.filter_sublist.map SignalRow.code)
    · intro code
      rw [selected_iff hdf hrows]
      exact MomentumStrategy.bought_iff_leads hsignals

/-- Every order buys. -/
theorem side_orders (hrows : x.screened (x.fiscalYear year) = .ok rows)
    (h : x.execute year = .ok result) : ∀ t ∈ result.orders, t.side = .buy := by
  obtain ⟨-, horders⟩ | ⟨signals, -, horders⟩ := execute_spec hrows h
  · simp [horders]
  · intro t ht
    obtain ⟨row, -, hintent⟩ := mem_of_mapM_ok horders ht
    exact (PiotroskiMomentumStrategy.tradeIntent_spec hintent).2.1

/-- A code is bought exactly when it is selected. -/
theorem bought_iff (hdf : x.universeBuilder = .ok df)
    (hrows : x.screened (x.fiscalYear year) = .ok rows) (h : x.execute year = .ok result)
    (code : String) :
    (∃ t ∈ result.orders, t.stockCode = code) ↔ x.Selected df year rows code := by
  rw [← (codes_orders hdf hrows h).2 code, List.mem_map]

/-- The history of a leader has a last close, which its price hint is made of. -/
theorem priceHint_of_leads {data : Dict String Ohlcv} {hint : Option ℤ}
    (hlead : x.momentum.Leads data code)
    (hhint : PiotroskiMomentumStrategy.priceHint data code = .ok hint) :
    ∃ history close, data.get? code = some history ∧ history.close.getLast? = some (some close) ∧
      hint = some (Python.Decimal.truncate close) := by
  obtain ⟨history, hhistory, -, hreturn, -⟩ := hlead
  have hnan : x.momentum.returnNumber history ≠ .nan := by
    intro hnan
    simp [hnan, Number.lt] at hreturn
  obtain ⟨ret, hret⟩ : ∃ ret, x.momentum.lookbackReturn history = .ok ret := by
    cases hlook : x.momentum.lookbackReturn history with
    | error e => simp [MomentumStrategy.returnNumber, hlook, Except.toOption] at hnan
    | ok ret => exact ⟨ret, rfl⟩
  rw [MomentumStrategy.returnNumber, hret] at hnan
  obtain ⟨close, hclose⟩ := MomentumStrategy.lookbackReturn_last hret hnan
  refine ⟨history, close, hhistory, hclose, ?_⟩
  have hne : history.close ≠ [] := by
    intro hnil
    simp [hnil] at hclose
  simp only [PiotroskiMomentumStrategy.priceHint, hhistory, if_neg hne,
    PiotroskiMomentumStrategy.lastClose, hclose] at hhint
  exact (Except.ok.inj hhint).symm

/-- The name of a code of the frame is the one of a stock of the universe. -/
theorem name_of_codesAndNames (hdf : x.universeBuilder = .ok df)
    (hrows : x.screened (x.fiscalYear year) = .ok rows)
    (hcode : code ∈ rows.map fun row => row.score.code) :
    ∃ stock ∈ df, stock.Ordinary ∧ stock.code = code ∧
      stock.name = ((Dict.ofList (codesAndNames rows)).get? code).getD code := by
  have hkey : code ∈ (Dict.ofList (codesAndNames rows)).keys := by
    rw [Dict.mem_keys_ofList]
    simpa [codesAndNames] using hcode
  obtain ⟨name, hname⟩ := Dict.mem_keys_iff.mp hkey
  obtain ⟨before, after, hsplit, -⟩ := Dict.get?_ofList_eq_some.mp hname
  have hmem := List.mem_append_right before (List.mem_cons_self (l := after) (a := (code, name)))
  rw [← hsplit, codesAndNames, List.mem_map] at hmem
  obtain ⟨row, hrow, heq⟩ := hmem
  obtain ⟨stock, hstock, hordinary, score, hscored, -, rfl⟩ := (screened_rows hdf hrows).mp hrow
  obtain ⟨rfl, rfl⟩ := Prod.mk.inj heq
  refine ⟨stock, hstock, hordinary, hscored.code_eq.symm, ?_⟩
  rw [hname]
  rfl

/-- No code is bought twice, and every order carries the name of a stock of the universe and the
last close of its history. -/
theorem orders_carry (hdf : x.universeBuilder = .ok df)
    (hrows : x.screened (x.fiscalYear year) = .ok rows) (h : x.execute year = .ok result) :
    (result.orders.map TradeIntent.stockCode).Nodup ∧ ∀ t ∈ result.orders, t.side = .buy ∧
      (∃ stock ∈ df, stock.Ordinary ∧ stock.code = t.stockCode ∧ stock.name = t.stockName) ∧
        ∃ history close, (x.histories rows).get? t.stockCode = some history ∧
          history.close.getLast? = some (some close) ∧
            t.priceHint = some (Python.Decimal.truncate close) := by
  refine ⟨(codes_orders hdf hrows h).1, fun t ht => ⟨side_orders hrows h t ht, ?_⟩⟩
  obtain ⟨-, horders⟩ | ⟨signals, hsignals, horders⟩ := execute_spec hrows h
  · simp [horders] at ht
  · obtain ⟨row, hrow, hintent⟩ := mem_of_mapM_ok horders ht
    obtain ⟨hcode, -, hname, hhint, -⟩ := PiotroskiMomentumStrategy.tradeIntent_spec hintent
    have hlead : x.momentum.Leads (x.histories rows) row.code :=
      (MomentumStrategy.bought_iff_leads hsignals).mp (List.mem_map_of_mem hrow)
    rw [hname, hcode]
    exact ⟨name_of_codesAndNames hdf hrows (leads_mem hlead), priceHint_of_leads hlead hhint⟩

/-- The annual statements of a company that does better than the year before. -/
def improving : List StatementRow :=
  [("BS", FScore.totalAssets, 1000, 1000), ("BS", FScore.totalLiab, 300, 400),
    ("BS", FScore.currentAssets, 300, 200), ("BS", FScore.currentLiab, 100, 100),
    ("BS", FScore.equity, 700, 600), ("BS", FScore.capitalStock, 50, 50),
    ("IS", FScore.revenue, 1200, 1000), ("IS", FScore.grossProfit, 400, 300),
    ("IS", FScore.netIncome, 100, 50), ("CF", FScore.cfo, 150, 80)].map
    fun (sjDiv, accountId, thstrm, frmtrm) =>
      ⟨"20260312000736", sjDiv, accountId, "11011", "2025", "005930", some thstrm, some frmtrm, none⟩

/-- A common stock, a preferred one and one without statements. -/
def threeStocks : List UniverseStock :=
  [⟨"005930", "삼성전자", "KOSPI", 400⟩, ⟨"005935", "삼성전자우", "KOSPI", 50⟩,
    ⟨"088980", "맥쿼리인프라", "KOSPI", 5⟩]

/-- A selection among them on 2026-05-04. -/
def commonSample : StrategyRun where
  screener := { FScore.standard with threshold := 7 }
  momentum := ⟨2, 1, 0⟩
  dart := ⟨.ok [], fun _ _ _ => .body (some "013") none, fun _ => true, true⟩
  store := ⟨improving, []⟩
  universeBuilder := .ok threeStocks
  provider _ _ := .ok ⟨[some 100, some 110], .ok ()⟩
  now := 20577 * microsecondsPerDay
  today := 20577

theorem commonSample_ends : ∃ rows result,
    commonSample.screened (commonSample.fiscalYear none) = .ok rows ∧
      commonSample.execute none = .ok result ∧
        result.orders.map TradeIntent.stockCode = ["005930"] := by
  have hrows : (commonSample.screened (commonSample.fiscalYear none)).toOption.isSome = true := by
    decide +kernel
  have horders : (commonSample.execute none).toOption.map
      (fun result => result.orders.map TradeIntent.stockCode) = some ["005930"] := by
    decide +kernel
  obtain ⟨rows, hrows⟩ := Option.isSome_iff_exists.mp hrows
  obtain ⟨result, hresult, hcodes⟩ := Option.map_eq_some_iff.mp horders
  exact ⟨rows, result, ok_of_toOption hrows, ok_of_toOption hresult, hcodes⟩

theorem bought_iff_common : ∃ rows result, commonSample.execute none = .ok result ∧
    (∃ t ∈ result.orders, t.stockCode = "005930") ∧ ∀ code,
      (∃ t ∈ result.orders, t.stockCode = code) ↔
        commonSample.Selected threeStocks none rows code := by
  obtain ⟨rows, result, hrows, hresult, hcodes⟩ := commonSample_ends
  refine ⟨rows, result, hresult, ?_, fun code => bought_iff rfl hrows hresult code⟩
  rw [← List.mem_map, hcodes, List.mem_singleton]

theorem orders_carry_common : ∃ rows result, commonSample.execute none = .ok result ∧
    result.orders.length = 1 ∧ ∀ t ∈ result.orders, t.side = .buy ∧
      ∃ history close, (commonSample.histories rows).get? t.stockCode = some history ∧
        history.close.getLast? = some (some close) ∧
          t.priceHint = some (Python.Decimal.truncate close) := by
  obtain ⟨rows, result, hrows, hresult, hcodes⟩ := commonSample_ends
  have hcarry := (orders_carry rfl hrows hresult).2
  refine ⟨rows, result, hresult, ?_, fun t ht => ⟨(hcarry t ht).1, (hcarry t ht).2.2⟩⟩
  rw [← List.length_map, hcodes, List.length_singleton]

/-! ## The ends of an unattended selection -/

/-- The strategy raises what the screening raises, and nothing else. -/
theorem execute_error_iff :
    (∃ e, x.execute year = .error e) ↔ ∃ e, x.screened (x.fiscalYear year) = .error e := by
  rw [execute]
  cases x.screened (x.fiscalYear year) with
  | error e => exact iff_of_true ⟨e, rfl⟩ ⟨e, rfl⟩
  | ok rows =>
    have hok : ∃ result, PiotroskiMomentumStrategy.execute x.momentum (.ok (codesAndNames rows))
        x.provider (x.fiscalYear year) = .ok result := by
      by_cases hnil : codesAndNames rows = []
      · rw [hnil]
        exact ⟨_, rfl⟩
      · obtain ⟨result, hresult, -⟩ := PiotroskiMomentumStrategy.execute_universe x.momentum
          x.provider (x.fiscalYear year) hnil
        exact ⟨result, hresult⟩
    obtain ⟨result, hresult⟩ := hok
    simp [Except.map, hresult]

/-- The error of the metadata says that the frame was empty. -/
theorem metadata_error_iff (hrows : x.screened (x.fiscalYear year) = .ok rows)
    (h : x.execute year = .ok result) : result.metadata.error = none ↔ rows ≠ [] := by
  rw [execute, hrows] at h
  cases rows with
  | nil =>
    obtain rfl := Except.ok.inj h
    simp
  | cons row rows =>
    obtain ⟨result', hresult', herror, -⟩ := PiotroskiMomentumStrategy.execute_universe x.momentum
      x.provider (x.fiscalYear year) (show codesAndNames (row :: rows) ≠ [] by
        simp [codesAndNames])
    obtain rfl := Except.ok.inj (hresult'.symm.trans h)
    simp [herror]

/-- A code with a score is one of an ordinary stock of the universe. -/
theorem ordinary_of_scored {score : FScoreResult} (h : x.Scored df year code score) :
    ∃ stock ∈ df, stock.code = code ∧ stock.Ordinary := by
  obtain ⟨stock, hstock, hcode⟩ := List.mem_map.mp (FScoreScreener.Scored.mem h)
  rw [mem_applyBaseFilters] at hstock
  exact ⟨stock, hstock.1, hcode, hstock.2⟩

/-- A selection of the inferred year fails from the universe, from a mark that is not taken, or
for want of any score; it comes back empty where no score reaches the threshold. The clock of the
host is no reason, even two weeks behind. -/
theorem unattended_ends (x : StrategyRun) (htoday : kstDate x.now ≤ x.today + 14) :
    ((∃ e, x.execute none = .error e) ↔ (∃ e, x.universeBuilder = .error e) ∨
      ∃ df, x.universeBuilder = .ok df ∧
        (FScoreScreener.MarksFail x.dart x.store (FScoreScreener.universeCodes df)
            (inferLatestAvailableFiscalYear x.now) ∨
          ∀ code score, ¬ x.Scored df none code score)) ∧
    ∀ df result, x.universeBuilder = .ok df → x.execute none = .ok result →
      (result.metadata.error = none ↔
        ∃ code score, x.Scored df none code score ∧ x.screener.threshold ≤ score.fscore) := by
  have hvalid : validateLookahead (x.fiscalYear none) none x.today = .ok () := by
    have hinferred := validateLookahead_inferred htoday (le_refl 0)
    rwa [add_zero] at hinferred
  constructor
  · rw [execute_error_iff, screened, FScoreScreener.screen_error_iff]
    simp only [hvalid, ne_eq, not_true_eq_false, false_or]
    rfl
  · intro df result hdf hresult
    obtain ⟨rows, hrows⟩ : ∃ rows, x.screened (x.fiscalYear none) = .ok rows := by
      cases hscreened : x.screened (x.fiscalYear none) with
      | error e =>
        obtain ⟨e', he'⟩ := execute_error_iff.mpr ⟨e, hscreened⟩
        rw [hresult] at he'
        cases he'
      | ok rows => exact ⟨rows, rfl⟩
    rw [metadata_error_iff hrows hresult]
    constructor
    · intro hne
      obtain ⟨row, hrow⟩ := List.exists_mem_of_ne_nil rows hne
      obtain ⟨stock, -, -, score, hscored, hreach, -⟩ := (screened_rows hdf hrows).mp hrow
      exact ⟨stock.code, score, hscored, hreach⟩
    · intro hscored
      obtain ⟨code, score, hscored, hreach⟩ := hscored
      have hmem := (mem_codes hdf hrows).mpr ⟨ordinary_of_scored hscored, score, hscored, hreach⟩
      intro hnil
      simp [hnil] at hmem

theorem unattended_ends_common : (∃ e, commonSample.execute none = .error e) ↔
    (∃ e, commonSample.universeBuilder = .error e) ∨
      ∃ df, commonSample.universeBuilder = .ok df ∧
        (FScoreScreener.MarksFail commonSample.dart commonSample.store
            (FScoreScreener.universeCodes df) (inferLatestAvailableFiscalYear commonSample.now) ∨
          ∀ code score, ¬ commonSample.Scored df none code score) :=
  (unattended_ends commonSample (by decide)).1

end StrategyRun

end Autotrading
