import Autotrading.MomentumStrategy

/-!
# The strategy of the rebalance

`app/strategy/strategies/piotroski_momentum_strategy.py` with the records of
`app/schemas/strategy/trading.py` it returns. The screener gives the codes and names of
the universe, and the provider answers the calls for price histories one after another.
-/
namespace Autotrading

open Python (Number)

inductive TradeSide
  | buy
  | sell
  deriving DecidableEq

/-- A `TradeIntent`, with the entries of its metadata that are read. -/
structure TradeIntent where
  stockCode : String
  stockName : String
  side : TradeSide
  priceHint : Option ℤ
  momentumReturn : Option Number
  momentumRank : Option ℤ

/-- The entries of `StrategyResult.metadata`. -/
structure StrategyMetadata where
  error : Option String := none
  universeCount : Option ℕ := none
  ohlcvLoaded : Option ℕ := none
  signalBuyCount : Option ℕ := none
  year : Option ℤ := none

structure StrategyResult where
  orders : List TradeIntent := []
  metadata : StrategyMetadata

/-- The calls to `get_ohlcv`, numbered. -/
abbrev OhlcvProvider : Type := ℕ → String → Except PyExc Ohlcv

namespace PiotroskiMomentumStrategy

/-- What `_load_ohlcv` keeps of an answer: nothing when the call or the conversion of the
dates raises, or when the frame is empty. -/
def usable : Except PyExc Ohlcv → Option Ohlcv
  | .error _ => none
  | .ok df =>
    if df.close = [] then none
    else
      match df.date with
      | .error _ => none
      | .ok () => some df

/-- One round of `_load_ohlcv`. -/
def loadOne (provider : OhlcvProvider) (data : Dict String Ohlcv) (code : String × ℕ) :
    Dict String Ohlcv :=
  match usable (provider code.2 code.1) with
  | some df => data.set code.1 df
  | none => data

/-- `_load_ohlcv`. -/
def loadOhlcv (provider : OhlcvProvider) (stockCodes : List String) : Dict String Ohlcv :=
  stockCodes.zipIdx.foldl (loadOne provider) .empty

/-- The price history of `code` came with one of its calls. -/
def Loaded (provider : OhlcvProvider) (stockCodes : List String) (code : String) : Prop :=
  ∃ i df, stockCodes[i]? = some code ∧ usable (provider i code) = some df

theorem usable_close {answer : Except PyExc Ohlcv} {df : Ohlcv} (h : usable answer = some df) :
    df.close ≠ [] := by
  unfold usable at h
  split at h
  · cases h
  · split at h
    · cases h
    · next hne =>
      split at h
      · cases h
      · obtain rfl := Option.some.inj h
        exact hne

theorem mem_keys_foldl {provider : OhlcvProvider} {calls : List (String × ℕ)}
    {data : Dict String Ohlcv} {code : String} :
    code ∈ (calls.foldl (loadOne provider) data).keys ↔
      code ∈ data.keys ∨ ∃ i df, (code, i) ∈ calls ∧ usable (provider i code) = some df := by
  induction calls generalizing data with
  | nil => simp
  | cons call calls ih =>
    obtain ⟨code', j⟩ := call
    rw [List.foldl_cons, ih]
    have hone : code ∈ (loadOne provider data (code', j)).keys ↔
        code ∈ data.keys ∨ code = code' ∧ ∃ df, usable (provider j code') = some df := by
      cases hu : usable (provider j code') with
      | none => simp [loadOne, hu]
      | some df => simp [loadOne, hu, or_comm]
    rw [hone]
    constructor
    · rintro ((hmem | ⟨rfl, df, hdf⟩) | ⟨i, df, hi, hdf⟩)
      · exact .inl hmem
      · exact .inr ⟨j, df, List.mem_cons_self, hdf⟩
      · exact .inr ⟨i, df, List.mem_cons_of_mem _ hi, hdf⟩
    · rintro (hmem | ⟨i, df, hi, hdf⟩)
      · exact .inl (.inl hmem)
      · rcases List.mem_cons.mp hi with heq | hi
        · obtain ⟨rfl, rfl⟩ := Prod.mk.inj heq
          exact .inl (.inr ⟨rfl, df, hdf⟩)
        · exact .inr ⟨i, df, hi, hdf⟩

/-- The codes with data are those whose history was loaded. -/
theorem mem_keys_loadOhlcv {provider : OhlcvProvider} {stockCodes : List String} {code : String} :
    code ∈ (loadOhlcv provider stockCodes).keys ↔ Loaded provider stockCodes code := by
  rw [loadOhlcv, mem_keys_foldl, Loaded]
  simp [Dict.empty, Dict.keys, List.mem_zipIdx_iff_getElem?]

theorem close_foldl {provider : OhlcvProvider} {calls : List (String × ℕ)}
    {data : Dict String Ohlcv} {code : String} {df : Ohlcv}
    (hdata : ∀ c d, data.get? c = some d → d.close ≠ [])
    (h : (calls.foldl (loadOne provider) data).get? code = some df) : df.close ≠ [] := by
  induction calls generalizing data with
  | nil => exact hdata code df h
  | cons call calls ih =>
    refine ih ?_ h
    intro c d hd
    cases hu : usable (provider call.2 call.1) with
    | none =>
      simp only [loadOne, hu] at hd
      exact hdata c d hd
    | some df' =>
      simp only [loadOne, hu, Dict.get?_set] at hd
      split at hd
      · obtain rfl := Option.some.inj hd
        exact usable_close hu
      · exact hdata c d hd

/-- No frame is kept empty. -/
theorem close_loadOhlcv {provider : OhlcvProvider} {stockCodes : List String} {code : String}
    {df : Ohlcv} (h : (loadOhlcv provider stockCodes).get? code = some df) : df.close ≠ [] :=
  close_foldl (by simp [Dict.empty, Dict.get?]) h

/-- `int(data[code]["Close"].iloc[-1])`. -/
def lastClose (df : Ohlcv) : Except PyExc ℤ :=
  match df.close.getLast? with
  | some (some q) => .ok (Python.Decimal.truncate q)
  | some none => .error (.other "ValueError" "cannot convert float NaN to integer")
  | none => .error (.other "IndexError" "single positional indexer is out-of-bounds")

/-- `int(signal_df.loc[code, "rank"])`. -/
def rankInt : Option ℚ → Except PyExc ℤ
  | some q => .ok (Python.Decimal.truncate q)
  | none => .error (.other "ValueError" "cannot convert float NaN to integer")

/-- The price hint of a code: none without a frame. -/
def priceHint (data : Dict String Ohlcv) (code : String) : Except PyExc (Option ℤ) :=
  match data.get? code with
  | some df => if df.close = [] then pure none else some <$> lastClose df
  | none => pure none

/-- One round of `_build_trade_intents`. -/
def tradeIntent (data : Dict String Ohlcv) (nameMap : Dict String String) (row : SignalRow) :
    Except PyExc TradeIntent := do
  let price ← priceHint data row.code
  let momentumRank ← rankInt row.rank
  pure {
    stockCode := row.code
    stockName := (nameMap.get? row.code).getD row.code
    side := .buy
    priceHint := price
    momentumReturn := some row.momentumReturn
    momentumRank := some momentumRank }

/-- `_build_trade_intents`. -/
def buildTradeIntents (buySignals : List SignalRow) (data : Dict String Ohlcv)
    (nameMap : Dict String String) : Except PyExc (List TradeIntent) :=
  buySignals.mapM (tradeIntent data nameMap)

/-- `execute`. The universe is a list of codes with their names. -/
def execute (momentum : MomentumStrategy) (screened : Except PyExc (List (String × String)))
    (provider : OhlcvProvider) (year : ℤ) : Except PyExc StrategyResult := do
  let dfUniverse ← screened
  if dfUniverse = [] then
    pure { metadata := { error := some "스크리닝 결과 없음", universeCount := some 0 } }
  else
    let stockCodes := dfUniverse.map Prod.fst
    let nameMap := Dict.ofList dfUniverse
    let data := loadOhlcv provider stockCodes
    let signals ← momentum.generateSignal data
    let buySignals := signals.filter fun row => row.signal = .buy
    let orders ← buildTradeIntents buySignals data nameMap
    pure {
      orders
      metadata := {
        universeCount := some dfUniverse.length
        ohlcvLoaded := some data.entries.length
        signalBuyCount := some buySignals.length
        year := some year } }

theorem tradeIntent_ok {data : Dict String Ohlcv} {nameMap : Dict String String} {row : SignalRow}
    (hprice : ∀ df, data.get? row.code = some df → ∃ q, df.close.getLast? = some (some q))
    {r : ℚ} (hrank : row.rank = some r) : ∃ t, tradeIntent data nameMap row = .ok t := by
  have hhint : ∃ p, priceHint data row.code = .ok p := by
    unfold priceHint
    cases hdf : data.get? row.code with
    | none => exact ⟨none, rfl⟩
    | some df =>
      obtain ⟨q, hq⟩ := hprice df hdf
      have hlast : lastClose df = .ok (Python.Decimal.truncate q) := by simp [lastClose, hq]
      by_cases hclose : df.close = []
      · exact ⟨none, if_pos hclose⟩
      · exact ⟨some (Python.Decimal.truncate q), by simp only [if_neg hclose, hlast]; rfl⟩
  obtain ⟨p, hp⟩ := hhint
  exact ⟨_, by simp only [tradeIntent, hp, hrank, rankInt]; rfl⟩

theorem tradeIntent_row {data : Dict String Ohlcv} {nameMap : Dict String String} {row : SignalRow}
    {t : TradeIntent} (h : tradeIntent data nameMap row = .ok t) :
    t.stockCode = row.code ∧ t.side = .buy := by
  unfold tradeIntent at h
  obtain ⟨price, hprice, h⟩ := of_bind_ok h
  obtain ⟨momentumRank, hrank, h⟩ := of_bind_ok h
  obtain rfl := Except.ok.inj h
  exact ⟨rfl, rfl⟩

/-- What `execute` returns on a screened universe: no error, and buys among the codes whose
history was loaded. -/
theorem execute_universe (momentum : MomentumStrategy) {dfUniverse : List (String × String)}
    (provider : OhlcvProvider) (year : ℤ) (hne : dfUniverse ≠ []) :
    ∃ result, execute momentum (.ok dfUniverse) provider year = .ok result ∧
      result.metadata.error = none ∧
        ∀ t ∈ result.orders, t.side = .buy ∧
          Loaded provider (dfUniverse.map Prod.fst) t.stockCode := by
  obtain ⟨data, hdata⟩ : ∃ data, data = loadOhlcv provider (dfUniverse.map Prod.fst) := ⟨_, rfl⟩
  have hclose : ∀ e ∈ data.entries, e.2.close ≠ [] := by
    intro e he
    rw [hdata] at he
    exact close_loadOhlcv (Dict.mem_entries.mp he)
  obtain ⟨signals, hsignals⟩ := momentum.generateSignal_ok fun e he _ => hclose e he
  have hintent : ∀ row ∈ signals.filter fun row => row.signal = .buy,
      ∃ t, tradeIntent data (Dict.ofList dfUniverse) row = .ok t := by
    intro row hrow
    rw [List.mem_filter, decide_eq_true_iff] at hrow
    obtain ⟨⟨df, hdf, hreturn⟩, hbuy⟩ := MomentumStrategy.generateSignal_row hsignals hrow.1
    obtain ⟨hnan, r, hr⟩ := MomentumStrategy.buys_number (hbuy hrow.2)
    refine tradeIntent_ok ?_ hr
    intro df' hdf'
    obtain rfl := Option.some.inj (hdf.symm.trans hdf')
    exact MomentumStrategy.lookbackReturn_last hreturn hnan
  obtain ⟨orders, horders⟩ := exists_mapM_ok hintent
  refine ⟨_, by simp only [execute, bind, Except.bind, if_neg hne, ← hdata, hsignals,
    buildTradeIntents, horders]; rfl, rfl, ?_⟩
  intro t ht
  obtain ⟨row, hrow, hrowt⟩ := mem_of_mapM_ok horders ht
  obtain ⟨hcode, hside⟩ := tradeIntent_row hrowt
  obtain ⟨⟨df, hdf, _⟩, _⟩ :=
    MomentumStrategy.generateSignal_row hsignals (List.mem_filter.mp hrow).1
  have hkey : row.code ∈ data.keys := Dict.mem_keys_iff.mpr ⟨df, hdf⟩
  rw [hdata, mem_keys_loadOhlcv] at hkey
  rw [hcode]
  exact ⟨hside, hkey⟩

end PiotroskiMomentumStrategy

end Autotrading
