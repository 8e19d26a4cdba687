import Autotrading.MetricsAdapters
import Autotrading.StockListing
import Mathlib.Data.Int.LeastGreatest

/-!
# Universes by market value

`marcap_range` and `marcap_range_at` of `app/strategy/universe/universe_filters.py`. The second one
takes the values of a past date from the closes, and is to know nothing that came later.
-/
namespace Autotrading

/-- The market as the provider shows it: the list of stocks of today, the bars of each code, the
requests for bars that raise, and the days on which there is trading. -/
structure KrxMarket where
  stockList : List (ListedStock ℚ)
  bars : String → PriceFrame ℚ
  failure : String → ℤ → ℤ → Option String
  tradingDays : Set Instant
  traded : ∀ code, ∀ row ∈ (bars code).rows, row.date ∈ tradingDays

/-- A row of a universe, with the columns that are required. -/
structure UniverseStock where
  code : String
  name : String
  market : String
  marcap : ℚ
  deriving DecidableEq

namespace KrxMarket

/-- `get_ohlcv`, without the cache. -/
def getOhlcv (m : KrxMarket) (code : String) (start stop : ℤ) : Except String (List (OhlcvRow ℚ)) :=
  match m.failure code start stop with
  | some text => .error text
  | none => .ok ((m.bars code).rows.filter fun row =>
      timestamp start ≤ row.date ∧ row.date ≤ timestamp stop)

/-- The last day that `marcap_range_at` looks at. -/
def lookupEnd (asOf : ℤ) : ℤ := plusBDays asOf 5

/-- The entry of `close_prices` for a code, where there is one. -/
def historicalClose (m : KrxMarket) (asOf : ℤ) (code : String) : Option ℚ :=
  match m.getOhlcv code asOf (lookupEnd asOf) with
  | .ok (row :: _) => some row.close
  | .ok [] => none
  | .error _ => none

section Filters
variable [SortOrder]

/-- The `n` largest values from `minCap` up to `maxCap`; no upper bound is none or zero. -/
def largest (minCap : ℤ) (maxCap : Option ℤ) (n : ℤ) (df : List UniverseStock) :
    List UniverseStock :=
  let df := df.filter fun row => (minCap : ℚ) ≤ row.marcap
  let df := match maxCap with
    | none => df
    | some cap => if cap = 0 then df else df.filter fun row => row.marcap ≤ cap
  Column.head n (Column.sortValues (fun row => -row.marcap) df)

/-- `marcap_range`. -/
def marcapRange (m : KrxMarket) (minCap : ℤ) (maxCap : Option ℤ) (n : ℤ) : List UniverseStock :=
  largest minCap maxCap n (m.stockList.map fun row => ⟨row.code, row.name, row.market, row.marcap⟩)

/-- The stocks with a close, and what they were worth with the shares of today. -/
def historicalPool (m : KrxMarket) (asOf : ℤ) : List UniverseStock :=
  m.stockList.filterMap fun row => (m.historicalClose asOf row.code).map fun close =>
    ⟨row.code, row.name, row.market, close * row.stocks⟩

/-- `marcap_range_at`. -/
def marcapRangeAt (m : KrxMarket) (minCap : ℤ) (maxCap : Option ℤ) (n : ℤ) (asOfDate : Option ℤ) :
    List UniverseStock :=
  match asOfDate with
  | none => m.marcapRange minCap maxCap n
  | some asOf => largest minCap maxCap n (m.historicalPool asOf)

/-! ## What a universe of the past may depend on -/

/-- `day` is the first one of trading on or after a date. -/
def FirstTradingDay (m : KrxMarket) (asOf : ℤ) (day : Instant) : Prop :=
  IsLeast {d | d ∈ m.tradingDays ∧ timestamp asOf ≤ d} day

/-- Bars behind the date are altered or removed, and nothing else. -/
structure Altered (asOf : ℤ) (m m' : KrxMarket) : Prop where
  stockList : m'.stockList = m.stockList
  failure : m'.failure = m.failure
  past : ∀ code row, row.date ≤ timestamp asOf →
    (row ∈ (m'.bars code).rows ↔ row ∈ (m.bars code).rows)
  future : ∀ code, ∀ row ∈ (m'.bars code).rows, timestamp asOf < row.date →
    ∃ row' ∈ (m.bars code).rows, row'.date = row.date

/-- Whatever the bounds, no code is chosen whose first bar is behind the first day of trading; and
if there is trading on the date itself, bars behind it change nothing. -/
def ExcludesLater (m : KrxMarket) (asOf : ℤ) : Prop :=
  (∀ minCap maxCap n, ∀ row ∈ m.marcapRangeAt minCap maxCap n (some asOf), ∀ day,
      m.FirstTradingDay asOf day → ∃ bar ∈ (m.bars row.code).rows, bar.date ≤ day) ∧
    (timestamp asOf ∈ m.tradingDays → ∀ m', Altered asOf m m' → ∀ minCap maxCap n,
      m'.marcapRangeAt minCap maxCap n (some asOf) = m.marcapRangeAt minCap maxCap n (some asOf))

/-- Every listed code that has a bar in the days that are looked at has one on the first day of
trading. A code that was traded before may miss that day if the date itself is no trading day. -/
def OpensOnFirstDay (m : KrxMarket) (asOf : ℤ) : Prop :=
  ∀ stock ∈ m.stockList, ∀ bar bars,
    m.getOhlcv stock.code asOf (lookupEnd asOf) = .ok (bar :: bars) →
    m.FirstTradingDay asOf bar.date ∨
      timestamp asOf ∉ m.tradingDays ∧
        ∃ earlier ∈ (m.bars stock.code).rows, earlier.date < timestamp asOf

end Filters

/-! ## Bars and closes -/

section Bars
variable {m m' : KrxMarket} {asOf : ℤ} {code : String} {bar : OhlcvRow ℚ} {bars : List (OhlcvRow ℚ)}

/-- The first bar of an answer is one of the days asked for, and none of these is before. -/
theorem first_of_getOhlcv {start stop : ℤ} (h : m.getOhlcv code start stop = .ok (bar :: bars)) :
    bar ∈ (m.bars code).rows ∧ timestamp start ≤ bar.date ∧ bar.date ≤ timestamp stop ∧
      ∀ row ∈ (m.bars code).rows, timestamp start ≤ row.date → row.date ≤ timestamp stop →
        bar.date ≤ row.date := by
  unfold getOhlcv at h
  split at h
  · cases h
  · have hrows := Except.ok.inj h
    have hmem : bar ∈ (m.bars code).rows.filter fun row =>
        timestamp start ≤ row.date ∧ row.date ≤ timestamp stop := by
      rw [hrows]
      exact List.mem_cons_self
    have hsorted := (m.bars code).ascending.filter fun row =>
      decide (timestamp start ≤ row.date ∧ row.date ≤ timestamp stop)
    rw [List.mem_filter, decide_eq_true_iff] at hmem
    refine ⟨hmem.1, hmem.2.1, hmem.2.2, fun row hrow hstart hstop => ?_⟩
    have hin : row ∈ bar :: bars := by
      rw [← hrows, List.mem_filter, decide_eq_true_iff]
      exact ⟨hrow, hstart, hstop⟩
    rw [hrows, List.pairwise_cons] at hsorted
    obtain rfl | hlater := List.mem_cons.mp hin
    · exact le_rfl
    · exact (hsorted.1 row hlater).le

/-- Where a bar is in the days asked for and the request does not raise, there is a first. -/
theorem exists_getOhlcv {start stop : ℤ} (hanswer : m.failure code start stop = none)
    (hbar : bar ∈ (m.bars code).rows) (hstart : timestamp start ≤ bar.date)
    (hstop : bar.date ≤ timestamp stop) :
    ∃ first rest, m.getOhlcv code start stop = .ok (first :: rest) := by
  have hmem : bar ∈ (m.bars code).rows.filter fun row =>
      timestamp start ≤ row.date ∧ row.date ≤ timestamp stop := by
    rw [List.mem_filter, decide_eq_true_iff]
    exact ⟨hbar, hstart, hstop⟩
  obtain ⟨first, rest, hrows⟩ := List.exists_cons_of_ne_nil (List.ne_nil_of_mem hmem)
  exact ⟨first, rest, by rw [getOhlcv, hanswer, hrows]⟩

theorem answer_of_getOhlcv {start stop : ℤ} {rows : List (OhlcvRow ℚ)}
    (h : m.getOhlcv code start stop = .ok rows) : m.failure code start stop = none := by
  unfold getOhlcv at h
  split at h
  · cases h
  · assumption

/-- A code has a close exactly when there is a first bar. -/
theorem historicalClose_eq_some {close : ℚ} : m.historicalClose asOf code = some close ↔
    ∃ bar bars, m.getOhlcv code asOf (lookupEnd asOf) = .ok (bar :: bars) ∧ bar.close = close := by
  unfold historicalClose
  constructor
  · intro h
    split at h
    · next bar bars hrows => exact ⟨bar, bars, hrows, Option.some.inj h⟩
    · cases h
    · cases h
  · rintro ⟨bar, bars, hrows, rfl⟩
    rw [hrows]

/-- A day has one bar of a code. -/
theorem eq_of_date_eq {a b : OhlcvRow ℚ} (ha : a ∈ (m.bars code).rows) (hb : b ∈ (m.bars code).rows)
    (h : a.date = b.date) : a = b := by
  have hdates : ((m.bars code).rows.map (·.date)).Nodup :=
    (m.bars code).pairwise_index.imp ne_of_lt
  exact List.inj_on_of_nodup_map hdates ha hb h

/-- A close on the date itself does not change with later bars. -/
theorem Altered.first_eq (h : Altered asOf m m') {bar' : OhlcvRow ℚ} {bars' : List (OhlcvRow ℚ)}
    (hbar : m.getOhlcv code asOf (lookupEnd asOf) = .ok (bar :: bars))
    (hdate : bar.date = timestamp asOf)
    (hbar' : m'.getOhlcv code asOf (lookupEnd asOf) = .ok (bar' :: bars')) : bar' = bar := by
  obtain ⟨hmem, hstart, hstop, -⟩ := first_of_getOhlcv hbar
  obtain ⟨hmem', hstart', -, hfirst'⟩ := first_of_getOhlcv hbar'
  have hsame : bar ∈ (m'.bars code).rows := (h.past code bar hdate.le).mpr hmem
  have hle : bar'.date ≤ bar.date := hfirst' bar hsame hstart hstop
  have hback : bar' ∈ (m.bars code).rows := (h.past code bar' (hle.trans hdate.le)).mp hmem'
  exact eq_of_date_eq hback hmem (le_antisymm hle (hdate.le.trans hstart'))

/-- No bar comes into the days that are looked at. -/
theorem Altered.exists_first (h : Altered asOf m m') {bar' : OhlcvRow ℚ} {bars' : List (OhlcvRow ℚ)}
    (hbar' : m'.getOhlcv code asOf (lookupEnd asOf) = .ok (bar' :: bars')) :
    ∃ first rest, m.getOhlcv code asOf (lookupEnd asOf) = .ok (first :: rest) := by
  obtain ⟨hmem', hstart', hstop', -⟩ := first_of_getOhlcv hbar'
  have hanswer : m.failure code asOf (lookupEnd asOf) = none := by
    rw [← h.failure]
    exact answer_of_getOhlcv hbar'
  by_cases hlate : timestamp asOf < bar'.date
  · obtain ⟨row, hrow, hdate⟩ := h.future code bar' hmem' hlate
    exact exists_getOhlcv hanswer hrow (hdate ▸ hstart') (hdate ▸ hstop')
  · have hrow := (h.past code bar' (not_lt.mp hlate)).mp hmem'
    exact exists_getOhlcv hanswer hrow hstart' hstop'

/-- Where the first bar is one of the date itself, the close stays what it is. -/
theorem Altered.historicalClose_eq (h : Altered asOf m m')
    (hopen : ∀ bar bars, m.getOhlcv code asOf (lookupEnd asOf) = .ok (bar :: bars) →
      bar.date = timestamp asOf) :
    m'.historicalClose asOf code = m.historicalClose asOf code := by
  refine Option.ext fun close => ?_
  rw [historicalClose_eq_some, historicalClose_eq_some]
  constructor
  · rintro ⟨bar', bars', hbar', hclose⟩
    obtain ⟨bar, bars, hbar⟩ := h.exists_first hbar'
    have heq := h.first_eq hbar (hopen bar bars hbar) hbar'
    exact ⟨bar, bars, hbar, heq ▸ hclose⟩
  · rintro ⟨bar, bars, hbar, hclose⟩
    obtain ⟨hmem, hstart, hstop, -⟩ := first_of_getOhlcv hbar
    have hdate := hopen bar bars hbar
    have hsame : bar ∈ (m'.bars code).rows := (h.past code bar hdate.le).mpr hmem
    have hanswer : m'.failure code asOf (lookupEnd asOf) = none := by
      rw [h.failure]
      exact answer_of_getOhlcv hbar
    obtain ⟨bar', bars', hbar'⟩ := exists_getOhlcv hanswer hsame hstart hstop
    have heq := h.first_eq hbar hdate hbar'
    exact ⟨bar', bars', hbar', heq ▸ hclose⟩

theorem mem_historicalPool {row : UniverseStock} :
    row ∈ m.historicalPool asOf ↔ ∃ stock ∈ m.stockList, ∃ close,
      m.historicalClose asOf stock.code = some close ∧
      (⟨stock.code, stock.name, stock.market, close * stock.stocks⟩ : UniverseStock) = row := by
  simp [historicalPool, List.mem_filterMap, Option.map_eq_some_iff]

theorem mem_historicalPool_of_bar {stock : ListedStock ℚ} (hstock : stock ∈ m.stockList)
    (hbar : m.getOhlcv stock.code asOf (lookupEnd asOf) = .ok (bar :: bars)) :
    (⟨stock.code, stock.name, stock.market, bar.close * stock.stocks⟩ : UniverseStock) ∈
      m.historicalPool asOf := by
  have hclose := historicalClose_eq_some.mpr ⟨bar, bars, hbar, rfl⟩
  exact mem_historicalPool.mpr ⟨stock, hstock, bar.close, hclose, rfl⟩

/-- On a day of trading every code opens on the day itself. -/
theorem OpensOnFirstDay.date_eq {stock : ListedStock ℚ} (h : m.OpensOnFirstDay asOf)
    (htrading : timestamp asOf ∈ m.tradingDays) (hstock : stock ∈ m.stockList)
    (hbar : m.getOhlcv stock.code asOf (lookupEnd asOf) = .ok (bar :: bars)) :
    bar.date = timestamp asOf := by
  obtain hfirst | ⟨hno, -⟩ := h stock hstock bar bars hbar
  · exact le_antisymm (hfirst.2 ⟨htrading, le_rfl⟩) hfirst.1.2
  · exact absurd htrading hno

/-- The market without the bars behind a date. -/
def upTo (m : KrxMarket) (asOf : ℤ) : KrxMarket :=
  { m with
    bars := fun code => (m.bars code).upTo (timestamp asOf)
    traded := fun code row hrow => m.traded code row (List.mem_filter.mp hrow).1 }

theorem altered_upTo (m : KrxMarket) (asOf : ℤ) : Altered asOf m (m.upTo asOf) where
  stockList := rfl
  failure := rfl
  past code row hle := by
    show row ∈ (m.bars code).rows.filter _ ↔ _
    rw [List.mem_filter, decide_eq_true_iff]
    exact and_iff_left hle
  future code row hrow _ := ⟨row, (List.mem_filter.mp hrow).1, rfl⟩

end Bars

/-! ## The universe -/

section Universe
variable [SortOrder] {m m' : KrxMarket} {asOf minCap n : ℤ} {maxCap : Option ℤ}
  {row : UniverseStock} {df : List UniverseStock}

theorem mem_of_mem_largest (h : row ∈ largest minCap maxCap n df) : row ∈ df := by
  unfold largest at h
  have hsorted := (Column.sortValues_perm _ _).mem_iff.mp ((Column.head_sublist _ _).subset h)
  split at hsorted
  · exact (List.mem_filter.mp hsorted).1
  · split_ifs at hsorted
    · exact (List.mem_filter.mp hsorted).1
    · exact (List.mem_filter.mp (List.mem_filter.mp hsorted).1).1

/-- With room for all and no bound above it a row is chosen. -/
theorem mem_largest (h : row ∈ df) (hn : df.length ≤ n) : row ∈ largest ⌊row.marcap⌋ none n df := by
  unfold largest
  have hperm := Column.sortValues_perm (fun row : UniverseStock => -row.marcap)
    (df.filter fun other => (⌊row.marcap⌋ : ℚ) ≤ other.marcap)
  have hlength := List.length_filter_le
    (fun other : UniverseStock => (⌊row.marcap⌋ : ℚ) ≤ other.marcap) df
  rw [Column.head_of_length_le (by rw [hperm.length_eq]; omega), hperm.mem_iff, List.mem_filter]
  exact ⟨h, decide_eq_true (Int.floor_le row.marcap)⟩

section Opening
variable {stock : ListedStock ℚ} {bar : OhlcvRow ℚ} {bars : List (OhlcvRow ℚ)}

/-- A code with a bar is chosen for bounds that admit it. -/
theorem mem_marcapRangeAt (hrow : row ∈ m.historicalPool asOf) :
    row ∈ m.marcapRangeAt ⌊row.marcap⌋ none (m.historicalPool asOf).length (some asOf) := by
  rw [marcapRangeAt]
  exact mem_largest hrow le_rfl

/-- On a day of trading the code must still be chosen without the later bars. -/
theorem ExcludesLater.date_eq (h : m.ExcludesLater asOf) (htrading : timestamp asOf ∈ m.tradingDays)
    (hstock : stock ∈ m.stockList)
    (hbar : m.getOhlcv stock.code asOf (lookupEnd asOf) = .ok (bar :: bars)) :
    bar.date = timestamp asOf := by
  obtain ⟨-, hstart, hstop, hfirst⟩ := first_of_getOhlcv hbar
  have hchosen := mem_marcapRangeAt (mem_historicalPool_of_bar hstock hbar)
  rw [← h.2 htrading (m.upTo asOf) (altered_upTo m asOf), marcapRangeAt] at hchosen
  obtain ⟨stock', -, close', hclose', heq⟩ := mem_historicalPool.mp (mem_of_mem_largest hchosen)
  have hcode : stock'.code = stock.code := congrArg UniverseStock.code heq
  obtain ⟨bar', bars', hbar', -⟩ := historicalClose_eq_some.mp (hcode ▸ hclose')
  obtain ⟨hmem', hstart', -, -⟩ := first_of_getOhlcv hbar'
  have hpast := List.mem_filter.mp hmem'
  rw [decide_eq_true_iff] at hpast
  have hle : bar.date ≤ bar'.date :=
    hfirst bar' hpast.1 hstart' (hpast.2.trans (hstart.trans hstop))
  exact le_antisymm (hle.trans hpast.2) hstart

/-- A code that was not traded before the date opens on the first day of trading. -/
theorem ExcludesLater.firstTradingDay (h : m.ExcludesLater asOf) (hstock : stock ∈ m.stockList)
    (hbar : m.getOhlcv stock.code asOf (lookupEnd asOf) = .ok (bar :: bars))
    (hnew : ¬ ∃ earlier ∈ (m.bars stock.code).rows, earlier.date < timestamp asOf) :
    m.FirstTradingDay asOf bar.date := by
  obtain ⟨hmem, hstart, hstop, hfirst⟩ := first_of_getOhlcv hbar
  have hopen : bar.date ∈ {d | d ∈ m.tradingDays ∧ timestamp asOf ≤ d} :=
    ⟨m.traded stock.code bar hmem, hstart⟩
  obtain ⟨day, hday, hleast⟩ := Int.exists_least_of_bdd ⟨timestamp asOf, fun d hd => hd.2⟩
    ⟨bar.date, hopen⟩
  have hfirstDay : m.FirstTradingDay asOf day := ⟨hday, hleast⟩
  have hchosen := mem_marcapRangeAt (mem_historicalPool_of_bar hstock hbar)
  obtain ⟨old, hold, hle⟩ := h.1 _ none _ _ hchosen day hfirstDay
  have hlate : timestamp asOf ≤ old.date := not_lt.mp fun hlt => hnew ⟨old, hold, hlt⟩
  have hbefore : old.date ≤ bar.date := hle.trans (hleast _ hopen)
  have hback : bar.date ≤ day := (hfirst old hold hlate (hbefore.trans hstop)).trans hle
  obtain rfl : day = bar.date := le_antisymm (hleast _ hopen) hback
  exact hfirstDay

end Opening

/-- The universe of a past date is free of what came later exactly when every code opens on the
first day of trading. -/
theorem excludesLater_iff (m : KrxMarket) (asOf : ℤ) :
    m.ExcludesLater asOf ↔ m.OpensOnFirstDay asOf := by
  constructor
  · intro h stock hstock bar bars hbar
    by_cases htrading : timestamp asOf ∈ m.tradingDays
    · have hdate := h.date_eq htrading hstock hbar
      refine .inl ⟨⟨hdate ▸ htrading, hdate.ge⟩, fun day hday => ?_⟩
      rw [hdate]
      exact hday.2
    · by_cases hearly : ∃ earlier ∈ (m.bars stock.code).rows, earlier.date < timestamp asOf
      · exact .inr ⟨htrading, hearly⟩
      · exact .inl (h.firstTradingDay hstock hbar hearly)
  · intro hopens
    constructor
    · intro minCap maxCap n row hrow day hday
      obtain ⟨stock, hstock, close, hclose, rfl⟩ := mem_historicalPool.mp (mem_of_mem_largest hrow)
      obtain ⟨bar, bars, hbar, -⟩ := historicalClose_eq_some.mp hclose
      obtain hfirst | ⟨-, earlier, hearlier, hlt⟩ := hopens stock hstock bar bars hbar
      · exact ⟨bar, (first_of_getOhlcv hbar).1, hfirst.2 hday.1⟩
      · exact ⟨earlier, hearlier, hlt.le.trans hday.1.2⟩
    · intro htrading m' h minCap maxCap n
      have hpool : m'.historicalPool asOf = m.historicalPool asOf := by
        unfold historicalPool
        rw [h.stockList]
        refine List.filterMap_congr fun stock hstock => ?_
        rw [h.historicalClose_eq fun bar bars => hopens.date_eq htrading hstock]
      simp only [marcapRangeAt, hpool]

end Universe

/-! ## A code that opens a day late -/

open scoped SortOrder

/-- A stock that is traded on 2025-01-02 and one that is first traded on the day after. -/
def lateListing : KrxMarket where
  stockList := [⟨"005930", "A", "KOSPI", 0, 10⟩, ⟨"352820", "B", "KOSPI", 0, 1000⟩]
  bars code :=
    if code = "352820" then ⟨[OhlcvSource.dailyRow 20091 300], by simp⟩
    else ⟨[OhlcvSource.dailyRow 20090 100, OhlcvSource.dailyRow 20091 101],
      by simp [OhlcvSource.dailyRow]⟩
  failure _ _ _ := none
  tradingDays := {timestamp 20090, timestamp 20091}
  traded code row hrow := by
    by_cases hcode : code = "352820"
    · simp only [hcode, if_true, List.mem_singleton] at hrow
      rw [hrow]
      exact .inr rfl
    · simp only [hcode, if_false, List.mem_cons, List.not_mem_nil, or_false] at hrow
      obtain rfl | rfl := hrow
      · exact .inl rfl
      · exact .inr rfl

/-- The second one is in the universe of the first day, with its close of the second. -/
theorem lateListing_chosen : ¬ lateListing.ExcludesLater 20090 := by
  rw [excludesLater_iff]
  intro hopens
  have htrading : timestamp 20090 ∈ lateListing.tradingDays := .inl rfl
  obtain hfirst | ⟨hno, -⟩ := hopens ⟨"352820", "B", "KOSPI", 0, 1000⟩ (by decide)
    (OhlcvSource.dailyRow 20091 300) [] (by decide +kernel)
  · have hle : (OhlcvSource.dailyRow 20091 300).date ≤ timestamp 20090 :=
      hfirst.2 ⟨htrading, le_rfl⟩
    exact absurd hle (by decide)
  · exact hno htrading

end KrxMarket

end Autotrading
