import Autotrading.NoLookAhead
import Autotrading.SwingSteps
import Mathlib.Algebra.Order.BigOperators.Group.List
import Mathlib.Tactic.Linarith
import Mathlib.Tactic.Ring

/-!
# The daily records of direct trades

A record leaves out positions that have no bar on its day, and its number of signals is that of
the last day on which candidates were looked at.
-/
namespace Autotrading.BacktestExecutor

open DatedLoop

section Marking
variable [SortOrder] {x : BacktestExecutor ℚ} {strategy : ReversalVolumeStrategy ℚ}
  {stocks : PriceData ℚ} {data : BacktestData ℚ} {date : Instant} {book book' : SwingBook ℚ}
  {positions : List (SwingPosition ℚ)}

/-- The positions at their latest closes. -/
def markedValue (stocks : PriceData ℚ) (date : Instant) (positions : List (SwingPosition ℚ)) : ℚ :=
  (positions.map fun pos => pos.quantity * (stocks.lastClose? pos.stockCode date).getD 0).sum

/-- The positions without a bar on the date. -/
def unpriced (stocks : PriceData ℚ) (date : Instant) (positions : List (SwingPosition ℚ)) :
    List (SwingPosition ℚ) :=
  positions.filter fun pos => (stocks.close? pos.stockCode date).isNone

/-- The value of a record leaves out the positions without a bar. -/
theorem markedValue_eq (positions : List (SwingPosition ℚ)) :
    markedValue stocks date positions =
      positionsValue stocks date positions + markedValue stocks date (unpriced stocks date positions) := by
  unfold positionsValue holdingsValue markedValue unpriced
  rw [sum_eq]
  induction positions with
  | nil => simp
  | cons pos positions ih =>
    rw [List.map_cons, List.sum_cons, ih, List.map_cons, List.filterMap_cons, List.filter_cons]
    cases hprice : stocks.close? pos.stockCode date with
    | none =>
      simp only [Option.map_none, Option.isNone_none, if_true, List.map_cons, List.sum_cons]
      ring
    | some price =>
      simp only [Option.map_some, Option.isNone_some, List.sum_cons,
        PriceData.lastClose?_of_close? hprice, Option.getD_some]
      simp only [Bool.false_eq_true, if_false]
      exact (add_assoc _ _ _).symm

omit [SortOrder] in
/-- Positions without a bar stay. -/
theorem unpriced_of_exits {results : List (SwingPosition ℚ ⊕ SwingTradeRecord ℚ)}
    (h : List.Forall₂ (Exits stocks date) positions results) :
    markedValue stocks date (unpriced stocks date (results.filterMap Sum.getLeft?)) =
      markedValue stocks date (unpriced stocks date positions) := by
  unfold markedValue unpriced
  induction h with
  | nil => rfl
  | @cons pos _ positions results hexit _ ih =>
    cases hexit with
    | stays days =>
      rw [List.filterMap_cons_some (by rfl), List.filter_cons, List.filter_cons]
      cases hprice : stocks.close? pos.stockCode date with
      | none => simpa using ih
      | some price => simpa using ih
    | closes hprice =>
      rw [List.filterMap_cons_none (by rfl), ih, List.filter_cons, hprice]
      rfl

/-- What is bought has a bar. -/
theorem unpriced_enterAll (adopted : List (Candidate ℚ)) (book : SwingBook ℚ) :
    unpriced stocks date (enterAll strategy stocks date adopted book).positions =
      unpriced stocks date book.positions := by
  refine enterAll_invariant (fun _ entered =>
    unpriced stocks date entered.positions = unpriced stocks date book.positions) ?_ rfl
  intro row rest before after hbefore henters
  cases henters with
  | passes => exact hbefore
  | buys alloc hprice =>
    rw [← hbefore]
    unfold unpriced
    rw [List.filter_append, List.filter_cons, hprice]
    simp

theorem unpriced_of_day (h : x.directTradeDay strategy data book date = .ok book') :
    markedValue (stockData data) date (unpriced (stockData data) date book'.positions) =
      markedValue (stockData data) date (unpriced (stockData data) date book.positions) := by
  have hexits : markedValue (stockData data) date (unpriced (stockData data) date
        (exitPositions strategy (stockData data) date book).positions) =
      markedValue (stockData data) date (unpriced (stockData data) date book.positions) := by
    obtain ⟨results, hresults, heq⟩ := exits_exitPositions strategy (stockData data) date book
    rw [heq]
    exact unpriced_of_exits hresults
  obtain ⟨entered, hbook, hentered⟩ := directTradeDay_cases h
  rw [hbook, ← hexits]
  rcases hentered with ⟨_, heq⟩ | ⟨_, signals, _, heq⟩
  · rw [heq]
  · rw [heq]
    exact congrArg (markedValue (stockData data) date) (unpriced_enterAll _ _)

/-- What is held was bought, on a day with a bar. -/
def Bought (stocks : PriceData ℚ) (dates : List Instant) (book : SwingBook ℚ) : Prop :=
  ∀ pos ∈ book.positions, 0 < pos.quantity ∧
    ∃ date ∈ dates, (stocks.close? pos.stockCode date).isSome = true

theorem bought_of_run {dates : List Instant}
    (hrun : dates.foldlM (x.directTradeDay strategy data) x.openingBook = .ok book) :
    Bought (stockData data) dates book := by
  refine foldlM_along (Bought (stockData data)) (by simp [Bought, openingBook]) ?_ hrun
  intro before date after book₁ book₂ _ _ hbought hday pos hpos
  rcases mem_positions_of_day hday hpos with ⟨pos', hpos', heq⟩ | ⟨_, hqty, hprice⟩
  · obtain ⟨hqty, earlier, hearlier, hclose⟩ := hbought pos' hpos'
    rw [heq]
    exact ⟨hqty, earlier, List.mem_append_left _ hearlier, hclose⟩
  · refine ⟨hqty, date, by simp, ?_⟩
    rw [hprice]
    rfl

omit [SortOrder] in
/-- With positive closes, positions without a bar have a value. -/
theorem markedValue_unpriced_eq_zero_iff (hcloses : stocks.PositiveCloses) {dates : List Instant}
    (hbought : Bought stocks dates book) (hdates : ∀ earlier ∈ dates, earlier ≤ date) :
    markedValue stocks date (unpriced stocks date book.positions) = 0 ↔
      ∀ pos ∈ book.positions, (stocks.close? pos.stockCode date).isSome = true := by
  have hempty : unpriced stocks date book.positions = [] ↔
      ∀ pos ∈ book.positions, (stocks.close? pos.stockCode date).isSome = true := by
    unfold unpriced
    simp [List.filter_eq_nil_iff, Option.isSome_iff_ne_none]
  rw [← hempty]
  constructor
  · intro hzero
    by_contra hsome
    refine (List.sum_pos _ ?_ (by simpa using hsome)).ne' hzero
    intro value hvalue
    obtain ⟨pos, hpos, rfl⟩ := List.mem_map.mp hvalue
    obtain ⟨hqty, earlier, hearlier, hclose⟩ := hbought pos (List.mem_of_mem_filter hpos)
    have hlast := PriceData.lastClose?_isSome_of_le hclose (hdates earlier hearlier)
    obtain ⟨price, hprice⟩ := Option.isSome_iff_exists.mp hlast
    rw [hprice]
    exact mul_pos hqty (hcloses.lastClose?_pos hprice)
  · intro hnil
    rw [hnil]
    rfl

/-- On a date the equity is the cash and the positions at their latest closes if the positions
without a bar are worth nothing; with positive closes, if every position has a bar. -/
theorem daily_marking_iff (x : BacktestExecutor ℚ) (strategy : ReversalVolumeStrategy ℚ)
    (data : BacktestData ℚ) {before after : List Instant}
    (hdates : tradingDates data = before ++ date :: after)
    (hbefore : before.foldlM (x.directTradeDay strategy data) x.openingBook = .ok book)
    (hday : x.directTradeDay strategy data book date = .ok book') :
    ∃ r, book'.records = book.records ++ [r] ∧ r.date = date ∧
      (r.equity = book'.cash + markedValue (stockData data) date book'.positions ↔
        markedValue (stockData data) date (unpriced (stockData data) date book.positions) = 0) ∧
      ((stockData data).PositiveCloses →
        (r.equity = book'.cash + markedValue (stockData data) date book'.positions ↔
          ∀ pos ∈ book.positions, ((stockData data).close? pos.stockCode date).isSome = true)) := by
  have hiff : (dayRecord (stockData data) date book').equity =
        book'.cash + markedValue (stockData data) date book'.positions ↔
      markedValue (stockData data) date (unpriced (stockData data) date book.positions) = 0 := by
    rw [markedValue_eq, unpriced_of_day hday]
    show book'.cash + positionsValue _ _ _ = _ ↔ _
    constructor
    · intro h
      linarith
    · intro h
      linarith
  have hsorted := pairwise_tradingDates data
  rw [hdates, List.pairwise_append] at hsorted
  refine ⟨dayRecord (stockData data) date book', records_of_day hday, rfl, hiff, fun hcloses => ?_⟩
  rw [hiff]
  exact markedValue_unpriced_eq_zero_iff hcloses (bought_of_run hbefore)
    fun earlier hearlier => (hsorted.2.2 earlier hearlier date List.mem_cons_self).le

end Marking

section Signals
variable {ν : Type} [Column ν] {x : BacktestExecutor ν} {strategy : ReversalVolumeStrategy ν}
  {data : BacktestData ν} {date : Instant} {book book' : SwingBook ν}

/-- The candidates that the entry step takes for the book behind the exits, none where it does not
run. -/
def adoptedOn (x : BacktestExecutor ν) (strategy : ReversalVolumeStrategy ν) (data : BacktestData ν)
    (date : Instant) (book : SwingBook ν) : Except PyExc (List (Candidate ν)) :=
  if x.EntryRuns data.dfUniverse book then
    (x.signalsOn strategy data date book).map fun signals => signals.take (x.freeSlots book).toNat
  else .ok []

/-- The number that a day leaves behind is that of its candidates, or the one it found. -/
theorem candidates_of_day (h : x.directTradeDay strategy data book date = .ok book') :
    ∃ adopted, x.adoptedOn strategy data date (exitPositions strategy (stockData data) date book) =
        .ok adopted ∧
      book'.candidates =
        if x.EntryRuns data.dfUniverse (exitPositions strategy (stockData data) date book) then
          some adopted.length
        else book.candidates := by
  obtain ⟨entered, hbook, hentered⟩ := directTradeDay_cases h
  unfold adoptedOn
  rw [hbook]
  rcases hentered with ⟨hruns, heq⟩ | ⟨hruns, signals, hsignals, heq⟩
  · rw [if_neg hruns, heq]
    refine ⟨[], rfl, ?_⟩
    rw [if_neg hruns]
    rfl
  · rw [if_pos hruns, hsignals, heq]
    refine ⟨_, rfl, ?_⟩
    rw [if_pos hruns]
    exact (enterAll_frame strategy (stockData data) date _ _).2.2

/-- A record has the number of the candidates taken on its day if the entry step runs on it, or no
candidates were taken when it ran last. -/
theorem num_signals_iff (x : BacktestExecutor ν) (strategy : ReversalVolumeStrategy ν)
    (data : BacktestData ν) {before after : List Instant}
    (_hdates : tradingDates data = before ++ date :: after)
    (_hbefore : before.foldlM (x.directTradeDay strategy data) x.openingBook = .ok book)
    (hday : x.directTradeDay strategy data book date = .ok book') :
    ∃ r adopted, book'.records = book.records ++ [r] ∧ r.date = date ∧
      x.adoptedOn strategy data date (exitPositions strategy (stockData data) date book) =
        .ok adopted ∧
      (r.numSignals = some adopted.length ↔
        x.EntryRuns data.dfUniverse (exitPositions strategy (stockData data) date book) ∨
          book.candidates.getD 0 = 0) := by
  obtain ⟨adopted, hadopted, hcandidates⟩ := candidates_of_day hday
  refine ⟨dayRecord (stockData data) date book', adopted, records_of_day hday, rfl, hadopted, ?_⟩
  show some (book'.candidates.getD 0) = some adopted.length ↔ _
  rw [hcandidates, Option.some_inj]
  by_cases hruns : x.EntryRuns data.dfUniverse (exitPositions strategy (stockData data) date book)
  · simp [hruns]
  · rw [adoptedOn, if_neg hruns] at hadopted
    rw [← Except.ok.inj hadopted]
    simp [hruns]

end Signals

/-! ## A day of halted trading -/

open scoped SortOrder

/-- The stock has no bar on day 2. -/
def haltedStock : BacktestData ℚ where
  prices := ⟨[("__benchmark__",
      ⟨[rowOfDay 0 100 1, rowOfDay 1 90 1, rowOfDay 2 90 1, rowOfDay 3 91 1], by simp [rowOfDay]⟩),
    ("005930", ⟨[rowOfDay 0 100 1, rowOfDay 1 90 3, rowOfDay 3 91 1], by simp [rowOfDay]⟩)], by simp⟩
  dfUniverse := [⟨"005930", none⟩]

/-- Ten pieces at 91 on day 3. -/
theorem daily_marking_iff_sample : ∃ book book' r,
    [0, 86400000000, 2 * 86400000000].foldlM (swingTrader.directTradeDay swingStrategy haltedStock)
      swingTrader.openingBook = .ok book ∧
    swingTrader.directTradeDay swingStrategy haltedStock book (3 * 86400000000) = .ok book' ∧
    book'.records = book.records ++ [r] ∧
    r.equity = book'.cash + markedValue (stockData haltedStock) (3 * 86400000000) book'.positions ∧
    markedValue (stockData haltedStock) (3 * 86400000000) book'.positions = 910 := by
  have hrun : (([0, 86400000000, 2 * 86400000000].foldlM
      (swingTrader.directTradeDay swingStrategy haltedStock)
      swingTrader.openingBook).toOption.any fun book =>
        (∀ pos ∈ book.positions,
          ((stockData haltedStock).close? pos.stockCode (3 * 86400000000)).isSome = true) ∧
        (swingTrader.directTradeDay swingStrategy haltedStock book (3 * 86400000000)).toOption.any
          fun book' => markedValue (stockData haltedStock) (3 * 86400000000) book'.positions = 910) =
      true := by
    decide +kernel
  obtain ⟨book, hbook, hvalues⟩ := (Option.any_eq_true _ _).mp hrun
  obtain ⟨hpriced, hday⟩ := of_decide_eq_true hvalues
  obtain ⟨book', hbook', hvalue⟩ := (Option.any_eq_true _ _).mp hday
  obtain ⟨r, hr, -, -, hiff⟩ := daily_marking_iff swingTrader swingStrategy haltedStock
    (show tradingDates haltedStock =
      [0, 86400000000, 2 * 86400000000] ++ (3 * 86400000000) :: [] by decide +kernel)
    (ok_of_toOption hbook) (ok_of_toOption hbook')
  exact ⟨book, book', r, ok_of_toOption hbook, ok_of_toOption hbook', hr,
    (hiff (by decide +kernel)).mpr hpriced, of_decide_eq_true hvalue⟩

/-- On the day without a bar the ten pieces are worth nothing. -/
theorem halted_position_vanishes : ∃ book book',
    [0, 86400000000].foldlM (swingTrader.directTradeDay swingStrategy haltedStock)
      swingTrader.openingBook = .ok book ∧
    swingTrader.directTradeDay swingStrategy haltedStock book (2 * 86400000000) = .ok book' ∧
    (book'.records.getLast?.map (·.equity)) = some 0 ∧
    book'.cash + markedValue (stockData haltedStock) (2 * 86400000000) book'.positions = 900 := by
  have hrun : (([0, 86400000000].foldlM (swingTrader.directTradeDay swingStrategy haltedStock)
      swingTrader.openingBook).toOption.any fun book =>
        (swingTrader.directTradeDay swingStrategy haltedStock book (2 * 86400000000)).toOption.any
          fun book' => (book'.records.getLast?.map (·.equity)) = some 0 ∧
            book'.cash + markedValue (stockData haltedStock) (2 * 86400000000) book'.positions = 900) =
      true := by
    decide +kernel
  obtain ⟨book, hbook, hday⟩ := (Option.any_eq_true _ _).mp hrun
  obtain ⟨book', hbook', hvalues⟩ := (Option.any_eq_true _ _).mp hday
  exact ⟨book, book', ok_of_toOption hbook, ok_of_toOption hbook', of_decide_eq_true hvalues⟩

/-- The candidate of day 1 is counted on it. -/
theorem num_signals_iff_sample : ∃ book book' r adopted,
    [0].foldlM (swingTrader.directTradeDay swingStrategy haltedStock) swingTrader.openingBook =
      .ok book ∧
    swingTrader.directTradeDay swingStrategy haltedStock book 86400000000 = .ok book' ∧
    book'.records = book.records ++ [r] ∧
    swingTrader.adoptedOn swingStrategy haltedStock 86400000000
      (exitPositions swingStrategy (stockData haltedStock) 86400000000 book) = .ok adopted ∧
    r.numSignals = some adopted.length := by
  have hrun : (([0].foldlM (swingTrader.directTradeDay swingStrategy haltedStock)
      swingTrader.openingBook).toOption.any fun book =>
        swingTrader.EntryRuns haltedStock.dfUniverse
          (exitPositions swingStrategy (stockData haltedStock) 86400000000 book) ∧
        (swingTrader.directTradeDay swingStrategy haltedStock book 86400000000).toOption.isSome =
          true) = true := by
    decide +kernel
  obtain ⟨book, hbook, hvalues⟩ := (Option.any_eq_true _ _).mp hrun
  obtain ⟨hruns, hday⟩ := of_decide_eq_true hvalues
  obtain ⟨book', hbook'⟩ := Option.isSome_iff_exists.mp hday
  obtain ⟨r, adopted, hr, -, hadopted, hiff⟩ := num_signals_iff swingTrader swingStrategy haltedStock
    (show tradingDates haltedStock =
      [0] ++ 86400000000 :: [2 * 86400000000, 3 * 86400000000] by decide +kernel)
    (ok_of_toOption hbook) (ok_of_toOption hbook')
  exact ⟨book, book', r, adopted, ok_of_toOption hbook, ok_of_toOption hbook', hr, hadopted,
    hiff.mpr (.inl hruns)⟩

/-- It is counted again on day 2, when no slot is free. -/
theorem num_signals_repeated : ∃ book book',
    [0, 86400000000].foldlM (swingTrader.directTradeDay swingStrategy haltedStock)
      swingTrader.openingBook = .ok book ∧
    swingTrader.directTradeDay swingStrategy haltedStock book (2 * 86400000000) = .ok book' ∧
    ¬ swingTrader.EntryRuns haltedStock.dfUniverse
      (exitPositions swingStrategy (stockData haltedStock) (2 * 86400000000) book) ∧
    (book'.records.getLast?.bind (·.numSignals)) = some 1 := by
  have hrun : (([0, 86400000000].foldlM (swingTrader.directTradeDay swingStrategy haltedStock)
      swingTrader.openingBook).toOption.any fun book =>
        ¬ swingTrader.EntryRuns haltedStock.dfUniverse
          (exitPositions swingStrategy (stockData haltedStock) (2 * 86400000000) book) ∧
        (swingTrader.directTradeDay swingStrategy haltedStock book (2 * 86400000000)).toOption.any
          fun book' => (book'.records.getLast?.bind (·.numSignals)) = some 1) = true := by
    decide +kernel
  obtain ⟨book, hbook, hvalues⟩ := (Option.any_eq_true _ _).mp hrun
  obtain ⟨hruns, hday⟩ := of_decide_eq_true hvalues
  obtain ⟨book', hbook', hnumber⟩ := (Option.any_eq_true _ _).mp hday
  exact ⟨book, book', ok_of_toOption hbook, ok_of_toOption hbook', hruns, of_decide_eq_true hnumber⟩

end Autotrading.BacktestExecutor
