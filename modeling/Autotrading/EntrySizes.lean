import Autotrading.StrategyParameters
import Mathlib.Tactic.FieldSimp
import Mathlib.Tactic.Linarith
import Mathlib.Tactic.Ring

/-!
# The sizes of the entries of a day

`size_position` shares out the cash there is, and the loop takes each entry off that cash before it
asks for the next.
-/
namespace Autotrading.BacktestExecutor

section Sizes
variable [SortOrder] {x : BacktestExecutor ℚ} {strategy : ReversalVolumeStrategy ℚ}
  {stocks : PriceData ℚ} {data : BacktestData ℚ} {date : Instant} {book book' : SwingBook ℚ}

/-- The money that went into a position. -/
def capital (pos : SwingPosition ℚ) : ℚ := pos.quantity * pos.entryPrice

/-- A candidate with a price is bought for its part of the cash that is left. -/
theorem enterPosition_of_price (strategy : ReversalVolumeStrategy ℚ) (totalEquity : ℚ) {price : ℚ}
    {numNew : ℕ} {row : Candidate ℚ} (hprice : stocks.close? row.code date = some price)
    (hpos : 0 < price) (hnum : 0 < numNew) (hcash : 0 < book.cash) :
    ∃ pos, capital pos = book.cash / numNew ∧
      enterPosition strategy stocks date totalEquity numNew book row = { book with
        positions := book.positions ++ [pos]
        cash := book.cash - book.cash / numNew } := by
  have hnum' : (0 : ℚ) < numNew := Nat.cast_pos.mpr hnum
  have halloc : strategy.sizePosition row book.cash totalEquity numNew = book.cash / numNew := by
    have hnonneg : ¬ (numNew : ℤ) ≤ 0 := by omega
    unfold ReversalVolumeStrategy.sizePosition
    rw [if_neg hnonneg]
    exact congrArg (book.cash / ·) (Int.cast_natCast numNew)
  have hqty : 0 < book.cash / numNew / price := div_pos (div_pos hcash hnum') hpos
  have hle : book.cash / numNew ≤ book.cash := div_le_self hcash.le (by exact_mod_cast hnum)
  have hcost : book.cash / numNew / price * price = book.cash / numNew :=
    div_mul_cancel₀ _ hpos.ne'
  refine ⟨⟨row.code, row.name.getD row.code, price, book.cash / numNew / price, date, 0⟩, hcost, ?_⟩
  unfold enterPosition
  rw [hprice]
  dsimp only
  rw [halloc, if_pos hpos, if_pos ⟨hqty, hle⟩]
  show SwingBook.mk _ _ _ _ _ = _
  rw [hcost]

/-- Each of the candidates is bought for its part of what the ones before it left. -/
theorem capitals_of_entries (strategy : ReversalVolumeStrategy ℚ) (totalEquity : ℚ)
    (book : SwingBook ℚ) {numNew : ℕ} {rows : List (Candidate ℚ)} (hrows : rows.length ≤ numNew)
    (hcash : rows ≠ [] → 0 < book.cash)
    (hcloses : ∀ row ∈ rows, ∃ price, stocks.close? row.code date = some price ∧ 0 < price) :
    ∃ new, (rows.foldl (enterPosition strategy stocks date totalEquity numNew) book).positions =
        book.positions ++ new ∧
      new.map capital =
        (List.range rows.length).map fun i => book.cash / numNew * (1 - 1 / numNew) ^ i := by
  induction rows generalizing book with
  | nil => exact ⟨[], by simp, rfl⟩
  | cons row rows ih =>
    obtain ⟨⟨price, hprice, hpos⟩, hrest⟩ := List.forall_mem_cons.mp hcloses
    rw [List.length_cons] at hrows
    have hnum : 0 < numNew := by omega
    have hnum' : (numNew : ℚ) ≠ 0 := Nat.cast_ne_zero.mpr hnum.ne'
    obtain ⟨pos, hcapital, heq⟩ :=
      enterPosition_of_price strategy totalEquity hprice hpos hnum (hcash (List.cons_ne_nil _ _))
    have hleft : rows ≠ [] → 0 < book.cash - book.cash / numNew := by
      intro hne
      have hlength := List.length_pos_iff.mpr hne
      have hmore : (1 : ℚ) < numNew := by exact_mod_cast (show 1 < numNew by omega)
      have hless := div_lt_self (hcash (List.cons_ne_nil _ _)) hmore
      linarith
    obtain ⟨new, hpositions, hnew⟩ := ih { book with
      positions := book.positions ++ [pos]
      cash := book.cash - book.cash / numNew } (by omega) hleft hrest
    refine ⟨pos :: new, ?_, ?_⟩
    · rw [List.foldl_cons, heq, hpositions]
      simp
    · rw [List.map_cons, hnew, hcapital, List.length_cons, List.range_succ_eq_map, List.map_cons,
        List.map_map, pow_zero, mul_one]
      congr 1
      refine List.map_congr_left fun i _ => ?_
      rw [Function.comp_apply, pow_succ]
      field_simp

/-- On a date on which `k` candidates are adopted, each with a price, the new positions have the
same capital only where `k` is one. -/
theorem entries_equal_iff {signals adopted : List (Candidate ℚ)}
    (hday : x.directTradeDay strategy data book date = .ok book')
    (hruns : x.EntryRuns data.dfUniverse (exitPositions strategy (stockData data) date book))
    (hsignals : x.signalsOn strategy data date
      (exitPositions strategy (stockData data) date book) = .ok signals)
    (hadopted : adopted = signals.take
      (x.freeSlots (exitPositions strategy (stockData data) date book)).toNat)
    (hnumber : 1 ≤ adopted.length)
    (hcloses : ∀ row ∈ adopted, ∃ price, (stockData data).close? row.code date = some price ∧ 0 < price)
    (hcash : 0 < (exitPositions strategy (stockData data) date book).cash) :
    ∃ new, book'.positions =
        (exitPositions strategy (stockData data) date book).positions ++ new ∧
      new.length = adopted.length ∧
      ((∀ pos ∈ new, capital pos =
          (exitPositions strategy (stockData data) date book).cash / adopted.length) ↔
        adopted.length = 1) := by
  obtain ⟨entered, hbook, hentered⟩ := directTradeDay_cases hday
  obtain ⟨-, signals', hsignals', heq⟩ := hentered.resolve_left fun h => h.1 hruns
  rw [hsignals] at hsignals'
  obtain rfl := Except.ok.inj hsignals'
  rw [← hadopted] at heq
  generalize exitPositions strategy (stockData data) date book = behind at *
  obtain ⟨new, hpositions, hnew⟩ := capitals_of_entries strategy
    (behind.cash + positionsValue (stockData data) date behind.positions)
    { behind with candidates := some adopted.length } le_rfl (fun _ => hcash) hcloses
  refine ⟨new, ?_, ?_, ?_⟩
  · rw [hbook, heq]
    exact hpositions
  · simpa using congrArg List.length hnew
  · have hsame : (∀ pos ∈ new, capital pos = behind.cash / adopted.length) ↔
        ∀ i < adopted.length, behind.cash / adopted.length * (1 - 1 / adopted.length) ^ i =
          behind.cash / adopted.length := by
      rw [← List.forall_mem_map (P := (· = behind.cash / adopted.length)), hnew, List.forall_mem_map]
      simp
    have hpart : behind.cash / adopted.length ≠ 0 :=
      (div_pos hcash (Nat.cast_pos.mpr hnumber)).ne'
    rw [hsame]
    constructor
    · intro hall
      by_contra hmore
      -- the second entry gets less than the first
      have hsecond := hall 1 (by omega)
      rw [pow_one, mul_eq_left₀ hpart, sub_eq_self, one_div, inv_eq_zero, Nat.cast_eq_zero] at hsecond
      omega
    · intro hone i hi
      have hfirst : i = 0 := by omega
      rw [hfirst, pow_zero, mul_one]

end Sizes

open scoped SortOrder

/-- One candidate gets the cash there is. -/
theorem entries_equal_iff_sample : ∃ book' new,
    swingTrader.directTradeDay swingStrategy (dataOfFourDays 50) swingTrader.openingBook
      86400000000 = .ok book' ∧
    book'.positions = new ∧ ∀ pos ∈ new, capital pos = 900 := by
  have hrun : ((swingTrader.signalsOn swingStrategy (dataOfFourDays 50) 86400000000
      swingTrader.openingBook).toOption.any fun signals =>
        signals.length = 1 ∧ ∀ row ∈ signals,
          ((stockData (dataOfFourDays 50)).close? row.code 86400000000).any fun price => 0 < price) =
      true := by decide +kernel
  have hday : (swingTrader.directTradeDay swingStrategy (dataOfFourDays 50) swingTrader.openingBook
      86400000000).toOption.isSome = true := by decide +kernel
  obtain ⟨signals, hsignals, hvalues⟩ := (Option.any_eq_true _ _).mp hrun
  obtain ⟨hlength, hcloses⟩ := of_decide_eq_true hvalues
  obtain ⟨book', hbook'⟩ := Option.isSome_iff_exists.mp hday
  have hadopted : signals = signals.take (swingTrader.freeSlots swingTrader.openingBook).toNat :=
    (List.take_of_length_le hlength.le).symm
  obtain ⟨new, hpositions, -, hiff⟩ := entries_equal_iff (ok_of_toOption hbook')
    (show swingTrader.EntryRuns (dataOfFourDays 50).dfUniverse swingTrader.openingBook by
      decide +kernel) (ok_of_toOption hsignals) hadopted hlength.ge
    (fun row hrow => (Option.any_eq_true _ _).mp (hcloses row hrow) |>.imp fun _ h =>
      ⟨h.1, of_decide_eq_true h.2⟩) (by decide +kernel)
  refine ⟨book', new, ok_of_toOption hbook', hpositions, fun pos hpos => ?_⟩
  rw [hiff.mpr hlength pos hpos, hlength]
  exact div_one _

/-- Of two candidates the first gets half of 900, and the second half of what is left. -/
theorem entries_not_equal : ∃ book book',
    [0].foldlM (wideExecutor.directTradeDay narrowStrategy twoFalls) wideExecutor.openingBook =
      .ok book ∧
    book.cash = 900 ∧ book.positions = [] ∧
    wideExecutor.directTradeDay narrowStrategy twoFalls book 86400000000 = .ok book' ∧
    book'.positions.map capital = [450, 225] := by
  have hrun : (([0].foldlM (wideExecutor.directTradeDay narrowStrategy twoFalls)
      wideExecutor.openingBook).toOption.any fun book => book.cash = 900 ∧ book.positions = [] ∧
        (wideExecutor.directTradeDay narrowStrategy twoFalls book 86400000000).toOption.any fun book' =>
          book'.positions.map capital = [450, 225]) = true := by
    decide +kernel
  obtain ⟨book, hbook, hvalues⟩ := (Option.any_eq_true _ _).mp hrun
  obtain ⟨hcash, hpositions, hday⟩ := of_decide_eq_true hvalues
  obtain ⟨book', hbook', hcapitals⟩ := (Option.any_eq_true _ _).mp hday
  exact ⟨book, book', ok_of_toOption hbook, hcash, hpositions, ok_of_toOption hbook',
    of_decide_eq_true hcapitals⟩

end Autotrading.BacktestExecutor
