import Autotrading.NoLookAhead
import Autotrading.SwingSteps
import Mathlib.Tactic.Linarith

/-!
# The ledger of direct trades

Cash, positions and trades after every date of `_run_direct_trade`, in exact numbers.
-/
namespace Autotrading.BacktestExecutor

open DatedLoop

/-- What the positions cost. -/
def invested (positions : List (SwingPosition ℚ)) : ℚ :=
  (positions.map fun pos => pos.quantity * pos.entryPrice).sum

/-- What the trades gained. -/
def realised (trades : List (SwingTradeRecord ℚ)) : ℚ :=
  (trades.map fun t => t.quantity * (t.exitPrice - t.entryPrice)).sum

/-- Cash is not overdrawn, and what there is came from the initial cash and the trades. -/
structure Funds (x : BacktestExecutor ℚ) (book : SwingBook ℚ) : Prop where
  cash : 0 ≤ x.initialCash → 0 ≤ book.cash
  balance : book.cash + invested book.positions = x.initialCash + realised book.tradeRecords
  quantities : ∀ pos ∈ book.positions, 0 < pos.quantity

/-- The ledger: the funds are accounted for, no code is held twice, and the slots are kept. -/
structure Ledger (x : BacktestExecutor ℚ) (book : SwingBook ℚ) : Prop extends Funds x book where
  distinct : (book.positions.map (·.stockCode)).Nodup
  slots : 0 ≤ x.rvMaxPositions → (book.positions.length : ℤ) ≤ x.rvMaxPositions

section Invested
variable {positions more : List (SwingPosition ℚ)} {trades others : List (SwingTradeRecord ℚ)}

@[simp] theorem invested_nil : invested [] = 0 := rfl

@[simp] theorem invested_cons (pos : SwingPosition ℚ) :
    invested (pos :: positions) = pos.quantity * pos.entryPrice + invested positions := by
  simp [invested]

@[simp] theorem invested_append : invested (positions ++ more) = invested positions + invested more := by
  simp [invested]

@[simp] theorem realised_nil : realised [] = 0 := rfl

@[simp] theorem realised_cons (t : SwingTradeRecord ℚ) :
    realised (t :: trades) = t.quantity * (t.exitPrice - t.entryPrice) + realised trades := by
  simp [realised]

@[simp] theorem realised_append : realised (trades ++ others) = realised trades + realised others := by
  simp [realised]

end Invested

section Steps
variable [SortOrder] {x : BacktestExecutor ℚ} {strategy : ReversalVolumeStrategy ℚ}
  {stocks : PriceData ℚ} {data : BacktestData ℚ} {date : Instant} {book book' : SwingBook ℚ}

omit [SortOrder] in
/-- What the closed positions cost is what they brought in less what they gained. -/
theorem invested_of_exits {positions : List (SwingPosition ℚ)}
    {results : List (SwingPosition ℚ ⊕ SwingTradeRecord ℚ)}
    (h : List.Forall₂ (Exits stocks date) positions results) :
    ((results.filterMap Sum.getRight?).map fun t => t.quantity * t.exitPrice).sum +
        invested (results.filterMap Sum.getLeft?) =
      invested positions + realised (results.filterMap Sum.getRight?) := by
  induction h with
  | nil => simp
  | @cons pos _ positions results hexit _ ih =>
    cases hexit with
    | stays days =>
      simp only [List.filterMap_cons, Sum.getRight?_inl, Sum.getLeft?_inl, invested_cons]
      linarith
    | @closes t _ _ hquantity hentry _ =>
      simp only [List.filterMap_cons, Sum.getRight?_inr, Sum.getLeft?_inr, invested_cons,
        realised_cons, List.map_cons, List.sum_cons, hquantity, hentry]
      linarith

omit [SortOrder] in
/-- Positions of positive quantities stay so, and bring in money where they are closed. -/
theorem quantities_of_exits (hcloses : stocks.PositiveCloses) {positions : List (SwingPosition ℚ)}
    {results : List (SwingPosition ℚ ⊕ SwingTradeRecord ℚ)}
    (h : List.Forall₂ (Exits stocks date) positions results)
    (hpositions : ∀ pos ∈ positions, 0 < pos.quantity) :
    (∀ pos ∈ results.filterMap Sum.getLeft?, 0 < pos.quantity) ∧
      0 ≤ ((results.filterMap Sum.getRight?).map fun t => t.quantity * t.exitPrice).sum := by
  induction h with
  | nil => simp
  | @cons pos _ positions results hexit _ ih =>
    obtain ⟨hpos, hrest⟩ := List.forall_mem_cons.mp hpositions
    obtain ⟨hstay, hsum⟩ := ih hrest
    cases hexit with
    | stays days =>
      simp only [List.filterMap_cons, Sum.getRight?_inl, Sum.getLeft?_inl]
      exact ⟨List.forall_mem_cons.mpr ⟨hpos, hstay⟩, hsum⟩
    | @closes t hprice _ hquantity _ _ =>
      simp only [List.filterMap_cons, Sum.getRight?_inr, Sum.getLeft?_inr, List.map_cons,
        List.sum_cons, hquantity]
      have hbrought : 0 < pos.quantity * t.exitPrice := mul_pos hpos (hcloses.close?_pos hprice)
      exact ⟨hstay, by linarith⟩

/-- Exits turn positions into cash and trades. -/
theorem Funds.exits (hcloses : stocks.PositiveCloses) (h : Funds x book) :
    Funds x (exitPositions strategy stocks date book) := by
  obtain ⟨results, hresults, heq⟩ := exits_exitPositions strategy stocks date book
  obtain ⟨hstay, hsum⟩ := quantities_of_exits hcloses hresults h.quantities
  have hinvested := invested_of_exits hresults
  have hcash : (exitPositions strategy stocks date book).cash = book.cash +
      ((results.filterMap Sum.getRight?).map fun t => t.quantity * t.exitPrice).sum := by
    rw [heq]
    exact foldl_add (fun t : SwingTradeRecord ℚ => t.quantity * t.exitPrice) _ _
  rw [heq] at hcash ⊢
  dsimp only at hcash
  constructor
  · intro hinitial
    have hbefore := h.cash hinitial
    show 0 ≤ _
    dsimp only
    rw [hcash]
    linarith
  · have hbalance := h.balance
    dsimp only
    rw [hcash, realised_append]
    linarith
  · exact hstay

/-- An entry turns cash into a position. -/
theorem Funds.enters {numNew : ℕ} {row : Candidate ℚ} (h : Funds x book)
    (henters : Enters stocks date numNew book row book') : Funds x book' := by
  cases henters with
  | passes => exact h
  | @buys price qty alloc hprice halloc hqty hpos hle =>
    have hprice_pos : 0 < price := by
      by_contra hneg
      rw [if_neg hneg] at hqty
      rw [hqty] at hpos
      exact lt_irrefl _ hpos
    have hcost : qty * price = alloc := by
      rw [if_pos hprice_pos] at hqty
      rw [hqty]
      exact div_mul_cancel₀ alloc hprice_pos.ne'
    constructor
    · intro hinitial
      show 0 ≤ book.cash - qty * price
      rw [hcost]
      have hle' : alloc ≤ book.cash := hle
      linarith
    · have hbalance := h.balance
      show book.cash - qty * price + invested (book.positions ++ [_]) = _
      rw [invested_append, invested_cons, invested_nil]
      linarith
    · intro pos hmem
      rcases List.mem_append.mp hmem with hold | hnew
      · exact h.quantities pos hold
      · rw [List.mem_singleton.mp hnew]
        exact hpos

/-- Exits free slots. -/
theorem Ledger.exits (hcloses : stocks.PositiveCloses) (h : Ledger x book) :
    Ledger x (exitPositions strategy stocks date book) := by
  have hcodes := codes_exitPositions strategy stocks date book
  constructor
  · exact h.toFunds.exits hcloses
  · exact h.distinct.sublist hcodes
  · intro hslots
    have hbefore := h.slots hslots
    have hlength := hcodes.length_le
    rw [List.length_map, List.length_map] at hlength
    omega

/-- The entries keep to the free slots, where the candidates are neither held nor named twice. -/
theorem Ledger.enters {signals : List (Candidate ℚ)} (h : Ledger x book)
    (hdistinct : (signals.map (·.code)).Nodup)
    (hfresh : ∀ row ∈ signals, row.code ∉ book.positions.map (·.stockCode))
    (hfree : 0 < x.freeSlots book) :
    Ledger x (enterAll strategy stocks date (signals.take (x.freeSlots book).toNat) book) := by
  have hadopted := List.take_sublist (x.freeSlots book).toNat signals
  have hlength := length_enterAll_le strategy stocks date
    (signals.take (x.freeSlots book).toNat) book
  constructor
  · refine enterAll_invariant (fun _ entered => Funds x entered) ?_
      ⟨h.cash, h.balance, h.quantities⟩
    intro row rest before after hbefore henters
    exact hbefore.enters henters
  · have hcodes : (book.positions.map (·.stockCode) ++
        (signals.take (x.freeSlots book).toNat).map (·.code)).Nodup := by
      rw [List.nodup_append]
      refine ⟨h.distinct, hdistinct.sublist (hadopted.map _), ?_⟩
      intro code hcode other hother heq
      obtain ⟨row, hrow, hrowcode⟩ := List.mem_map.mp hother
      rw [heq, ← hrowcode] at hcode
      exact hfresh row (hadopted.subset hrow) hcode
    have hbehind : ((enterAll strategy stocks date (signals.take (x.freeSlots book).toNat)
        book).positions.map (·.stockCode) ++ ([] : List (Candidate ℚ)).map (·.code)).Nodup := by
      refine enterAll_invariant (fun rest entered =>
        (entered.positions.map (·.stockCode) ++ rest.map (·.code)).Nodup) ?_ hcodes
      intro row rest before after hbefore henters
      cases henters with
      | passes => exact hbefore.sublist ((List.sublist_cons_self _ _).append_left _)
      | buys => simpa using hbefore
    simpa using hbehind
  · intro _
    have htake := List.length_take_le (x.freeSlots book).toNat signals
    unfold freeSlots at hfree hlength htake
    rw [freeSlots]
    omega

/-- What one date keeps. -/
theorem Ledger.day (hcloses : (stockData data).PositiveCloses)
    (huniverse : (data.dfUniverse.map (·.code)).Nodup) (h : Ledger x book)
    (hday : x.directTradeDay strategy data book date = .ok book') : Ledger x book' := by
  have hexits : Ledger x (exitPositions strategy (stockData data) date book) := h.exits hcloses
  obtain ⟨entered, hbook, hentered⟩ := directTradeDay_cases hday
  have hkept : Ledger x entered := by
    rcases hentered with ⟨_, heq⟩ | ⟨hruns, signals, hsignals, heq⟩
    · rw [heq]
      exact hexits
    · rw [heq]
      refine hexits.enters (nodup_of_signals huniverse hsignals) ?_ hruns.1
      intro row hrow
      exact (fresh_of_signal hsignals hrow).1
  rw [hbook]
  exact ⟨⟨hkept.cash, hkept.balance, hkept.quantities⟩, hkept.distinct, hkept.slots⟩

/-- After every date of direct trades the ledger is in order. -/
theorem directTrade_ledger (x : BacktestExecutor ℚ) (strategy : ReversalVolumeStrategy ℚ)
    (data : BacktestData ℚ) (hcloses : (stockData data).PositiveCloses)
    (huniverse : (data.dfUniverse.map (·.code)).Nodup) {dates : List Instant}
    (_hdates : dates <+: tradingDates data) {book : SwingBook ℚ}
    (hrun : dates.foldlM (x.directTradeDay strategy data) x.openingBook = .ok book) :
    Ledger x book := by
  refine foldlM_invariant (Ledger x) ?_ ?_ hrun
  · intro date _ s s' hs hday
    exact hs.day hcloses huniverse hday
  · exact ⟨⟨fun h => h, rfl, by simp [openingBook]⟩, List.nodup_nil, fun h => h⟩

end Steps

open scoped SortOrder

/-- Bought at 90 and sold at 100. -/
theorem directTrade_ledger_sample : ∃ book,
    (tradingDates (dataOfFourDays 50)).foldlM
      (swingTrader.directTradeDay swingStrategy (dataOfFourDays 50)) swingTrader.openingBook = .ok book ∧
    Ledger swingTrader book ∧ book.cash = 1000 ∧ book.tradeRecords.length = 1 := by
  have hrun : (((tradingDates (dataOfFourDays 50)).foldlM
      (swingTrader.directTradeDay swingStrategy (dataOfFourDays 50))
      swingTrader.openingBook).toOption.any fun book =>
        book.cash = 1000 ∧ book.tradeRecords.length = 1) = true := by decide +kernel
  obtain ⟨book, hbook, hvalues⟩ := (Option.any_eq_true _ _).mp hrun
  have hledger := directTrade_ledger swingTrader swingStrategy (dataOfFourDays 50)
    (by decide +kernel) (by decide) (List.prefix_refl _) (ok_of_toOption hbook)
  exact ⟨book, ok_of_toOption hbook, hledger, of_decide_eq_true hvalues⟩

end Autotrading.BacktestExecutor
