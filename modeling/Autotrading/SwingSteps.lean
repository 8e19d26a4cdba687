import Autotrading.ExactColumns

/-!
# The steps of a day of direct trades

What one position, one candidate and one date do to the book of `_run_direct_trade`.
-/
namespace Autotrading.BacktestExecutor

open DatedLoop

section Steps
variable {ν : Type} [Column ν] {x : BacktestExecutor ν} {strategy : ReversalVolumeStrategy ν}
  {stocks : PriceData ν} {data : BacktestData ν} {date : Instant} {book book' : SwingBook ν}

/-- A position stays, whatever its holding days, or is closed at the close of the day. -/
inductive Exits (stocks : PriceData ν) (date : Instant) (pos : SwingPosition ν) :
    SwingPosition ν ⊕ SwingTradeRecord ν → Prop
  | stays (days : ℤ) : Exits stocks date pos (.inl { pos with holdingDays := days })
  | closes {t : SwingTradeRecord ν} : stocks.close? pos.stockCode date = some t.exitPrice →
      t.stockCode = pos.stockCode → t.quantity = pos.quantity → t.entryPrice = pos.entryPrice →
      t.exitDate = date → Exits stocks date pos (.inr t)

theorem exits_exitPosition (pos : SwingPosition ν) :
    Exits stocks date pos (exitPosition strategy stocks date pos) := by
  unfold exitPosition
  dsimp only
  split
  · exact .stays _
  · split
    · exact .stays pos.holdingDays
    · next price hprice => exact .closes hprice rfl rfl rfl rfl

/-- What the exits of a day make of the positions. -/
theorem exits_exitPositions (strategy : ReversalVolumeStrategy ν) (stocks : PriceData ν)
    (date : Instant) (book : SwingBook ν) :
    ∃ results, List.Forall₂ (Exits stocks date) book.positions results ∧
      exitPositions strategy stocks date book = { book with
        cash := (results.filterMap Sum.getRight?).foldl
          (fun cash t => cash + t.quantity * t.exitPrice) book.cash
        positions := results.filterMap Sum.getLeft?
        tradeRecords := book.tradeRecords ++ results.filterMap Sum.getRight? } := by
  refine ⟨book.positions.map (exitPosition strategy stocks date), ?_, rfl⟩
  rw [List.forall₂_map_right_iff, List.forall₂_same]
  intro pos _
  exact exits_exitPosition pos

omit [Column ν] in
/-- The positions that stay are among those there were. -/
theorem codes_of_exits {positions : List (SwingPosition ν)}
    {results : List (SwingPosition ν ⊕ SwingTradeRecord ν)}
    (h : List.Forall₂ (Exits stocks date) positions results) :
    ((results.filterMap Sum.getLeft?).map (·.stockCode)).Sublist (positions.map (·.stockCode)) := by
  induction h with
  | nil => exact .slnil
  | cons hexit _ ih =>
    cases hexit with
    | stays days => exact ih.cons_cons _
    | closes => exact ih.cons _

omit [Column ν] in
theorem exists_exits_of_mem {positions : List (SwingPosition ν)}
    {results : List (SwingPosition ν ⊕ SwingTradeRecord ν)}
    (h : List.Forall₂ (Exits stocks date) positions results)
    {result : SwingPosition ν ⊕ SwingTradeRecord ν} (hresult : result ∈ results) :
    ∃ pos ∈ positions, Exits stocks date pos result := by
  induction h with
  | nil => cases hresult
  | @cons pos _ positions _ hexit _ ih =>
    rcases List.mem_cons.mp hresult with heq | hrest
    · rw [heq]
      exact ⟨pos, List.mem_cons_self, hexit⟩
    · obtain ⟨pos', hpos', hexit'⟩ := ih hrest
      exact ⟨pos', List.mem_cons_of_mem _ hpos', hexit'⟩

omit [Column ν] in
/-- A position that stays has only its holding days changed. -/
theorem kept_of_exits {positions : List (SwingPosition ν)}
    {results : List (SwingPosition ν ⊕ SwingTradeRecord ν)}
    (h : List.Forall₂ (Exits stocks date) positions results) {pos : SwingPosition ν}
    (hpos : pos ∈ results.filterMap Sum.getLeft?) :
    ∃ pos' ∈ positions, pos = { pos' with holdingDays := pos.holdingDays } := by
  obtain ⟨result, hresult, hleft⟩ := List.mem_filterMap.mp hpos
  obtain ⟨pos', hpos', hexit⟩ := exists_exits_of_mem h hresult
  cases hexit with
  | stays days =>
    rw [← Option.some.inj hleft]
    exact ⟨pos', hpos', rfl⟩
  | closes => cases hleft

omit [Column ν] in
/-- A position is closed on the day. -/
theorem exitDate_of_exits {positions : List (SwingPosition ν)}
    {results : List (SwingPosition ν ⊕ SwingTradeRecord ν)}
    (h : List.Forall₂ (Exits stocks date) positions results) {t : SwingTradeRecord ν}
    (ht : t ∈ results.filterMap Sum.getRight?) : t.exitDate = date := by
  obtain ⟨result, hresult, hright⟩ := List.mem_filterMap.mp ht
  obtain ⟨pos, -, hexit⟩ := exists_exits_of_mem h hresult
  cases hexit with
  | stays days => cases hright
  | closes _ _ _ _ hdate =>
    rw [← Option.some.inj hright]
    exact hdate

theorem codes_exitPositions (strategy : ReversalVolumeStrategy ν) (stocks : PriceData ν)
    (date : Instant) (book : SwingBook ν) :
    ((exitPositions strategy stocks date book).positions.map (·.stockCode)).Sublist
      (book.positions.map (·.stockCode)) := by
  obtain ⟨results, hresults, heq⟩ := exits_exitPositions strategy stocks date book
  rw [heq]
  exact codes_of_exits hresults

/-- A candidate is passed over, or bought at the close of the day with its part of the cash. -/
inductive Enters (stocks : PriceData ν) (date : Instant) (numNew : ℕ) (book : SwingBook ν)
    (row : Candidate ν) : SwingBook ν → Prop
  | passes : Enters stocks date numNew book row book
  | buys {price qty : ν} (alloc : ν) : stocks.close? row.code date = some price →
      alloc = (if (numNew : ℤ) ≤ 0 then 0 else book.cash / ((numNew : ℤ) : ν)) →
      qty = (if 0 < price then alloc / price else 0) → 0 < qty → alloc ≤ book.cash →
      Enters stocks date numNew book row { book with
        positions := book.positions ++ [⟨row.code, row.name.getD row.code, price, qty, date, 0⟩]
        cash := book.cash - qty * price }

theorem enters_enterPosition (totalEquity : ν) (numNew : ℕ) (row : Candidate ν) :
    Enters stocks date numNew book row
      (enterPosition strategy stocks date totalEquity numNew book row) := by
  unfold enterPosition
  cases hprice : stocks.close? row.code date with
  | none => exact .passes
  | some price =>
    dsimp only
    generalize halloc : strategy.sizePosition row book.cash totalEquity numNew = alloc
    generalize hqty : (if 0 < price then alloc / price else 0) = qty
    split
    · next hbuys => exact .buys alloc hprice halloc.symm hqty.symm hbuys.1 hbuys.2
    · exact .passes

/-- The record of a day. -/
def dayRecord (stocks : PriceData ν) (date : Instant) (book : SwingBook ν) : DailyRecord ν where
  date := date
  equity := book.cash + positionsValue stocks date book.positions
  cash := book.cash
  holdingsValue := positionsValue stocks date book.positions
  numHoldings := book.positions.length
  numSignals := some (book.candidates.getD 0)
  rebalance := false

/-- The slots that are free. -/
def freeSlots (x : BacktestExecutor ν) (book : SwingBook ν) : ℤ :=
  x.rvMaxPositions - book.positions.length

/-- The trades that go to the strategy. -/
def recentTrades (x : BacktestExecutor ν) (date : Instant) (book : SwingBook ν) :
    List (SwingTradeRecord ν) :=
  book.tradeRecords.filter fun t => daysBetween t.exitDate date ≤ max (x.rvCooldownDays * 2) 30

/-- The entry step runs. -/
def EntryRuns (x : BacktestExecutor ν) (dfUniverse : List UniverseRow) (book : SwingBook ν) : Prop :=
  0 < x.freeSlots book ∧ dfUniverse ≠ []

instance (dfUniverse : List UniverseRow) : Decidable (x.EntryRuns dfUniverse book) :=
  inferInstanceAs (Decidable (_ ∧ _))

/-- What the strategy signals on a date, for the book behind the exits. -/
def signalsOn (x : BacktestExecutor ν) (strategy : ReversalVolumeStrategy ν) (data : BacktestData ν)
    (date : Instant) (book : SwingBook ν) : Except PyExc (List (Candidate ν)) :=
  strategy.generateEntrySignals date data.dfUniverse (stockData data) book.positions
    (x.recentTrades date book) (data.prices.get? "__benchmark__")

/-- The entries of the adopted candidates. -/
def enterAll (strategy : ReversalVolumeStrategy ν) (stocks : PriceData ν) (date : Instant)
    (adopted : List (Candidate ν)) (book : SwingBook ν) : SwingBook ν :=
  adopted.foldl (enterPosition strategy stocks date
    (book.cash + positionsValue stocks date book.positions) adopted.length)
    { book with candidates := some adopted.length }

/-- What holds before the entries, and what each entry keeps for the candidates behind it, holds
behind the entries. -/
theorem enterAll_invariant (Inv : List (Candidate ν) → SwingBook ν → Prop)
    {adopted : List (Candidate ν)}
    (hstep : ∀ row rest book book', Inv (row :: rest) book →
      Enters stocks date adopted.length book row book' → Inv rest book')
    (hstart : Inv adopted { book with candidates := some adopted.length }) :
    Inv [] (enterAll strategy stocks date adopted book) := by
  unfold enterAll
  generalize book.cash + positionsValue stocks date book.positions = totalEquity
  generalize { book with candidates := some adopted.length } = entered at hstart
  generalize adopted.length = numNew at hstep
  induction adopted generalizing entered with
  | nil => exact hstart
  | cons row rest ih =>
    refine ih _ ?_
    exact hstep row rest entered _ hstart (enters_enterPosition totalEquity numNew row)

/-- The entries leave the trades, the records and the number of the candidates. -/
theorem enterAll_frame (strategy : ReversalVolumeStrategy ν) (stocks : PriceData ν)
    (date : Instant) (adopted : List (Candidate ν)) (book : SwingBook ν) :
    (enterAll strategy stocks date adopted book).tradeRecords = book.tradeRecords ∧
      (enterAll strategy stocks date adopted book).records = book.records ∧
      (enterAll strategy stocks date adopted book).candidates = some adopted.length := by
  refine enterAll_invariant (fun _ entered => entered.tradeRecords = book.tradeRecords ∧
    entered.records = book.records ∧ entered.candidates = some adopted.length) ?_ ⟨rfl, rfl, rfl⟩
  intro row rest before after hbefore henters
  cases henters with
  | passes => exact hbefore
  | buys => exact hbefore

/-- No more positions are opened than candidates are adopted. -/
theorem length_enterAll_le (strategy : ReversalVolumeStrategy ν) (stocks : PriceData ν)
    (date : Instant) (adopted : List (Candidate ν)) (book : SwingBook ν) :
    (enterAll strategy stocks date adopted book).positions.length ≤
      book.positions.length + adopted.length := by
  refine enterAll_invariant (fun rest entered =>
    entered.positions.length + rest.length ≤ book.positions.length + adopted.length) ?_ le_rfl
  intro row rest before after hbefore henters
  rw [List.length_cons] at hbefore
  cases henters with
  | passes => omega
  | buys =>
    rw [List.length_append, List.length_singleton]
    omega

/-- A position is one there was, or one that a candidate opens at the close of the day. -/
theorem mem_enterAll {adopted : List (Candidate ν)} {pos : SwingPosition ν}
    (hpos : pos ∈ (enterAll strategy stocks date adopted book).positions) :
    pos ∈ book.positions ∨ ∃ row ∈ adopted, pos.stockCode = row.code ∧ pos.entryDate = date ∧
      0 < pos.quantity ∧ stocks.close? pos.stockCode date = some pos.entryPrice := by
  refine (enterAll_invariant (fun rest entered => (∀ row ∈ rest, row ∈ adopted) ∧
    ∀ pos ∈ entered.positions, pos ∈ book.positions ∨
      ∃ row ∈ adopted, pos.stockCode = row.code ∧ pos.entryDate = date ∧ 0 < pos.quantity ∧
        stocks.close? pos.stockCode date = some pos.entryPrice) ?_
    ⟨fun row hrow => hrow, fun pos hpos => .inl hpos⟩).2 pos hpos
  intro row rest before after hbefore henters
  obtain ⟨hrest, hpositions⟩ := hbefore
  constructor
  · intro row hrow
    exact hrest row (List.mem_cons_of_mem _ hrow)
  · cases henters with
    | passes => exact hpositions
    | buys alloc hprice _ _ hqty _ =>
      intro pos hpos
      rcases List.mem_append.mp hpos with hpos | hpos
      · exact hpositions pos hpos
      · rw [List.mem_singleton] at hpos
        rw [hpos]
        exact .inr ⟨row, hrest row List.mem_cons_self, rfl, rfl, hqty, hprice⟩

/-- A day ends with its record, behind the exits and, where it runs, the entry step. -/
theorem directTradeDay_cases (h : x.directTradeDay strategy data book date = .ok book') :
    ∃ entered : SwingBook ν,
      book' = { entered with records := entered.records ++ [dayRecord (stockData data) date entered] } ∧
      ((¬ x.EntryRuns data.dfUniverse (exitPositions strategy (stockData data) date book) ∧
          entered = exitPositions strategy (stockData data) date book) ∨
        x.EntryRuns data.dfUniverse (exitPositions strategy (stockData data) date book) ∧
          ∃ signals, x.signalsOn strategy data date
              (exitPositions strategy (stockData data) date book) = .ok signals ∧
            entered = enterAll strategy (stockData data) date
              (signals.take (x.freeSlots (exitPositions strategy (stockData data) date book)).toNat)
              (exitPositions strategy (stockData data) date book)) := by
  unfold directTradeDay at h
  obtain ⟨entered, henter, h⟩ := of_bind_ok h
  refine ⟨entered, (Except.ok.inj h).symm, ?_⟩
  unfold enterPositions at henter
  dsimp only at henter
  split at henter
  · next hruns =>
    obtain ⟨signals, hsignals, henter⟩ := of_bind_ok henter
    exact .inr ⟨hruns, signals, hsignals, (Except.ok.inj henter).symm⟩
  · next hruns => exact .inl ⟨hruns, (Except.ok.inj henter).symm⟩

/-- A day adds its record. -/
theorem records_of_day (h : x.directTradeDay strategy data book date = .ok book') :
    book'.records = book.records ++ [dayRecord (stockData data) date book'] := by
  obtain ⟨entered, hbook, hentered⟩ := directTradeDay_cases h
  have hrecords : entered.records = book.records := by
    rcases hentered with ⟨_, heq⟩ | ⟨_, signals, _, heq⟩
    · rw [heq]
      rfl
    · rw [heq]
      exact (enterAll_frame strategy (stockData data) date _ _).2.1
  rw [hbook, ← hrecords]
  rfl

/-- A position behind a day is one before it, or one that is opened at the close of the day. -/
theorem mem_positions_of_day (h : x.directTradeDay strategy data book date = .ok book')
    {pos : SwingPosition ν} (hpos : pos ∈ book'.positions) :
    (∃ pos' ∈ book.positions, pos = { pos' with holdingDays := pos.holdingDays }) ∨
      pos.entryDate = date ∧ 0 < pos.quantity ∧
        (stockData data).close? pos.stockCode date = some pos.entryPrice := by
  have hkept : pos ∈ (exitPositions strategy (stockData data) date book).positions →
      ∃ pos' ∈ book.positions, pos = { pos' with holdingDays := pos.holdingDays } := by
    intro hmem
    obtain ⟨results, hresults, heq⟩ := exits_exitPositions strategy (stockData data) date book
    rw [heq] at hmem
    exact kept_of_exits hresults hmem
  obtain ⟨entered, hbook, hentered⟩ := directTradeDay_cases h
  rw [hbook] at hpos
  rcases hentered with ⟨_, heq⟩ | ⟨_, signals, _, heq⟩
  · rw [heq] at hpos
    exact .inl (hkept hpos)
  · rw [heq] at hpos
    rcases mem_enterAll hpos with hold | ⟨_, _, _, hnew⟩
    · exact .inl (hkept hold)
    · exact .inr hnew

/-- The book before the first date. -/
def openingBook (x : BacktestExecutor ν) : SwingBook ν := ⟨x.initialCash, [], [], none, []⟩

/-- Signals are for codes that are neither held nor in their cooldown. -/
theorem fresh_of_signal {dfUniverse : List UniverseRow} {positions : List (SwingPosition ν)}
    {history : List (SwingTradeRecord ν)} {dfBenchmark : Option (PriceFrame ν)}
    {signals : List (Candidate ν)}
    (h : strategy.generateEntrySignals date dfUniverse stocks positions history dfBenchmark =
      .ok signals) {row : Candidate ν} (hrow : row ∈ signals) :
    row.code ∉ positions.map (·.stockCode) ∧
      ∀ t ∈ history, daysBetween t.exitDate date ≤ strategy.cooldownDays → t.stockCode ≠ row.code := by
  unfold ReversalVolumeStrategy.generateEntrySignals at h
  obtain ⟨bear, -, h⟩ := of_bind_ok h
  split at h
  · rw [← Except.ok.inj h] at hrow
    cases hrow
  · obtain ⟨candidates, -, h⟩ := of_bind_ok h
    rw [← Except.ok.inj h] at hrow
    have hfresh := (List.mem_filter.mp hrow).2
    rw [decide_eq_true_iff] at hfresh
    refine ⟨hfresh.1, fun t ht hdays hcode => hfresh.2 ?_⟩
    rw [← hcode]
    exact List.mem_map_of_mem (List.mem_filter.mpr ⟨ht, by simpa using hdays⟩)

end Steps

section Exact
variable [SortOrder] {strategy : ReversalVolumeStrategy ℚ} {stocks : PriceData ℚ} {date : Instant}
  {dfUniverse : List UniverseRow}

/-- The scan names no code twice. -/
theorem nodup_scanFromData (huniverse : (dfUniverse.map (·.code)).Nodup) {df : List (Candidate ℚ)}
    (h : strategy.scanFromData date dfUniverse stocks = .ok df) : (df.map (·.code)).Nodup := by
  unfold ReversalVolumeStrategy.scanFromData at h
  obtain ⟨returns, hreturns, h⟩ := of_bind_ok h
  have hcodes : ((returns.filterMap id).map (·.1.code)).Nodup := by
    refine List.Nodup.sublist (sublist_of_mapM_ok hreturns ?_) huniverse
    intro row y hy
    obtain ⟨ret, -, hy⟩ := of_bind_ok hy
    cases ret with
    | none => simp [pure, Except.pure] at hy
    | some ret =>
      rw [← Option.some.inj (Except.ok.inj hy)]
  have hfallen : (((returns.filterMap id).filter fun row => row.2 < 0).map (·.1.code)).Nodup :=
    hcodes.sublist (List.filter_sublist.map _)
  dsimp only at h
  split at h
  · rw [← Except.ok.inj h]
    exact List.nodup_nil
  · obtain ⟨share, -, h⟩ := of_bind_ok h
    obtain ⟨ratios, hratios, h⟩ := of_bind_ok h
    have hsorted := ((Column.sortValues_perm Prod.snd _).map fun row : UniverseRow × ℚ =>
      row.1.code).nodup_iff.mpr hfallen
    have htaken := hsorted.sublist ((List.take_sublist (max 1 share).toNat _).map _)
    have hspiked : ((ratios.filterMap id).map Candidate.code).Nodup := by
      refine List.Nodup.sublist (sublist_of_mapM_ok hratios ?_) htaken
      intro row y hy
      obtain ⟨ratio, -, hy⟩ := of_bind_ok hy
      cases ratio with
      | none => simp [pure, Except.pure] at hy
      | some ratio =>
        rw [← Option.some.inj (Except.ok.inj hy)]
    split at h
    · rw [← Except.ok.inj h]
      exact List.nodup_nil
    · rw [← Except.ok.inj h]
      refine ((Column.sortValues_perm Candidate.returnPct _).map Candidate.code).nodup_iff.mpr ?_
      have hcut : (strategy.applyRiskCut ((ratios.filterMap id).filter fun row =>
          strategy.volumeSpikeRatio ≤ row.volumeRatio)).Sublist (ratios.filterMap id) :=
        List.filter_sublist.trans List.filter_sublist
      exact hspiked.sublist (hcut.map Candidate.code)

/-- So does the strategy. -/
theorem nodup_of_signals (huniverse : (dfUniverse.map (·.code)).Nodup)
    {positions : List (SwingPosition ℚ)} {history : List (SwingTradeRecord ℚ)}
    {dfBenchmark : Option (PriceFrame ℚ)} {signals : List (Candidate ℚ)}
    (h : strategy.generateEntrySignals date dfUniverse stocks positions history dfBenchmark =
      .ok signals) : (signals.map (·.code)).Nodup := by
  unfold ReversalVolumeStrategy.generateEntrySignals at h
  obtain ⟨bear, -, h⟩ := of_bind_ok h
  split at h
  · rw [← Except.ok.inj h]
    exact List.nodup_nil
  · obtain ⟨candidates, hcandidates, h⟩ := of_bind_ok h
    rw [← Except.ok.inj h]
    exact (nodup_scanFromData huniverse hcandidates).sublist (List.filter_sublist.map _)

end Exact

end Autotrading.BacktestExecutor
