import Autotrading.NoLookAhead
import Autotrading.SwingSteps

/-!
# The parameters of the strategy in a backtest

The executor counts its slots and cuts its history by the settings, the strategy was built with
parameters of its own.
-/
namespace Autotrading.BacktestExecutor

open DatedLoop

section Parameters
variable {ν : Type} [Column ν] {x : BacktestExecutor ν} {strategy : ReversalVolumeStrategy ν}
  {data : BacktestData ν} {date : Instant} {book book' : SwingBook ν}

/-- No more positions than the strategy allows, and none entered in the cooldown of its code. -/
structure Honoured (strategy : ReversalVolumeStrategy ν) (book : SwingBook ν) : Prop where
  slots : (book.positions.length : ℤ) ≤ strategy.maxPositions
  cooldown : ∀ pos ∈ book.positions, ∀ t ∈ book.tradeRecords, t.exitDate ≤ pos.entryDate →
    daysBetween t.exitDate pos.entryDate ≤ strategy.cooldownDays → t.stockCode ≠ pos.stockCode

/-- Where the entry step runs, the candidates that the executor takes fit the slots of the strategy,
and the trades of the cooldown are in the history that it passes on. -/
def WithinParameters (x : BacktestExecutor ν) (strategy : ReversalVolumeStrategy ν)
    (data : BacktestData ν) (date : Instant) (book : SwingBook ν) : Prop :=
  x.EntryRuns data.dfUniverse (exitPositions strategy (stockData data) date book) →
    (∀ signals, x.signalsOn strategy data date
        (exitPositions strategy (stockData data) date book) = .ok signals →
      (signals.take (x.freeSlots
          (exitPositions strategy (stockData data) date book)).toNat).length ≤
        strategy.maxPositions - (exitPositions strategy (stockData data) date book).positions.length) ∧
    ∀ t ∈ (exitPositions strategy (stockData data) date book).tradeRecords,
      daysBetween t.exitDate date ≤ strategy.cooldownDays →
        daysBetween t.exitDate date ≤ max (x.rvCooldownDays * 2) 30

/-- Settings that are no wider than the parameters do no harm. -/
theorem withinParameters_of_settings (hslots : x.rvMaxPositions ≤ strategy.maxPositions)
    (hcooldown : strategy.cooldownDays ≤ max (x.rvCooldownDays * 2) 30) (book : SwingBook ν) :
    WithinParameters x strategy data date book := by
  intro hruns
  constructor
  · intro signals _
    have htake := List.length_take_le
      (x.freeSlots (exitPositions strategy (stockData data) date book)).toNat signals
    have hfree := hruns.1
    unfold freeSlots at htake hfree ⊢
    omega
  · intro t _ hdays
    exact hdays.trans hcooldown

/-- Positions that stay are as they were, and the new trades are of the day. -/
theorem Honoured.exits (data : BacktestData ν) (h : Honoured strategy book)
    (hearly : ∀ pos ∈ book.positions, pos.entryDate < date) :
    Honoured strategy (exitPositions strategy (stockData data) date book) ∧
      ∀ pos ∈ (exitPositions strategy (stockData data) date book).positions,
        pos.entryDate < date := by
  obtain ⟨results, hresults, heq⟩ := exits_exitPositions strategy (stockData data) date book
  have hlength := (codes_of_exits hresults).length_le
  rw [List.length_map, List.length_map] at hlength
  rw [heq]
  refine ⟨⟨?_, ?_⟩, ?_⟩
  · have hslots := h.slots
    show ((results.filterMap Sum.getLeft?).length : ℤ) ≤ _
    omega
  · intro pos hpos t ht hbefore hdays
    obtain ⟨pos', hpos', hkept⟩ := kept_of_exits hresults hpos
    rw [hkept] at hbefore hdays ⊢
    rcases List.mem_append.mp ht with hold | hnew
    · exact h.cooldown pos' hpos' t hold hbefore hdays
    · rw [exitDate_of_exits hresults hnew] at hbefore
      exact absurd (hearly pos' hpos') (not_lt.mpr hbefore)
  · intro pos hpos
    obtain ⟨pos', hpos', hkept⟩ := kept_of_exits hresults hpos
    rw [hkept]
    exact hearly pos' hpos'

/-- Entries within the parameters keep to them. -/
theorem Honoured.enters {signals : List (Candidate ν)} (h : Honoured strategy book)
    (hearly : ∀ pos ∈ book.positions, pos.entryDate < date)
    (hsignals : x.signalsOn strategy data date book = .ok signals)
    (hfits : (signals.take (x.freeSlots book).toNat).length ≤
      strategy.maxPositions - book.positions.length)
    (hhistory : ∀ t ∈ book.tradeRecords, daysBetween t.exitDate date ≤ strategy.cooldownDays →
      daysBetween t.exitDate date ≤ max (x.rvCooldownDays * 2) 30) :
    Honoured strategy (enterAll strategy (stockData data) date
        (signals.take (x.freeSlots book).toNat) book) ∧
      ∀ pos ∈ (enterAll strategy (stockData data) date
        (signals.take (x.freeSlots book).toNat) book).positions, pos.entryDate ≤ date := by
  have hlength := length_enterAll_le strategy (stockData data) date
    (signals.take (x.freeSlots book).toNat) book
  obtain ⟨htrades, -, -⟩ := enterAll_frame strategy (stockData data) date
    (signals.take (x.freeSlots book).toNat) book
  refine ⟨⟨by omega, ?_⟩, ?_⟩
  · intro pos hpos t ht hbefore hdays
    rw [htrades] at ht
    rcases mem_enterAll hpos with hold | ⟨row, hrow, hcode, hentry, -⟩
    · exact h.cooldown pos hold t ht hbefore hdays
    · rw [hentry] at hdays
      rw [hcode]
      refine (fresh_of_signal hsignals (List.mem_of_mem_take hrow)).2 t ?_ hdays
      exact List.mem_filter.mpr ⟨ht, by simpa using hhistory t ht hdays⟩
  · intro pos hpos
    rcases mem_enterAll hpos with hold | ⟨_, _, _, hentry, -⟩
    · exact (hearly pos hold).le
    · exact hentry.le

/-- A date within the parameters. -/
theorem Honoured.day (h : Honoured strategy book)
    (hearly : ∀ pos ∈ book.positions, pos.entryDate < date)
    (hwithin : WithinParameters x strategy data date book)
    (hday : x.directTradeDay strategy data book date = .ok book') :
    Honoured strategy book' ∧ ∀ pos ∈ book'.positions, pos.entryDate ≤ date := by
  obtain ⟨hexits, hbehind⟩ := h.exits data hearly
  obtain ⟨entered, hbook, hentered⟩ := directTradeDay_cases hday
  have hkept : Honoured strategy entered ∧ ∀ pos ∈ entered.positions, pos.entryDate ≤ date := by
    rcases hentered with ⟨_, heq⟩ | ⟨hruns, signals, hsignals, heq⟩
    · rw [heq]
      exact ⟨hexits, fun pos hpos => (hbehind pos hpos).le⟩
    · obtain ⟨hfits, hhistory⟩ := hwithin hruns
      rw [heq]
      exact hexits.enters hbehind hsignals (hfits signals hsignals) hhistory
  rw [hbook]
  exact ⟨⟨hkept.1.slots, hkept.1.cooldown⟩, hkept.2⟩

/-- In a run whose dates are within the parameters, the parameters are kept to. -/
theorem directTrade_honours_parameters (x : BacktestExecutor ν) (strategy : ReversalVolumeStrategy ν)
    (data : BacktestData ν) (hpositions : 0 ≤ strategy.maxPositions) {dates : List Instant}
    (hdates : dates <+: tradingDates data)
    (hwithin : ∀ before date after book, dates = before ++ date :: after →
      before.foldlM (x.directTradeDay strategy data) x.openingBook = .ok book →
        WithinParameters x strategy data date book) {book : SwingBook ν}
    (hrun : dates.foldlM (x.directTradeDay strategy data) x.openingBook = .ok book) :
    Honoured strategy book := by
  have hsorted := (pairwise_tradingDates data).sublist hdates.sublist
  refine (foldlM_along (fun before book => Honoured strategy book ∧
    ∀ pos ∈ book.positions, ∃ date ∈ before, pos.entryDate ≤ date) ?_ ?_ hrun).1
  · exact ⟨⟨hpositions, by simp [openingBook]⟩, by simp [openingBook]⟩
  · intro before date after book₁ book₂ heq hbefore hkept hday
    have hearly : ∀ pos ∈ book₁.positions, pos.entryDate < date := by
      intro pos hpos
      obtain ⟨earlier, hearlier, hentry⟩ := hkept.2 pos hpos
      rw [heq, List.pairwise_append] at hsorted
      exact hentry.trans_lt (hsorted.2.2 earlier hearlier date List.mem_cons_self)
    obtain ⟨hhonoured, hentry⟩ :=
      hkept.1.day hearly (hwithin before date after book₁ heq hbefore) hday
    exact ⟨hhonoured, fun pos hpos => ⟨date, by simp, hentry pos hpos⟩⟩

end Parameters

open scoped SortOrder

/-- The position that is open after two days. -/
theorem directTrade_honours_parameters_sample : ∃ book,
    [0, 86400000000].foldlM (swingTrader.directTradeDay swingStrategy (dataOfFourDays 50))
      swingTrader.openingBook = .ok book ∧
    book.positions.length = 1 ∧ Honoured swingStrategy book := by
  have hrun : (([0, 86400000000].foldlM
      (swingTrader.directTradeDay swingStrategy (dataOfFourDays 50))
      swingTrader.openingBook).toOption.any fun book => book.positions.length = 1) = true := by
    decide +kernel
  obtain ⟨book, hbook, hlength⟩ := (Option.any_eq_true _ _).mp hrun
  refine ⟨book, ok_of_toOption hbook, of_decide_eq_true hlength, ?_⟩
  refine directTrade_honours_parameters swingTrader swingStrategy (dataOfFourDays 50) (by decide)
    (by decide +kernel) ?_ (ok_of_toOption hbook)
  intro _ _ _ book _ _
  exact withinParameters_of_settings (by decide) (by decide) book

/-! ## Two stocks that fall twice -/

/-- A fall on day 1, the recovery, and a fall on day 40. -/
def fallsTwice : PriceFrame ℚ where
  rows := [rowOfDay 0 100 1, rowOfDay 1 90 3, rowOfDay 2 100 1, rowOfDay 40 90 3]
  ascending := by simp [rowOfDay]

def twoFalls : BacktestData ℚ where
  prices := ⟨[("__benchmark__", fallsTwice), ("005930", fallsTwice), ("000660", fallsTwice)], by simp⟩
  dfUniverse := [⟨"005930", none⟩, ⟨"000660", none⟩]

/-- One position, and sixty days of cooldown. -/
def narrowStrategy : ReversalVolumeStrategy ℚ :=
  { swingStrategy with maxPositions := 1, cooldownDays := 60 }

/-- The settings have two positions, and three days of cooldown. -/
def wideExecutor : BacktestExecutor ℚ :=
  { swingTrader with strategy := .directTrade narrowStrategy, rvMaxPositions := 2 }

/-- On day 40 two positions are open, in codes that were sold 38 days before. -/
theorem parameters_not_honoured : ∃ book,
    (tradingDates twoFalls).foldlM (wideExecutor.directTradeDay narrowStrategy twoFalls)
      wideExecutor.openingBook = .ok book ∧
    narrowStrategy.maxPositions < book.positions.length ∧
    ∃ pos ∈ book.positions, ∃ t ∈ book.tradeRecords, t.exitDate ≤ pos.entryDate ∧
      daysBetween t.exitDate pos.entryDate ≤ narrowStrategy.cooldownDays ∧
      t.stockCode = pos.stockCode := by
  have hrun : (((tradingDates twoFalls).foldlM (wideExecutor.directTradeDay narrowStrategy twoFalls)
      wideExecutor.openingBook).toOption.any fun book =>
        narrowStrategy.maxPositions < book.positions.length ∧
        ∃ pos ∈ book.positions, ∃ t ∈ book.tradeRecords, t.exitDate ≤ pos.entryDate ∧
          daysBetween t.exitDate pos.entryDate ≤ narrowStrategy.cooldownDays ∧
          t.stockCode = pos.stockCode) = true := by
    decide +kernel
  obtain ⟨book, hbook, hvalues⟩ := (Option.any_eq_true _ _).mp hrun
  exact ⟨book, ok_of_toOption hbook, of_decide_eq_true hvalues⟩

end Autotrading.BacktestExecutor
