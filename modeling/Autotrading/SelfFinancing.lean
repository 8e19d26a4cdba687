import Autotrading.NoLookAhead
import Mathlib.Tactic.Linarith
import Mathlib.Tactic.Ring

/-!
# Rebalancing is self-financing

On every date of `_run_rebalance` the recorded equity is what the portfolio of the date before is
worth. Selling everything and buying equal parts of it leaves the wealth as it is.
-/
namespace Autotrading.BacktestExecutor

open DatedLoop

/-- Every common date is a date of every frame. -/
theorem close?_of_mem_commonDates {ν : Type} {data : PriceData ν} {date : Instant} {code : String}
    (hdate : date ∈ commonDates data) (hcode : code ∈ data.keys) :
    (data.close? code date).isSome = true := by
  obtain ⟨df, hdf⟩ := Dict.mem_keys_iff.mp hcode
  have hindex : date ∈ df.index := by
    have hmem : (code, df) ∈ data.entries := Dict.mem_entries.mpr hdf
    unfold commonDates at hdate
    cases hentries : data.entries with
    | nil =>
      rw [hentries] at hmem
      cases hmem
    | cons e es =>
      rw [hentries] at hdate hmem
      simp only [mem_sortedSet, List.mem_filter, List.all_eq_true, decide_eq_true_iff] at hdate
      rcases List.mem_cons.mp hmem with heq | hrest
      · rw [← heq] at hdate
        exact hdate.1
      · exact hdate.2 (code, df) hrest
  unfold PriceData.close?
  rw [hdf]
  simpa using PriceFrame.row?_isSome.mpr hindex

section Exact
variable [SortOrder] {data : PriceData ℚ} {date : Instant} {s s' : Portfolio ℚ}
  {generateSignal : PriceData ℚ → Except PyExc (List (String × StrategySignal))}
  {rebalanceDates : List Instant} {positions : List (String × ℚ)}

/-- What a portfolio is worth at a date. -/
def wealth (data : PriceData ℚ) (date : Instant) (s : Portfolio ℚ) : ℚ :=
  s.cash + holdingsValue data date s.positions.entries

@[simp] theorem holdingsValue_nil : holdingsValue data date [] = 0 := rfl

@[simp] theorem holdingsValue_cons (p : String × ℚ) :
    holdingsValue data date (p :: positions) =
      ((data.close? p.1 date).map fun price => p.2 * price).getD 0 +
        holdingsValue data date positions := by
  unfold holdingsValue
  rw [sum_eq, sum_eq, List.filterMap_cons]
  cases data.close? p.1 date <;> simp

@[simp] theorem holdingsValue_append (more : List (String × ℚ)) :
    holdingsValue data date (positions ++ more) =
      holdingsValue data date positions + holdingsValue data date more := by
  induction positions with
  | nil => simp
  | cons p positions ih =>
    rw [List.cons_append, holdingsValue_cons, holdingsValue_cons, ih, add_assoc]

theorem holdingsValue_of_priced (h : ∀ p ∈ positions, (data.close? p.1 date).isSome = true) :
    holdingsValue data date positions =
      (positions.map fun p => p.2 * (data.close? p.1 date).getD 0).sum := by
  induction positions with
  | nil => rfl
  | cons p positions ih =>
    obtain ⟨hp, hrest⟩ := List.forall_mem_cons.mp h
    obtain ⟨price, hprice⟩ := Option.isSome_iff_exists.mp hp
    rw [holdingsValue_cons, ih hrest, List.map_cons, List.sum_cons, hprice]
    rfl

/-- Selling everything turns the wealth into cash. -/
theorem cash_of_sold (cash : ℚ) :
    positions.foldl (sellPosition data date) cash = cash + holdingsValue data date positions := by
  induction positions generalizing cash with
  | nil => simp
  | cons p positions ih =>
    rw [List.foldl_cons, ih, holdingsValue_cons, sellPosition]
    cases data.close? p.1 date with
    | none => simp
    | some price => exact add_assoc cash (p.2 * price) _

/-- The codes in the order in which they come first. -/
def firsts (codes : List String) : List String :=
  codes.foldl (fun keys code => if code ∈ keys then keys else keys ++ [code]) []

omit [SortOrder] in
theorem firsts_of_nodup {codes : List String} (h : codes.Nodup) : firsts codes = codes := by
  have hfold : ∀ keys : List String, (keys ++ codes).Nodup →
      codes.foldl (fun keys code => if code ∈ keys then keys else keys ++ [code]) keys =
        keys ++ codes := by
    clear h
    induction codes with
    | nil => simp
    | cons code codes ih =>
      intro keys hkeys
      have hnew : code ∉ keys := by
        intro hmem
        exact (List.nodup_append.mp hkeys).2.2 code hmem code List.mem_cons_self rfl
      rw [List.foldl_cons, if_neg hnew, ih (keys ++ [code]) (by simpa using hkeys)]
      simp
  exact hfold [] h

omit [SortOrder] in
theorem mem_firsts {codes : List String} {a : String} : a ∈ firsts codes ↔ a ∈ codes := by
  have hfold : ∀ keys : List String,
      a ∈ codes.foldl (fun keys code => if code ∈ keys then keys else keys ++ [code]) keys ↔
        a ∈ keys ∨ a ∈ codes := by
    induction codes with
    | nil => simp
    | cons code codes ih =>
      intro keys
      rw [List.foldl_cons, ih, List.mem_cons]
      by_cases hcode : code ∈ keys
      · rw [if_pos hcode]
        constructor
        · exact fun h => h.imp_right .inr
        · rintro (h | rfl | h)
          · exact .inl h
          · exact .inl hcode
          · exact .inr h
      · rw [if_neg hcode, List.mem_append, List.mem_singleton, or_assoc]
  rw [firsts, hfold, or_iff_right List.not_mem_nil]

/-- Buying codes for equal parts: which codes are held does not depend on the size of the parts. -/
theorem bought_equal_parts {alloc : ℚ}
    (hcloses : ∀ code price, data.close? code date = some price → price ≠ 0)
    {codes : List String} {bought : Dict String ℚ}
    (h : codes.foldlM (fun positions code => do
      let price ← closeAt data code date
      pure (positions.set code (alloc / price))) (Dict.empty : Dict String ℚ) = .ok bought) :
    bought.keys = firsts codes ∧
      holdingsValue data date bought.entries = (firsts codes).length * alloc ∧
      ∀ p ∈ bought.entries, (data.close? p.1 date).isSome = true := by
  have hloop : ∀ d : Dict String ℚ,
      (∀ p ∈ d.entries, ∃ price, data.close? p.1 date = some price ∧ p.2 = alloc / price) →
      codes.foldlM (fun positions code => do
        let price ← closeAt data code date
        pure (positions.set code (alloc / price))) d = .ok bought →
      bought.keys = codes.foldl (fun keys code => if code ∈ keys then keys else keys ++ [code]) d.keys ∧
        ∀ p ∈ bought.entries, ∃ price, data.close? p.1 date = some price ∧ p.2 = alloc / price := by
    clear h
    induction codes with
    | nil =>
      intro d hd hrun
      rw [← Except.ok.inj hrun]
      exact ⟨rfl, hd⟩
    | cons code codes ih =>
      intro d hd hrun
      obtain ⟨d₁, hfirst, hrest⟩ := foldlM_cons_ok hrun
      obtain ⟨price, hprice, hset⟩ := of_bind_ok hfirst
      have hclose : data.close? code date = some price := by
        unfold closeAt at hprice
        split at hprice
        · next price' hprice' => rw [hprice', Except.ok.inj hprice]
        · cases hprice
      rw [← Except.ok.inj hset] at hrest
      have hd₁ : ∀ p ∈ (d.set code (alloc / price)).entries,
          ∃ price, data.close? p.1 date = some price ∧ p.2 = alloc / price := by
        intro p hp
        rcases Dict.mem_setEntries hp with heq | hold
        · rw [heq]
          exact ⟨price, hclose, rfl⟩
        · exact hd p hold
      rw [List.foldl_cons, ← Dict.keys_set (v := alloc / price)]
      exact ih _ hd₁ hrest
  obtain ⟨hkeys, hparts⟩ := hloop Dict.empty (by simp [Dict.empty]) h
  refine ⟨hkeys, ?_, ?_⟩
  · have hlength : bought.entries.length = (firsts codes).length := by
      rw [← List.length_map (f := Prod.fst)]
      exact congrArg List.length hkeys
    rw [← hlength]
    clear hkeys hlength h hloop
    generalize bought.entries = positions at hparts
    induction positions with
    | nil => simp
    | cons p positions ih =>
      obtain ⟨⟨price, hprice, hqty⟩, hrest⟩ := List.forall_mem_cons.mp hparts
      have hcost : p.2 * price = alloc := by
        rw [hqty]
        exact div_mul_cancel₀ alloc (hcloses p.1 price hprice)
      rw [holdingsValue_cons, hprice, Option.map_some, Option.getD_some, hcost, ih hrest,
        List.length_cons]
      push_cast
      ring
  · intro p hp
    obtain ⟨price, hprice, -⟩ := hparts p hp
    rw [hprice]
    rfl

/-- The codes that the signals buy. -/
def buyCodes (signals : List (String × StrategySignal)) : List String :=
  (signals.filter fun row => row.2 = .buy).map Prod.fst

/-- The part of the wealth that is held behind a rebalance: a code named twice is held once. -/
def shareHeld (codes : List String) : ℚ :=
  if codes.isEmpty then 1 else (firsts codes).length / codes.length

/-- A rebalance leaves its part of the wealth, in positions that have a price. -/
theorem wealth_of_rebalanced
    (hcloses : ∀ code price, data.close? code date = some price → price ≠ 0)
    {signals : List (String × StrategySignal)}
    (hsignals : generateSignal (data.sliced date) = .ok signals)
    (h : rebalancePositions generateSignal data s date = .ok s') :
    wealth data date s' = shareHeld (buyCodes signals) * wealth data date s ∧
      ∀ p ∈ s'.positions.entries, (data.close? p.1 date).isSome = true := by
  unfold rebalancePositions at h
  rw [hsignals] at h
  obtain ⟨_, heq, h⟩ := of_bind_ok h
  obtain rfl := Except.ok.inj heq
  dsimp only at h
  rw [cash_of_sold] at h
  rw [shareHeld]
  change (if (buyCodes signals).isEmpty = true then _ else _) = _ at h
  split at h
  · next hnone =>
    rw [← Except.ok.inj h, if_pos hnone, one_mul]
    exact ⟨add_zero _, by simp [Dict.empty]⟩
  · next hbuys =>
    obtain ⟨bought, hbought, h⟩ := of_bind_ok h
    obtain ⟨-, hvalue, hpriced⟩ := bought_equal_parts hcloses hbought
    rw [← Except.ok.inj h, if_neg hbuys]
    refine ⟨?_, hpriced⟩
    show 0 + holdingsValue data date bought.entries = _
    rw [hvalue, zero_add, mul_comm_div]
    exact congrArg (fun number : ℚ => (firsts (buyCodes signals)).length * (wealth data date s / number))
      (Int.cast_natCast _)

omit [SortOrder] in
theorem shareHeld_ne_zero (codes : List String) : shareHeld codes ≠ 0 := by
  unfold shareHeld
  split
  · exact one_ne_zero
  · next hsome =>
    obtain ⟨code, hcode⟩ := List.exists_mem_of_ne_nil codes (by simpa using hsome)
    have hfirsts := List.length_pos_of_mem (mem_firsts.mpr hcode)
    have hcodes := List.length_pos_of_mem hcode
    exact div_ne_zero (Nat.cast_ne_zero.mpr hfirsts.ne') (Nat.cast_ne_zero.mpr hcodes.ne')

omit [SortOrder] in
theorem shareHeld_of_nodup {signals : List (String × StrategySignal)}
    (h : (signals.map Prod.fst).Nodup) : shareHeld (buyCodes signals) = 1 := by
  have hcodes : (buyCodes signals).Nodup := h.sublist (List.filter_sublist.map _)
  unfold shareHeld
  split
  · rfl
  · next hbuys =>
    have hnumber : ((buyCodes signals).length : ℚ) ≠ 0 := by
      rw [Nat.cast_ne_zero, Ne, List.length_eq_zero_iff]
      simpa using hbuys
    rw [firsts_of_nodup hcodes, div_self hnumber]

/-- The record of a date on which there is no rebalance, or behind one. -/
theorem recorded_wealth
    (hcloses : ∀ code price, data.close? code date = some price → price ≠ 0)
    (h : rebalanceDay generateSignal rebalanceDates data s date = .ok s') :
    ∃ r, s'.records = s.records ++ [r] ∧ r.date = date ∧
      r.rebalance = decide (date ∈ rebalanceDates) ∧
      ((date ∉ rebalanceDates ∧ r.equity = wealth data date s ∧ s'.positions = s.positions) ∨
        date ∈ rebalanceDates ∧ ∃ signals, generateSignal (data.sliced date) = .ok signals ∧
          r.equity = shareHeld (buyCodes signals) * wealth data date s ∧
          ∀ p ∈ s'.positions.entries, (data.close? p.1 date).isSome = true) := by
  unfold rebalanceDay at h
  obtain ⟨traded, htraded, h⟩ := of_bind_ok h
  rw [← Except.ok.inj h]
  by_cases hdate : date ∈ rebalanceDates
  · rw [if_pos (decide_eq_true hdate)] at htraded
    obtain ⟨signals, hsignals, -⟩ := of_bind_ok htraded
    obtain ⟨hwealth, hpriced⟩ := wealth_of_rebalanced hcloses hsignals htraded
    exact ⟨_, congrArg (· ++ _) (rebalancePositions_records htraded), rfl, rfl,
      .inr ⟨hdate, signals, hsignals, hwealth, hpriced⟩⟩
  · rw [if_neg (by simpa using hdate)] at htraded
    rw [Except.ok.inj htraded]
    exact ⟨_, rfl, rfl, rfl, .inl ⟨hdate, rfl, rfl⟩⟩

/-- On every date the equity is the cash of the date before and its positions at the closes of the
date, whether or not there is a rebalance. -/
theorem rebalance_self_financing (x : BacktestExecutor ℚ)
    (hcloses : ∀ date ∈ commonDates data, ∀ code price, data.close? code date = some price → 0 < price)
    (hdistinct : ∀ date signals, generateSignal (data.sliced date) = .ok signals →
      (signals.map Prod.fst).Nodup) {before after : List Instant}
    (hdates : commonDates data = before ++ date :: after)
    (hbefore : before.foldlM (rebalanceDay generateSignal
      (getRebalanceDates x.rebalanceInterval [] (commonDates data)) data) ⟨x.initialCash, .empty, []⟩ =
        .ok s)
    (hday : rebalanceDay generateSignal
      (getRebalanceDates x.rebalanceInterval [] (commonDates data)) data s date = .ok s') :
    ∃ r, s'.records = s.records ++ [r] ∧ r.date = date ∧
      (∀ p ∈ s.positions.entries, (data.close? p.1 date).isSome = true) ∧
      r.equity = s.cash +
        (s.positions.entries.map fun p => p.2 * (data.close? p.1 date).getD 0).sum ∧
      (before = [] → r.equity = x.initialCash) := by
  have hdate : date ∈ commonDates data := by simp [hdates]
  have hheld : ∀ p ∈ s.positions.entries, p.1 ∈ data.keys := by
    refine foldlM_invariant (fun s => ∀ p ∈ s.positions.entries, p.1 ∈ data.keys) ?_ ?_ hbefore
    · intro d hd s₁ s₂ hs₁ hstep p hp
      have hcommon : d ∈ commonDates data := by
        rw [hdates]
        exact List.mem_append_left _ hd
      obtain ⟨_, -, -, -, hcases⟩ :=
        recorded_wealth (fun code price hprice => (hcloses d hcommon code price hprice).ne') hstep
      rcases hcases with ⟨-, -, hkept⟩ | ⟨-, _, -, -, hpriced⟩
      · rw [hkept] at hp
        exact hs₁ p hp
      · obtain ⟨price, hprice⟩ := Option.isSome_iff_exists.mp (hpriced p hp)
        obtain ⟨df, hdf, -⟩ := Option.bind_eq_some_iff.mp hprice
        exact Dict.mem_keys_iff.mpr ⟨df, hdf⟩
    · simp [Dict.empty]
  have hpriced : ∀ p ∈ s.positions.entries, (data.close? p.1 date).isSome = true :=
    fun p hp => close?_of_mem_commonDates hdate (hheld p hp)
  obtain ⟨r, hr, hrdate, -, hcases⟩ :=
    recorded_wealth (fun code price hprice => (hcloses date hdate code price hprice).ne') hday
  have hequity : r.equity = wealth data date s := by
    rcases hcases with ⟨-, hequity, -⟩ | ⟨-, signals, hsignals, hequity, -⟩
    · exact hequity
    · rw [hequity, shareHeld_of_nodup (hdistinct date signals hsignals), one_mul]
  refine ⟨r, hr, hrdate, hpriced, ?_, ?_⟩
  · rw [hequity, wealth, holdingsValue_of_priced hpriced]
  · rintro rfl
    rw [hequity, ← Except.ok.inj hbefore]
    exact add_zero _

end Exact

/-! ## Two stocks, bought every other day -/

open scoped SortOrder

def twoStocks : PriceData ℚ where
  entries := [("005930", ⟨[rowOfDay 0 100 1, rowOfDay 1 110 1, rowOfDay 2 90 1], by simp [rowOfDay]⟩),
    ("000660", ⟨[rowOfDay 0 50 1, rowOfDay 1 40 1, rowOfDay 2 60 1], by simp [rowOfDay]⟩)]
  nodup := by simp

/-- Every frame is bought. -/
def buyAll (data : PriceData ℚ) : Except PyExc (List (String × StrategySignal)) :=
  .ok (data.keys.map fun code => (code, .buy))

def everyOtherDay : BacktestExecutor ℚ where
  strategy := .rebalance buyAll
  initialCash := 1000
  rebalanceInterval date := date / (2 * 86400000000)
  rvMaxPositions := 1
  rvCooldownDays := 3

/-- Five and ten pieces are sold for 90 and 60 a piece on day 2. -/
theorem rebalance_self_financing_sample : ∃ s s' r,
    [0, 86400000000].foldlM (rebalanceDay buyAll
      (getRebalanceDates everyOtherDay.rebalanceInterval [] (commonDates twoStocks)) twoStocks)
      ⟨everyOtherDay.initialCash, .empty, []⟩ = .ok s ∧
    rebalanceDay buyAll
      (getRebalanceDates everyOtherDay.rebalanceInterval [] (commonDates twoStocks)) twoStocks s
      (2 * 86400000000) = .ok s' ∧
    s'.records = s.records ++ [r] ∧ r.equity = 1050 := by
  have hrun : ((([0, 86400000000].foldlM (rebalanceDay buyAll
      (getRebalanceDates everyOtherDay.rebalanceInterval [] (commonDates twoStocks)) twoStocks)
      ⟨everyOtherDay.initialCash, .empty, []⟩).toOption).any fun s =>
        (rebalanceDay buyAll (getRebalanceDates everyOtherDay.rebalanceInterval []
          (commonDates twoStocks)) twoStocks s (2 * 86400000000)).toOption.isSome ∧
        s.cash + (s.positions.entries.map fun p =>
          p.2 * (twoStocks.close? p.1 (2 * 86400000000)).getD 0).sum = 1050) = true := by
    decide +kernel
  obtain ⟨s, hs, hvalues⟩ := (Option.any_eq_true _ _).mp hrun
  obtain ⟨hday, hvalue⟩ := of_decide_eq_true hvalues
  obtain ⟨s', hs'⟩ := Option.isSome_iff_exists.mp hday
  have hcloses : twoStocks.PositiveCloses := by decide +kernel
  have hdistinct : ∀ date signals, buyAll (twoStocks.sliced date) = .ok signals →
      (signals.map Prod.fst).Nodup := by
    intro date signals h
    rw [← Except.ok.inj h, List.map_map]
    exact (List.map_id _).symm ▸ (twoStocks.sliced date).nodup
  obtain ⟨r, hr, -, -, hequity, -⟩ := rebalance_self_financing everyOtherDay
    (fun _ _ _ _ hprice => hcloses.close?_pos hprice) hdistinct
    (show commonDates twoStocks = [0, 86400000000] ++ (2 * 86400000000) :: [] by decide +kernel)
    (ok_of_toOption hs) (ok_of_toOption hs')
  exact ⟨s, s', r, ok_of_toOption hs, ok_of_toOption hs', hr, hequity.trans hvalue⟩

end Autotrading.BacktestExecutor
