import Autotrading.MetricsAdapters
import Mathlib.Algebra.BigOperators.Group.List.Basic

/-!
# The value of the holdings

When the equity of a day is the cash and every holding at its latest close. A code that has no close
yet is left out of the sum without a word.
-/
namespace Autotrading

open TimeIndex (IsLast)

/-- A call of `build_equity_series`. -/
structure EquityCall where
  getOhlcv : OhlcvArgs → Except PyExc (PriceFrame (Option ℚ))
  db : SnapshotStore
  accountNo : String
  accountProductCode : String
  startDate : ℤ
  asOfDate : ℤ

namespace EquityCall

section Terms
variable (call : EquityCall)

def result : Except PyExc (List (Instant × ℚ)) :=
  buildEquitySeries call.getOhlcv call.db call.accountNo call.accountProductCode call.startDate
    call.asOfDate

def snapshots : List SnapshotRow :=
  call.db.getSnapshotsByPeriod call.accountNo call.accountProductCode call.startDate call.asOfDate

/-- The snapshots with what they hold. -/
def views : List SnapshotView :=
  call.snapshots.map (snapshotView (call.db.getHoldingsBySnapshotIds (call.snapshots.map (·.id))))

/-- What the provider answers for a code. -/
def fetched (code : String) : Except PyExc CloseSeries :=
  fetchCloseSeries call.getOhlcv code (firstDate (call.snapshots.map resolveTradingDate)) call.asOfDate

/-- The closes of a code, none where the provider fails. -/
def closes (code : String) : CloseSeries := (call.fetched code).toOption.getD []

/-- A trading day from the first snapshot to the last day asked for. -/
def Covered (t : Instant) : Prop :=
  (∃ code ∈ heldCodes call.views, t ∈ TimeIndex.index (call.closes code)) ∧
    (∃ s ∈ call.views, s.tradingDate ≤ t) ∧ t ≤ timestamp call.asOfDate

/-- The value is the cash of a snapshot and all it holds at the latest closes up to the day. -/
def Includes (s : SnapshotView) (t : Instant) (value : ℚ) : Prop :=
  ∃ price : String → ℚ, (∀ code, s.qty code ≠ 0 → IsLast (call.closes code) t (some (price code))) ∧
    value = s.cashAmount + (s.holdings.entries.map fun e => e.2 * price e.1).sum

/-- A series that is returned has a value for every trading day, and no value omits a holding. -/
def NothingOmitted : Prop :=
  ∀ equity, call.result = .ok equity →
    (∀ t, t ∈ equity.map Prod.fst ↔ call.Covered t) ∧
      ∀ e ∈ equity, ∃ s, snapshotAt call.views e.1 = some s ∧ call.Includes s e.1 e.2

/-- On every trading day each code that is held has had a close. -/
def Priced : Prop :=
  ∀ t s, call.Covered t → snapshotAt call.views t = some s →
    ∀ code, s.qty code ≠ 0 → ∃ day price, (day, some price) ∈ call.closes code ∧ day ≤ t

/-- The frame of the closes, before it is filled. -/
def closeTable : CloseTable :=
  .ofSeriesMap (.ofList ((heldCodes call.views).map fun code => (code, call.closes code)))

end Terms

variable {call : EquityCall} {code : String} {s : SnapshotView} {t : Instant}

/-! ## The frame of the closes -/

theorem mem_heldCodes {views : List SnapshotView} :
    code ∈ heldCodes views ↔ ∃ s ∈ views, code ∈ s.holdings.keys := by
  rw [heldCodes, DatedLoop.mem_sortedSet, List.mem_flatMap]

theorem mem_keys_of_qty (h : s.qty code ≠ 0) : code ∈ s.holdings.keys := by
  by_contra hnot
  have hnone : s.holdings.get? code = none := by
    by_contra hsome
    exact hnot (Dict.mem_keys_iff.mpr (Option.ne_none_iff_exists'.mp hsome))
  exact h (by rw [SnapshotView.qty, hnone, Option.getD_none])

theorem pairwise_closes (code : String) : (TimeIndex.index (call.closes code)).Pairwise (· < ·) := by
  unfold closes fetched fetchCloseSeries
  cases call.getOhlcv _ with
  | error e => exact .nil
  | ok df =>
    have hindex : TimeIndex.index (df.rows.map fun row => (row.date, row.close)) = df.index := by
      rw [TimeIndex.index, List.map_map]
      rfl
    exact hindex ▸ df.pairwise_index

/-- A code goes into the frame unless it has no rows. -/
theorem closeSeriesOf_eq (hrows : call.closes code ≠ []) :
    closeSeriesOf call.getOhlcv (firstDate (call.snapshots.map resolveTradingDate)) call.asOfDate code =
      .ok (code, call.closes code) := by
  unfold closes at hrows ⊢
  unfold closeSeriesOf
  rw [← fetched]
  cases hfetched : call.fetched code with
  | error e => exact absurd (by rw [hfetched]; rfl) hrows
  | ok series =>
    have hsome : series ≠ [] := by
      rw [hfetched] at hrows
      exact hrows
    simp [bind, Except.bind, hsome, Except.toOption, pure, Except.pure]

theorem closeSeriesOf_ok {y : String × CloseSeries}
    (h : closeSeriesOf call.getOhlcv (firstDate (call.snapshots.map resolveTradingDate))
      call.asOfDate code = .ok y) : call.closes code ≠ [] := by
  obtain ⟨series, hfetched, hrest⟩ := of_bind_ok h
  intro hnone
  have hseries : series = [] := by
    rw [closes, fetched, hfetched] at hnone
    exact hnone
  rw [hseries] at hrest
  cases hrest

theorem columns_closeTable : code ∈ call.closeTable.columns ↔ code ∈ heldCodes call.views := by
  show code ∈ (Dict.ofList _).keys ↔ _
  rw [Dict.mem_keys_ofList, List.map_map]
  simp

theorem get?_seriesMap (h : code ∈ heldCodes call.views) :
    (Dict.ofList ((heldCodes call.views).map fun code => (code, call.closes code))).get? code =
      some (call.closes code) := by
  have hkey : code ∈ (Dict.ofList ((heldCodes call.views).map fun code => (code, call.closes code))).keys :=
    columns_closeTable.mpr h
  obtain ⟨series, hseries⟩ := Dict.mem_keys_iff.mp hkey
  obtain ⟨before, after, hsplit, -⟩ := Dict.get?_ofList_eq_some.mp hseries
  have hmem : (code, series) ∈ (heldCodes call.views).map fun code => (code, call.closes code) := by
    rw [hsplit]
    simp
  obtain ⟨code', -, heq⟩ := List.mem_map.mp hmem
  obtain ⟨rfl, rfl⟩ := Prod.mk.inj heq
  exact hseries

theorem mem_index_closeTable :
    t ∈ call.closeTable.index ↔ ∃ code ∈ heldCodes call.views, t ∈ TimeIndex.index (call.closes code) := by
  show t ∈ DatedLoop.sortedSet _ ↔ _
  rw [DatedLoop.mem_sortedSet, List.mem_flatMap]
  constructor
  · rintro ⟨⟨code, series⟩, hentry, ht⟩
    have hget := Dict.mem_entries.mp hentry
    have hcode : code ∈ heldCodes call.views :=
      columns_closeTable.mp (Dict.mem_keys_iff.mpr ⟨series, hget⟩)
    rw [get?_seriesMap hcode] at hget
    obtain rfl := Option.some.inj hget
    exact ⟨code, hcode, ht⟩
  · rintro ⟨code, hcode, ht⟩
    exact ⟨_, Dict.mem_entries.mpr (get?_seriesMap hcode), ht⟩

/-- The days of the equity are the trading days. -/
theorem mem_daysCovered :
    t ∈ daysCovered call.views call.closeTable.filled.zeroed (timestamp call.asOfDate) ↔
      call.Covered t := by
  rw [daysCovered, List.mem_filter, decide_eq_true_iff, CloseTable.zeroed_index,
    CloseTable.filled_index, mem_index_closeTable]
  rfl

/-- It raises, or comes to the frame of the closes. -/
theorem result_cases (call : EquityCall) : ∃ e e', call.result =
    if call.snapshots = [] then .error e
    else if heldCodes call.views = [] then .error e'
    else
      buildCloseFrame call.getOhlcv (heldCodes call.views)
        (firstDate (call.snapshots.map resolveTradingDate)) call.asOfDate >>=
          fun closeFrame => closeFrame.assembleEquity call.views (timestamp call.asOfDate) := by
  simp only [← List.isEmpty_iff]
  exact ⟨_, _, rfl⟩

/-- With a code that is held and rows for every such code the equity is that of the frame. -/
theorem result_eq (hheld : heldCodes call.views ≠ [])
    (hfetched : ∀ code ∈ heldCodes call.views, call.closes code ≠ []) :
    call.result =
      Autotrading.assembleEquity call.views call.closeTable.filled.zeroed (timestamp call.asOfDate) := by
  have hsnapshots : call.snapshots ≠ [] := by
    intro hnone
    refine hheld ?_
    rw [views, hnone]
    rfl
  have hframe : buildCloseFrame call.getOhlcv (heldCodes call.views)
      (firstDate (call.snapshots.map resolveTradingDate)) call.asOfDate =
        .ok call.closeTable.filled := by
    rw [buildCloseFrame, mapM_eq_ok fun code hcode => closeSeriesOf_eq (hfetched code hcode)]
    rfl
  obtain ⟨e, e', hresult⟩ := result_cases call
  rw [← CloseTable.assembleEquity_eq_zeroed, hresult, if_neg hsnapshots, if_neg hheld, hframe]
  rfl

/-- When the equity is returned. -/
theorem of_result_ok {equity : List (Instant × ℚ)} (h : call.result = .ok equity) :
    heldCodes call.views ≠ [] ∧ ∀ code ∈ heldCodes call.views, call.closes code ≠ [] := by
  obtain ⟨e, e', hresult⟩ := result_cases call
  rw [hresult] at h
  split at h
  · cases h
  · split at h
    · cases h
    · next hheld =>
      refine ⟨hheld, fun code hcode => ?_⟩
      obtain ⟨frame, hframe, -⟩ := of_bind_ok h
      obtain ⟨seriesMap, hloop, -⟩ := of_bind_ok hframe
      obtain ⟨y, -, hy⟩ := exists_of_mapM_ok hloop hcode
      exact closeSeriesOf_ok hy

/-! ## The value of a day -/

/-- The codes of a snapshot are among the columns, so the sum over the columns is that over the
holdings. -/
theorem sum_columns {columns : List String} (hdistinct : columns.Nodup)
    (hall : ∀ code ∈ s.holdings.keys, code ∈ columns) (price : String → ℚ) :
    (columns.map fun code => (s.qty code : ℚ) * price code).sum =
      (s.holdings.entries.map fun e => (e.2 : ℚ) * price e.1).sum := by
  have hothers : ∀ codes : List String,
      (codes.map fun code => (s.qty code : ℚ) * price code).sum =
        ((codes.filter (· ∈ s.holdings.keys)).map fun code => (s.qty code : ℚ) * price code).sum := by
    intro codes
    induction codes with
    | nil => rfl
    | cons code codes ih =>
      by_cases hkey : code ∈ s.holdings.keys
      · simp [hkey, ih]
      · have hzero : s.qty code = 0 := by
          by_contra hne
          exact hkey (mem_keys_of_qty hne)
        simp [hkey, ih, hzero]
  have hperm : (columns.filter (· ∈ s.holdings.keys)).Perm s.holdings.keys := by
    refine (List.perm_ext_iff_of_nodup (hdistinct.filter _) s.holdings.nodup).mpr fun code => ?_
    rw [List.mem_filter, decide_eq_true_iff]
    exact and_iff_right_of_imp (hall code)
  rw [hothers, (hperm.map _).sum_eq, Dict.keys, List.map_map]
  congr 1
  refine List.map_congr_left fun e he => ?_
  rw [Function.comp_apply, SnapshotView.qty, Dict.mem_entries.mp he, Option.getD_some]

theorem isLast_closes (hcode : code ∈ heldCodes call.views) (ht : call.Covered t) :
    IsLast (call.closes code) t (call.closeTable.filled.close t code) :=
  CloseTable.isLast_filled (get?_seriesMap hcode) (pairwise_closes code)
    (mem_index_closeTable.mpr ht.1)

/-- Where every code that is held has had a close, the value includes all. -/
theorem includes_nav (hs : s ∈ call.views) (ht : call.Covered t)
    (hpriced : ∀ code, s.qty code ≠ 0 → ∃ day price, (day, some price) ∈ call.closes code ∧ day ≤ t) :
    call.Includes s t (nav call.closeTable.filled.zeroed s t) := by
  have hheld : ∀ code ∈ s.holdings.keys, code ∈ heldCodes call.views :=
    fun code hkey => mem_heldCodes.mpr ⟨s, hs, hkey⟩
  refine ⟨fun code => (call.closeTable.filled.close t code).getD 0, fun code hqty => ?_, ?_⟩
  · have hlast := isLast_closes (hheld code (mem_keys_of_qty hqty)) ht
    cases hclose : call.closeTable.filled.close t code with
    | some price =>
      rw [hclose] at hlast
      simpa only [hclose, Option.getD_some] using hlast
    | none =>
      rw [hclose] at hlast
      obtain ⟨day, price, hmem, hle⟩ := hpriced code hqty
      cases hlast with
      | missing hnone => exact absurd hle (hnone day price hmem)
  · have hsum := sum_columns call.closeTable.distinct
      (fun code hkey => columns_closeTable.mpr (hheld code hkey))
      fun code => (call.closeTable.filled.close t code).getD 0
    simp only [nav, CloseTable.zeroed_columns, CloseTable.filled_columns, CloseTable.zeroed_close,
      hsum]

/-- A code that is held without a close up to a trading day is omitted, unless the call raises. -/
theorem NothingOmitted.priced (h : call.NothingOmitted)
    (hfetched : ∀ code ∈ heldCodes call.views, call.closes code ≠ [])
    (hdates : (call.views.map SnapshotView.tradingDate).Nodup) : call.Priced := by
  intro t s ht hs code hqty
  obtain ⟨code', hcode', -⟩ := ht.1
  have hheld : heldCodes call.views ≠ [] := List.ne_nil_of_mem hcode'
  have hcolumns : call.closeTable.filled.zeroed.columns ≠ [] :=
    List.ne_nil_of_mem (columns_closeTable.mpr hcode')
  obtain ⟨equity, hok, hdays, -⟩ := assembleEquity_of_distinct hdates hcolumns
    (List.ne_nil_of_mem (mem_daysCovered.mpr ht))
  rw [← result_eq hheld hfetched] at hok
  have hday : t ∈ equity.map Prod.fst := by
    rw [hdays]
    exact mem_daysCovered.mpr ht
  obtain ⟨e, he, rfl⟩ := List.mem_map.mp hday
  obtain ⟨s', hs', price, hprice, -⟩ := (h equity hok).2 e he
  rw [hs] at hs'
  obtain rfl := Option.some.inj hs'
  have hlast := hprice code hqty
  cases hlast with
  | value hmem hle _ => exact ⟨_, _, hmem, hle⟩

/-- Where every code that is held has had a close, nothing is omitted. -/
theorem Priced.nothingOmitted (h : call.Priced) : call.NothingOmitted := by
  intro equity hok
  obtain ⟨hheld, hfetched⟩ := of_result_ok hok
  rw [result_eq hheld hfetched] at hok
  obtain ⟨hdays, hcolumns, hdates⟩ := of_assembleEquity_ok hok
  obtain ⟨equity', hok', hdays', hvalues⟩ := assembleEquity_of_distinct hdates hcolumns hdays
  rw [hok] at hok'
  obtain rfl := Except.ok.inj hok'
  have hcovered : ∀ t, t ∈ equity.map Prod.fst ↔ call.Covered t := by
    intro t
    rw [hdays']
    exact mem_daysCovered
  refine ⟨hcovered, fun e he => ?_⟩
  obtain ⟨s, hs, hvalue⟩ := hvalues e he
  have ht : call.Covered e.1 := (hcovered e.1).mp (List.mem_map.mpr ⟨e, he, rfl⟩)
  obtain ⟨s', hs', hmem, -⟩ := snapshotAt_spec ht.2.1
  rw [hs] at hs'
  obtain rfl := Option.some.inj hs'
  exact ⟨s, hs, hvalue ▸ includes_nav hmem ht (h e.1 s ht hs)⟩

/-- No value omits a holding exactly when a code that is held has no rows at all, or two snapshots
have one date, or on every trading day each code that is held has had a close. -/
theorem nothing_omitted_iff (call : EquityCall) :
    call.NothingOmitted ↔
      (∃ code ∈ heldCodes call.views, call.closes code = []) ∨
        ¬ (call.views.map SnapshotView.tradingDate).Nodup ∨ call.Priced := by
  constructor
  · intro h
    by_contra hnot
    push Not at hnot
    obtain ⟨hfetched, hdates, hunpriced⟩ := hnot
    exact hunpriced (h.priced hfetched hdates)
  · rintro (⟨code, hcode, hnone⟩ | hrepeat | hpriced)
    · intro equity hok
      exact absurd hnone ((of_result_ok hok).2 code hcode)
    · intro equity hok
      obtain ⟨hheld, hfetched⟩ := of_result_ok hok
      rw [result_eq hheld hfetched] at hok
      exact absurd (of_assembleEquity_ok hok).2.2 hrepeat
    · exact hpriced.nothingOmitted

/-! ## A stock whose first bar is late -/

def closeBar (date : ℤ) (close : ℚ) : OhlcvRow (Option ℚ) :=
  ⟨timestamp date, close, close, close, close, some 1, some 0⟩

/-- 005930 has bars on 2026-04-01 and 2026-04-02, 000660 only on 2026-04-02. -/
def lateBars (args : OhlcvArgs) : Except PyExc (PriceFrame (Option ℚ)) :=
  if args.code = "005930" then
    .ok ⟨[closeBar 20544 180000, closeBar 20545 190000], by simp [closeBar, timestamp, microsecondsPerDay]⟩
  else .ok ⟨[closeBar 20545 910000], by simp⟩

/-- Both are held from 2026-04-01 on. -/
def lateListing : EquityCall where
  getOhlcv := lateBars
  db := ⟨[⟨1, 0, "REBALANCE", "12345678", "01", some 570000, some 20544⟩],
    [⟨1, "000660", 2⟩, ⟨1, "005930", 11⟩]⟩
  accountNo := "12345678"
  accountProductCode := "01"
  startDate := 20544
  asOfDate := 20545

theorem snapshots_lateListing : lateListing.snapshots = lateListing.db.snapshots := by
  show (List.filter _ _).mergeSort _ = _
  rw [List.mergeSort_of_pairwise]
  · rfl
  · decide +kernel

theorem views_lateListing : lateListing.views =
    [⟨timestamp 20544, 570000, ⟨[("000660", 2), ("005930", 11)], by decide⟩⟩] := by
  have hholdings : lateListing.db.getHoldingsBySnapshotIds [1] = lateListing.db.holdings := by
    show (List.filter _ _).mergeSort _ = _
    rw [List.mergeSort_of_pairwise]
    · rfl
    · decide +kernel
  rw [views, snapshots_lateListing]
  show [snapshotView (lateListing.db.getHoldingsBySnapshotIds [1]) _] = _
  rw [hholdings]
  rfl

/-- On 2026-04-01 the equity is without the two shares of 000660. -/
theorem holding_omitted : ¬ lateListing.NothingOmitted := by
  intro h
  have hpriced := h.priced (by rw [views_lateListing]; decide +kernel)
    (by rw [views_lateListing]; decide +kernel)
  have hcovered : lateListing.Covered (timestamp 20544) := by
    unfold Covered
    rw [views_lateListing]
    refine ⟨⟨"005930", ?_, ?_⟩, ⟨_, List.mem_singleton.mpr rfl, ?_⟩, ?_⟩
    · decide +kernel
    · decide +kernel
    · decide +kernel
    · decide +kernel
  have hcloses : lateListing.closes "000660" = [(timestamp 20545, some 910000)] := rfl
  obtain ⟨day, price, hmem, hle⟩ := hpriced _ _ hcovered (by rw [views_lateListing]; rfl) "000660"
    (by decide +kernel)
  rw [hcloses, List.mem_singleton, Prod.mk.injEq] at hmem
  rw [hmem.1] at hle
  exact absurd hle (by decide)

end EquityCall

end Autotrading
