import Autotrading.PerformanceBounds
import Autotrading.SortedPages
import Mathlib.Data.List.NodupEquivFin

/-!
# The past of the equity

A later request of the same period sees the days that an earlier one has shown, with the same net
asset values, and the maximum drawdown has not become less. Days may be added in between: a code that
was bought later brings the days of its own closes.
-/
namespace Autotrading

open TimeIndex (IsLast)

theorem timestamp_le_iff {a b : ℤ} : timestamp a ≤ timestamp b ↔ a ≤ b :=
  Int.mul_le_mul_right (by decide)

namespace EquityCall

/-- A later call of the same period of an account. The snapshots that were stored since are of later
days, their holdings are not those of a snapshot that was there, and the provider still answers with
the closes of the days up to then. -/
structure Later (call call' : EquityCall) : Prop where
  accountNo : call'.accountNo = call.accountNo
  accountProductCode : call'.accountProductCode = call.accountProductCode
  startDate : call'.startDate = call.startDate
  asOfDate : call.asOfDate ≤ call'.asOfDate
  snapshots : ∃ new, call'.db.snapshots = call.db.snapshots ++ new ∧
    ∀ s ∈ new, ∀ date ∈ s.tradingDate, call.asOfDate < date
  holdings : ∃ new, call'.db.holdings = call.db.holdings ++ new ∧
    ∀ row ∈ new, ∀ s ∈ call.db.snapshots, row.snapshotId ≠ s.id
  closes : ∀ code start df df', call.getOhlcv ⟨code, isoformat start, isoformat call.asOfDate⟩ = .ok df →
    call'.getOhlcv ⟨code, isoformat start, isoformat call'.asOfDate⟩ = .ok df' →
      df.rows.map (fun row => (row.date, row.close)) =
        (df'.rows.map fun row => (row.date, row.close)).filter fun e => e.1 ≤ timestamp call.asOfDate

variable {call call' : EquityCall} {s : SnapshotRow} {view : SnapshotView} {code : String}
  {t : Instant} {equity equity' : List (Instant × ℚ)}

/-! ## The snapshots -/

theorem mem_snapshots : s ∈ call.snapshots ↔ s ∈ call.db.snapshots ∧
    s.accountNo = call.accountNo ∧ s.accountProductCode = call.accountProductCode ∧
      s.snapshotType = "REBALANCE" ∧
        ∃ date, s.tradingDate = some date ∧ call.startDate ≤ date ∧ date ≤ call.asOfDate := by
  rw [snapshots, SnapshotStore.getSnapshotsByPeriod, List.mem_mergeSort, List.mem_filter,
    decide_eq_true_iff, Option.any_eq_true]
  simp only [Bool.decide_and, Bool.and_eq_true, decide_eq_true_iff]

theorem resolveTradingDate_of_some {date : ℤ} (h : s.tradingDate = some date) :
    resolveTradingDate s = date := by
  rw [resolveTradingDate, h, Option.getD_some]

/-- The earlier call has the snapshots of the later one that are not of later days. -/
theorem Later.mem_snapshots_iff (h : Later call call') :
    s ∈ call.snapshots ↔ s ∈ call'.snapshots ∧ resolveTradingDate s ≤ call.asOfDate := by
  obtain ⟨new, hdb, hnew⟩ := h.snapshots
  rw [mem_snapshots, mem_snapshots, hdb, h.accountNo, h.accountProductCode, h.startDate]
  constructor
  · rintro ⟨hmem, hno, hproduct, htype, date, hdate, hstart, hstop⟩
    refine ⟨⟨List.mem_append_left _ hmem, hno, hproduct, htype, date, hdate, hstart,
      hstop.trans h.asOfDate⟩, ?_⟩
    rwa [resolveTradingDate_of_some hdate]
  · rintro ⟨⟨hmem, hno, hproduct, htype, date, hdate, hstart, -⟩, hearly⟩
    rw [resolveTradingDate_of_some hdate] at hearly
    refine ⟨?_, hno, hproduct, htype, date, hdate, hstart, hearly⟩
    obtain hold | hin := List.mem_append.mp hmem
    · exact hold
    · have hlate := hnew s hin date hdate
      omega

/-- The holdings of a snapshot are the rows under its id. -/
theorem groupedHoldings_eq {db : SnapshotStore} {ids : List ℕ} {id : ℕ} (h : id ∈ ids) :
    groupedHoldings (db.getHoldingsBySnapshotIds ids) id =
      groupedHoldings (db.getHoldingsBySnapshotIds [id]) id := by
  have hrows : ∀ ids : List ℕ, id ∈ ids →
      (db.getHoldingsBySnapshotIds ids).filter (·.snapshotId = id) =
        (db.holdings.filter (·.snapshotId = id)).mergeSort fun a b =>
          a.snapshotId < b.snapshotId ∨ a.snapshotId = b.snapshotId ∧ a.stockCode ≤ b.stockCode := by
    intro ids hid
    rw [SnapshotStore.getHoldingsBySnapshotIds, SortedPages.filter_mergeSort, List.filter_filter]
    · congr 1
      refine List.filter_congr fun row _ => ?_
      by_cases hrow : row.snapshotId = id
      · simp [hrow, hid]
      · simp [hrow]
    · intro a b c hab hbc
      rw [decide_eq_true_iff] at hab hbc ⊢
      obtain hab | ⟨hab, hcode⟩ := hab
      · obtain hbc | ⟨hbc, -⟩ := hbc
        · exact .inl (hab.trans hbc)
        · exact .inl (hbc ▸ hab)
      · obtain hbc | ⟨hbc, hcode'⟩ := hbc
        · exact .inl (hab ▸ hbc)
        · exact .inr ⟨hab.trans hbc, hcode.trans hcode'⟩
    · intro a b
      rw [Bool.or_eq_true, decide_eq_true_iff, decide_eq_true_iff]
      obtain hlt | heq | hlt := lt_trichotomy a.snapshotId b.snapshotId
      · exact .inl (.inl hlt)
      · obtain hcode | hcode := le_total a.stockCode b.stockCode
        · exact .inl (.inr ⟨heq, hcode⟩)
        · exact .inr (.inr ⟨heq.symm, hcode⟩)
      · exact .inr (.inl hlt)
  unfold groupedHoldings
  rw [hrows ids h, hrows [id] (List.mem_singleton_self id)]

/-- A snapshot holds the same for both calls. -/
theorem Later.snapshotView_eq (h : Later call call') (hs : s ∈ call.snapshots) :
    snapshotView (call'.db.getHoldingsBySnapshotIds (call'.snapshots.map (·.id))) s =
      snapshotView (call.db.getHoldingsBySnapshotIds (call.snapshots.map (·.id))) s := by
  obtain ⟨new, hdb, hnew⟩ := h.holdings
  have hs' := (h.mem_snapshots_iff.mp hs).1
  have hrows : call'.db.getHoldingsBySnapshotIds [s.id] = call.db.getHoldingsBySnapshotIds [s.id] := by
    have hnone : new.filter (fun row => row.snapshotId ∈ [s.id]) = [] := by
      rw [List.filter_eq_nil_iff]
      intro row hrow hid
      exact hnew row hrow s (mem_snapshots.mp hs).1 (by simpa using hid)
    unfold SnapshotStore.getHoldingsBySnapshotIds
    rw [hdb, List.filter_append, hnone, List.append_nil]
  unfold snapshotView
  rw [groupedHoldings_eq (List.mem_map_of_mem hs), groupedHoldings_eq (List.mem_map_of_mem hs'), hrows]

theorem mem_views : view ∈ call.views ↔ ∃ s ∈ call.snapshots,
    snapshotView (call.db.getHoldingsBySnapshotIds (call.snapshots.map (·.id))) s = view :=
  List.mem_map

theorem Later.mem_views_iff (h : Later call call') :
    view ∈ call.views ↔ view ∈ call'.views ∧ view.tradingDate ≤ timestamp call.asOfDate := by
  rw [mem_views, mem_views]
  constructor
  · rintro ⟨s, hs, rfl⟩
    obtain ⟨hs', hearly⟩ := h.mem_snapshots_iff.mp hs
    exact ⟨⟨s, hs', h.snapshotView_eq hs⟩, timestamp_le_iff.mpr hearly⟩
  · rintro ⟨⟨s, hs', rfl⟩, hearly⟩
    have hs := h.mem_snapshots_iff.mpr ⟨hs', timestamp_le_iff.mp hearly⟩
    exact ⟨s, hs, (h.snapshotView_eq hs).symm⟩

/-- The closes are asked for from the same day on. -/
theorem Later.firstDate_eq (h : Later call call') (hne : call.snapshots ≠ []) :
    firstDate (call'.snapshots.map resolveTradingDate) =
      firstDate (call.snapshots.map resolveTradingDate) := by
  have hdates : call.snapshots.map resolveTradingDate ≠ [] := by simpa using hne
  obtain ⟨first, hfirst⟩ := Option.isSome_iff_exists.mp (List.isSome_min?_iff.mpr hdates)
  obtain ⟨hmem, hleast⟩ := List.min?_eq_some_iff.mp hfirst
  obtain ⟨s, hs, rfl⟩ := List.mem_map.mp hmem
  obtain ⟨hs', hearly⟩ := h.mem_snapshots_iff.mp hs
  have hfirst' : (call'.snapshots.map resolveTradingDate).min? = some (resolveTradingDate s) := by
    refine List.min?_eq_some_iff.mpr ⟨List.mem_map_of_mem hs', fun date hdate => ?_⟩
    obtain ⟨s', hs'', rfl⟩ := List.mem_map.mp hdate
    by_cases hold : resolveTradingDate s' ≤ call.asOfDate
    · exact hleast _ (List.mem_map_of_mem (h.mem_snapshots_iff.mpr ⟨hs'', hold⟩))
    · omega
  rw [firstDate, firstDate, hfirst, hfirst']

/-! ## The closes -/

theorem views_ne_nil (h : heldCodes call.views ≠ []) : call.snapshots ≠ [] := by
  intro hnil
  refine h ?_
  rw [views, hnil]
  rfl

theorem Later.mem_heldCodes (h : Later call call') (hcode : code ∈ heldCodes call.views) :
    code ∈ heldCodes call'.views := by
  obtain ⟨view, hview, hkey⟩ := EquityCall.mem_heldCodes.mp hcode
  exact EquityCall.mem_heldCodes.mpr ⟨view, (h.mem_views_iff.mp hview).1, hkey⟩

/-- A code with closes has been answered. -/
theorem closes_cases (h : call.closes code ≠ []) : ∃ df,
    call.getOhlcv ⟨code, isoformat (firstDate (call.snapshots.map resolveTradingDate)),
      isoformat call.asOfDate⟩ = .ok df ∧
      call.closes code = df.rows.map fun row => (row.date, row.close) := by
  unfold closes fetched fetchCloseSeries at h ⊢
  cases hdf : call.getOhlcv _ with
  | error e =>
    rw [hdf] at h
    exact absurd rfl h
  | ok df => exact ⟨df, rfl, rfl⟩

/-- The later call is answered with the closes of the earlier one up to its last day. -/
theorem Later.closes_eq (h : Later call call') (hheld : heldCodes call.views ≠ [])
    (hrows : call.closes code ≠ []) (hrows' : call'.closes code ≠ []) :
    call.closes code = (call'.closes code).filter fun e => e.1 ≤ timestamp call.asOfDate := by
  obtain ⟨df, hdf, hcloses⟩ := closes_cases hrows
  obtain ⟨df', hdf', hcloses'⟩ := closes_cases hrows'
  rw [h.firstDate_eq (views_ne_nil hheld)] at hdf'
  rw [hcloses, hcloses']
  exact h.closes _ _ _ _ hdf hdf'

section Values
variable (h : Later call call') (hok : call.result = .ok equity) (hok' : call'.result = .ok equity')
include h hok hok'

theorem Later.closes_of_held (hcode : code ∈ heldCodes call.views) :
    call.closes code = (call'.closes code).filter fun e => e.1 ≤ timestamp call.asOfDate := by
  obtain ⟨hheld, hfetched⟩ := of_result_ok hok
  obtain ⟨-, hfetched'⟩ := of_result_ok hok'
  exact h.closes_eq hheld (hfetched code hcode) (hfetched' code (h.mem_heldCodes hcode))

/-- A day that the earlier call covers is covered by the later one. -/
theorem Later.covered (ht : call.Covered t) : call'.Covered t := by
  obtain ⟨⟨code, hcode, hindex⟩, ⟨view, hview, hle⟩, hstop⟩ := ht
  refine ⟨⟨code, h.mem_heldCodes hcode, ?_⟩, ⟨view, (h.mem_views_iff.mp hview).1, hle⟩,
    hstop.trans (timestamp_le_iff.mpr h.asOfDate)⟩
  rw [h.closes_of_held hok hok' hcode] at hindex
  exact (List.filter_sublist.map Prod.fst).mem hindex

/-- On a day of the earlier call both value the same snapshot. -/
theorem Later.snapshotAt_eq (ht : call.Covered t) :
    snapshotAt call'.views t = snapshotAt call.views t := by
  obtain ⟨hheld', hfetched'⟩ := of_result_ok hok'
  have hdates : (call'.views.map SnapshotView.tradingDate).Nodup := by
    have hassembled := hok'
    rw [result_eq hheld' hfetched'] at hassembled
    exact (of_assembleEquity_ok hassembled).2.2
  obtain ⟨view, hview, hmem, hle, hmax⟩ := snapshotAt_spec ht.2.1
  obtain ⟨view', hview', hmem', hle', hmax'⟩ := snapshotAt_spec (h.covered hok hok' ht).2.1
  have hold : view' ∈ call.views := h.mem_views_iff.mpr ⟨hmem', hle'.trans ht.2.2⟩
  have hin : view ∈ call'.views := (h.mem_views_iff.mp hmem).1
  have hsame : view'.tradingDate = view.tradingDate :=
    le_antisymm (hmax view' hold hle') (hmax' view hin hle)
  obtain rfl := List.inj_on_of_nodup_map hdates hmem' hin hsame
  rw [hview, hview']

/-- The last close up to a day of the earlier call is the same for both. -/
theorem Later.close_eq (ht : call.Covered t) (hcode : code ∈ heldCodes call.views) :
    call'.closeTable.filled.close t code = call.closeTable.filled.close t code := by
  have hlast := isLast_closes hcode ht
  have hlast' := isLast_closes (h.mem_heldCodes hcode) (h.covered hok hok' ht)
  rw [h.closes_of_held hok hok' hcode] at hlast
  exact hlast'.unique ((pairwise_closes code).imp ne_of_lt) (hlast.of_filter ht.2.2)

/-- The net asset value of a day of the earlier call is the same for both. -/
theorem Later.nav_eq (ht : call.Covered t) {view : SnapshotView} (hview : view ∈ call.views) :
    nav call'.closeTable.filled.zeroed view t = nav call.closeTable.filled.zeroed view t := by
  have hheld : ∀ code ∈ view.holdings.keys, code ∈ heldCodes call.views :=
    fun code hkey => EquityCall.mem_heldCodes.mpr ⟨view, hview, hkey⟩
  have hsum := sum_columns call.closeTable.distinct
    (fun code hkey => columns_closeTable.mpr (hheld code hkey))
    fun code => (call.closeTable.filled.close t code).getD 0
  have hsum' := sum_columns call'.closeTable.distinct
    (fun code hkey => columns_closeTable.mpr (h.mem_heldCodes (hheld code hkey)))
    fun code => (call'.closeTable.filled.close t code).getD 0
  simp only [nav, CloseTable.zeroed_columns, CloseTable.filled_columns, CloseTable.zeroed_close,
    hsum, hsum']
  congr 2
  refine List.map_congr_left fun e he => ?_
  have hkey : e.1 ∈ view.holdings.keys := List.mem_map_of_mem he
  rw [h.close_eq hok hok' ht (hheld e.1 hkey)]

/-- The later equity holds every point of the earlier one. -/
theorem Later.equity_subset : equity ⊆ equity' := by
  intro p hp
  obtain ⟨hdays, -, -, hvalues⟩ := of_result hok
  obtain ⟨hdays', -, -, hvalues'⟩ := of_result hok'
  have ht : call.Covered p.1 := (hdays p.1).mp (List.mem_map_of_mem hp)
  have hin : p.1 ∈ equity'.map Prod.fst := (hdays' p.1).mpr (h.covered hok hok' ht)
  obtain ⟨p', hp', hdate⟩ := List.mem_map.mp hin
  obtain ⟨view, hview, hvalue⟩ := hvalues p hp
  obtain ⟨view', hview', hvalue'⟩ := hvalues' p' hp'
  rw [hdate, h.snapshotAt_eq hok hok' ht, hview] at hview'
  obtain rfl := Option.some.inj hview'
  obtain ⟨view₀, hview₀, hmem, -⟩ := snapshotAt_spec ht.2.1
  rw [hview] at hview₀
  obtain rfl := Option.some.inj hview₀
  have hsame : p' = p := by
    refine Prod.ext hdate ?_
    rw [hvalue, hvalue', hdate]
    exact h.nav_eq hok hok' ht hmem
  exact hsame ▸ hp'

/-- The points of the earlier equity are points of the later one, in order. -/
theorem Later.equity_sublist : equity.Sublist equity' := by
  obtain ⟨-, hasc, -, -⟩ := of_result hok
  obtain ⟨-, hasc', -, -⟩ := of_result hok'
  rw [List.pairwise_map] at hasc hasc'
  have hnodup : equity.Nodup := hasc.imp fun hlt heq => absurd (congrArg Prod.fst heq) hlt.ne
  have : Std.Antisymm fun a b : Instant × ℚ => a.1 < b.1 :=
    ⟨fun a b hab hba => absurd hab hba.asymm⟩
  exact List.sublist_of_subperm_of_pairwise
    (List.subperm_of_subset hnodup (h.equity_subset hok hok')) hasc hasc'

end Values

end EquityCall

/-- With more points the maximum drawdown is at least what it was. -/
theorem mddPct_mono {a b : EquitySeries ℚ} (h : a.points.Sublist b.points) :
    mddPct a ≤ mddPct b := by
  obtain ⟨loss, ⟨i, j, v, w, hij, hv, hw, rfl⟩, hmdd⟩ := (isGreatest_mddPct a).1
  have hvalues : a.values.Sublist b.values := h.map Prod.snd
  obtain ⟨f, hf⟩ := List.sublist_iff_exists_orderEmbedding_getElem?_eq.mp hvalues
  have hle : f i ≤ f j := f.monotone hij
  have hbound := (isGreatest_mddPct b).2
    ⟨_, ⟨f i, f j, v, w, hle, (hf i).symm.trans hv, (hf j).symm.trans hw, rfl⟩, rfl⟩
  rw [← hmdd]
  exact hbound

namespace PerformanceService

end PerformanceService

end Autotrading
