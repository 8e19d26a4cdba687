import Autotrading.ScanAgreement

/-!
# What a live scan proposes

`execute` of `app/strategy/strategies/reversal_volume_strategy.py` reads the codes of the frame that
`scan` returns, whatever the frame is.
-/
namespace Autotrading

/-- Sorting a column puts each of its rows somewhere. -/
def Column.SortsRows (ν : Type) [Column ν] : Prop :=
  ∀ xs : List ν, (Column.argsort xs).Perm (List.range xs.length)

theorem Column.SortsRows.perm {ν α : Type} [Column ν] (h : Column.SortsRows ν) (key : α → ν)
    (rows : List α) : (Column.sortValues key rows).Perm rows := by
  have hperm := (h (rows.map key)).filterMap (rows[·]?)
  rw [List.length_map, Column.filterMap_getElem?_range] at hperm
  exact hperm

namespace LiveReversalVolume

open ReversalVolumeStrategy (mem_of_mem_sortValues)

section Execution
variable {ν : Type} [Column ν]

/-- `execute` returns buys of codes that are not held, none twice, as many as there are slots. -/
def Proposes (s : LiveReversalVolume ν) (p : LiveProvider ν) (now : ℤ) (scanDate : Option ℤ)
    (currentPositions : List String) : Prop :=
  ∃ result, s.execute p now scanDate currentPositions = .ok result ∧
    (result.orders.length : ℤ) ≤ max (s.maxPositions - currentPositions.length) 0 ∧
    (∀ order ∈ result.orders, order.side = .buy ∧ order.stockCode ∉ currentPositions) ∧
    (result.orders.map (·.stockCode)).Nodup

/-- Of the codes of the universe that fell, one of those that fell most has a spike in volume. -/
def FindsSpike (s : LiveReversalVolume ν) (p : LiveProvider ν) (now : ℤ) (scanDate : Option ℤ) :
    Prop :=
  let endDate := scanDate.getD now
  let startDate := s.scanStart endDate
  let dfUniverse := s.filterLiquidity p startDate endDate
  ∃ share, Column.toInt ((((s.fallers p dfUniverse startDate endDate).length : ℤ) : ν) *
      s.reversalPct) = .ok share ∧
    ∃ row ∈ s.mostFallen p dfUniverse startDate endDate share, ∃ ratio,
      s.liveRatio p startDate endDate row.1.code = some ratio ∧ s.volumeSpikeRatio ≤ ratio

variable {s : LiveReversalVolume ν} {p : LiveProvider ν} {now : ℤ} {scanDate : Option ℤ}
  {currentPositions : List String} {startDate endDate share : ℤ}

theorem spikes_ne_nil {df : List (UniverseRow × ν)} : s.spikes p df startDate endDate ≠ [] ↔
    ∃ row ∈ df, ∃ ratio, s.liveRatio p startDate endDate row.1.code = some ratio ∧
      s.volumeSpikeRatio ≤ ratio := by
  unfold ReversalVolumeStrategy.spikes
  constructor
  · intro hne
    obtain ⟨candidate, hcandidate⟩ := List.exists_mem_of_ne_nil _ hne
    rw [List.mem_filter, decide_eq_true_iff, List.mem_filterMap] at hcandidate
    obtain ⟨⟨row, hrow, hratio⟩, hspike⟩ := hcandidate
    obtain ⟨ratio, hsome, rfl⟩ := Option.map_eq_some_iff.mp hratio
    exact ⟨row, hrow, ratio, hsome, hspike⟩
  · rintro ⟨row, hrow, ratio, hsome, hspike⟩
    refine List.ne_nil_of_mem (a := ⟨row.1.code, row.1.name, row.2, ratio⟩) ?_
    rw [List.mem_filter, decide_eq_true_iff, List.mem_filterMap]
    exact ⟨⟨row, hrow, by rw [hsome]; rfl⟩, hspike⟩

/-! ## No code twice -/

/-- Rows that are left out take their codes with them. -/
theorem sublist_filterMap {α β γ : Type} {f : α → Option γ} {mk : α → γ → β} {g : β → String}
    {k : α → String} (xs : List α) (h : ∀ x y, g (mk x y) = k x) :
    ((xs.filterMap fun x => (f x).map (mk x)).map g).Sublist (xs.map k) := by
  induction xs with
  | nil => exact .slnil
  | cons x xs ih =>
    cases hx : f x with
    | none =>
      rw [List.filterMap_cons_none (by rw [hx]; rfl)]
      exact ih.cons _
    | some y =>
      rw [List.filterMap_cons_some (by rw [hx]; rfl), List.map_cons, List.map_cons, h x y]
      exact ih.cons_cons _

theorem nodup_filterLiquidity (hsort : Column.SortsRows ν)
    (hcodes : (p.stockList.map (·.code)).Nodup) :
    ((s.filterLiquidity p startDate endDate).map (·.code)).Nodup := by
  unfold filterLiquidity
  dsimp only
  generalize hlist : (((((p.stockList.filter _).filter _).filter _).filter _).filter _).filter _ =
    dfList
  have hstocks : dfList.Sublist p.stockList := by
    rw [← hlist]
    exact List.filter_sublist.trans <| List.filter_sublist.trans <| List.filter_sublist.trans <|
      List.filter_sublist.trans <| List.filter_sublist.trans List.filter_sublist
  have hamounts : ((dfList.filterMap fun row =>
      (s.avgAmount p startDate endDate row.code).map fun amount => (row, amount)).map
        (·.1.code)).Sublist (dfList.map (·.code)) := sublist_filterMap dfList (by simp)
  have hall := hcodes.sublist (hamounts.trans (hstocks.map _))
  rw [List.map_map]
  refine List.Nodup.sublist ((Column.head_sublist _ _).map _) ?_
  exact ((hsort.perm _ _).map _).nodup_iff.mpr hall

theorem nodup_mostFallen (hsort : Column.SortsRows ν) {dfUniverse : List UniverseRow}
    (hcodes : (dfUniverse.map (·.code)).Nodup) :
    ((s.mostFallen p dfUniverse startDate endDate share).map (·.1.code)).Nodup := by
  have hreturned : ((dfUniverse.filterMap fun row =>
      (s.liveReturn p startDate endDate row.code).map fun ret => (row, ret)).map
        (·.1.code)).Sublist (dfUniverse.map (·.code)) :=
    sublist_filterMap dfUniverse (by simp)
  have hfallers : ((s.fallers p dfUniverse startDate endDate).map (·.1.code)).Nodup :=
    hcodes.sublist ((List.filter_sublist.map _).trans hreturned)
  have hsorted := ((hsort.perm (fun row : UniverseRow × ν => row.2)
    (s.fallers p dfUniverse startDate endDate)).map fun row => row.1.code).nodup_iff.mpr hfallers
  exact hsorted.sublist ((List.take_sublist _ _).map _)

theorem nodup_spikes {df : List (UniverseRow × ν)} (hcodes : (df.map (·.1.code)).Nodup) :
    ((s.spikes p df startDate endDate).map (·.code)).Nodup := by
  have hratios : ((df.filterMap fun row =>
      (s.liveRatio p startDate endDate row.1.code).map fun ratio =>
        (⟨row.1.code, row.1.name, row.2, ratio⟩ : Candidate ν)).map (·.code)).Sublist
          (df.map (·.1.code)) := sublist_filterMap df (by simp)
  exact hcodes.sublist ((List.filter_sublist.map _).trans hratios)

/-- A frame with columns is enough. -/
theorem proposes_of_scan {rows : List (Candidate ν)}
    (hscan : s.scan p now scanDate = .ok (some rows))
    (hcodes : (rows.map (·.code)).Nodup) : s.Proposes p now scanDate currentPositions := by
  have hfree := List.filter_sublist (p := fun row : Candidate ν => row.code ∉ currentPositions)
    (l := rows)
  generalize hslots : s.maxPositions - (currentPositions.length : ℤ) = slots
  generalize hchosen : (if slots ≤ 0
    then Column.head 0 (rows.filter fun row => row.code ∉ currentPositions)
    else Column.head slots (rows.filter fun row => row.code ∉ currentPositions)) = chosen
  have hrun : s.execute p now scanDate currentPositions = .ok ⟨"ReversalVolume",
      chosen.map fun row => ⟨row.code, row.name, .buy, row.returnPct, row.volumeRatio⟩,
      scanDate, chosen.length⟩ := by
    rw [execute, hscan, ← hchosen, ← hslots]
    rfl
  have hsublist : chosen.Sublist (rows.filter fun row => row.code ∉ currentPositions) := by
    rw [← hchosen]
    split_ifs
    · exact Column.head_sublist _ _
    · exact Column.head_sublist _ _
  have hlength : (chosen.length : ℤ) ≤ max slots 0 := by
    rw [← hchosen]
    split_ifs with hfull
    · simp [Column.head]
    · have htake := List.length_take_le slots.toNat
        (rows.filter fun row => row.code ∉ currentPositions)
      rw [Column.head, if_pos (by omega)]
      omega
  refine ⟨_, hrun, by rwa [List.length_map, hslots], ?_, ?_⟩
  · intro order horder
    obtain ⟨row, hrow, rfl⟩ := List.mem_map.mp horder
    have hkept := List.mem_filter.mp (hsublist.subset hrow)
    exact ⟨rfl, of_decide_eq_true hkept.2⟩
  · rw [List.map_map]
    exact hcodes.sublist ((hsublist.trans hfree).map _)

/-- A frame without columns is not. -/
theorem execute_of_none (hscan : s.scan p now scanDate = .ok none) :
    s.execute p now scanDate currentPositions = .error (.other "KeyError" "'Code'") := by
  rw [execute, hscan]
  rfl

theorem not_proposes_of_error {e : PyExc}
    (h : s.execute p now scanDate currentPositions = .error e) :
    ¬ s.Proposes p now scanDate currentPositions := by
  rintro ⟨result, hrun, -⟩
  rw [h] at hrun
  cases hrun

/-- What is left behind the third stage has no code twice, nor what the risk cut leaves of it. -/
theorem nodup_scan (hsort : Column.SortsRows ν) {dfUniverse : List UniverseRow}
    (hcodes : (dfUniverse.map (·.code)).Nodup) :
    ((Column.sortValues (·.returnPct) (s.applyRiskCut (s.spikes p
      (s.mostFallen p dfUniverse startDate endDate share) startDate endDate))).map
        (·.code)).Nodup := by
  have hspiked : ((s.spikes p (s.mostFallen p dfUniverse startDate endDate share) startDate
      endDate).map (·.code)).Nodup := nodup_spikes (nodup_mostFallen hsort hcodes)
  exact ((hsort.perm _ _).map _).nodup_iff.mpr (hspiked.sublist (List.filter_sublist.map _))

/-- `execute` returns what it should exactly when a code is left behind the third stage. -/
theorem execute_iff (hsort : Column.SortsRows ν) (s : LiveReversalVolume ν) (p : LiveProvider ν)
    (now : ℤ) (scanDate : Option ℤ) (currentPositions : List String)
    (hcodes : (p.stockList.map (·.code)).Nodup) :
    s.Proposes p now scanDate currentPositions ↔ s.FindsSpike p now scanDate := by
  unfold FindsSpike
  dsimp only
  generalize hend : scanDate.getD now = endDate
  generalize hstart : s.scanStart endDate = startDate
  generalize huniverse : s.filterLiquidity p startDate endDate = dfUniverse
  have hscan : s.scan p now scanDate = s.scanUniverse p dfUniverse startDate endDate := by
    rw [scan, hend, hstart, huniverse]
  have hdistinct : (dfUniverse.map (·.code)).Nodup := by
    rw [← huniverse]
    exact nodup_filterLiquidity hsort hcodes
  by_cases hreturned : s.returned p dfUniverse startDate endDate = []
  · -- no code has a return
    have hnone := ReversalVolumeStrategy.scanUniverse_of_none hreturned
    refine iff_of_false (not_proposes_of_error (execute_of_none (hscan.trans hnone))) ?_
    rintro ⟨share, -, row, hrow, -⟩
    have hmem := (List.mem_filter.mp (mem_of_mem_sortValues (List.mem_of_mem_take hrow))).1
    rw [hreturned] at hmem
    cases hmem
  · cases hshare : Column.toInt ((((s.fallers p dfUniverse startDate endDate).length : ℤ) : ν) *
        s.reversalPct) with
    | error e =>
      have herror := ReversalVolumeStrategy.scanUniverse_error hreturned hshare
      have hraises : s.execute p now scanDate currentPositions = .error e := by
        rw [execute, hscan, herror]
        rfl
      refine iff_of_false (not_proposes_of_error hraises) ?_
      rintro ⟨share, hok, -⟩
      cases hok
    | ok share =>
      have hrun := ReversalVolumeStrategy.scanUniverse_of_share hreturned hshare
      by_cases hspikes :
          s.spikes p (s.mostFallen p dfUniverse startDate endDate share) startDate endDate = []
      · -- no code is left behind the third stage
        rw [hspikes] at hrun
        refine iff_of_false (not_proposes_of_error (execute_of_none (hscan.trans hrun))) ?_
        rintro ⟨share', hok, hspike⟩
        obtain rfl := Except.ok.inj hok
        exact spikes_ne_nil.mpr hspike hspikes
      · rw [if_neg (by simpa using hspikes)] at hrun
        exact iff_of_true (proposes_of_scan (hscan.trans hrun) (nodup_scan hsort hdistinct))
          ⟨share, rfl, spikes_ne_nil.mp hspikes⟩

end Execution

/-! ## A day with a spike and a day without -/

section Samples
open scoped SortOrder

theorem sortsRows_exact : Column.SortsRows ℚ := SortOrder.perm

/-- One stock, which fell in two days and was traded more on the second. -/
def fallingStock (volume : ℚ) : LiveProvider ℚ where
  stockList := [⟨"005930", "A", "KOSPI", 500, 10⟩]
  getOhlcv _ _ _ := .ok
    [ReversalVolumeStrategy.barOf 20090 100 10, ReversalVolumeStrategy.barOf 20091 90 volume]

def spikeScan : LiveReversalVolume ℚ where
  toReversalVolumeStrategy := ReversalVolumeStrategy.spikeStrategy 1
  maxMarcap := 1000
  minMarcap := 100
  avgAmountDays := 2
  topNLiquid := 10

example : spikeScan.FindsSpike (fallingStock 30) 20091 none := by
  refine ⟨0, by decide +kernel, (⟨"005930", some "A"⟩, -1 / 10), ?_, 3, ?_, ?_⟩
  · decide +kernel
  · decide +kernel
  · decide +kernel

/-- With three times the volume the stock is proposed. -/
theorem execute_iff_sample :
    spikeScan.Proposes (fallingStock 30) 20091 none ["000660"] ↔
      spikeScan.FindsSpike (fallingStock 30) 20091 none :=
  execute_iff sortsRows_exact spikeScan (fallingStock 30) 20091 none ["000660"] (by decide)

/-- With the same volume no code is left, and `execute` raises. -/
theorem quietDay_raises : ¬ spikeScan.Proposes (fallingStock 10) 20091 none [] :=
  not_proposes_of_error (execute_of_none (by decide +kernel))

end Samples

end LiveReversalVolume

end Autotrading
