import Autotrading.ExactColumns
import Autotrading.LiveScan

/-!
# The live scan and the scan of a backtest

`scan` behind its first stage and `scan_from_data` choose the same codes, where the provider and the
preloaded data have the same last rows of each code and no number of days is negative.
-/
namespace Autotrading

namespace Column

variable {α : Type} {xs ys : List α} {k j : ℕ}

/-- The last `k` rows are the same; where there are fewer, all are. -/
def SameTail (k : ℕ) (xs ys : List α) : Prop :=
  ∃ before before' tail, xs = before ++ tail ∧ ys = before' ++ tail ∧
    (xs = ys ∨ k ≤ tail.length)

theorem sameTail_of_tail_eq (h : tail (k : ℤ) xs = tail (k : ℤ) ys) : SameTail k xs ys := by
  simp only [tail, Int.natCast_nonneg, if_true, Int.toNat_natCast] at h
  refine ⟨xs.take (xs.length - k), ys.take (ys.length - k), xs.drop (xs.length - k),
    (List.take_append_drop _ _).symm, ?_, ?_⟩
  · rw [h, List.take_append_drop]
  · by_cases hshort : xs.length < k
    · have hlength := congrArg List.length h
      rw [List.length_drop, List.length_drop] at hlength
      have hall : xs.length - k = 0 := by omega
      have hall' : ys.length - k = 0 := by omega
      rw [hall, hall'] at h
      exact .inl h
    · refine .inr ?_
      rw [List.length_drop]
      omega

theorem SameTail.length_lt_iff (h : SameTail k xs ys) (hj : j ≤ k) :
    xs.length < j ↔ ys.length < j := by
  obtain ⟨before, before', tail, hxs, hys, rfl | hlong⟩ := h
  · rfl
  · have hx : tail.length ≤ xs.length := by simp [hxs]
    have hy : tail.length ≤ ys.length := by simp [hys]
    omega

/-- Whether there are too few rows to look back `j` of them. -/
theorem SameTail.short_iff (h : SameTail k xs ys) (hj : j < k) :
    (xs.length : ℤ) < j + 1 ↔ (ys.length : ℤ) < j + 1 := by
  have hlength := h.length_lt_iff (Nat.succ_le_of_lt hj)
  omega

/-- A row counted from the end. -/
theorem iloc_append {before tail : List α} (h : j < tail.length) :
    iloc (before ++ tail) (-((j : ℤ) + 1)) = iloc tail (-((j : ℤ) + 1)) := by
  have hneg : -((j : ℤ) + 1) < 0 := by omega
  have hpos : ∀ zs : List α, tail.length ≤ zs.length →
      ¬ (-((j : ℤ) + 1) + zs.length < 0) ∧
        (-((j : ℤ) + 1) + zs.length).toNat = zs.length - (j + 1) := by
    intro zs hlength
    constructor <;> omega
  have hlength : tail.length ≤ (before ++ tail).length := by simp
  obtain ⟨hin, hplace⟩ := hpos (before ++ tail) hlength
  obtain ⟨hin', hplace'⟩ := hpos tail le_rfl
  have hsame : (before ++ tail)[(before ++ tail).length - (j + 1)]? =
      tail[tail.length - (j + 1)]? := by
    rw [List.length_append, List.getElem?_append_right (by omega)]
    congr 1
    omega
  simp only [iloc, hneg, if_true, hin, hin', if_false, hplace, hplace', hsame]

/-- The rows before the last, counted from the end. -/
theorem ilocSlice_append {before tail : List α} (h : j < tail.length) :
    ilocSlice (before ++ tail) (-((j : ℤ) + 1)) (some (-1)) =
      ilocSlice tail (-((j : ℤ) + 1)) (some (-1)) := by
  have hbound : ∀ (n i : ℕ), i < n → bound n (-((i : ℤ) + 1)) = n - (i + 1) := by
    intro n i hi
    rw [bound, if_pos (by omega)]
    omega
  have hlast : ∀ n : ℕ, 0 < n → bound n (-1) = n - 1 := by
    intro n hn
    simpa using hbound n 0 hn
  have hlength : (before ++ tail).length = before.length + tail.length := List.length_append
  have hdrop : (before ++ tail).drop (before.length + tail.length - (j + 1)) =
      tail.drop (tail.length - (j + 1)) := by
    rw [List.drop_append, List.drop_of_length_le (by omega), List.nil_append]
    congr 1
    omega
  simp only [ilocSlice, Option.map_some, Option.getD_some, hlength, hbound _ _ h,
    hbound (before.length + tail.length) j (by omega),
    hlast (before.length + tail.length) (by omega), hlast tail.length (by omega), hdrop]
  congr 1
  omega

theorem exists_iloc (h : j < xs.length) : ∃ x, iloc xs (-((j : ℤ) + 1)) = .ok x := by
  have hneg : -((j : ℤ) + 1) < 0 := by omega
  have hin : ¬ (-((j : ℤ) + 1) + xs.length < 0) := by omega
  have hplace : (-((j : ℤ) + 1) + xs.length).toNat < xs.length := by omega
  refine ⟨xs[(-((j : ℤ) + 1) + xs.length).toNat], ?_⟩
  simp only [iloc, hneg, if_true, hin, if_false, List.getElem?_eq_getElem hplace]

theorem exists_iloc_last (h : 0 < xs.length) : ∃ x, iloc xs (-1) = .ok x :=
  exists_iloc h

theorem SameTail.iloc_eq (h : SameTail k xs ys) (hj : j < k) :
    iloc xs (-((j : ℤ) + 1)) = iloc ys (-((j : ℤ) + 1)) := by
  obtain ⟨before, before', tail, hxs, hys, rfl | hlong⟩ := h
  · rfl
  · rw [hxs, hys, iloc_append (by omega), iloc_append (by omega)]

theorem SameTail.iloc_last (h : SameTail k xs ys) (hk : 0 < k) : iloc xs (-1) = iloc ys (-1) :=
  h.iloc_eq hk

theorem SameTail.ilocSlice_eq (h : SameTail k xs ys) (hj : j < k) :
    ilocSlice xs (-((j : ℤ) + 1)) (some (-1)) = ilocSlice ys (-((j : ℤ) + 1)) (some (-1)) := by
  obtain ⟨before, before', tail, hxs, hys, rfl | hlong⟩ := h
  · rfl
  · rw [hxs, hys, ilocSlice_append (by omega), ilocSlice_append (by omega)]

theorem SameTail.map {β : Type} (f : α → β) (h : SameTail k xs ys) :
    SameTail k (xs.map f) (ys.map f) := by
  obtain ⟨before, before', tail, hxs, hys, hall⟩ := h
  refine ⟨before.map f, before'.map f, tail.map f, by rw [hxs, List.map_append],
    by rw [hys, List.map_append], ?_⟩
  obtain heq | hlong := hall
  · exact .inl (by rw [heq])
  · exact .inr (by simpa using hlong)

end Column

namespace ReversalVolumeStrategy

/-- The provider and the preloaded data know the same of a code: where the request raises there are
no data, otherwise the last `max(reversal_days, volume_avg_days) + 1` rows are the same. -/
def SameHistory {ν : Type} (s : ReversalVolumeStrategy ν) (p : LiveProvider ν) (data : PriceData ν)
    (scanDate : Instant) (startDate endDate : ℤ) (code : String) : Prop :=
  match p.getOhlcv code startDate endDate with
  | .error _ => data.get? code = none
  | .ok live => ∃ history, data.history? code scanDate = some history ∧
      Column.tail (max s.reversalDays s.volumeAvgDays + 1) live =
        Column.tail (max s.reversalDays s.volumeAvgDays + 1) history

section Agreement
variable {ν : Type} {s : ReversalVolumeStrategy ν} {p : LiveProvider ν} {data : PriceData ν}
  {scanDate : Instant} {startDate endDate : ℤ} {code : String}

theorem SameHistory.get?_eq_none {text : String}
    (h : s.SameHistory p data scanDate startDate endDate code)
    (hanswer : p.getOhlcv code startDate endDate = .error text) :
    data.history? code scanDate = none := by
  rw [SameHistory, hanswer] at h
  unfold PriceData.history?
  rw [h, Option.map_none]

/-- The frame of the provider ends like the history, as far back as the stages look. -/
theorem SameHistory.sameTail {live : List (OhlcvRow ν)} (hr : 0 ≤ s.reversalDays)
    (h : s.SameHistory p data scanDate startDate endDate code)
    (hanswer : p.getOhlcv code startDate endDate = .ok live) :
    ∃ history, data.history? code scanDate = some history ∧
      Column.SameTail (max s.reversalDays s.volumeAvgDays + 1).toNat live history := by
  rw [SameHistory, hanswer] at h
  obtain ⟨history, hhistory, htail⟩ := h
  obtain ⟨days, hdays⟩ := Int.eq_ofNat_of_zero_le
    (show 0 ≤ max s.reversalDays s.volumeAvgDays + 1 by omega)
  rw [hdays] at htail ⊢
  exact ⟨history, hhistory, Column.sameTail_of_tail_eq htail⟩

/-- The second stage computes the same return. -/
theorem reversalReturn_eq [Column ν] (hr : 0 ≤ s.reversalDays)
    (h : s.SameHistory p data scanDate startDate endDate code) :
    s.reversalReturn scanDate data code = .ok (s.liveReturn p startDate endDate code) := by
  unfold reversalReturn liveReturn
  cases hanswer : p.getOhlcv code startDate endDate with
  | error text =>
    rw [h.get?_eq_none hanswer]
    rfl
  | ok live =>
    obtain ⟨r, hreversal⟩ := Int.eq_ofNat_of_zero_le hr
    obtain ⟨history, hhistory, htail⟩ := h.sameTail hr hanswer
    have hback : r < (max s.reversalDays s.volumeAvgDays + 1).toNat := by omega
    simp only [hhistory, hreversal, htail.short_iff hback]
    by_cases hlength : (history.length : ℤ) < r + 1
    · simp only [hlength, if_true]
      rfl
    · obtain ⟨last, hlast⟩ := Column.exists_iloc_last (show 0 < history.length by omega)
      obtain ⟨before, hbefore⟩ := Column.exists_iloc (show r < history.length by omega)
      simp only [hlength, if_false, htail.iloc_last (by omega), htail.iloc_eq hback, hlast,
        hbefore]
      rfl

/-- The third stage computes the same ratio. -/
theorem volumeRatio_eq [Column ν] (hr : 0 ≤ s.reversalDays) (hv : 0 ≤ s.volumeAvgDays)
    (h : s.SameHistory p data scanDate startDate endDate code) :
    s.volumeRatio scanDate data code = .ok (s.liveRatio p startDate endDate code) := by
  unfold volumeRatio liveRatio
  cases hanswer : p.getOhlcv code startDate endDate with
  | error text =>
    rw [h.get?_eq_none hanswer]
    rfl
  | ok live =>
    obtain ⟨v, hvolume⟩ := Int.eq_ofNat_of_zero_le hv
    obtain ⟨history, hhistory, htail⟩ := h.sameTail hr hanswer
    have hback : v < (max s.reversalDays s.volumeAvgDays + 1).toNat := by omega
    simp only [hhistory, hvolume, htail.short_iff hback]
    by_cases hlength : (history.length : ℤ) < v + 1
    · simp only [hlength, if_true]
      rfl
    · obtain ⟨last, hlast⟩ := Column.exists_iloc_last (show 0 < history.length by omega)
      simp only [hlength, if_false, htail.iloc_last (by omega),
        (htail.map (·.volume)).ilocSlice_eq hback, hlast]
      rfl

end Agreement

/-! ## The stages -/

section Scan
variable {ν : Type} [Column ν] {s : ReversalVolumeStrategy ν} {p : LiveProvider ν}
  {data : PriceData ν} {dfUniverse : List UniverseRow} {scanDate : Instant}
  {startDate endDate share : ℤ}

/-- Sorting brings no row in. -/
theorem mem_of_mem_sortValues {α : Type} {key : α → ν} {rows : List α} {row : α}
    (h : row ∈ Column.sortValues key rows) : row ∈ rows := by
  obtain ⟨i, -, hi⟩ := List.mem_filterMap.mp h
  exact List.mem_of_getElem? hi

theorem mem_of_mem_mostFallen {row : UniverseRow × ν}
    (h : row ∈ s.mostFallen p dfUniverse startDate endDate share) : row.1 ∈ dfUniverse := by
  have hfallen := mem_of_mem_sortValues (List.mem_of_mem_take h)
  obtain ⟨row', hrow', hret⟩ := List.mem_filterMap.mp (List.mem_filter.mp hfallen).1
  obtain ⟨ret, -, rfl⟩ := Option.map_eq_some_iff.mp hret
  exact hrow'

/-- The scan of a backtest with what the live scan computes of each code. -/
theorem scanFromData_eq (hr : 0 ≤ s.reversalDays) (hv : 0 ≤ s.volumeAvgDays)
    (hsame : ∀ row ∈ dfUniverse, s.SameHistory p data scanDate startDate endDate row.code)
    (hshare : Column.toInt ((((s.fallers p dfUniverse startDate endDate).length : ℤ) : ν) *
      s.reversalPct) = .ok share) :
    s.scanFromData scanDate dfUniverse data = .ok
      (if (s.fallers p dfUniverse startDate endDate).isEmpty then []
      else if (s.spikes p (s.mostFallen p dfUniverse startDate endDate share) startDate
          endDate).isEmpty
        then []
        else Column.sortValues (·.returnPct) (s.applyRiskCut
          (s.spikes p (s.mostFallen p dfUniverse startDate endDate share) startDate endDate))) := by
  have hreturns : (dfUniverse.mapM fun row => do
      let ret ← s.reversalReturn scanDate data row.code
      pure (ret.map fun ret => (row, ret))) =
        .ok (dfUniverse.map fun row =>
          (s.liveReturn p startDate endDate row.code).map fun ret => (row, ret)) := by
    refine mapM_eq_ok fun row hrow => ?_
    rw [reversalReturn_eq hr (hsame row hrow)]
    rfl
  have hratios : ((s.mostFallen p dfUniverse startDate endDate share).mapM fun row => do
      let ratio ← s.volumeRatio scanDate data row.1.code
      pure (ratio.map fun ratio => (⟨row.1.code, row.1.name, row.2, ratio⟩ : Candidate ν))) =
        .ok ((s.mostFallen p dfUniverse startDate endDate share).map fun row =>
          (s.liveRatio p startDate endDate row.1.code).map fun ratio =>
            (⟨row.1.code, row.1.name, row.2, ratio⟩ : Candidate ν)) := by
    refine mapM_eq_ok fun row hrow => ?_
    rw [volumeRatio_eq hr hv (hsame row.1 (mem_of_mem_mostFallen hrow))]
    rfl
  have hfallers : ((dfUniverse.map fun row =>
      (s.liveReturn p startDate endDate row.code).map fun ret => (row, ret)).filterMap id).filter
        (fun row => decide (row.2 < 0)) = s.fallers p dfUniverse startDate endDate := by
    rw [List.filterMap_map]
    rfl
  have hspikes : (((s.mostFallen p dfUniverse startDate endDate share).map fun row =>
      (s.liveRatio p startDate endDate row.1.code).map fun ratio =>
        (⟨row.1.code, row.1.name, row.2, ratio⟩ : Candidate ν)).filterMap id).filter
        (fun row => decide (s.volumeSpikeRatio ≤ row.volumeRatio)) =
      s.spikes p (s.mostFallen p dfUniverse startDate endDate share) startDate endDate := by
    rw [List.filterMap_map]
    rfl
  unfold scanFromData
  rw [hreturns]
  show (if (List.filter _ (List.filterMap id _)).isEmpty then _ else _) = _
  rw [hfallers]
  by_cases hnone : (s.fallers p dfUniverse startDate endDate).isEmpty = true
  · rw [if_pos hnone, if_pos hnone]
    rfl
  · rw [if_neg hnone, if_neg hnone, hshare]
    show Except.bind ((s.mostFallen p dfUniverse startDate endDate share).mapM _) _ = _
    rw [hratios]
    show (if (List.filter _ (List.filterMap id _)).isEmpty then _ else _) = _
    rw [hspikes]
    split_ifs
    · rfl
    · rfl

/-- The two scans agree where a share of the rows is a number. -/
theorem scanUniverse_agrees (hr : 0 ≤ s.reversalDays) (hv : 0 ≤ s.volumeAvgDays)
    (hsame : ∀ row ∈ dfUniverse, s.SameHistory p data scanDate startDate endDate row.code)
    (hshare : ∀ rows : ℕ, ∃ share, Column.toInt (((rows : ℤ) : ν) * s.reversalPct) = .ok share) :
    ∃ frame, s.scanUniverse p dfUniverse startDate endDate = .ok frame ∧
      s.scanFromData scanDate dfUniverse data = .ok (frame.getD []) := by
  obtain ⟨share, hshare⟩ := hshare (s.fallers p dfUniverse startDate endDate).length
  have hbacktest := scanFromData_eq hr hv hsame hshare
  by_cases hreturned : s.returned p dfUniverse startDate endDate = []
  · refine ⟨none, scanUniverse_of_none hreturned, ?_⟩
    have hfallers : s.fallers p dfUniverse startDate endDate = [] := by
      rw [fallers, hreturned]
      rfl
    rw [hbacktest, hfallers]
    rfl
  · refine ⟨_, scanUniverse_of_share hreturned hshare, ?_⟩
    rw [hbacktest]
    by_cases hfallers : s.fallers p dfUniverse startDate endDate = []
    · have hnone : s.mostFallen p dfUniverse startDate endDate share = [] := by
        rw [List.eq_nil_iff_forall_not_mem]
        intro row hrow
        have hmem := mem_of_mem_sortValues (List.mem_of_mem_take hrow)
        rw [hfallers] at hmem
        cases hmem
      rw [hfallers, hnone]
      rfl
    · rw [if_neg (by simpa using hfallers)]
      split_ifs
      · rfl
      · rfl

end Scan

/-- The live scan and the scan of a backtest choose the same codes, with the same returns and ratios
and in the same order. -/
theorem scan_agrees [SortOrder] (s : ReversalVolumeStrategy ℚ) (p : LiveProvider ℚ)
    (data : PriceData ℚ) (dfUniverse : List UniverseRow) (scanDate : Instant)
    (startDate endDate : ℤ)
    (hr : 0 ≤ s.reversalDays) (hv : 0 ≤ s.volumeAvgDays)
    (hsame : ∀ row ∈ dfUniverse, s.SameHistory p data scanDate startDate endDate row.code) :
    ∃ frame, s.scanUniverse p dfUniverse startDate endDate = .ok frame ∧
      s.scanFromData scanDate dfUniverse data = .ok (frame.getD []) :=
  scanUniverse_agrees hr hv hsame fun _ => ⟨_, rfl⟩

/-! ## Two days of a stock, and the day before them -/

section Samples
open scoped SortOrder

/-- A bar of day `day`. -/
def barOf (day : ℤ) (close volume : ℚ) : OhlcvRow ℚ :=
  ⟨day * 86400000000, close, close, close, close, volume, 0⟩

/-- The provider shows days 1 and 2. -/
def twoDays : LiveProvider ℚ where
  stockList := []
  getOhlcv code _ _ :=
    if code = "005930" then .ok [barOf 1 100 10, barOf 2 90 30] else .error "not found"

/-- The preloaded data have day 0 as well. -/
def threeDays : PriceData ℚ :=
  ⟨[("005930", ⟨[barOf 0 50 10, barOf 1 100 10, barOf 2 90 30], by simp [barOf]⟩)], by decide⟩

def twoCodes : List UniverseRow := [⟨"005930", none⟩, ⟨"000660", none⟩]

/-- A strategy that looks back `reversalDays`. -/
def spikeStrategy (reversalDays : ℤ) : ReversalVolumeStrategy ℚ where
  reversalDays := reversalDays
  reversalPct := 1 / 2
  volumeAvgDays := 1
  volumeSpikeRatio := 2
  maxDrawdownPct := -1 / 2
  takeProfitPct := 1 / 10
  stopLossPct := -1 / 10
  maxHoldingDays := 5
  maxPositions := 5
  marketFilterEnabled := false
  marketMaDays := 20
  cooldownDays := 5

theorem sameHistory_spikeStrategy {reversalDays : ℤ} (h : max reversalDays 1 + 1 = 2) :
    ∀ row ∈ twoCodes,
      (spikeStrategy reversalDays).SameHistory twoDays threeDays 172800000000 1 2 row.code := by
  have hfirst :
      (spikeStrategy reversalDays).SameHistory twoDays threeDays 172800000000 1 2 "005930" := by
    refine ⟨[barOf 0 50 10, barOf 1 100 10, barOf 2 90 30], by decide +kernel, ?_⟩
    show Column.tail (max reversalDays 1 + 1) _ = Column.tail (max reversalDays 1 + 1) _
    rw [h]
    rfl
  have hsecond :
      (spikeStrategy reversalDays).SameHistory twoDays threeDays 172800000000 1 2 "000660" := rfl
  simpa [twoCodes] using And.intro hfirst hsecond

/-- Looking back a day, the two scans agree. -/
theorem scan_agrees_sample :
    ∃ frame, (spikeStrategy 1).scanUniverse twoDays twoCodes 1 2 = .ok frame ∧
      (spikeStrategy 1).scanFromData 172800000000 twoCodes threeDays = .ok (frame.getD []) :=
  scan_agrees (spikeStrategy 1) twoDays threeDays twoCodes 172800000000 1 2 (by decide) (by decide)
    (sameHistory_spikeStrategy (by decide))

/-- With `reversal_days` of -1 a return is counted from the first row of a frame. Then the two scans
differ, although the frames end on the day and have positive closes. -/
theorem negativeDays_differ :
    (∀ row ∈ twoCodes,
      (spikeStrategy (-1)).SameHistory twoDays threeDays 172800000000 1 2 row.code) ∧
      threeDays.PositiveCloses ∧
      ∃ frame, (spikeStrategy (-1)).scanUniverse twoDays twoCodes 1 2 = .ok (some frame) ∧
        frame.map (·.code) = ["005930"] ∧
        (spikeStrategy (-1)).scanFromData 172800000000 twoCodes threeDays = .ok [] := by
  refine ⟨sameHistory_spikeStrategy (by decide), by decide +kernel,
    [⟨"005930", none, -1 / 10, 3⟩], by decide +kernel, rfl, by decide +kernel⟩

end Samples

end ReversalVolumeStrategy

end Autotrading
