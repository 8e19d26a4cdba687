import Autotrading.KisMessages
import Autotrading.PythonDict
import Autotrading.TimeIndex

/-!
# The equity series

`assemble_equity` of `app/strategy/metrics/adapters.py`, beside the net asset value of a day
by the latest snapshot up to it. Amounts are exact where pandas computes with floats. A row
of quantities is missing as a whole, so the two frames are filled a row at a time.
-/
namespace Autotrading

open TimeIndex (index carry IsLast)

structure SnapshotView where
  tradingDate : ℤ
  cashAmount : ℚ
  holdings : Dict String ℤ

/-- A frame of closes without a missing value: trading days in order, and the codes. -/
structure CloseFrame where
  index : List ℤ
  columns : List String
  close : ℤ → String → ℚ
  ascending : index.Pairwise (· < ·)
  distinct : columns.Nodup

/-- `s.holdings.get(code, 0)`. -/
def SnapshotView.qty (s : SnapshotView) (code : String) : ℤ := (s.holdings.get? code).getD 0

section Assemble
variable (snapshots : List SnapshotView) (closeFrame : CloseFrame) (asOfDate : ℤ)

/-- The snapshots by trading date; equal dates keep their order. -/
def ordered : List SnapshotView :=
  snapshots.mergeSort fun a b => a.tradingDate ≤ b.tradingDate

/-- The labels carried forward, and the `ValueError` of repeated ones. -/
def carryForward {ν : Type} (xs : List (ℤ × Option ν)) (target : List ℤ) :
    Except PyExc (List (ℤ × Option ν)) :=
  match carry xs target with
  | some ys => .ok ys
  | none => .error (.other "ValueError" "cannot reindex on an axis with duplicate labels")

/-- The equity of a day. -/
def equityOf (t : ℤ) (qty : Option (List ℤ)) (cash : Option ℚ) : ℚ :=
  let row := qty.getD (closeFrame.columns.map fun _ => 0)
  (List.zipWith (fun code (q : ℤ) => closeFrame.close t code * q) closeFrame.columns row).sum +
    cash.getD 0

/-- `assemble_equity`. -/
def assembleEquity : Except PyExc (List (ℤ × ℚ)) :=
  match ordered snapshots with
  | [] => .error (.other "ValueError" "스냅샷이 없습니다.")
  | first :: rest =>
    if closeFrame.index.isEmpty ∨ closeFrame.columns.isEmpty then
      .error (.other "ValueError" "종가 데이터가 비어 있습니다.")
    else
      let tradingDays := closeFrame.index.filter fun t => first.tradingDate ≤ t ∧ t ≤ asOfDate
      if tradingDays.isEmpty then .error (.other "ValueError" "해당 기간에 거래일이 없습니다.")
      else do
        let qtyFrame ← carryForward ((first :: rest).map fun s =>
          (s.tradingDate, some (closeFrame.columns.map s.qty))) tradingDays
        let cashSeries ← carryForward ((first :: rest).map fun s =>
          (s.tradingDate, some s.cashAmount)) tradingDays
        pure (List.zipWith (fun qty cash => (qty.1, equityOf closeFrame qty.1 qty.2 cash.2))
          qtyFrame cashSeries)

/-! ## The reference -/

/-- The later of two snapshots, the second one of equal dates. -/
def later (best : Option SnapshotView) (s : SnapshotView) : Option SnapshotView :=
  match best with
  | none => some s
  | some b => if b.tradingDate ≤ s.tradingDate then some s else some b

/-- The latest snapshot dated up to `t`, the last in order of one date. -/
def snapshotAt (t : ℤ) : Option SnapshotView :=
  (snapshots.filter fun s => s.tradingDate ≤ t).foldl later none

/-- The net asset value of a day with the holdings of a snapshot. -/
def nav (s : SnapshotView) (t : ℤ) : ℚ :=
  s.cashAmount + (closeFrame.columns.map fun code => s.qty code * closeFrame.close t code).sum

/-- The trading days from the first snapshot on. -/
def daysCovered : List ℤ :=
  closeFrame.index.filter fun t => (∃ s ∈ snapshots, s.tradingDate ≤ t) ∧ t ≤ asOfDate

/-- With a day to cover there is an equity series, of these days and with the net asset
value of each. -/
def MeetsReference : Prop :=
  daysCovered snapshots closeFrame asOfDate ≠ [] →
    ∃ equity, assembleEquity snapshots closeFrame asOfDate = .ok equity ∧
      equity.map Prod.fst = daysCovered snapshots closeFrame asOfDate ∧
      ∀ e ∈ equity, ∃ s, snapshotAt snapshots e.1 = some s ∧ e.2 = nav closeFrame s e.1

end Assemble

variable {snapshots : List SnapshotView} {closeFrame : CloseFrame} {asOfDate t : ℤ}

theorem foldl_later (xs : List SnapshotView) (b : SnapshotView) :
    ∃ s, xs.foldl later (some b) = some s ∧ s ∈ b :: xs ∧
      ∀ s' ∈ b :: xs, s'.tradingDate ≤ s.tradingDate := by
  induction xs generalizing b with
  | nil => exact ⟨b, rfl, by simp, by simp⟩
  | cons x xs ih =>
    by_cases hle : b.tradingDate ≤ x.tradingDate
    · obtain ⟨s, hs, hmem, hmax⟩ := ih x
      refine ⟨s, by rw [List.foldl_cons, later, if_pos hle, hs], List.mem_cons_of_mem _ hmem, ?_⟩
      intro s' hs'
      obtain rfl | hs' := List.mem_cons.mp hs'
      · exact hle.trans (hmax x List.mem_cons_self)
      · exact hmax s' hs'
    · obtain ⟨s, hs, hmem, hmax⟩ := ih b
      refine ⟨s, by rw [List.foldl_cons, later, if_neg hle, hs], ?_, ?_⟩
      · obtain rfl | hmem := List.mem_cons.mp hmem
        · exact List.mem_cons_self
        · exact List.mem_cons_of_mem _ (List.mem_cons_of_mem _ hmem)
      · intro s' hs'
        have hb := hmax b List.mem_cons_self
        obtain rfl | hs' := List.mem_cons.mp hs'
        · exact hb
        · obtain rfl | hs' := List.mem_cons.mp hs'
          · omega
          · exact hmax s' (List.mem_cons_of_mem _ hs')

/-- The snapshot of a day is one of the latest dated up to it. -/
theorem snapshotAt_spec (h : ∃ s ∈ snapshots, s.tradingDate ≤ t) :
    ∃ s, snapshotAt snapshots t = some s ∧ s ∈ snapshots ∧ s.tradingDate ≤ t ∧
      ∀ s' ∈ snapshots, s'.tradingDate ≤ t → s'.tradingDate ≤ s.tradingDate := by
  obtain ⟨s₀, hs₀, hle₀⟩ := h
  have hmem₀ : s₀ ∈ snapshots.filter fun s => s.tradingDate ≤ t :=
    List.mem_filter.mpr ⟨hs₀, by simpa using hle₀⟩
  cases hfilter : snapshots.filter fun s => s.tradingDate ≤ t with
  | nil => simp [hfilter] at hmem₀
  | cons b xs =>
    obtain ⟨s, hs, hmem, hmax⟩ := foldl_later xs b
    rw [← hfilter] at hmem hmax
    rw [List.mem_filter, decide_eq_true_iff] at hmem
    refine ⟨s, by rw [snapshotAt, hfilter]; exact hs, hmem.1, hmem.2, fun s' hs' hle => ?_⟩
    exact hmax s' (List.mem_filter.mpr ⟨hs', by simpa using hle⟩)

theorem mem_ordered {s : SnapshotView} : s ∈ ordered snapshots ↔ s ∈ snapshots := by
  rw [ordered, List.mem_mergeSort]

theorem nodup_ordered :
    ((ordered snapshots).map SnapshotView.tradingDate).Nodup ↔
      (snapshots.map SnapshotView.tradingDate).Nodup :=
  ((List.mergeSort_perm snapshots _).map SnapshotView.tradingDate).nodup_iff

/-- The first snapshot in order is the earliest. -/
theorem tradingDays_eq {first : SnapshotView} {rest : List SnapshotView}
    (h : ordered snapshots = first :: rest) :
    (closeFrame.index.filter fun t => first.tradingDate ≤ t ∧ t ≤ asOfDate) =
      daysCovered snapshots closeFrame asOfDate := by
  have hsorted : (ordered snapshots).Pairwise fun a b => decide (a.tradingDate ≤ b.tradingDate) = true :=
    List.pairwise_mergeSort (fun a b c hab hbc => by
      rw [decide_eq_true_iff] at hab hbc ⊢
      exact hab.trans hbc) (fun a b => by simpa using le_total a.tradingDate b.tradingDate) _
  have hfirst : ∀ t, first.tradingDate ≤ t ↔ ∃ s ∈ snapshots, s.tradingDate ≤ t := by
    intro t
    constructor
    · intro hle
      exact ⟨first, mem_ordered.mp (h ▸ List.mem_cons_self), hle⟩
    · rintro ⟨s, hs, hle⟩
      rw [h, List.pairwise_cons] at hsorted
      have hmem : s ∈ first :: rest := h ▸ mem_ordered.mpr hs
      obtain rfl | hmem := List.mem_cons.mp hmem
      · exact hle
      · have hbefore := hsorted.1 s hmem
        rw [decide_eq_true_iff] at hbefore
        exact hbefore.trans hle
  rw [daysCovered]
  refine List.filter_congr fun t _ => ?_
  simp only [hfirst]

theorem nodup_daysCovered : (daysCovered snapshots closeFrame asOfDate).Nodup :=
  (closeFrame.ascending.imp ne_of_lt).filter _

/-- Values of snapshots with distinct dates carried forward are those of the snapshot of
the day. -/
theorem isLast_snapshot {ν : Type} {g : SnapshotView → ν} {s : SnapshotView} {v : Option ν}
    (hdates : (snapshots.map SnapshotView.tradingDate).Nodup)
    (hs : s ∈ snapshots) (hle : s.tradingDate ≤ t)
    (hmax : ∀ s' ∈ snapshots, s'.tradingDate ≤ t → s'.tradingDate ≤ s.tradingDate)
    (hlast : IsLast ((ordered snapshots).map fun s => (s.tradingDate, some (g s))) t v) :
    v = some (g s) := by
  have hmem : (s.tradingDate, some (g s)) ∈ (ordered snapshots).map fun s => (s.tradingDate, some (g s)) :=
    List.mem_map.mpr ⟨s, mem_ordered.mpr hs, rfl⟩
  cases hlast with
  | missing hnone => exact absurd hle (hnone _ _ hmem)
  | value hvalue hbefore hlatest =>
    obtain ⟨s', hs', heq⟩ := List.mem_map.mp hvalue
    obtain ⟨rfl, hv⟩ := Prod.mk.inj heq
    have hsame : s'.tradingDate = s.tradingDate :=
      le_antisymm (hmax s' (mem_ordered.mp hs') hbefore) (hlatest _ _ hmem hle)
    have heq := List.inj_on_of_nodup_map hdates (mem_ordered.mp hs') hs hsame
    rw [← hv, heq]

theorem equityOf_eq_nav (s : SnapshotView) (t : ℤ) :
    equityOf closeFrame t (some (closeFrame.columns.map s.qty)) (some s.cashAmount) =
      nav closeFrame s t := by
  rw [equityOf, nav, add_comm]
  congr 2
  rw [Option.getD_some, List.zipWith_map_right, List.zipWith_self]
  exact List.map_congr_left fun code _ => mul_comm _ _

theorem index_snapshots {ν : Type} (g : SnapshotView → ν) :
    index ((ordered snapshots).map fun s => (s.tradingDate, some (g s))) =
      (ordered snapshots).map SnapshotView.tradingDate := by
  rw [index, List.map_map]
  rfl

/-- With distinct dates values of the snapshots are carried forward to the days. -/
theorem carryForward_snapshots {ν : Type} (g : SnapshotView → ν)
    (hdates : (snapshots.map SnapshotView.tradingDate).Nodup) :
    ∃ f : ℤ → Option ν,
      carryForward ((ordered snapshots).map fun s => (s.tradingDate, some (g s)))
        (daysCovered snapshots closeFrame asOfDate) =
          .ok ((daysCovered snapshots closeFrame asOfDate).map fun t => (t, f t)) ∧
      ∀ t ∈ daysCovered snapshots closeFrame asOfDate,
        IsLast ((ordered snapshots).map fun s => (s.tradingDate, some (g s))) t (f t) := by
  have hindex : (index ((ordered snapshots).map fun s => (s.tradingDate, some (g s)))).Nodup := by
    rw [index_snapshots]
    exact nodup_ordered.mpr hdates
  have hdays : (daysCovered snapshots closeFrame asOfDate).Nodup := nodup_daysCovered
  obtain ⟨f, hcarry, hlast⟩ := TimeIndex.carry_of_nodup hindex hdays
  exact ⟨f, by rw [carryForward, hcarry], hlast⟩

/-- With a day to cover and a code it comes to the two frames. -/
theorem assembleEquity_eq (hdays : daysCovered snapshots closeFrame asOfDate ≠ [])
    (hcolumns : closeFrame.columns ≠ []) :
    assembleEquity snapshots closeFrame asOfDate = (do
      let qtyFrame ← carryForward ((ordered snapshots).map fun s =>
        (s.tradingDate, some (closeFrame.columns.map s.qty))) (daysCovered snapshots closeFrame asOfDate)
      let cashSeries ← carryForward ((ordered snapshots).map fun s =>
        (s.tradingDate, some s.cashAmount)) (daysCovered snapshots closeFrame asOfDate)
      pure (List.zipWith (fun qty cash => (qty.1, equityOf closeFrame qty.1 qty.2 cash.2))
        qtyFrame cashSeries)) := by
  obtain ⟨t, ht⟩ := List.exists_mem_of_ne_nil _ hdays
  rw [daysCovered, List.mem_filter, decide_eq_true_iff] at ht
  obtain ⟨s, hs, -⟩ := ht.2.1
  cases hord : ordered snapshots with
  | nil =>
    have hmem := mem_ordered.mpr hs
    simp [hord] at hmem
  | cons first rest =>
    have hindex : closeFrame.index ≠ [] := List.ne_nil_of_mem ht.1
    rw [assembleEquity, hord]
    simp only [List.isEmpty_iff, hindex, hcolumns, or_self, if_false, tradingDays_eq hord, hdays]

/-- With distinct dates and a code the series is the reference. -/
theorem assembleEquity_of_distinct
    (hdates : (snapshots.map SnapshotView.tradingDate).Nodup) (hcolumns : closeFrame.columns ≠ []) :
    MeetsReference snapshots closeFrame asOfDate := by
  intro hdays
  obtain ⟨qty, hqty, hqtyLast⟩ :=
    carryForward_snapshots (fun s => closeFrame.columns.map s.qty) hdates
  obtain ⟨cash, hcash, hcashLast⟩ := carryForward_snapshots SnapshotView.cashAmount hdates
  refine ⟨(daysCovered snapshots closeFrame asOfDate).map
    fun t => (t, equityOf closeFrame t (qty t) (cash t)), ?_, ?_, ?_⟩
  · rw [assembleEquity_eq hdays hcolumns, hqty, hcash]
    simp only [bind, Except.bind, pure, Except.pure, List.zipWith_map, List.zipWith_self]
  · rw [List.map_map]
    exact List.map_id _
  · intro e he
    obtain ⟨t, ht, rfl⟩ := List.mem_map.mp he
    have hcovered := (List.mem_filter.mp ht).2
    rw [decide_eq_true_iff] at hcovered
    obtain ⟨s, hs, hmem, hle, hmax⟩ := snapshotAt_spec hcovered.1
    refine ⟨s, hs, ?_⟩
    rw [← equityOf_eq_nav, isLast_snapshot hdates hmem hle hmax (hqtyLast t ht),
      isLast_snapshot hdates hmem hle hmax (hcashLast t ht)]

/-- Repeated dates and a frame without codes end with an exception. -/
theorem assembleEquity_error (hdays : daysCovered snapshots closeFrame asOfDate ≠ [])
    (hbad : closeFrame.columns = [] ∨ ¬ (snapshots.map SnapshotView.tradingDate).Nodup) :
    ∃ e, assembleEquity snapshots closeFrame asOfDate = .error e := by
  by_cases hcolumns : closeFrame.columns = []
  · unfold assembleEquity
    split
    · exact ⟨_, rfl⟩
    · simp [hcolumns]
  · have hrepeat := hbad.resolve_left hcolumns
    have hindex : ¬ (index ((ordered snapshots).map fun s =>
        (s.tradingDate, some (closeFrame.columns.map s.qty)))).Nodup := by
      rw [index_snapshots, nodup_ordered]
      exact hrepeat
    have hnone := TimeIndex.carry_of_not_nodup hindex
      (nodup_daysCovered : (daysCovered snapshots closeFrame asOfDate).Nodup)
    rw [assembleEquity_eq hdays hcolumns]
    simp only [carryForward, hnone]
    exact ⟨_, rfl⟩

/-- Without a day to cover it ends with an exception. -/
theorem assembleEquity_of_no_day (hdays : daysCovered snapshots closeFrame asOfDate = []) :
    ∃ e, assembleEquity snapshots closeFrame asOfDate = .error e := by
  unfold assembleEquity
  cases hord : ordered snapshots with
  | nil => exact ⟨_, rfl⟩
  | cons first rest =>
    simp only [tradingDays_eq hord, hdays, List.isEmpty_nil, if_true]
    split
    · exact ⟨_, rfl⟩
    · exact ⟨_, rfl⟩

/-- What there is when it returns. -/
theorem of_assembleEquity_ok {equity : List (ℤ × ℚ)}
    (h : assembleEquity snapshots closeFrame asOfDate = .ok equity) :
    daysCovered snapshots closeFrame asOfDate ≠ [] ∧ closeFrame.columns ≠ [] ∧
      (snapshots.map SnapshotView.tradingDate).Nodup := by
  have hreturns : ¬ ∃ e, assembleEquity snapshots closeFrame asOfDate = .error e := by
    rintro ⟨e, he⟩
    rw [h] at he
    cases he
  have hdays : daysCovered snapshots closeFrame asOfDate ≠ [] :=
    fun hnone => hreturns (assembleEquity_of_no_day hnone)
  refine ⟨hdays, fun hnone => hreturns (assembleEquity_error hdays (.inl hnone)), ?_⟩
  by_contra hrepeat
  exact hreturns (assembleEquity_error hdays (.inr hrepeat))

/-- The series is the reference exactly when there is no day to cover, or the frame has a
code and no two snapshots have one date. -/
theorem assembleEquity_iff :
    MeetsReference snapshots closeFrame asOfDate ↔
      daysCovered snapshots closeFrame asOfDate = [] ∨
        closeFrame.columns ≠ [] ∧ (snapshots.map SnapshotView.tradingDate).Nodup := by
  constructor
  · intro hmeets
    by_contra hnot
    push Not at hnot
    obtain ⟨hdays, hbad⟩ := hnot
    obtain ⟨equity, hok, -⟩ := hmeets hdays
    have hwhy : closeFrame.columns = [] ∨ ¬ (snapshots.map SnapshotView.tradingDate).Nodup := by
      by_cases hcolumns : closeFrame.columns = []
      · exact .inl hcolumns
      · exact .inr (hbad hcolumns)
    obtain ⟨e, he⟩ := assembleEquity_error hdays hwhy
    rw [hok] at he
    cases he
  · rintro (hnone | ⟨hcolumns, hdates⟩)
    · intro hdays
      exact absurd hnone hdays
    · exact assembleEquity_of_distinct hdates hcolumns

/-- Two rebalances on one day and a bar of that day. -/
def rebalancedTwice : List SnapshotView :=
  [⟨20544, 570000, ⟨[("005930", 11)], by decide⟩⟩, ⟨20544, 100000, ⟨[("005930", 13)], by decide⟩⟩]

def oneBar : CloseFrame where
  index := [20544]
  columns := ["005930"]
  close _ _ := 180000
  ascending := by decide
  distinct := by decide

theorem rebalancedTwice_fails : ¬ MeetsReference rebalancedTwice oneBar 20544 := by
  intro hmeets
  have hdays : daysCovered rebalancedTwice oneBar 20544 ≠ [] := by decide
  obtain ⟨equity, hok, -⟩ := hmeets hdays
  obtain ⟨e, he⟩ := assembleEquity_error hdays (.inr (by decide))
  rw [hok] at he
  cases he

end Autotrading
