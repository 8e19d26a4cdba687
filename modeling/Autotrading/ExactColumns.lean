import Autotrading.BacktestExecutor
import Mathlib.Algebra.Order.Ring.Rat

/-!
# Columns of exact numbers

The operations of a column on rational numbers. Only the place of equal values in `sort_values` is
left open.
-/
namespace Autotrading

/-- A way in which `sort_values` may order a column: the positions of its values, the least first. -/
class SortOrder where
  argsort : List ℚ → List ℕ
  perm : ∀ xs, (argsort xs).Perm (List.range xs.length)
  ascending : ∀ xs : List ℚ, ((argsort xs).filterMap (xs[·]?)).Pairwise (· ≤ ·)

namespace Column

instance exact [SortOrder] : Column ℚ where
  add := inferInstance
  sub := inferInstance
  mul := inferInstance
  div := inferInstance
  le := inferInstance
  lt := inferInstance
  zero := inferInstance
  one := inferInstance
  intCast := inferInstance
  decidableLE := inferInstance
  decidableLT := inferInstance
  mean xs := xs.sum / xs.length
  argsort := SortOrder.argsort
  toInt q := .ok (if 0 ≤ q then ⌊q⌋ else ⌈q⌉)

theorem filterMap_getElem?_range {α : Type} (rows : List α) :
    (List.range rows.length).filterMap (rows[·]?) = rows := by
  induction rows with
  | nil => rfl
  | cons row rows ih =>
    rw [List.length_cons, List.range_succ_eq_map, List.filterMap_cons_some (by rfl),
      List.filterMap_map]
    simpa using ih

/-- Sorting loses and repeats no row. -/
theorem sortValues_perm [SortOrder] {α : Type} (key : α → ℚ) (rows : List α) :
    (sortValues key rows).Perm rows := by
  have hperm := (SortOrder.perm (rows.map key)).filterMap (rows[·]?)
  rw [List.length_map, filterMap_getElem?_range] at hperm
  exact hperm

end Column

namespace SortOrder

/-- Equal values stay in the order in which they are. -/
scoped instance stable : SortOrder where
  argsort xs := (List.range xs.length).insertionSort fun i j => xs.getD i 0 ≤ xs.getD j 0
  perm xs := List.perm_insertionSort _ _
  ascending xs := by
    have htotal : Std.Total fun i j : ℕ => xs.getD i 0 ≤ xs.getD j 0 := ⟨fun i j => le_total _ _⟩
    have htrans : IsTrans ℕ fun i j => xs.getD i 0 ≤ xs.getD j 0 := ⟨fun i j k => le_trans⟩
    refine List.pairwise_filterMap.mpr ((List.pairwise_insertionSort
      (fun i j => xs.getD i 0 ≤ xs.getD j 0) (List.range xs.length)).imp ?_)
    intro i j hle a ha b hb
    rw [List.getD_eq_getElem?_getD, List.getD_eq_getElem?_getD] at hle
    rw [ha, hb] at hle
    exact hle

end SortOrder

namespace PriceData

/-- Every close is above zero. -/
def PositiveCloses (data : PriceData ℚ) : Prop :=
  ∀ code df, data.get? code = some df → ∀ row ∈ df.rows, 0 < row.close

theorem positiveCloses_iff {data : PriceData ℚ} :
    data.PositiveCloses ↔ ∀ e ∈ data.entries, ∀ row ∈ e.2.rows, 0 < row.close := by
  constructor
  · intro h e he
    exact h e.1 e.2 (Dict.mem_entries.mp he)
  · intro h code df hdf
    exact h (code, df) (Dict.mem_entries.mpr hdf)

instance (data : PriceData ℚ) : Decidable data.PositiveCloses :=
  decidable_of_iff _ positiveCloses_iff.symm

theorem PositiveCloses.close?_pos {data : PriceData ℚ} (h : data.PositiveCloses) {code : String}
    {date : Instant} {price : ℚ} (hprice : data.close? code date = some price) : 0 < price := by
  obtain ⟨df, hdf, hprice⟩ := Option.bind_eq_some_iff.mp hprice
  obtain ⟨row, hrow, rfl⟩ := Option.map_eq_some_iff.mp hprice
  exact h code df hdf row (List.mem_of_find?_eq_some hrow)

theorem PositiveCloses.lastClose?_pos {data : PriceData ℚ} (h : data.PositiveCloses) {code : String}
    {date : Instant} {price : ℚ} (hprice : data.lastClose? code date = some price) : 0 < price := by
  obtain ⟨row, hrow, rfl⟩ := Option.map_eq_some_iff.mp hprice
  obtain ⟨rows, hrows, hlast⟩ := Option.bind_eq_some_iff.mp hrow
  obtain ⟨df, hdf, rfl⟩ := Option.map_eq_some_iff.mp hrows
  exact h code df hdf row (List.mem_of_mem_filter (List.mem_of_getLast? hlast))

end PriceData

namespace BacktestExecutor

/-- A total that is counted up from where it stands. -/
theorem foldl_add {α : Type} (f : α → ℚ) (xs : List α) (start : ℚ) :
    xs.foldl (fun total a => total + f a) start = start + (xs.map f).sum := by
  induction xs generalizing start with
  | nil => simp
  | cons a xs ih => rw [List.foldl_cons, ih, List.map_cons, List.sum_cons, add_assoc]

theorem sum_eq [SortOrder] (values : List ℚ) : sum values = values.sum := by
  have hfoldl := foldl_add id values 0
  rw [List.map_id, zero_add] at hfoldl
  exact hfoldl

end BacktestExecutor

end Autotrading
