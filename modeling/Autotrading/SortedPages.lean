import Mathlib.Data.List.Perm.Subperm
import Mathlib.Data.List.Sort
import Mathlib.Data.List.TakeWhile
import Mathlib.Order.Lattice
import Mathlib.Tactic.Common

/-!
# Sorted lists and their pages

A sort keeps the order of equal entries, so it commutes with every filter. A list that is read page
by page may grow in between: entries move to later pages only, so none is passed over.
-/
namespace SortedPages

variable {α κ : Type}

/-! ## Filters -/

section Filters
variable {le : α → α → Bool}

/-- Entries ahead of `a` are those before the first entry that `a` may come before. -/
theorem takeWhile_of_sorted {a : α} (before after : List α) (hbefore : ∀ b ∈ before, le a b = false)
    (hafter : ∀ b ∈ after, le a b = true) :
    (before ++ after).takeWhile (fun b => !le a b) = before ∧
      (before ++ after).dropWhile (fun b => !le a b) = after := by
  have hall : ∀ b ∈ before, (!le a b) = true := by
    intro b hb
    simp [hbefore b hb]
  cases after with
  | nil =>
    rw [List.append_nil, List.takeWhile_eq_self_iff.mpr hall]
    exact ⟨rfl, List.dropWhile_eq_nil_iff.mpr hall⟩
  | cons c after =>
    have hstop : (!le a c) = false := by simp [hafter c List.mem_cons_self]
    constructor
    · rw [List.takeWhile_append_of_pos hall, List.takeWhile_cons_of_neg (by simp [hstop]),
        List.append_nil]
    · rw [List.dropWhile_append_of_pos hall, List.dropWhile_cons_of_neg (by simp [hstop])]

/-- What a filter keeps of a sorted list is what it keeps, sorted. -/
theorem filter_mergeSort (htrans : ∀ a b c, le a b = true → le b c = true → le a c = true)
    (htotal : ∀ a b, (le a b || le b a) = true) (p : α → Bool) (xs : List α) :
    (xs.mergeSort le).filter p = (xs.filter p).mergeSort le := by
  induction xs with
  | nil => simp
  | cons a xs ih =>
    obtain ⟨before, after, hcons, hxs, hbefore⟩ := List.mergeSort_cons htrans htotal a xs
    rw [hxs, List.filter_append] at ih
    rw [hcons, List.filter_append]
    by_cases hp : p a = true
    · obtain ⟨before', after', hcons', hfilter', hbefore'⟩ :=
        List.mergeSort_cons htrans htotal a (xs.filter p)
      have hsorted := List.pairwise_mergeSort htrans htotal (a :: xs)
      have hsorted' := List.pairwise_mergeSort htrans htotal (a :: xs.filter p)
      rw [hcons, List.pairwise_append, List.pairwise_cons] at hsorted
      rw [hcons', List.pairwise_append, List.pairwise_cons] at hsorted'
      rw [hfilter'] at ih
      -- both split at the same place: ahead of `a` are the entries that are less
      obtain ⟨hleft, hright⟩ := takeWhile_of_sorted (a := a) (before.filter p)
        (after.filter p)
        (fun b hb => by simpa using hbefore b (List.mem_filter.mp hb).1)
        (fun b hb => hsorted.2.1.1 b (List.mem_filter.mp hb).1)
      obtain ⟨hleft', hright'⟩ := takeWhile_of_sorted (a := a) before' after'
        (fun b hb => by simpa using hbefore' b hb) hsorted'.2.1.1
      rw [ih] at hleft hright
      rw [List.filter_cons_of_pos hp, List.filter_cons_of_pos hp, hcons', ← hleft, ← hright, hleft',
        hright']
    · rw [List.filter_cons_of_neg hp, List.filter_cons_of_neg hp, ih]

end Filters

/-! ## Pages -/

/-- `LIMIT limit OFFSET offset`. -/
def page (limit offset : ℕ) (xs : List α) : List α := (xs.drop offset).take limit

/-- The pages of a list that is looked at again for each. -/
def pages (limit : ℕ) : ℕ → List (List α) → List (List α)
  | _, [] => []
  | offset, xs :: looks => page limit offset xs :: pages limit (offset + limit) looks

/-- The list has no more than the pages up to the last look. -/
def Exhausted (limit offset : ℕ) (looks : List (List α)) : Prop :=
  ∀ last ∈ looks.getLast?, last.length ≤ offset + limit * looks.length

/-- What is behind the pages so far is on a later page, where the list only grows. -/
theorem mem_pages_of_drop {limit offset : ℕ} {xs : List α} {looks : List (List α)} {x : α}
    (hgrows : (xs :: looks).IsChain List.Sublist) (hend : Exhausted limit offset (xs :: looks))
    (hx : x ∈ xs.drop offset) : ∃ p ∈ pages limit offset (xs :: looks), x ∈ p := by
  induction looks generalizing xs offset with
  | nil =>
    refine ⟨page limit offset xs, List.mem_cons_self, ?_⟩
    have hlength : (xs.drop offset).length ≤ limit := by
      have hlast := hend xs rfl
      rw [List.length_singleton, Nat.mul_one] at hlast
      rw [List.length_drop]
      omega
    rwa [page, List.take_of_length_le hlength]
  | cons ys looks ih =>
    rw [List.isChain_cons_cons] at hgrows
    rw [← List.take_append_drop limit (xs.drop offset), List.mem_append, List.drop_drop] at hx
    obtain hnow | hlater := hx
    · exact ⟨page limit offset xs, List.mem_cons_self, hnow⟩
    · have hend' : Exhausted limit (offset + limit) (ys :: looks) := by
        intro last hlast
        have hle := hend last (by simpa using hlast)
        simp only [List.length_cons, Nat.mul_add, Nat.mul_one] at hle ⊢
        omega
      obtain ⟨p, hp, hxp⟩ := ih hgrows.2 hend' ((hgrows.1.drop _).mem hlater)
      exact ⟨p, List.mem_cons_of_mem _ hp, hxp⟩

/-- Reading page by page passes over nothing that was there at the first look. -/
theorem mem_pages {limit : ℕ} {xs : List α} {looks : List (List α)} {x : α}
    (hgrows : (xs :: looks).IsChain List.Sublist) (hend : Exhausted limit 0 (xs :: looks))
    (hx : x ∈ xs) : ∃ p ∈ pages limit 0 (xs :: looks), x ∈ p :=
  mem_pages_of_drop hgrows hend (by rwa [List.drop_zero])

/-! ## Newest first -/

section Newest
variable [LinearOrder κ] {key : α → κ}

/-- `ORDER BY key DESC`. -/
def newestFirst (key : α → κ) (xs : List α) : List α := xs.mergeSort fun a b => key b ≤ key a

theorem newestFirst_perm (xs : List α) : (newestFirst key xs).Perm xs := List.mergeSort_perm _ _

theorem pairwise_newestFirst {xs : List α} (hdistinct : (xs.map key).Nodup) :
    (newestFirst key xs).Pairwise fun a b => key b < key a := by
  have hsorted : (newestFirst key xs).Pairwise fun a b => decide (key b ≤ key a) = true :=
    List.pairwise_mergeSort (fun a b c hab hbc => by
      rw [decide_eq_true_iff] at hab hbc ⊢
      exact hbc.trans hab) (fun a b => by simpa using le_total (key b) (key a)) _
  have hnodup : (newestFirst key xs).Pairwise fun a b => key a ≠ key b :=
    List.pairwise_map.mp (((newestFirst_perm xs).map key).nodup_iff.mpr hdistinct)
  exact (hsorted.and hnodup).imp fun h => lt_of_le_of_ne (of_decide_eq_true h.1) h.2.symm

/-- With distinct keys a part of a list is sorted as it is within the list. -/
theorem newestFirst_sublist {xs ys : List α} (h : xs.Sublist ys) (hdistinct : (ys.map key).Nodup) :
    (newestFirst key xs).Sublist (newestFirst key ys) := by
  have hsubperm : (newestFirst key xs).Subperm (newestFirst key ys) :=
    (newestFirst_perm xs).subperm.trans (h.subperm.trans (newestFirst_perm ys).symm.subperm)
  have : Std.Antisymm fun a b : α => key b < key a :=
    ⟨fun a b hab hba => absurd hab hba.asymm⟩
  exact List.sublist_of_subperm_of_pairwise hsubperm
    (pairwise_newestFirst (hdistinct.sublist (h.map key))) (pairwise_newestFirst hdistinct)

end Newest

end SortedPages
