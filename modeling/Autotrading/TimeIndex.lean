import Mathlib.Data.List.Sort
import Mathlib.Data.List.Nodup
import Mathlib.Tactic.Common

/-!
# Labelled series

Series of values under labels, as pandas keeps them: reindexing, which refuses repeated
labels, filling forward, and the two together, which carry values over to other labels.
-/
namespace TimeIndex

section Index
variable {κ ν : Type}

/-- The labels. -/
def index (xs : List (κ × Option ν)) : List κ := xs.map Prod.fst

/-- A missing value becomes the last one before it. -/
def ffill : Option ν → List (κ × Option ν) → List (κ × Option ν)
  | _, [] => []
  | last, (k, v) :: xs => (k, v.or last) :: ffill (v.or last) xs

@[simp] theorem index_ffill (last : Option ν) (xs : List (κ × Option ν)) :
    index (ffill last xs) = index xs := by
  induction xs generalizing last with
  | nil => rfl
  | cons e xs ih =>
    have htail := ih (e.2.or last)
    simpa [ffill, index] using htail

end Index

variable {κ ν : Type} [LinearOrder κ] {xs ys : List (κ × Option ν)} {target : List κ} {k : κ}

/-- The union of two indices: of a repeated label as many as in either, in order. -/
def union (a b : List κ) : List κ := (a ++ b.diff a).mergeSort fun x y => x ≤ y

/-- The values under other labels, `none` where there is no value. Repeated labels are
refused unless the labels are the same. -/
def reindex (xs : List (κ × Option ν)) (target : List κ) : Option (List (κ × Option ν)) :=
  if index xs = target then some xs
  else if (index xs).Nodup then some (target.map fun k => (k, (xs.lookup k).join))
  else none

/-- The values carried forward to the labels of `target`. -/
def carry (xs : List (κ × Option ν)) (target : List κ) : Option (List (κ × Option ν)) := do
  let merged ← reindex xs (union (index xs) target)
  reindex (ffill none merged) target

/-- The value of the last label up to `k` that has one. -/
inductive IsLast (xs : List (κ × Option ν)) (k : κ) : Option ν → Prop
  | missing : (∀ k' v, (k', some v) ∈ xs → ¬ k' ≤ k) → IsLast xs k none
  | value {k' : κ} {v : ν} : (k', some v) ∈ xs → k' ≤ k →
      (∀ k'' v', (k'', some v') ∈ xs → k'' ≤ k → k'' ≤ k') → IsLast xs k (some v)

theorem mem_union (ha : target.Nodup) {a : List κ} : k ∈ union a target ↔ k ∈ a ∨ k ∈ target := by
  rw [union, List.mem_mergeSort, List.mem_append, ha.mem_sdiff_iff]
  by_cases hk : k ∈ a
  · simp [hk]
  · simp [hk]

theorem pairwise_union {a b : List κ} (ha : a.Nodup) (hb : b.Nodup) :
    (union a b).Pairwise (· < ·) := by
  have hnodup : (a ++ b.diff a).Nodup := by
    refine List.nodup_append.mpr ⟨ha, hb.diff, ?_⟩
    rintro x hx y hy rfl
    exact (hb.mem_sdiff_iff.mp hy).2 hx
  have hsorted : (union a b).Pairwise fun x y => decide (x ≤ y) = true :=
    List.pairwise_mergeSort (fun x y z hxy hyz => by
      rw [decide_eq_true_iff] at hxy hyz ⊢
      exact hxy.trans hyz) (fun x y => by simpa using le_total x y) _
  have hdistinct : (union a b).Nodup := (List.mergeSort_perm _ _).nodup_iff.mpr hnodup
  refine (hsorted.and hdistinct).imp ?_
  intro x y h
  exact lt_of_le_of_ne (by simpa using h.1) h.2

theorem lookup_of_mem {v : Option ν} (hnodup : (index xs).Nodup) (h : (k, v) ∈ xs) :
    xs.lookup k = some v := by
  induction xs with
  | nil => simp at h
  | cons e xs ih =>
    obtain ⟨k', v'⟩ := e
    rw [index, List.map_cons, List.nodup_cons] at hnodup
    obtain heq | hmem := List.mem_cons.mp h
    · obtain ⟨rfl, rfl⟩ := Prod.mk.inj heq
      simp
    · have hne : k ≠ k' := by
        rintro rfl
        exact hnodup.1 (List.mem_map.mpr ⟨(k, v), hmem, rfl⟩)
      rw [List.lookup_cons, beq_false_of_ne hne]
      exact ih hnodup.2 hmem

theorem mem_of_lookup {v : Option ν} (h : xs.lookup k = some v) : (k, v) ∈ xs := by
  obtain ⟨before, after, rfl, -⟩ := List.lookup_eq_some_iff.mp h
  simp

/-- With distinct labels every label gets its value. -/
theorem reindex_of_nodup (h : (index xs).Nodup) :
    reindex xs target = some (target.map fun k => (k, (xs.lookup k).join)) := by
  unfold reindex
  split
  · next heq =>
    subst heq
    congr 1
    rw [index, List.map_map]
    conv_lhs => rw [← List.map_id xs]
    refine List.map_congr_left fun e he => ?_
    rw [Function.comp_apply, lookup_of_mem h he]
    rfl
  · rfl

/-- Repeated labels are refused, or stay as they are. -/
theorem carry_of_not_nodup (h : ¬ (index xs).Nodup) (ht : target.Nodup) : carry xs target = none := by
  have hother : ∀ ys : List (κ × Option ν), index ys = index xs → reindex ys target = none := by
    intro ys hys
    have hne : index ys ≠ target := by
      rintro rfl
      exact h (hys ▸ ht)
    rw [reindex, if_neg hne, if_neg (hys ▸ h)]
  unfold carry
  by_cases hsame : index xs = union (index xs) target
  · have hmerged : reindex xs (union (index xs) target) = some xs := by
      rw [reindex, if_pos hsame]
    rw [hmerged]
    exact hother _ (index_ffill none xs)
  · have hmerged : reindex xs (union (index xs) target) = none := by
      rw [reindex, if_neg hsame, if_neg h]
    rw [hmerged]
    rfl

theorem IsLast.congr {v : Option ν} (h : IsLast xs k v)
    (hsame : ∀ k' w, (k', some w) ∈ xs ↔ (k', some w) ∈ ys) : IsLast ys k v := by
  cases h with
  | missing hnone => exact .missing fun k' w hw => hnone k' w ((hsame k' w).mpr hw)
  | value hmem hle hmax =>
    exact .value ((hsame _ _).mp hmem) hle fun k'' w hw => hmax k'' w ((hsame k'' w).mpr hw)

/-- A filled value is the last one, or what was there before where there is none. -/
theorem isLast_or_of_ffill {last v : Option ν} (hasc : (index xs).Pairwise (· < ·))
    (h : (k, v) ∈ ffill last xs) :
    (∃ w, v = some w ∧ IsLast xs k (some w)) ∨
      v = last ∧ ∀ k' w, (k', some w) ∈ xs → ¬ k' ≤ k := by
  induction xs generalizing last with
  | nil => simp [ffill] at h
  | cons e xs ih =>
    obtain ⟨k₀, v₀⟩ := e
    rw [index, List.map_cons, List.pairwise_cons] at hasc
    have hafter : ∀ k' w, (k', w) ∈ xs → k₀ < k' := by
      intro k' w hmem
      exact hasc.1 k' (List.mem_map.mpr ⟨(k', w), hmem, rfl⟩)
    rw [ffill, List.mem_cons, Prod.mk.injEq] at h
    obtain ⟨rfl, rfl⟩ | h := h
    · cases v₀ with
      | some w =>
        refine .inl ⟨w, rfl, .value List.mem_cons_self le_rfl fun k'' w' hmem hle => hle⟩
      | none =>
        refine .inr ⟨rfl, fun k' w hmem hle => ?_⟩
        obtain heq | hmem := List.mem_cons.mp hmem
        · simp at heq
        · exact absurd hle (not_le.mpr (hafter k' _ hmem))
    · have hk : k₀ < k := by
        have hmem : k ∈ index (ffill (v₀.or last) xs) := List.mem_map.mpr ⟨(k, v), h, rfl⟩
        rw [index_ffill] at hmem
        exact hasc.1 k hmem
      obtain ⟨w, rfl, hlast⟩ | ⟨rfl, hnone⟩ := ih hasc.2 h
      · refine .inl ⟨w, rfl, ?_⟩
        cases hlast with
        | @value k' w hmem hle hmax =>
          refine .value (List.mem_cons_of_mem _ hmem) hle fun k'' w' hmem' hle' => ?_
          obtain heq | hmem' := List.mem_cons.mp hmem'
          · obtain ⟨rfl, -⟩ := Prod.mk.inj heq
            exact (hafter k' _ hmem).le
          · exact hmax k'' w' hmem' hle'
      · cases v₀ with
        | some w =>
          refine .inl ⟨w, rfl, .value List.mem_cons_self hk.le fun k'' w' hmem hle => ?_⟩
          obtain heq | hmem := List.mem_cons.mp hmem
          · obtain ⟨rfl, -⟩ := Prod.mk.inj heq
            exact le_rfl
          · exact absurd hle (hnone k'' w' hmem)
        | none =>
          refine .inr ⟨rfl, fun k' w hmem hle => ?_⟩
          obtain heq | hmem := List.mem_cons.mp hmem
          · simp at heq
          · exact hnone k' w hmem hle

/-- Other labels, all of the series among them, lose none of its values. -/
theorem mem_relabelled {labels : List κ} {v : ν} (h : (index xs).Nodup)
    (hall : ∀ k ∈ index xs, k ∈ labels) :
    (k, some v) ∈ labels.map (fun k => (k, (xs.lookup k).join)) ↔ (k, some v) ∈ xs := by
  rw [List.mem_map]
  constructor
  · rintro ⟨k', -, heq⟩
    obtain ⟨rfl, hv⟩ := Prod.mk.inj heq
    exact mem_of_lookup (Option.join_eq_some_iff.mp hv)
  · intro hv
    refine ⟨k, hall k (List.mem_map.mpr ⟨_, hv, rfl⟩), ?_⟩
    rw [lookup_of_mem h hv]
    rfl

/-- Filled forward, every label has the last value up to it. -/
theorem isLast_ffill (hasc : (index xs).Pairwise (· < ·)) (hk : k ∈ index xs) :
    IsLast xs k ((ffill none xs).lookup k).join := by
  have hfilled : (index (ffill none xs)).Nodup := by
    rw [index_ffill]
    exact hasc.imp ne_of_lt
  rw [← index_ffill none xs] at hk
  obtain ⟨⟨_, v⟩, hv, rfl⟩ := List.mem_map.mp hk
  rw [lookup_of_mem hfilled hv, Option.join_some]
  obtain ⟨w, rfl, hlast⟩ | ⟨rfl, hnone⟩ := isLast_or_of_ffill hasc hv
  · exact hlast
  · exact .missing hnone

/-- With distinct labels every label of the target gets the last value up to it. -/
theorem carry_of_nodup (h : (index xs).Nodup) (ht : target.Nodup) :
    ∃ f : κ → Option ν, carry xs target = some (target.map fun k => (k, f k)) ∧
      ∀ k ∈ target, IsLast xs k (f k) := by
  have hmerged := pairwise_union h ht
  obtain ⟨merged, hm⟩ : ∃ merged, merged =
      (union (index xs) target).map fun k => (k, (xs.lookup k).join) := ⟨_, rfl⟩
  have hindex : index merged = union (index xs) target := by
    rw [hm, index, List.map_map]
    exact List.map_id _
  have hasc : (index merged).Pairwise (· < ·) := hindex ▸ hmerged
  refine ⟨fun k => ((ffill none merged).lookup k).join, ?_, fun k hk => ?_⟩
  · have hfilled : (index (ffill none merged)).Nodup := by
      rw [index_ffill]
      exact hasc.imp ne_of_lt
    rw [carry, reindex_of_nodup h, ← hm]
    exact reindex_of_nodup hfilled
  · have hmem : k ∈ index merged := by
      rw [hindex, mem_union ht]
      exact .inr hk
    refine (isLast_ffill hasc hmem).congr fun k' w => ?_
    rw [hm]
    exact mem_relabelled h fun k hk => (mem_union ht).mpr (.inl hk)

/-- There is one last value. -/
theorem IsLast.unique {v w : Option ν} (hnodup : (index xs).Nodup) (hv : IsLast xs k v)
    (hw : IsLast xs k w) : v = w := by
  cases hv with
  | missing hnone =>
    cases hw with
    | missing => rfl
    | value hmem hle _ => exact absurd hle (hnone _ _ hmem)
  | value hmem hle hmax =>
    cases hw with
    | missing hnone => exact absurd hle (hnone _ _ hmem)
    | value hmem' hle' hmax' =>
      have hsame := le_antisymm (hmax' _ _ hmem hle) (hmax _ _ hmem' hle')
      have heq := List.inj_on_of_nodup_map hnodup hmem hmem' hsame
      exact (Prod.mk.inj heq).2

/-- Later labels do not matter. -/
theorem IsLast.of_filter {stop : κ} {v : Option ν} (hk : k ≤ stop)
    (h : IsLast (xs.filter fun e => e.1 ≤ stop) k v) : IsLast xs k v := by
  have hmem : ∀ k' w, k' ≤ k → ((k', some w) ∈ xs.filter (fun e => e.1 ≤ stop) ↔ (k', some w) ∈ xs) := by
    intro k' w hle
    rw [List.mem_filter, decide_eq_true_iff]
    exact and_iff_left (hle.trans hk)
  cases h with
  | missing hnone =>
    refine .missing fun k' w hw hle => ?_
    exact hnone k' w ((hmem k' w hle).mpr hw) hle
  | value hin hle hmax =>
    refine .value ((hmem _ _ hle).mp hin) hle fun k'' w hw hle'' => ?_
    exact hmax k'' w ((hmem k'' w hle'').mpr hw) hle''

/-! ## Series of other values -/

section Values
variable {μ : Type} (f : ν → μ)

/-- A series of the values of a function. -/
def mapValues {κ : Type} (f : ν → μ) (xs : List (κ × Option ν)) : List (κ × Option μ) :=
  xs.map fun e => (e.1, e.2.map f)

omit [LinearOrder κ] in
@[simp] theorem index_mapValues (xs : List (κ × Option ν)) : index (mapValues f xs) = index xs := by
  simp [index, mapValues]

theorem lookup_mapValues (xs : List (κ × Option ν)) (k : κ) :
    ((mapValues f xs).lookup k).join = ((xs.lookup k).join).map f := by
  induction xs with
  | nil => rfl
  | cons e xs ih =>
    obtain ⟨k', v⟩ := e
    by_cases hk : k = k'
    · simp [mapValues, hk]
    · have hne : (k == k') = false := beq_false_of_ne hk
      rw [mapValues] at ih
      simp only [mapValues, List.map_cons, List.lookup_cons, hne, ih]

omit [LinearOrder κ] in
theorem ffill_mapValues (last : Option ν) (xs : List (κ × Option ν)) :
    ffill (last.map f) (mapValues f xs) = mapValues f (ffill last xs) := by
  induction xs generalizing last with
  | nil => rfl
  | cons e xs ih =>
    obtain ⟨k, v⟩ := e
    have hor : (v.map f).or (last.map f) = (v.or last).map f := by
      cases v with
      | none => rfl
      | some v => rfl
    have htail := ih (v.or last)
    rw [mapValues] at htail
    simp only [ffill, mapValues, List.map_cons, hor, htail]

theorem reindex_mapValues (xs : List (κ × Option ν)) (target : List κ) :
    reindex (mapValues f xs) target = (reindex xs target).map (mapValues f) := by
  unfold reindex
  rw [index_mapValues]
  split_ifs
  · rfl
  · have hrows : target.map (fun k => (k, ((mapValues f xs).lookup k).join)) =
        mapValues f (target.map fun k => (k, (xs.lookup k).join)) := by
      simp only [mapValues, List.map_map, Function.comp_def, ← lookup_mapValues]
    rw [hrows, Option.map_some]
  · rfl

/-- The values are carried forward as they are. -/
theorem carry_mapValues (xs : List (κ × Option ν)) (target : List κ) :
    carry (mapValues f xs) target = (carry xs target).map (mapValues f) := by
  unfold carry
  rw [index_mapValues, reindex_mapValues]
  cases reindex xs (union (index xs) target) with
  | none => rfl
  | some merged =>
    have hfilled := ffill_mapValues f none merged
    rw [Option.map_none] at hfilled
    show reindex (ffill none (mapValues f merged)) target = _
    rw [hfilled, reindex_mapValues]
    rfl

end Values

end TimeIndex
