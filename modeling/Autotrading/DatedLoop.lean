import Mathlib.Data.List.Dedup
import Mathlib.Data.List.Induction
import Mathlib.Data.List.Sort
import Mathlib.Tactic.Common

/-!
# Loops over dated data

A loop goes over the times of its data in order and logs what it does at each. `cut t d` is what
`d` holds up to `t`. When no step reads past its own time, a loop over `d` has logged up to `t`
what it logs over `cut t d`.
-/
namespace DatedLoop

section Times
variable {ι : Type} [LinearOrder ι] {times : List ι} {t : ι}

/-- The times in order, each once. -/
def sortedSet (times : List ι) : List ι := times.dedup.insertionSort (· ≤ ·)

@[simp] theorem mem_sortedSet {i : ι} : i ∈ sortedSet times ↔ i ∈ times := by
  simp [sortedSet]

theorem pairwise_sortedSet (times : List ι) : (sortedSet times).Pairwise (· < ·) := by
  have hsorted : (sortedSet times).Pairwise (· ≤ ·) := List.pairwise_insertionSort _ _
  have hdistinct : (sortedSet times).Nodup :=
    (List.perm_insertionSort _ _).nodup_iff.mpr (List.nodup_dedup times)
  exact (hsorted.and hdistinct).imp fun h => lt_of_le_of_ne h.1 h.2

/-- Lists in order are equal when they have the same members. -/
theorem eq_of_mem_iff {xs ys : List ι} (hxs : xs.Pairwise (· < ·)) (hys : ys.Pairwise (· < ·))
    (h : ∀ i, i ∈ xs ↔ i ∈ ys) : xs = ys := by
  have hperm : xs.Perm ys :=
    (List.perm_ext_iff_of_nodup (hxs.imp ne_of_lt) (hys.imp ne_of_lt)).mpr h
  refine hperm.eq_of_pairwise ?_ (hxs.imp le_of_lt) (hys.imp le_of_lt)
  intro a b _ _ hab hba
  exact le_antisymm hab hba

theorem sortedSet_eq_filter {part : List ι} (h : ∀ i, i ∈ part ↔ i ∈ times ∧ i ≤ t) :
    sortedSet part = (sortedSet times).filter (· ≤ t) := by
  refine eq_of_mem_iff (pairwise_sortedSet part) ((pairwise_sortedSet times).filter _) ?_
  intro i
  simp [h]

/-- Times in order are those early and then those late, when what is before an early time is early. -/
theorem filter_append_filter_not {p : ι → Bool} (hp : ∀ i j, i ≤ j → p j = true → p i = true)
    (h : times.Pairwise (· ≤ ·)) : times = times.filter p ++ times.filter fun i => !p i := by
  induction times with
  | nil => rfl
  | cons i times ih =>
    rw [List.pairwise_cons] at h
    by_cases hi : p i = true
    · simp only [List.filter_cons, hi, if_true, Bool.not_true, Bool.false_eq_true, if_false]
      simpa using ih h.2
    · have hnone : times.filter p = [] := by
        rw [List.filter_eq_nil_iff]
        intro j hj hearly
        exact hi (hp i j (h.1 j hj) hearly)
      have hall : times.filter (fun i => !p i) = times := by
        rw [List.filter_eq_self]
        intro j hj
        rw [Bool.not_eq_true']
        exact Bool.eq_false_iff.mpr fun hearly => hi (hp i j (h.1 j hj) hearly)
      simp [hi, hnone, hall]

/-- Times in order are those up to `t` and then those behind it. -/
theorem filter_append_filter (h : times.Pairwise (· ≤ ·)) :
    times = times.filter (· ≤ t) ++ times.filter (t < ·) := by
  have hsplit := filter_append_filter_not (p := fun i => decide (i ≤ t)) ?_ h
  · simpa [← decide_not] using hsplit
  · intro i j hle hj
    rw [decide_eq_true_iff] at hj ⊢
    exact hle.trans hj

end Times

section Loops
variable {ι σ ε : Type} {step : σ → ι → Except ε σ} {times : List ι} {s s' : σ}

theorem foldlM_cons_ok {i : ι} (h : (i :: times).foldlM step s = .ok s') :
    ∃ s₁, step s i = .ok s₁ ∧ times.foldlM step s₁ = .ok s' := by
  rw [List.foldlM_cons] at h
  cases hstep : step s i with
  | error e =>
    rw [hstep] at h
    cases h
  | ok s₁ =>
    rw [hstep] at h
    exact ⟨s₁, rfl, h⟩

theorem foldlM_append_ok {before after : List ι} (h : (before ++ after).foldlM step s = .ok s') :
    ∃ s₁, before.foldlM step s = .ok s₁ ∧ after.foldlM step s₁ = .ok s' := by
  rw [List.foldlM_append] at h
  cases hbefore : before.foldlM step s with
  | error e =>
    rw [hbefore] at h
    cases h
  | ok s₁ =>
    rw [hbefore] at h
    exact ⟨s₁, rfl, h⟩

theorem foldlM_congr {f g : σ → ι → Except ε σ} {xs : List ι} (h : ∀ i ∈ xs, ∀ s, f s i = g s i) :
    xs.foldlM f s = xs.foldlM g s := by
  induction xs generalizing s with
  | nil => rfl
  | cons i xs ih =>
    rw [List.foldlM_cons, List.foldlM_cons, h i List.mem_cons_self s]
    congr 1
    funext s₁
    exact ih fun j hj => h j (List.mem_cons_of_mem _ hj)

/-- What every step keeps, the loop keeps. -/
theorem foldlM_invariant (Inv : σ → Prop)
    (hstep : ∀ i ∈ times, ∀ s s', Inv s → step s i = .ok s' → Inv s') (hstart : Inv s) (h : times.foldlM step s = .ok s') : Inv s' := by
  induction times generalizing s with
  | nil =>
    obtain rfl := Except.ok.inj h
    exact hstart
  | cons i times ih =>
    obtain ⟨s₁, hfirst, hrest⟩ := foldlM_cons_ok h
    refine ih (fun j hj => hstep j (List.mem_cons_of_mem _ hj)) ?_ hrest
    exact hstep i List.mem_cons_self s s₁ hstart hfirst

/-- What the steps keep that the loop comes to. -/
theorem foldlM_along (Inv : List ι → σ → Prop) (hstart : Inv [] s)
    (hstep : ∀ before i after s₁ s₂, times = before ++ i :: after →
      before.foldlM step s = .ok s₁ → Inv before s₁ → step s₁ i = .ok s₂ → Inv (before ++ [i]) s₂)
    (h : times.foldlM step s = .ok s') : Inv times s' := by
  induction times using List.reverseRecOn generalizing s' with
  | nil =>
    obtain rfl := Except.ok.inj h
    exact hstart
  | append_singleton before i ih =>
    obtain ⟨s₁, hbefore, hlast⟩ := foldlM_append_ok h
    obtain ⟨s₂, hi, hnil⟩ := foldlM_cons_ok hlast
    obtain rfl := Except.ok.inj hnil
    refine hstep before i [] s₁ s₂ rfl hbefore (ih ?_ hbefore) hi
    intro early j late s₃ s₄ heq hearly hinv hj
    refine hstep early j (late ++ [i]) s₃ s₄ ?_ hearly hinv hj
    rw [heq, List.append_assoc, List.cons_append]

end Loops

section Logs
variable {ι σ ε ρ : Type} [LinearOrder ι] {step : σ → ι → Except ε σ} {log : σ → List ρ}
  {stamp : ρ → ι} {times : List ι} {s s' : σ} {t : ι}

/-- What is logged up to a time. -/
def logged (stamp : ρ → ι) (t : ι) (rs : List ρ) : List ρ := rs.filter fun r => stamp r ≤ t

/-- Every step logs entries of its own time behind what is there. -/
def LogsAt (log : σ → List ρ) (stamp : ρ → ι) (step : σ → ι → Except ε σ) : Prop :=
  ∀ s i s', step s i = .ok s' → ∃ rs, log s' = log s ++ rs ∧ ∀ r ∈ rs, stamp r = i

/-- Late steps log nothing early. -/
theorem logged_of_late (hlog : LogsAt log stamp step) (hlate : ∀ i ∈ times, t < i)
    (h : times.foldlM step s = .ok s') : logged stamp t (log s') = logged stamp t (log s) := by
  induction times generalizing s with
  | nil =>
    obtain rfl := Except.ok.inj h
    rfl
  | cons i times ih =>
    obtain ⟨s₁, hstep, hrest⟩ := foldlM_cons_ok h
    obtain ⟨rs, hrs, hstamp⟩ := hlog s i s₁ hstep
    have hi : t < i := hlate i List.mem_cons_self
    have hnone : logged stamp t rs = [] := by
      rw [logged, List.filter_eq_nil_iff]
      intro r hr
      rw [hstamp r hr]
      simpa using hi
    rw [ih (fun j hj => hlate j (List.mem_cons_of_mem _ hj)) hrest, hrs]
    unfold logged at hnone ⊢
    rw [List.filter_append, hnone, List.append_nil]

end Logs

variable {ι D σ ε ρ : Type} [LinearOrder ι] {cut : ι → D → D} {times : D → List ι}
  {step : D → σ → ι → Except ε σ} {log : σ → List ρ} {stamp : ρ → ι} {d d₁ d₂ : D} {s s₁ s₂ : σ}
  {t : ι}

/-- Up to `t`, the loop goes over the same times for `cut t d` and takes the same steps. -/
structure Causal (cut : ι → D → D) (times : D → List ι) (step : D → σ → ι → Except ε σ) : Prop where
  sorted : ∀ d, (times d).Pairwise (· < ·)
  times_cut : ∀ d t, times (cut t d) = (times d).filter (· ≤ t)
  step_cut : ∀ d t s i, i ∈ times d → i ≤ t → step (cut t d) s i = step d s i

/-- A loop that comes to its end has passed the end of the loop over `cut t d`. -/
theorem Causal.run_cut (h : Causal cut times step) (t : ι)
    (hrun : (times d).foldlM (step d) s = .ok s₁) :
    ∃ s', (times (cut t d)).foldlM (step (cut t d)) s = .ok s' ∧
      ((times d).filter (t < ·)).foldlM (step d) s' = .ok s₁ := by
  have hsplit := @filter_append_filter _ _ (times d) t ((h.sorted d).imp le_of_lt)
  rw [hsplit] at hrun
  obtain ⟨s', hbefore, hafter⟩ := foldlM_append_ok hrun
  refine ⟨s', ?_, hafter⟩
  rw [h.times_cut, ← hbefore]
  refine foldlM_congr fun i hi s => ?_
  obtain ⟨hmem, hle⟩ := List.mem_filter.mp hi
  exact h.step_cut d t s i hmem (by simpa using hle)

/-- Data that agree up to `t` give the same log up to `t`. -/
theorem Causal.logged_eq (h : Causal cut times step) (hlog : ∀ d, LogsAt log stamp (step d))
    (hcut : cut t d₁ = cut t d₂) (hrun₁ : (times d₁).foldlM (step d₁) s = .ok s₁)
    (hrun₂ : (times d₂).foldlM (step d₂) s = .ok s₂) :
    logged stamp t (log s₁) = logged stamp t (log s₂) := by
  obtain ⟨s', hpast, hlate₁⟩ := h.run_cut t hrun₁
  obtain ⟨s'', hpast₂, hlate₂⟩ := h.run_cut t hrun₂
  rw [← hcut, hpast] at hpast₂
  obtain rfl := Except.ok.inj hpast₂
  have hbehind : ∀ d, ∀ i ∈ (times d).filter (t < ·), t < i := by
    intro d i hi
    simpa using (List.mem_filter.mp hi).2
  rw [logged_of_late (hlog d₁) (hbehind d₁) hlate₁, logged_of_late (hlog d₂) (hbehind d₂) hlate₂]

end DatedLoop
