import Mathlib.Data.Finset.Max
import Mathlib.Tactic.Common

/-!
# Places by mean rank

The places that values take in a list, the largest first. Equal values share theirs, and
each counts with the mean of them. `Straddles` is the one way in which choosing by the mean
rank differs from choosing the first places.
-/
namespace Ranking

variable {α : Type} [LinearOrder α] {xs : List α} {x y thr : α} {n : ℕ}

/-- The values ahead of `x`. -/
def above (xs : List α) (x : α) : ℕ := xs.countP fun y => x < y

/-- The last place that `x` shares. -/
def reach (xs : List α) (x : α) : ℕ := xs.countP fun y => x ≤ y

/-- The mean rank of `x` is one of the first `n`. -/
def Within (xs : List α) (n : ℕ) (x : α) : Prop := above xs x + reach xs x + 1 ≤ 2 * n

instance : DecidablePred (Within xs n) := fun _ => inferInstanceAs (Decidable (_ ≤ _))

/-- The values equal to `x` share the places `n` and `n + 1`. -/
def Straddles (xs : List α) (n : ℕ) (x : α) : Prop := above xs x < n ∧ n < reach xs x

instance : DecidablePred (Straddles xs n) := fun _ => inferInstanceAs (Decidable (_ ∧ _))

theorem reach_eq (xs : List α) (x : α) : reach xs x = above xs x + xs.count x := by
  unfold reach above
  induction xs with
  | nil => rfl
  | cons y ys ih =>
    rw [List.countP_cons, List.countP_cons, List.count_cons, ih]
    rcases lt_trichotomy x y with h | h | h
    · have hne : y ≠ x := ne_of_gt h
      simp [h, h.le, hne]
      omega
    · simp [h]
      omega
    · have hne : y ≠ x := ne_of_lt h
      simp [not_lt_of_gt h, not_le_of_gt h, hne]

theorem above_lt_reach (hx : x ∈ xs) : above xs x < reach xs x := by
  have hcount : 0 < xs.count x := List.count_pos_iff.mpr hx
  have hreach := reach_eq xs x
  omega

theorem above_mono (h : x ≤ y) : above xs y ≤ above xs x := by
  refine List.countP_mono_left fun z _ hz => ?_
  rw [decide_eq_true_iff] at hz ⊢
  exact h.trans_lt hz

theorem reach_mono (h : x ≤ y) : reach xs y ≤ reach xs x := by
  refine List.countP_mono_left fun z _ hz => ?_
  rw [decide_eq_true_iff] at hz ⊢
  exact h.trans hz

/-- With a value, every larger one is chosen. -/
theorem Within.mono (hx : Within xs n x) (h : x ≤ y) : Within xs n y := by
  have habove : above xs y ≤ above xs x := above_mono h
  have hreach : reach xs y ≤ reach xs x := reach_mono h
  unfold Within at hx ⊢
  omega

/-- Where no equals share the places `n` and `n + 1`, the chosen ones take the first. -/
theorem within_iff_reach_le (hx : x ∈ xs) (h : ¬ Straddles xs n x) :
    Within xs n x ↔ reach xs x ≤ n := by
  have hlt := above_lt_reach hx
  unfold Straddles at h
  unfold Within
  omega

/-- How many are above the bar `thr`. -/
def strong (xs : List α) (thr : α) : ℕ := xs.countP fun x => thr < x

/-- How many of them have a rank up to `n`. -/
def chosen (xs : List α) (n : ℕ) (thr : α) : ℕ := xs.countP fun x => thr < x ∧ Within xs n x

theorem chosen_le_strong : chosen xs n thr ≤ strong xs thr := by
  refine List.countP_mono_left fun y _ hy => ?_
  rw [decide_eq_true_iff] at hy ⊢
  exact hy.1

/-- A chosen value brings all that reach as far. -/
theorem reach_le_chosen (hthr : thr < x) (h : Within xs n x) : reach xs x ≤ chosen xs n thr := by
  refine List.countP_mono_left fun y _ hy => ?_
  rw [decide_eq_true_iff] at hy ⊢
  exact ⟨hthr.trans_le hy, h.mono hy⟩

theorem reach_le_strong (hthr : thr < x) : reach xs x ≤ strong xs thr := by
  refine List.countP_mono_left fun y _ hy => ?_
  rw [decide_eq_true_iff] at hy ⊢
  exact hthr.trans_le hy

/-- A value that is not chosen leaves the places to those ahead of it. -/
theorem chosen_le_above (h : ¬ Within xs n x) : chosen xs n thr ≤ above xs x := by
  refine List.countP_mono_left fun y _ hy => ?_
  rw [decide_eq_true_iff] at hy ⊢
  by_contra hle
  exact h (hy.2.mono (not_lt.mp hle))

/-- The chosen ones do not take more places than there are. -/
theorem chosen_le (h : ∀ x ∈ xs, thr < x → ¬ Straddles xs n x) : chosen xs n thr ≤ n := by
  by_cases hnone : chosen xs n thr = 0
  · omega
  · obtain ⟨a, ha, hchosen⟩ := List.countP_pos_iff.mp (Nat.pos_of_ne_zero hnone)
    have hne : (xs.filter fun x => thr < x ∧ Within xs n x).toFinset.Nonempty :=
      ⟨a, by simpa [ha] using hchosen⟩
    obtain ⟨m, hm, hleast⟩ := Finset.exists_min_image _ id hne
    simp only [List.mem_toFinset, List.mem_filter, decide_eq_true_iff] at hm hleast
    have hfit := (within_iff_reach_le hm.1 (h m hm.1 hm.2.1)).mp hm.2.2
    have hall : chosen xs n thr ≤ reach xs m := by
      refine List.countP_mono_left fun y hmem hy => ?_
      rw [decide_eq_true_iff] at hy ⊢
      exact hleast y ⟨hmem, hy⟩
    omega

/-- Unless all that are above the bar are chosen, every place is taken. -/
theorem strong_le_or_le_chosen (h : ∀ x ∈ xs, thr < x → ¬ Straddles xs n x) :
    strong xs thr ≤ chosen xs n thr ∨ n ≤ chosen xs n thr := by
  by_cases hall : ∀ x ∈ xs, thr < x → Within xs n x
  · left
    refine List.countP_mono_left fun y hmem hy => ?_
    rw [decide_eq_true_iff] at hy ⊢
    exact ⟨hy, hall y hmem hy⟩
  · right
    push Not at hall
    obtain ⟨a, ha, hthr, hout⟩ := hall
    have hne : (xs.filter fun x => thr < x ∧ ¬ Within xs n x).toFinset.Nonempty :=
      ⟨a, by simp [ha, hthr, hout]⟩
    -- The largest that is not chosen: all places ahead of it are taken.
    obtain ⟨m, hm, hlargest⟩ := Finset.exists_max_image _ id hne
    simp only [List.mem_toFinset, List.mem_filter, decide_eq_true_iff] at hm hlargest
    have hfull : n ≤ above xs m := by
      have hnot := h m hm.1 hm.2.1
      have hover := mt (within_iff_reach_le hm.1 hnot).mpr hm.2.2
      unfold Straddles at hnot
      omega
    have htaken : above xs m ≤ chosen xs n thr := by
      refine List.countP_mono_left fun y hmem hy => ?_
      rw [decide_eq_true_iff] at hy ⊢
      have hbar : thr < y := hm.2.1.trans hy
      refine ⟨hbar, ?_⟩
      by_contra hnot
      exact absurd hy (not_lt.mpr (hlargest y ⟨hmem, hbar, hnot⟩))
    omega

/-- The choice takes the first `n` places above the bar exactly when no equal values above
it share the places `n` and `n + 1`. -/
theorem chosen_eq_min_iff :
    chosen xs n thr = min n (strong xs thr) ↔ ∀ x ∈ xs, thr < x → ¬ Straddles xs n x := by
  constructor
  · intro heq x hx hthr hshared
    obtain ⟨hahead, hlast⟩ := hshared
    have hstrong : reach xs x ≤ strong xs thr := reach_le_strong hthr
    by_cases hin : Within xs n x
    · have hmany : reach xs x ≤ chosen xs n thr := reach_le_chosen hthr hin
      omega
    · have hfew : chosen xs n thr ≤ above xs x := chosen_le_above hin
      omega
  · intro h
    have hle := chosen_le h
    have hpart : chosen xs n thr ≤ strong xs thr := chosen_le_strong
    have hfull := strong_le_or_le_chosen h
    omega

end Ranking
