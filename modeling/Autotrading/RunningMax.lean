import Mathlib.Order.Bounds.Basic
import Mathlib.Order.MinMax
import Mathlib.Tactic.Common

/-!
# Running maxima and runs

The running maximum of a list, and the runs of a list of flags: the places where a flag is set
from one on, as many as there are without a gap.
-/
namespace RunningMax

section Maximum
variable {α : Type} [LinearOrder α] {xs : List α} {m : α} {i : ℕ}

/-- The running maximum of values that follow a maximum of `m`. -/
def cummaxFrom (m : α) : List α → List α
  | [] => []
  | x :: xs => max m x :: cummaxFrom (max m x) xs

/-- The running maximum. -/
def cummax : List α → List α
  | [] => []
  | x :: xs => x :: cummaxFrom x xs

@[simp] theorem length_cummaxFrom (m : α) (xs : List α) : (cummaxFrom m xs).length = xs.length := by
  induction xs generalizing m with
  | nil => rfl
  | cons x xs ih => simp [cummaxFrom, ih]

@[simp] theorem length_cummax (xs : List α) : (cummax xs).length = xs.length := by
  cases xs with
  | nil => rfl
  | cons x xs => simp [cummax]

theorem isGreatest_cummaxFrom {y : α} (h : (cummaxFrom m xs)[i]? = some y) :
    IsGreatest {x | x = m ∨ ∃ j ≤ i, xs[j]? = some x} y := by
  induction xs generalizing m i with
  | nil => simp [cummaxFrom] at h
  | cons x xs ih =>
    cases i with
    | zero =>
      have hy : max m x = y := by simpa [cummaxFrom] using h
      subst hy
      constructor
      · rcases max_choice m x with heq | heq
        · exact .inl heq
        · exact .inr ⟨0, le_rfl, by simp [heq]⟩
      · rintro z (rfl | ⟨j, hj, hz⟩)
        · exact le_max_left _ _
        · obtain rfl := Nat.le_zero.mp hj
          have hx : x = z := by simpa using hz
          rw [← hx]
          exact le_max_right m x
    | succ i =>
      have hrest := ih (m := max m x) (i := i) (by simpa [cummaxFrom] using h)
      constructor
      · obtain heq | ⟨j, hj, hz⟩ := hrest.1
        · rcases max_choice m x with hmax | hmax
          · exact .inl (heq.trans hmax)
          · exact .inr ⟨0, Nat.zero_le _, by simp [heq, hmax]⟩
        · exact .inr ⟨j + 1, by omega, by simpa using hz⟩
      · rintro z (rfl | ⟨j, hj, hz⟩)
        · exact (le_max_left _ _).trans (hrest.2 (.inl rfl))
        · cases j with
          | zero =>
            have hx : x = z := by simpa using hz
            rw [← hx]
            exact (le_max_right m x).trans (hrest.2 (.inl rfl))
          | succ j => exact hrest.2 (.inr ⟨j, by omega, by simpa using hz⟩)

/-- The running maximum is the greatest of the values so far. -/
theorem isGreatest_cummax {y : α} (h : (cummax xs)[i]? = some y) :
    IsGreatest {x | ∃ j ≤ i, xs[j]? = some x} y := by
  cases xs with
  | nil => simp [cummax] at h
  | cons x xs =>
    cases i with
    | zero =>
      have hy : x = y := by simpa [cummax] using h
      subst hy
      refine ⟨⟨0, le_rfl, rfl⟩, ?_⟩
      rintro z ⟨j, hj, hz⟩
      obtain rfl := Nat.le_zero.mp hj
      exact (Option.some.inj hz).ge
    | succ i =>
      have htail : (cummaxFrom x xs)[i]? = some y := by simpa [cummax] using h
      have hrest := isGreatest_cummaxFrom htail
      constructor
      · obtain rfl | ⟨j, hj, hz⟩ := hrest.1
        · exact ⟨0, Nat.zero_le _, rfl⟩
        · exact ⟨j + 1, by omega, by simpa using hz⟩
      · rintro z ⟨j, hj, hz⟩
        cases j with
        | zero => exact hrest.2 (.inl (Option.some.inj hz).symm)
        | succ j => exact hrest.2 (.inr ⟨j, by omega, by simpa using hz⟩)

end Maximum

section Runs
variable {flags : List Bool} {first stop pos i : ℕ}

/-- The places from `first` up to `stop`, without `stop`, are a run that cannot be made longer. -/
structure IsRun (flags : List Bool) (first stop : ℕ) : Prop where
  lt : first < stop
  set : ∀ i, first ≤ i → i < stop → flags[i]? = some true
  before : ∀ i, i + 1 = first → flags[i]? ≠ some true
  after : flags[stop]? ≠ some true

/-- The first place from `pos` on where the flag is not set. -/
def runEnd (flags : List Bool) (pos : ℕ) : ℕ :=
  if flags[pos]? = some true then runEnd flags (pos + 1) else pos
termination_by flags.length - pos
decreasing_by
  have hlt := (List.getElem?_eq_some_iff.mp ‹_›).1
  omega

theorem le_runEnd (flags : List Bool) (pos : ℕ) : pos ≤ runEnd flags pos := by
  fun_induction runEnd flags pos with
  | case1 pos hset ih => omega
  | case2 pos hset => exact le_rfl

theorem lt_runEnd (h : flags[pos]? = some true) : pos < runEnd flags pos := by
  rw [runEnd, if_pos h]
  exact le_runEnd flags (pos + 1)

theorem set_of_lt_runEnd (hle : pos ≤ i) (hlt : i < runEnd flags pos) : flags[i]? = some true := by
  fun_induction runEnd flags pos with
  | case1 pos hset ih =>
    by_cases heq : i = pos
    · rw [heq]
      exact hset
    · exact ih (by omega) hlt
  | case2 pos hset => omega

theorem not_set_runEnd (flags : List Bool) (pos : ℕ) : flags[runEnd flags pos]? ≠ some true := by
  fun_induction runEnd flags pos with
  | case1 pos hset ih => exact ih
  | case2 pos hset => exact hset

theorem runEnd_le (h : pos ≤ flags.length) : runEnd flags pos ≤ flags.length := by
  by_contra hgt
  have hset : flags[flags.length]? = some true := set_of_lt_runEnd h (not_le.mp hgt)
  simp at hset

/-- A set flag with none before it opens a run. -/
theorem isRun_runEnd (hset : flags[pos]? = some true)
    (hbefore : ∀ i, i + 1 = pos → flags[i]? ≠ some true) : IsRun flags pos (runEnd flags pos) where
  lt := lt_runEnd hset
  set _ hle hlt := set_of_lt_runEnd hle hlt
  before := hbefore
  after := not_set_runEnd flags pos

/-- A run ends where the first gap is. -/
theorem IsRun.stop_eq (h : IsRun flags first stop) : stop = runEnd flags first := by
  have hset := h.set first le_rfl h.lt
  rcases lt_trichotomy stop (runEnd flags first) with hlt | heq | hgt
  · exact absurd (set_of_lt_runEnd h.lt.le hlt) h.after
  · exact heq
  · exact absurd (h.set _ (lt_runEnd hset).le hgt) (not_set_runEnd flags first)

/-- No run opens inside another. -/
theorem IsRun.runEnd_le (h : IsRun flags first stop) (hlt : pos < first) :
    runEnd flags pos ≤ first := by
  by_contra hgt
  have hle : pos ≤ first - 1 := by omega
  have hset : flags[first - 1]? = some true := set_of_lt_runEnd hle (by omega)
  exact h.before (first - 1) (by omega) hset

/-- What is a run behind an open place is the run that opens there, or one behind its end. -/
theorem IsRun.eq_or_le (h : IsRun flags first stop) (hle : pos ≤ first) :
    first = pos ∧ stop = runEnd flags pos ∨ runEnd flags pos ≤ first := by
  by_cases heq : first = pos
  · subst heq
    exact .inl ⟨rfl, h.stop_eq⟩
  · exact .inr (h.runEnd_le (by omega))

end Runs

end RunningMax
