import Mathlib.Data.Finset.Basic
import Mathlib.Data.List.Induction

/-!
# A set that is restored while it is updated

Updates add elements to a set and remove them. Another party took a copy of the set and puts its
elements back one by one while the updates go on. What it puts back late is an element that an
update has removed in the meantime; the set then differs from what the updates make of it, until
the next update of that element.
-/
namespace Autotrading.RestoredSet

variable {α : Type}

inductive Update (α : Type)
  | add (a : α)
  | remove (a : α)

inductive Entry (α : Type)
  | update (u : Update α)
  | restore (a : α)

def Update.target : Update α → α
  | add a => a
  | remove a => a

def Entry.update? : Entry α → Option (Update α)
  | update u => some u
  | restore _ => none

/-- The entry is an update of the element. -/
def Entry.Updates (a : α) : Entry α → Prop
  | update u => u.target = a
  | restore _ => False

/-- The last update of the element removes it. -/
def LastRemoved (log : List (Entry α)) (a : α) : Prop :=
  ∃ before after, log = before ++ .update (.remove a) :: after ∧ ∀ e ∈ after, ¬ e.Updates a

/-- The last update of the element removes it, and it is put back after that. -/
def BroughtBack (log : List (Entry α)) (a : α) : Prop :=
  ∃ before after, log = before ++ .update (.remove a) :: after ∧ (∀ e ∈ after, ¬ e.Updates a) ∧
    .restore a ∈ after

/-- What is put back was in the set at the start, or an update has named it. -/
def Sourced (s : Finset α) (log : List (Entry α)) : Prop :=
  ∀ before a after, log = before ++ .restore a :: after → a ∈ s ∨ ∃ e ∈ before, e.Updates a

section Sets
variable [DecidableEq α]

def Update.apply (s : Finset α) : Update α → Finset α
  | add a => insert a s
  | remove a => s.erase a

def Entry.apply (s : Finset α) : Entry α → Finset α
  | update u => u.apply s
  | restore a => insert a s

/-- The set after all entries. -/
def held (s : Finset α) (log : List (Entry α)) : Finset α := log.foldl Entry.apply s

/-- What the updates of the log make of the set, one after the other. -/
def intended (s : Finset α) (log : List (Entry α)) : Finset α :=
  (log.filterMap Entry.update?).foldl Update.apply s

theorem held_append (s : Finset α) (log more : List (Entry α)) :
    held s (log ++ more) = held (held s log) more := by
  rw [held, List.foldl_append, held, held]

theorem held_concat (s : Finset α) (log : List (Entry α)) (e : Entry α) :
    held s (log ++ [e]) = e.apply (held s log) := held_append s log [e]

theorem intended_concat_update (s : Finset α) (log : List (Entry α)) (u : Update α) :
    intended s (log ++ [.update u]) = u.apply (intended s log) := by
  simp [intended, Entry.update?]

theorem intended_concat_restore (s : Finset α) (log : List (Entry α)) (a : α) :
    intended s (log ++ [.restore a]) = intended s log := by
  have hnone : [Entry.restore a].filterMap Entry.update? = [] := rfl
  rw [intended, List.filterMap_append, hnone, List.append_nil, intended]

theorem Update.mem_apply_of_ne {s : Finset α} {u : Update α} {a : α} (h : u.target ≠ a) :
    a ∈ u.apply s ↔ a ∈ s := by
  cases u with
  | add b =>
    have hne : a ≠ b := fun he => h he.symm
    simp [apply, hne]
  | remove b =>
    have hne : a ≠ b := fun he => h he.symm
    simp [apply, hne]

end Sets

/-! ## The last entry of a log -/

theorem concat_eq_iff {β : Type} {log before after : List β} {e x : β} :
    log ++ [e] = before ++ x :: after ↔
      (log = before ∧ e = x ∧ after = []) ∨
        ∃ rest, after = rest ++ [e] ∧ log = before ++ x :: rest := by
  induction after using List.reverseRecOn with
  | nil => simp [List.append_singleton_inj]
  | append_singleton rest y =>
    have hsplit : before ++ x :: (rest ++ [y]) = (before ++ x :: rest) ++ [y] := by simp
    rw [hsplit, List.append_singleton_inj]
    constructor
    · rintro ⟨hlog, rfl⟩
      exact .inr ⟨rest, rfl, hlog⟩
    · rintro (⟨-, -, hnil⟩ | ⟨rest', hrest, hlog⟩)
      · simp at hnil
      · obtain ⟨rfl, rfl⟩ := List.append_singleton_inj.mp hrest
        exact ⟨hlog, rfl⟩

variable {log : List (Entry α)} {e : Entry α} {a : α}

theorem lastRemoved_concat_of_updates (h : e.Updates a) :
    LastRemoved (log ++ [e]) a ↔ e = .update (.remove a) := by
  constructor
  · rintro ⟨before, after, hlog, hafter⟩
    rcases concat_eq_iff.mp hlog with ⟨-, he, -⟩ | ⟨rest, rfl, -⟩
    · exact he
    · exact absurd h (hafter e (by simp))
  · rintro rfl
    exact ⟨log, [], rfl, by simp⟩

/-- What does not update the element leaves its last update. -/
theorem lastRemoved_concat (h : ¬ e.Updates a) :
    LastRemoved (log ++ [e]) a ↔ LastRemoved log a := by
  constructor
  · rintro ⟨before, after, hlog, hafter⟩
    rcases concat_eq_iff.mp hlog with ⟨-, rfl, -⟩ | ⟨rest, rfl, hrest⟩
    · exact absurd rfl h
    · exact ⟨before, rest, hrest, fun x hx => hafter x (List.mem_append_left _ hx)⟩
  · rintro ⟨before, after, rfl, hafter⟩
    refine ⟨before, after ++ [e], by simp, fun x hx => ?_⟩
    rcases List.mem_append.mp hx with hx | hx
    · exact hafter x hx
    · rw [List.mem_singleton.mp hx]
      exact h

theorem BroughtBack.lastRemoved (h : BroughtBack log a) : LastRemoved log a := by
  obtain ⟨before, after, hlog, hafter, -⟩ := h
  exact ⟨before, after, hlog, hafter⟩

/-- An update of the element ends that it has been brought back. -/
theorem not_broughtBack_of_updates (h : e.Updates a) : ¬ BroughtBack (log ++ [e]) a := by
  rintro ⟨before, after, hlog, hafter, hrestore⟩
  rcases concat_eq_iff.mp hlog with ⟨-, -, rfl⟩ | ⟨rest, rfl, -⟩
  · simp at hrestore
  · exact hafter e (by simp) h

theorem broughtBack_concat (h : ¬ e.Updates a) :
    BroughtBack (log ++ [e]) a ↔ BroughtBack log a ∨ LastRemoved log a ∧ e = .restore a := by
  constructor
  · rintro ⟨before, after, hlog, hafter, hrestore⟩
    rcases concat_eq_iff.mp hlog with ⟨-, -, rfl⟩ | ⟨rest, rfl, hrest⟩
    · simp at hrestore
    · have hnone : ∀ x ∈ rest, ¬ x.Updates a := fun x hx => hafter x (List.mem_append_left _ hx)
      rcases List.mem_append.mp hrestore with hmem | hmem
      · exact .inl ⟨before, rest, hrest, hnone, hmem⟩
      · exact .inr ⟨⟨before, rest, hrest, hnone⟩, (List.mem_singleton.mp hmem).symm⟩
  · have hconcat : ∀ {after : List (Entry α)}, (∀ x ∈ after, ¬ x.Updates a) →
        ∀ x ∈ after ++ [e], ¬ x.Updates a := by
      intro after hafter x hx
      rcases List.mem_append.mp hx with hx | hx
      · exact hafter x hx
      · rw [List.mem_singleton.mp hx]
        exact h
    rintro (⟨before, after, rfl, hafter, hmem⟩ | ⟨⟨before, after, rfl, hafter⟩, rfl⟩)
    · exact ⟨before, after ++ [e], by simp, hconcat hafter, List.mem_append_left _ hmem⟩
    · exact ⟨before, after ++ [.restore a], by simp, hconcat hafter, by simp⟩

/-- A log is sourced up to its last entry. -/
theorem Sourced.of_concat {s : Finset α} (h : Sourced s (log ++ [e])) : Sourced s log := by
  intro before a after hlog
  exact h before a (after ++ [e]) (by simp [hlog])

theorem sourced_nil (s : Finset α) : Sourced s [] := by
  intro before a after hlog
  simp at hlog

theorem Sourced.concat {s : Finset α} (h : Sourced s log)
    (he : ∀ a, e = .restore a → a ∈ s ∨ ∃ x ∈ log, x.Updates a) : Sourced s (log ++ [e]) := by
  intro before a after hlog
  rcases concat_eq_iff.mp hlog with ⟨rfl, hrestore, -⟩ | ⟨rest, -, hrest⟩
  · exact he a hrestore
  · exact h before a rest hrest

/-! ## The set and what the updates make of it -/

theorem exists_updates_concat :
    (∃ x ∈ log ++ [e], x.Updates a) ↔ (∃ x ∈ log, x.Updates a) ∨ e.Updates a := by
  simp [or_and_right, exists_or]

variable [DecidableEq α] {s : Finset α}

theorem mem_intended_concat (h : ¬ e.Updates a) :
    a ∈ intended s (log ++ [e]) ↔ a ∈ intended s log := by
  cases e with
  | update u => rw [intended_concat_update, Update.mem_apply_of_ne h]
  | restore b => rw [intended_concat_restore]

/-- The last update of an element decides, and if there is none the set at the start. -/
theorem mem_intended_iff :
    a ∈ intended s log ↔ ¬ LastRemoved log a ∧ (a ∈ s ∨ ∃ e ∈ log, e.Updates a) := by
  induction log using List.reverseRecOn with
  | nil => simp [intended, LastRemoved]
  | append_singleton log e ih =>
    rw [exists_updates_concat]
    by_cases h : e.Updates a
    · rw [lastRemoved_concat_of_updates h]
      cases e with
      | restore b => exact h.elim
      | update u =>
        rw [intended_concat_update]
        obtain rfl : u.target = a := h
        cases u <;> simp [Update.apply, Update.target, Entry.Updates]
    · rw [mem_intended_concat h, lastRemoved_concat h, ih]
      simp [h]

/-- What is in the set is intended or was brought back. -/
theorem mem_held_iff (h : Sourced s log) :
    a ∈ held s log ↔ a ∈ intended s log ∨ BroughtBack log a := by
  induction log using List.reverseRecOn with
  | nil => simp [held, intended, BroughtBack]
  | append_singleton log e ih =>
    have hlog := ih h.of_concat
    rw [held_concat]
    cases e with
    | update u =>
      rw [intended_concat_update]
      by_cases hu : u.target = a
      · have hnot : ¬ BroughtBack (log ++ [.update u]) a := not_broughtBack_of_updates hu
        rw [or_iff_left hnot, Entry.apply]
        subst hu
        cases u <;> simp [Update.apply, Update.target]
      · have hbrought : BroughtBack (log ++ [.update u]) a ↔
            BroughtBack log a ∨ LastRemoved log a ∧ Entry.update u = .restore a :=
          broughtBack_concat hu
        rw [hbrought, Entry.apply, Update.mem_apply_of_ne hu, Update.mem_apply_of_ne hu, hlog]
        simp
    | restore b =>
      have hbrought : BroughtBack (log ++ [.restore b]) a ↔
          BroughtBack log a ∨ LastRemoved log a ∧ Entry.restore b = .restore a :=
        broughtBack_concat id
      rw [intended_concat_restore, hbrought, Entry.apply, Finset.mem_insert]
      by_cases hab : a = b
      · -- what is put back was removed last, or it is intended
        subst hab
        have hcases : a ∈ intended s log ∨ LastRemoved log a := by
          have hsource := h log a [] rfl
          by_cases hlast : LastRemoved log a
          · exact .inr hlast
          · exact .inl (mem_intended_iff.mpr ⟨hlast, hsource⟩)
        rcases hcases with hmem | hlast
        · simp [hmem]
        · simp [hlast]
      · have hba : b ≠ a := fun he => hab he.symm
        rw [hlog, or_iff_right hab]
        simp [hba]

theorem not_mem_intended_of_broughtBack (h : BroughtBack log a) : a ∉ intended s log := by
  rw [mem_intended_iff]
  exact fun hmem => hmem.1 h.lastRemoved

/-- The set keeps everything that is intended. -/
theorem intended_subset_held (h : Sourced s log) : intended s log ⊆ held s log :=
  fun _ ha => (mem_held_iff h).mpr (.inl ha)

/-- The set is what the updates make of it exactly if nothing is brought back. -/
theorem held_eq_intended_iff (h : Sourced s log) :
    held s log = intended s log ↔ ∀ a, ¬ BroughtBack log a := by
  constructor
  · intro heq a hbrought
    have hmem : a ∈ held s log := (mem_held_iff h).mpr (.inr hbrought)
    rw [heq] at hmem
    exact not_mem_intended_of_broughtBack hbrought hmem
  · intro hnone
    ext a
    rw [mem_held_iff h, or_iff_left (hnone a)]

/-- What is in the set was in it at the start, or an update names it. -/
theorem source_of_mem_held (h : Sourced s log) (ha : a ∈ held s log) :
    a ∈ s ∨ ∃ e ∈ log, e.Updates a := by
  rcases (mem_held_iff h).mp ha with hmem | ⟨before, after, rfl, -⟩
  · exact (mem_intended_iff.mp hmem).2
  · exact .inr ⟨.update (.remove a), by simp, rfl⟩

end Autotrading.RestoredSet
