import Autotrading.ProgramRules
import Mathlib.Algebra.Group.Defs
import Mathlib.Data.List.Induction

/-!
# Tasks interleaved over a shared state

A machine launches tasks under labels. A task makes one call at a time and any
other task may make calls in between; a crash drops what is left of a task.
Tasks stay in the list when they end, so their histories record the whole run.
-/
namespace Autotrading

open Prog

/-- What the tasks of a system run on: the effect of a call, a clock read off the
state, the program of each label, when a label may be launched, and the moves of
the surroundings. -/
structure Machine (Op : Type) (Ans : Op → Type) (ε σ Label Move : Type) where
  handle : Handler Op Ans ε σ
  clock : σ → ℕ
  program : Label → Prog Op Ans ε Unit
  launch : Label → σ → Option σ
  ambient : Move → σ → σ

namespace Machine

variable {Op : Type} {Ans : Op → Type} {ε σ Label Move : Type}

/-- A launched task: its label, the calls it made and what is left of it. -/
structure Task (Op : Type) (Ans : Op → Type) (ε Label : Type) where
  label : Label
  history : History Op Ans ε
  prog : Prog Op Ans ε Unit

structure Sys (Op : Type) (Ans : Op → Type) (ε σ Label : Type) where
  state : σ
  tasks : List (Task Op Ans ε Label)

/-- A state without tasks. -/
def Sys.start (state : σ) : Sys Op Ans ε σ Label := ⟨state, []⟩

/-- One scheduling decision. -/
inductive Event (Label Move : Type)
  | launch (l : Label)
  | step (i : ℕ)
  | crash (i : ℕ)
  | ambient (m : Move)

/-- The task after its next call. -/
def Task.advance (t : Task Op Ans ε Label) (n : ℕ) (o : Op) (r : Except ε (Ans o))
    (k : Except ε (Ans o) → Prog Op Ans ε Unit) : Task Op Ans ε Label :=
  { t with history := t.history ++ [(n, ⟨o, r⟩)], prog := k r }

/-- An event that is not possible leaves the system as it is. -/
def next (m : Machine Op Ans ε σ Label Move) (s : Sys Op Ans ε σ Label) :
    Event Label Move → Sys Op Ans ε σ Label
  | .launch l =>
    match m.launch l s.state with
    | some state => ⟨state, s.tasks ++ [⟨l, [], m.program l⟩]⟩
    | none => s
  | .step i =>
    match s.tasks[i]? with
    | some t =>
      match t.prog with
      | .call o k =>
        let r := m.handle o s.state
        ⟨r.2, s.tasks.set i (t.advance (m.clock s.state) o r.1 k)⟩
      | _ => s
    | none => s
  | .crash i =>
    match s.tasks[i]? with
    | some t => { s with tasks := s.tasks.set i { t with prog := .ret () } }
    | none => s
  | .ambient a => { s with state := m.ambient a s.state }

def run (m : Machine Op Ans ε σ Label Move) (s : Sys Op Ans ε σ Label)
    (es : List (Event Label Move)) : Sys Op Ans ε σ Label :=
  es.foldl m.next s

@[simp] theorem run_nil (m : Machine Op Ans ε σ Label Move) (s : Sys Op Ans ε σ Label) :
    m.run s [] = s := rfl

@[simp] theorem run_cons (m : Machine Op Ans ε σ Label Move) (s : Sys Op Ans ε σ Label)
    (e : Event Label Move) (es : List (Event Label Move)) :
    m.run s (e :: es) = m.run (m.next s e) es := rfl

theorem run_append (m : Machine Op Ans ε σ Label Move) (s : Sys Op Ans ε σ Label)
    (es es' : List (Event Label Move)) : m.run s (es ++ es') = m.run (m.run s es) es' :=
  List.foldl_append

/-- What one event can do. -/
inductive Change (m : Machine Op Ans ε σ Label Move) (s : Sys Op Ans ε σ Label) :
    Event Label Move → Sys Op Ans ε σ Label → Prop
  | idle (e) : Change m s e s
  | launched (l state) (h : m.launch l s.state = some state) :
      Change m s (.launch l) ⟨state, s.tasks ++ [⟨l, [], m.program l⟩]⟩
  | stepped (i t o k) (ht : s.tasks[i]? = some t) (hp : t.prog = .call o k) :
      Change m s (.step i) ⟨(m.handle o s.state).2,
        s.tasks.set i (t.advance (m.clock s.state) o (m.handle o s.state).1 k)⟩
  | crashed (i t) (ht : s.tasks[i]? = some t) :
      Change m s (.crash i) { s with tasks := s.tasks.set i { t with prog := .ret () } }
  | moved (a) : Change m s (.ambient a) { s with state := m.ambient a s.state }

theorem next_change (m : Machine Op Ans ε σ Label Move) (s : Sys Op Ans ε σ Label)
    (e : Event Label Move) : Change m s e (m.next s e) := by
  cases e with
  | launch l =>
    simp only [next]
    split
    · exact .launched l _ ‹_›
    · exact .idle _
  | step i =>
    simp only [next]
    split
    · split
      · exact .stepped i _ _ _ ‹_› ‹_›
      · exact .idle _
    · exact .idle _
  | crash i =>
    simp only [next]
    split
    · exact .crashed i _ ‹_›
    · exact .idle _
  | ambient a => exact .moved a

section Invariants
variable {m : Machine Op Ans ε σ Label Move}

/-- What every event preserves holds after every run. -/
theorem run_invariant {Inv : Sys Op Ans ε σ Label → Prop}
    (hstep : ∀ s e s', Inv s → Change m s e s' → Inv s') (es : List (Event Label Move))
    {s : Sys Op Ans ε σ Label} (h : Inv s) : Inv (m.run s es) := by
  induction es generalizing s with
  | nil => exact h
  | cons e es ih => exact ih (hstep s e _ h (m.next_change s e))

/-- What every event respects relates the ends of every run. -/
theorem run_rel {R : Sys Op Ans ε σ Label → Sys Op Ans ε σ Label → Prop} (hrefl : ∀ s, R s s)
    (htrans : ∀ a b c, R a b → R b c → R a c)
    (hstep : ∀ s e s', Change m s e s' → R s s') (es : List (Event Label Move))
    (s : Sys Op Ans ε σ Label) : R s (m.run s es) := by
  induction es generalizing s with
  | nil => exact hrefl s
  | cons e es ih => exact htrans _ _ _ (hstep s e _ (m.next_change s e)) (ih _)

/-- The element at an index after one element was replaced. -/
theorem of_getElem?_set {α : Type} {xs : List α} {i j : ℕ} {a b : α}
    (h : (xs.set i a)[j]? = some b) : (i = j ∧ b = a) ∨ (i ≠ j ∧ xs[j]? = some b) := by
  by_cases hij : i = j
  · subst hij
    by_cases hi : i < xs.length
    · rw [List.getElem?_set_self hi] at h
      exact .inl ⟨rfl, (Option.some.inj h).symm⟩
    · rw [List.getElem?_eq_none (by simp; omega)] at h
      cases h
  · rw [List.getElem?_set_ne hij] at h
    exact .inr ⟨hij, h⟩

/-- A task stays, under its label, with the calls it has made, or it makes one more. -/
theorem Change.task_next {s s' : Sys Op Ans ε σ Label} {e : Event Label Move}
    (hc : Change m s e s') {t : Task Op Ans ε Label} (ht : t ∈ s.tasks) :
    (∃ u ∈ s'.tasks, u.label = t.label ∧ u.history = t.history) ∨
      ∃ i o k, e = .step i ∧ s.tasks[i]? = some t ∧ t.prog = .call o k ∧
        s'.state = (m.handle o s.state).2 ∧ ∃ u ∈ s'.tasks, u.label = t.label ∧
          u.history = t.history ++ [(m.clock s.state, ⟨o, (m.handle o s.state).1⟩)] := by
  obtain ⟨j, hj⟩ := List.getElem?_of_mem ht
  have hother : ∀ i (v : Task Op Ans ε Label), i ≠ j → t ∈ s.tasks.set i v := by
    intro i v hij
    refine List.mem_of_getElem? (i := j) ?_
    rw [List.getElem?_set_ne hij, hj]
  have hself : ∀ i (v : Task Op Ans ε Label), s.tasks[i]? = some t → v ∈ s.tasks.set i v := by
    intro i v hi
    have hlen := (List.getElem?_eq_some_iff.mp hi).1
    exact List.mem_of_getElem? (List.getElem?_set_self hlen)
  cases hc with
  | idle => exact .inl ⟨t, ht, rfl, rfl⟩
  | launched l state hl => exact .inl ⟨t, List.mem_append_left _ ht, rfl, rfl⟩
  | stepped i u o k hu hp =>
    by_cases hij : i = j
    · rw [← hij] at hj
      obtain rfl := Option.some.inj (hu.symm.trans hj)
      exact .inr ⟨i, o, k, rfl, hu, hp, rfl, _, hself i _ hu, rfl, rfl⟩
    · exact .inl ⟨t, hother i _ hij, rfl, rfl⟩
  | crashed i u hu =>
    by_cases hij : i = j
    · rw [← hij] at hj
      obtain rfl := Option.some.inj (hu.symm.trans hj)
      exact .inl ⟨_, hself i _ hu, rfl, rfl⟩
    · exact .inl ⟨t, hother i _ hij, rfl, rfl⟩
  | moved a => exact .inl ⟨t, ht, rfl, rfl⟩

/-- Its history only grows. -/
theorem Change.task_after {s s' : Sys Op Ans ε σ Label} {e : Event Label Move}
    (hc : Change m s e s') {t : Task Op Ans ε Label} (ht : t ∈ s.tasks) :
    ∃ u ∈ s'.tasks, u.label = t.label ∧ t.history <+: u.history := by
  rcases hc.task_next ht with ⟨u, hu, hl, hh⟩ | ⟨i, o, k, -, -, -, -, u, hu, hl, hh⟩
  · exact ⟨u, hu, hl, by simp [hh]⟩
  · exact ⟨u, hu, hl, by simp [hh]⟩

theorem task_after_run (m : Machine Op Ans ε σ Label Move) (es : List (Event Label Move))
    {s : Sys Op Ans ε σ Label} {t : Task Op Ans ε Label} (ht : t ∈ s.tasks) :
    ∃ u ∈ (m.run s es).tasks, u.label = t.label ∧ t.history <+: u.history := by
  induction es generalizing s t with
  | nil => exact ⟨t, ht, rfl, List.prefix_refl _⟩
  | cons e es ih =>
    obtain ⟨u, hu, hl, hh⟩ := (m.next_change s e).task_after ht
    obtain ⟨v, hv, hl', hh'⟩ := ih hu
    exact ⟨v, hv, hl'.trans hl, hh.trans hh'⟩

/-- The task at an index was there before with the same calls, is new, or has just made
a call. -/
theorem Change.task_at {s s' : Sys Op Ans ε σ Label} {e : Event Label Move} (hc : Change m s e s')
    {i : ℕ} {t' : Task Op Ans ε Label} (ht' : s'.tasks[i]? = some t') :
    (∃ t, s.tasks[i]? = some t ∧ t.label = t'.label ∧ t.history = t'.history) ∨ t'.history = [] ∨
      ∃ t o k, e = .step i ∧ s.tasks[i]? = some t ∧ t.label = t'.label ∧ t.prog = .call o k ∧
        s'.state = (m.handle o s.state).2 ∧
        t'.history = t.history ++ [(m.clock s.state, ⟨o, (m.handle o s.state).1⟩)] := by
  cases hc with
  | idle => exact .inl ⟨t', ht', rfl, rfl⟩
  | launched l state hl =>
    rw [List.getElem?_append] at ht'
    split at ht'
    · exact .inl ⟨t', ht', rfl, rfl⟩
    · have hnew := List.mem_singleton.mp (List.mem_of_getElem? ht')
      rw [hnew]
      exact .inr (.inl rfl)
  | stepped j t o k ht hp =>
    rcases of_getElem?_set ht' with ⟨rfl, rfl⟩ | ⟨-, ht'⟩
    · exact .inr (.inr ⟨t, o, k, rfl, ht, rfl, hp, rfl, rfl⟩)
    · exact .inl ⟨t', ht', rfl, rfl⟩
  | crashed j t ht =>
    rcases of_getElem?_set ht' with ⟨rfl, rfl⟩ | ⟨-, ht'⟩
    · exact .inl ⟨t, ht, rfl, rfl⟩
    · exact .inl ⟨t', ht', rfl, rfl⟩
  | moved a => exact .inl ⟨t', ht', rfl, rfl⟩

/-- The task at an index was there before under the same label, or has just been launched. -/
theorem Change.label_at {s s' : Sys Op Ans ε σ Label} {e : Event Label Move} (hc : Change m s e s')
    {i : ℕ} {t' : Task Op Ans ε Label} (ht' : s'.tasks[i]? = some t') :
    (∃ t, s.tasks[i]? = some t ∧ t.label = t'.label) ∨
      e = .launch t'.label ∧ m.launch t'.label s.state = some s'.state ∧ i = s.tasks.length ∧
        t'.history = [] := by
  have hset : ∀ j (u v : Task Op Ans ε Label), s.tasks[j]? = some u → v.label = u.label →
      (s.tasks.set j v)[i]? = some t' → ∃ t, s.tasks[i]? = some t ∧ t.label = t'.label := by
    intro j u v hu hl hv
    rcases of_getElem?_set hv with ⟨rfl, rfl⟩ | ⟨-, hv⟩
    · exact ⟨u, hu, hl.symm⟩
    · exact ⟨t', hv, rfl⟩
  cases hc with
  | idle => exact .inl ⟨t', ht', rfl⟩
  | launched l state hl =>
    by_cases hi : i < s.tasks.length
    · rw [List.getElem?_append_left hi] at ht'
      exact .inl ⟨t', ht', rfl⟩
    · rw [List.getElem?_append_right (by omega)] at ht'
      have hzero : i - s.tasks.length = 0 := by
        by_contra hne
        rw [List.getElem?_eq_none (by simp; omega)] at ht'
        cases ht'
      rw [hzero] at ht'
      obtain rfl := Option.some.inj ht'
      exact .inr ⟨rfl, hl, by omega, rfl⟩
  | stepped j t o k ht hp =>
    exact .inl (hset j t (t.advance (m.clock s.state) o (m.handle o s.state).1 k) ht rfl ht')
  | crashed j t ht => exact .inl (hset j t { t with prog := .ret () } ht rfl ht')
  | moved a => exact .inl ⟨t', ht', rfl⟩

/-- The calls of the task at an index stay. -/
theorem Change.history_at {s s' : Sys Op Ans ε σ Label} {e : Event Label Move}
    (hc : Change m s e s') {i : ℕ} {t t' : Task Op Ans ε Label} (ht : s.tasks[i]? = some t)
    (ht' : s'.tasks[i]? = some t') : t.history <+: t'.history := by
  have hlen := (List.getElem?_eq_some_iff.mp ht).1
  have hsame : s.tasks[i]? = some t' → t.history <+: t'.history := by
    intro h
    obtain rfl := Option.some.inj (ht.symm.trans h)
    exact List.prefix_refl _
  have hset : ∀ j (u v : Task Op Ans ε Label), s.tasks[j]? = some u → u.history <+: v.history →
      (s.tasks.set j v)[i]? = some t' → t.history <+: t'.history := by
    intro j u v hu hgrown hv
    rcases of_getElem?_set hv with ⟨rfl, rfl⟩ | ⟨-, hv⟩
    · rw [Option.some.inj (ht.symm.trans hu)]
      exact hgrown
    · exact hsame hv
  cases hc with
  | idle => exact hsame ht'
  | launched l state hl =>
    rw [List.getElem?_append_left hlen] at ht'
    exact hsame ht'
  | stepped j u o k hu hp => exact hset j u _ hu (List.prefix_append _ _) ht'
  | crashed j u hu => exact hset j u { u with prog := .ret () } hu (List.prefix_refl _) ht'
  | moved a => exact hsame ht'

/-- Of two tasks that have made calls, at most one has just made one; the other was there
before with the same calls. -/
theorem Change.pair_at {s s' : Sys Op Ans ε σ Label} {e : Event Label Move} (hc : Change m s e s')
    {i j : ℕ} (hij : i ≠ j) {t₁ t₂ : Task Op Ans ε Label} (ht₁ : s'.tasks[i]? = some t₁)
    (ht₂ : s'.tasks[j]? = some t₂) (hmade₁ : t₁.history ≠ []) (hmade₂ : t₂.history ≠ []) :
    ∃ u₁ u₂, s.tasks[i]? = some u₁ ∧ s.tasks[j]? = some u₂ ∧
      u₁.label = t₁.label ∧ u₂.label = t₂.label ∧
      ((u₁.history = t₁.history ∧ u₂.history = t₂.history) ∨
        (∃ o k, u₁.prog = .call o k ∧ u₂.history = t₂.history ∧
          t₁.history = u₁.history ++ [(m.clock s.state, ⟨o, (m.handle o s.state).1⟩)]) ∨
        ∃ o k, u₂.prog = .call o k ∧ u₁.history = t₁.history ∧
          t₂.history = u₂.history ++ [(m.clock s.state, ⟨o, (m.handle o s.state).1⟩)]) := by
  rcases hc.task_at ht₁ with ⟨u₁, hu₁, hl₁, hh₁⟩ | hnil | ⟨u₁, o, k, he, hu₁, hl₁, hp, -, hh₁⟩
  · rcases hc.task_at ht₂ with ⟨u₂, hu₂, hl₂, hh₂⟩ | hnil | ⟨u₂, o, k, -, hu₂, hl₂, hp, -, hh₂⟩
    · exact ⟨u₁, u₂, hu₁, hu₂, hl₁, hl₂, .inl ⟨hh₁, hh₂⟩⟩
    · exact absurd hnil hmade₂
    · exact ⟨u₁, u₂, hu₁, hu₂, hl₁, hl₂, .inr (.inr ⟨o, k, hp, hh₁, hh₂⟩)⟩
  · exact absurd hnil hmade₁
  · rcases hc.task_at ht₂ with ⟨u₂, hu₂, hl₂, hh₂⟩ | hnil | ⟨u₂, o₂, k₂, he₂, -⟩
    · exact ⟨u₁, u₂, hu₁, hu₂, hl₁, hl₂, .inr (.inl ⟨o, k, hp, hh₂, hh₁⟩)⟩
    · exact absurd hnil hmade₂
    · rw [he] at he₂
      exact absurd (Event.step.inj he₂) hij

/-- A recorded call was recorded before, behind the same calls, or is the one just made. -/
theorem Change.split {s s' : Sys Op Ans ε σ Label} {e : Event Label Move} (hc : Change m s e s')
    {t' : Task Op Ans ε Label} (ht' : t' ∈ s'.tasks) {h₁ h₂ : History Op Ans ε}
    {x : ℕ × (o : Op) × Except ε (Ans o)} (hx : t'.history = h₁ ++ x :: h₂) :
    (∃ t ∈ s.tasks, t.label = t'.label ∧ ∃ h₃, t.history = h₁ ++ x :: h₃) ∨
      ∃ i t o k, e = .step i ∧ s.tasks[i]? = some t ∧ t.label = t'.label ∧ t.prog = .call o k ∧
        s'.state = (m.handle o s.state).2 ∧
        x = (m.clock s.state, ⟨o, (m.handle o s.state).1⟩) ∧ t.history = h₁ := by
  cases hc with
  | idle => exact .inl ⟨t', ht', rfl, h₂, hx⟩
  | launched l state hl =>
    rcases List.mem_append.mp ht' with ht' | ht'
    · exact .inl ⟨t', ht', rfl, h₂, hx⟩
    · obtain rfl := List.mem_singleton.mp ht'
      simp at hx
  | stepped i t o k ht hp =>
    rcases List.mem_or_eq_of_mem_set ht' with ht' | rfl
    · exact .inl ⟨t', ht', rfl, h₂, hx⟩
    · rcases List.eq_nil_or_concat h₂ with rfl | ⟨h₃, y, rfl⟩
      · -- the call just made is the last one of the history
        obtain ⟨hh, hx⟩ := List.append_inj' hx rfl
        have hnew := (List.cons.inj hx).1
        exact .inr ⟨i, t, o, k, rfl, ht, rfl, hp, rfl, hnew.symm, hh⟩
      · have hl : t.history ++ [(m.clock s.state, ⟨o, (m.handle o s.state).1⟩)] =
            (h₁ ++ x :: h₃) ++ [y] := by simpa [Task.advance] using hx
        exact .inl ⟨t, List.mem_of_getElem? ht, rfl, h₃, (List.append_inj' hl rfl).1⟩
  | crashed i t ht =>
    rcases List.mem_or_eq_of_mem_set ht' with ht' | rfl
    · exact .inl ⟨t', ht', rfl, h₂, hx⟩
    · exact .inl ⟨t, List.mem_of_getElem? ht, rfl, h₂, hx⟩
  | moved a => exact .inl ⟨t', ht', rfl, h₂, hx⟩

/-- A recorded call was recorded before, or is the one just made. -/
theorem Change.entry {s s' : Sys Op Ans ε σ Label} {e : Event Label Move} (hc : Change m s e s')
    {t' : Task Op Ans ε Label} (ht' : t' ∈ s'.tasks) {x : ℕ × (o : Op) × Except ε (Ans o)}
    (hx : x ∈ t'.history) :
    (∃ t ∈ s.tasks, t.label = t'.label ∧ x ∈ t.history) ∨
      ∃ i t o k, e = .step i ∧ s.tasks[i]? = some t ∧ t.label = t'.label ∧ t.prog = .call o k ∧
        s'.state = (m.handle o s.state).2 ∧
        x = (m.clock s.state, ⟨o, (m.handle o s.state).1⟩) := by
  obtain ⟨h₁, h₂, hh⟩ := List.append_of_mem hx
  rcases hc.split ht' hh with ⟨t, ht, hl, h₃, hh⟩ | ⟨i, t, o, k, he, ht, hl, hp, hstate, hnew, -⟩
  · exact .inl ⟨t, ht, hl, by simp [hh]⟩
  · exact .inr ⟨i, t, o, k, he, ht, hl, hp, hstate, hnew⟩

/-- Along every task, past and future calls satisfy `Q` of the task's own history. -/
def Obeys (Q : Label → History Op Ans ε → Op → Prop) (s : Sys Op Ans ε σ Label) : Prop :=
  ∀ t ∈ s.tasks, Safe (Q t.label) t.history t.prog

theorem Obeys.change {Q : Label → History Op Ans ε → Op → Prop}
    (hQ : ∀ l, Safe (Q l) [] (m.program l)) {s s' : Sys Op Ans ε σ Label}
    {e : Event Label Move} (h : Obeys Q s) (hc : Change m s e s') : Obeys Q s' := by
  cases hc with
  | idle => exact h
  | launched l state hl =>
    intro t ht
    rcases List.mem_append.mp ht with ht | ht
    · exact h t ht
    · obtain rfl := List.mem_singleton.mp ht
      exact hQ l
  | stepped i t o k ht hp =>
    intro u hu
    rcases List.mem_or_eq_of_mem_set hu with hu | rfl
    · exact h u hu
    · have hc := h t (List.mem_of_getElem? ht)
      rw [hp, Safe, along_call] at hc
      exact hc.2 _ _
  | crashed i t ht =>
    intro u hu
    rcases List.mem_or_eq_of_mem_set hu with hu | rfl
    · exact h u hu
    · exact safe_ret ()
  | moved a => exact h

/-- The next call of a task satisfies `Q`. -/
theorem Obeys.call {Q : Label → History Op Ans ε → Op → Prop} {s : Sys Op Ans ε σ Label}
    (h : Obeys Q s) {i : ℕ} {t : Task Op Ans ε Label} (ht : s.tasks[i]? = some t) {o : Op}
    {k : Except ε (Ans o) → Prog Op Ans ε Unit} (hp : t.prog = .call o k) :
    Q t.label t.history o := by
  have hc := h t (List.mem_of_getElem? ht)
  rw [hp, Safe, along_call] at hc
  exact hc.1

/-- Every task that comes to its end leaves a history with `post`. -/
def Concludes (post : Label → History Op Ans ε → Prop) (s : Sys Op Ans ε σ Label) : Prop :=
  ∀ t ∈ s.tasks, Along (fun _ _ => True) (fun h _ => post t.label h) t.history t.prog

theorem Concludes.change {post : Label → History Op Ans ε → Prop}
    (hpost : ∀ l, Along (fun _ _ => True) (fun h _ => post l h) [] (m.program l))
    {s s' : Sys Op Ans ε σ Label} {e : Event Label Move} (h : Concludes post s)
    (hc : Change m s e s')
    (hcrash : ∀ i t, e = .crash i → s.tasks[i]? = some t → post t.label t.history) :
    Concludes post s' := by
  cases hc with
  | idle => exact h
  | launched l state hl =>
    intro t ht
    rcases List.mem_append.mp ht with ht | ht
    · exact h t ht
    · rw [List.mem_singleton.mp ht]
      exact hpost l
  | stepped i t o k ht hp =>
    intro u hu
    rcases List.mem_or_eq_of_mem_set hu with hu | hu
    · exact h u hu
    · have hcall := h t (List.mem_of_getElem? ht)
      rw [hp, along_call] at hcall
      rw [hu]
      exact hcall.2 _ _
  | crashed i t ht =>
    intro u hu
    rcases List.mem_or_eq_of_mem_set hu with hu | hu
    · exact h u hu
    · rw [hu]
      exact (along_ret ()).mpr (hcrash i t rfl ht)
  | moved a => exact h

theorem Concludes.ended {post : Label → History Op Ans ε → Prop} {s : Sys Op Ans ε σ Label}
    (h : Concludes post s) {t : Task Op Ans ε Label} (ht : t ∈ s.tasks)
    (hend : t.prog.isEnded = true) : post t.label t.history := by
  have hpost := h t ht
  cases hp : t.prog with
  | ret a =>
    rw [hp, along_ret] at hpost
    exact hpost
  | raise e =>
    rw [hp, along_raise] at hpost
    exact hpost
  | call o k =>
    rw [hp] at hend
    cases hend

/-- Every recorded call satisfies `Q`, a condition on the state as it is now. -/
def Known (Q : σ → Label → ℕ × (o : Op) × Except ε (Ans o) → Prop)
    (s : Sys Op Ans ε σ Label) : Prop :=
  ∀ t ∈ s.tasks, ∀ x ∈ t.history, Q s.state t.label x

theorem Known.change {Q : σ → Label → ℕ × (o : Op) × Except ε (Ans o) → Prop}
    {s s' : Sys Op Ans ε σ Label} {e : Event Label Move} (h : Known Q s) (hc : Change m s e s')
    (hkeep : ∀ l x, Q s.state l x → Q s'.state l x)
    (hnew : ∀ i t o k, e = .step i → s.tasks[i]? = some t → t.prog = .call o k →
      Q (m.handle o s.state).2 t.label (m.clock s.state, ⟨o, (m.handle o s.state).1⟩)) :
    Known Q s' := by
  intro t' ht' x hx
  rcases hc.entry ht' hx with ⟨t, ht, hl, hx⟩ | ⟨i, t, o, k, he, ht, hl, hp, hstate, rfl⟩
  · rw [← hl]
    exact hkeep _ _ (h t ht x hx)
  · rw [← hl, hstate]
    exact hnew i t o k he ht hp

/-- Every recorded call satisfied `Q` of the history before it. -/
def Recorded (Q : Label → History Op Ans ε → ℕ × (o : Op) × Except ε (Ans o) → Prop)
    (s : Sys Op Ans ε σ Label) : Prop :=
  ∀ t ∈ s.tasks, ∀ h₁ x h₂, t.history = h₁ ++ x :: h₂ → Q t.label h₁ x

theorem Recorded.change {Q : Label → History Op Ans ε → ℕ × (o : Op) × Except ε (Ans o) → Prop}
    {s s' : Sys Op Ans ε σ Label} {e : Event Label Move} (h : Recorded Q s) (hc : Change m s e s')
    (hnew : ∀ i t o k, e = .step i → s.tasks[i]? = some t → t.prog = .call o k →
      Q t.label t.history (m.clock s.state, ⟨o, (m.handle o s.state).1⟩)) : Recorded Q s' := by
  intro t' ht' h₁ x h₂ hx
  rcases hc.split ht' hx with ⟨t, ht, hl, h₃, hh⟩ | ⟨i, t, o, k, he, ht, hl, hp, -, rfl, rfl⟩
  · rw [← hl]
    exact h t ht h₁ x h₃ hh
  · rw [← hl]
    exact hnew i t o k he ht hp

/-- A recorded call was made in a state that the run went through. -/
theorem exists_state_of_entry {state : σ} {es : List (Event Label Move)}
    {t : Task Op Ans ε Label} (ht : t ∈ (m.run (Sys.start state) es).tasks)
    {x : ℕ × (o : Op) × Except ε (Ans o)} (hx : x ∈ t.history) :
    ∃ es₁, es₁ <+: es ∧ x = (m.clock (m.run (Sys.start state) es₁).state,
      ⟨x.2.1, (m.handle x.2.1 (m.run (Sys.start state) es₁).state).1⟩) := by
  induction es using List.reverseRecOn generalizing t with
  | nil => cases ht
  | append_singleton es e ih =>
    rw [run_append, run_cons, run_nil] at ht
    rcases (m.next_change _ e).entry ht hx with ⟨u, hu, -, hxu⟩ | ⟨i, u, o, k, -, -, -, -, -, rfl⟩
    · obtain ⟨es₁, hes₁, hstate⟩ := ih hu hxu
      exact ⟨es₁, hes₁.trans (List.prefix_append _ _), hstate⟩
    · exact ⟨es, List.prefix_append _ _, rfl⟩

/-- Past and future calls of every task satisfy `Q`. -/
structure Kept (Q : Label → History Op Ans ε → Op → Prop) (s : Sys Op Ans ε σ Label) : Prop where
  obeys : Obeys Q s
  recorded : Recorded (fun l h x => Q l h x.2.1) s

theorem Kept.change {Q : Label → History Op Ans ε → Op → Prop}
    (hQ : ∀ l, Safe (Q l) [] (m.program l)) {s s' : Sys Op Ans ε σ Label}
    {e : Event Label Move} (h : Kept Q s) (hc : Change m s e s') : Kept Q s' :=
  ⟨h.obeys.change hQ hc, h.recorded.change hc fun _ _ _ _ _ ht hp => h.obeys.call ht hp⟩

/-- What the program of every task keeps to, the tasks of a run have kept to. -/
theorem kept_run {Q : Label → History Op Ans ε → Op → Prop}
    (hQ : ∀ l, Safe (Q l) [] (m.program l)) (state : σ) (es : List (Event Label Move)) :
    Kept Q (m.run (Sys.start state) es) := by
  refine run_invariant (fun _ _ _ h hc => h.change hQ hc) es ⟨fun t ht => ?_, fun t ht => ?_⟩
  · cases ht
  · cases ht

/-- A run in which every event is permitted by `C`, a condition on the system
before the event. -/
def Meets (m : Machine Op Ans ε σ Label Move)
    (C : Sys Op Ans ε σ Label → Event Label Move → Prop) :
    Sys Op Ans ε σ Label → List (Event Label Move) → Prop
  | _, [] => True
  | s, e :: es => C s e ∧ Meets m C (m.next s e) es

instance Meets.decidable (m : Machine Op Ans ε σ Label Move)
    (C : Sys Op Ans ε σ Label → Event Label Move → Prop) [∀ s e, Decidable (C s e)] :
    ∀ s es, Decidable (Meets m C s es)
  | _, [] => isTrue trivial
  | s, e :: es =>
    haveI := decidable m C (m.next s e) es
    inferInstanceAs (Decidable (C s e ∧ Meets m C (m.next s e) es))

theorem Meets.invariant {C : Sys Op Ans ε σ Label → Event Label Move → Prop}
    {Inv : Sys Op Ans ε σ Label → Prop}
    (hstep : ∀ s e s', Inv s → C s e → Change m s e s' → Inv s') {es : List (Event Label Move)}
    {s : Sys Op Ans ε σ Label} (hm : Meets m C s es) (h : Inv s) : Inv (m.run s es) := by
  induction es generalizing s with
  | nil => exact h
  | cons e es ih => exact ih hm.2 (hstep s e _ h hm.1 (m.next_change s e))

theorem meets_of_forall {P : Event Label Move → Prop} {es : List (Event Label Move)}
    (hes : ∀ e ∈ es, P e) {s : Sys Op Ans ε σ Label} : Meets m (fun _ e => P e) s es := by
  induction es generalizing s with
  | nil => exact trivial
  | cons e es ih =>
    exact ⟨hes e List.mem_cons_self, ih fun e' he' => hes e' (List.mem_cons_of_mem e he')⟩

/-- What every event permitted by `C` also satisfies, in front of an invariant. -/
theorem Meets.implies {C D : Sys Op Ans ε σ Label → Event Label Move → Prop}
    {Inv : Sys Op Ans ε σ Label → Prop}
    (hstep : ∀ s e, Inv s → C s e → D s e ∧ Inv (m.next s e)) {es : List (Event Label Move)}
    {s : Sys Op Ans ε σ Label} (hm : Meets m C s es) (h : Inv s) : Meets m D s es := by
  induction es generalizing s with
  | nil => exact trivial
  | cons e es ih =>
    have hnext := hstep s e h hm.1
    exact ⟨hnext.1, ih hm.2 hnext.2⟩

theorem Meets.and {C D : Sys Op Ans ε σ Label → Event Label Move → Prop}
    {es : List (Event Label Move)} {s : Sys Op Ans ε σ Label} (hC : Meets m C s es)
    (hD : Meets m D s es) : Meets m (fun s e => C s e ∧ D s e) s es := by
  induction es generalizing s with
  | nil => exact trivial
  | cons e es ih => exact ⟨⟨hC.1, hD.1⟩, ih hC.2 hD.2⟩

theorem Meets.append {C : Sys Op Ans ε σ Label → Event Label Move → Prop}
    {es es' : List (Event Label Move)} {s : Sys Op Ans ε σ Label} :
    Meets m C s (es ++ es') ↔ Meets m C s es ∧ Meets m C (m.run s es) es' := by
  induction es generalizing s with
  | nil => simp [Meets]
  | cons e es ih => simp only [List.cons_append, Meets, run_cons, ih, and_assoc]

/-! ## Accounts of a run -/

variable {A : Type} [AddMonoid A]

/-- What the events of a run amount to, each by the states around it. -/
def account (m : Machine Op Ans ε σ Label Move)
    (amount : Sys Op Ans ε σ Label → Event Label Move → Sys Op Ans ε σ Label → A) :
    Sys Op Ans ε σ Label → List (Event Label Move) → A
  | _, [] => 0
  | s, e :: es => amount s e (m.next s e) + account m amount (m.next s e) es

theorem account_eq_zero
    {amount : Sys Op Ans ε σ Label → Event Label Move → Sys Op Ans ε σ Label → A}
    {Inv : Sys Op Ans ε σ Label → Prop}
    (hstep : ∀ s e s', Inv s → Change m s e s' → Inv s' ∧ amount s e s' = 0)
    (es : List (Event Label Move)) {s : Sys Op Ans ε σ Label} (h : Inv s) :
    account m amount s es = 0 := by
  induction es generalizing s with
  | nil => rfl
  | cons e es ih =>
    have hnext := hstep s e _ h (m.next_change s e)
    rw [account, hnext.2, ih hnext.1, add_zero]

end Invariants

end Machine

end Autotrading
