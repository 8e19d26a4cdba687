import Mathlib.Data.List.Induction
import Mathlib.Tactic.Common

/-!
# Memoized functions

A memo keeps the first answer to every argument. What a function would answer may change with time;
an attempt that fails is not kept.
-/
namespace Memo

variable {α β ε : Type} [DecidableEq α]

/-- An argument, and what the function would answer to it at the time. -/
structure Attempt (α β ε : Type) where
  argument : α
  answer : Except ε β

/-- A call through the memo: the answer that is kept, or the attempt. -/
def call (memo : List (α × β)) (attempt : Attempt α β ε) : Except ε β × List (α × β) :=
  match memo.lookup attempt.argument with
  | some answer => (.ok answer, memo)
  | none =>
    match attempt.answer with
    | .ok answer => (.ok answer, (attempt.argument, answer) :: memo)
    | .error e => (.error e, memo)

/-- The memo behind calls. -/
def after (history : List (Attempt α β ε)) : List (α × β) :=
  history.foldl (fun memo attempt => (call memo attempt).2) []

/-- The first attempt for an argument that has an answer. -/
def first? (history : List (Attempt α β ε)) (a : α) : Option β :=
  history.findSome? fun attempt =>
    if attempt.argument = a then attempt.answer.toOption else none

variable {memo : List (α × β)} {attempt : Attempt α β ε} {history : List (Attempt α β ε)} {a : α}

theorem lookup_call :
    (call memo attempt).2.lookup a =
      (memo.lookup a).or (if attempt.argument = a then attempt.answer.toOption else none) := by
  unfold call
  by_cases ha : attempt.argument = a
  · rw [if_pos ha]
    cases hmemo : memo.lookup attempt.argument with
    | some answer => rw [← ha, hmemo, Option.some_or]
    | none =>
      rw [ha] at hmemo
      cases attempt.answer with
      | ok answer =>
        dsimp only
        rw [hmemo, ha, List.lookup_cons_self]
        rfl
      | error e =>
        dsimp only
        rw [hmemo]
        rfl
  · have hne : (a == attempt.argument) = false := by simpa using Ne.symm ha
    rw [if_neg ha, Option.or_none]
    cases hmemo : memo.lookup attempt.argument with
    | some answer => rfl
    | none =>
      cases attempt.answer with
      | ok answer =>
        dsimp only
        rw [List.lookup_cons, hne]
      | error e => rfl

/-- The memo has the answer of the first attempt that had one. -/
theorem lookup_after : (after history).lookup a = first? history a := by
  induction history using List.reverseRecOn with
  | nil => rfl
  | append_singleton history attempt ih =>
    unfold after at ih ⊢
    rw [List.foldl_append, List.foldl_cons, List.foldl_nil, lookup_call, ih, first?, first?,
      List.findSome?_append, List.findSome?_cons, List.findSome?_nil]
    cases (if attempt.argument = a then attempt.answer.toOption else none) with
    | none => rfl
    | some answer => rfl

/-- A call behind a history: the first answer there was, or the attempt. -/
theorem call_after : (call (after history) attempt).1 =
    (first? history attempt.argument).elim attempt.answer .ok := by
  unfold call
  rw [lookup_after]
  cases first? history attempt.argument with
  | some answer => rfl
  | none =>
    cases attempt.answer with
    | ok answer => rfl
    | error e => rfl

end Memo
