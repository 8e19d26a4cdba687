import Mathlib.Data.List.Basic
import Mathlib.Tactic.Common

/-!
# Programs as finite trees of calls

A program returns, raises, or makes one call and continues with what the call
returned or raised. `run` executes a program alone against a handler; `exec`
stops after a number of calls, which is where a crash leaves the state. `Along`
holds when every call of a program satisfies a condition that may look at the
answers received so far, whatever those answers are.
-/
namespace Autotrading

/-- A program over the operations `Op`, the answers `Ans` and the exceptions `ε`. -/
inductive Prog (Op : Type) (Ans : Op → Type) (ε α : Type) : Type
  | ret (a : α)
  | raise (e : ε)
  | call (o : Op) (k : Except ε (Ans o) → Prog Op Ans ε α)

namespace Prog

variable {Op : Type} {Ans : Op → Type} {ε α β γ σ : Type}

/-- Run `p` and continue with its outcome, normal or exceptional. -/
def attempt : Prog Op Ans ε α → (Except ε α → Prog Op Ans ε β) → Prog Op Ans ε β
  | ret a, f => f (.ok a)
  | raise e, f => f (.error e)
  | call o k, f => call o (fun r => (k r).attempt f)

instance : Monad (Prog Op Ans ε) where
  pure := ret
  bind p f := p.attempt fun
    | .ok a => f a
    | .error e => raise e

/-- `try p except e: handler e`. -/
def tryExcept (p : Prog Op Ans ε α) (handler : ε → Prog Op Ans ε α) : Prog Op Ans ε α :=
  p.attempt fun
    | .ok a => ret a
    | .error e => handler e

/-- Make one call and return its answer. -/
def perform (o : Op) : Prog Op Ans ε (Ans o) :=
  call o fun
    | .ok a => ret a
    | .error e => raise e

/-- A computation without calls, as a program. -/
def ofExcept : Except ε α → Prog Op Ans ε α
  | .ok a => ret a
  | .error e => raise e

/-- `for x in xs: f(x)`. -/
def forEach (f : β → Prog Op Ans ε Unit) : List β → Prog Op Ans ε Unit
  | [] => pure ()
  | x :: xs => do
    f x
    forEach f xs

/-- The results of the iterations that give one, in order. -/
def collect (f : β → Prog Op Ans ε (Option γ)) : List β → Prog Op Ans ε (List γ)
  | [] => pure []
  | x :: xs => do
    let y ← f x
    let ys ← collect f xs
    pure (y.toList ++ ys)

/-- The call failed in a way that `bad` marks. -/
def failedWith (bad : Op → ε → Bool) (o : Op) : Except ε (Ans o) → Bool
  | .ok _ => false
  | .error e => bad o e

/-- Run `p` and tell, with its outcome, whether a call failed in a way that `bad` marks. -/
def watch (bad : Op → ε → Bool) : Bool → Prog Op Ans ε α → Prog Op Ans ε (Bool × Except ε α)
  | seen, ret a => ret (seen, .ok a)
  | seen, raise e => ret (seen, .error e)
  | seen, call o k => call o fun r => (k r).watch bad (seen || failedWith bad o r)

theorem bind_def (p : Prog Op Ans ε α) (f : α → Prog Op Ans ε β) :
    p >>= f = p.attempt fun
      | .ok a => f a
      | .error e => raise e := rfl

@[simp] theorem raise_bind (e : ε) (f : α → Prog Op Ans ε β) :
    (raise e : Prog Op Ans ε α) >>= f = raise e := rfl

theorem attempt_attempt (p : Prog Op Ans ε α) (f : Except ε α → Prog Op Ans ε β)
    (g : Except ε β → Prog Op Ans ε γ) :
    (p.attempt f).attempt g = p.attempt fun r => (f r).attempt g := by
  induction p with
  | ret a => rfl
  | raise e => rfl
  | call o k ih => simp only [attempt, ih]

theorem bind_assoc (p : Prog Op Ans ε α) (f : α → Prog Op Ans ε β) (g : β → Prog Op Ans ε γ) :
    (p >>= f) >>= g = p >>= fun a => f a >>= g := by
  simp only [bind_def, attempt_attempt]
  congr 1
  funext r
  cases r <;> rfl

/-- The program has come to its end. -/
def isEnded : Prog Op Ans ε α → Bool
  | call _ _ => false
  | _ => true

/-! ## Running a program alone -/

/-- What a call does to the state, and its answer. -/
abbrev Handler (Op : Type) (Ans : Op → Type) (ε σ : Type) : Type :=
  (o : Op) → σ → Except ε (Ans o) × σ

def run (H : Handler Op Ans ε σ) : Prog Op Ans ε α → σ → Except ε α × σ
  | ret a, s => (.ok a, s)
  | raise e, s => (.error e, s)
  | call o k, s => run H (k (H o s).1) (H o s).2

/-- At most `n` calls of `p`, and what is left of it. -/
def exec (H : Handler Op Ans ε σ) : ℕ → Prog Op Ans ε α → σ → Prog Op Ans ε α × σ
  | n + 1, call o k, s => exec H n (k (H o s).1) (H o s).2
  | _, p, s => (p, s)

section Run
variable (H : Handler Op Ans ε σ)

@[simp] theorem run_ret (a : α) (s : σ) : run H (ret a : Prog Op Ans ε α) s = (.ok a, s) := rfl

@[simp] theorem run_pure (a : α) (s : σ) : run H (pure a : Prog Op Ans ε α) s = (.ok a, s) := rfl

@[simp] theorem run_raise (e : ε) (s : σ) :
    run H (raise e : Prog Op Ans ε α) s = (.error e, s) := rfl

@[simp] theorem run_call (o : Op) (k : Except ε (Ans o) → Prog Op Ans ε α) (s : σ) :
    run H (call o k) s = run H (k (H o s).1) (H o s).2 := rfl

theorem run_attempt (p : Prog Op Ans ε α) (f : Except ε α → Prog Op Ans ε β) (s : σ) :
    run H (p.attempt f) s = run H (f (run H p s).1) (run H p s).2 := by
  induction p generalizing s with
  | ret a => rfl
  | raise e => rfl
  | call o k ih => simp only [attempt, run_call, ih]

theorem run_bind (p : Prog Op Ans ε α) (f : α → Prog Op Ans ε β) (s : σ) :
    run H (p >>= f) s = match run H p s with
      | (.ok a, s') => run H (f a) s'
      | (.error e, s') => (.error e, s') := by
  rw [bind_def, run_attempt]
  rcases run H p s with ⟨r, s'⟩
  cases r <;> rfl

/-- What returned went through its first part. -/
theorem run_bind_ok {p : Prog Op Ans ε α} {f : α → Prog Op Ans ε β} {s s' : σ} {b : β}
    (h : run H (p >>= f) s = (.ok b, s')) :
    ∃ a s₁, run H p s = (.ok a, s₁) ∧ run H (f a) s₁ = (.ok b, s') := by
  rw [run_bind] at h
  cases hp : run H p s with
  | mk r s₁ =>
    cases r with
    | error e =>
      rw [hp] at h
      exact absurd (congrArg Prod.fst h) (by simp)
    | ok a =>
      rw [hp] at h
      exact ⟨a, s₁, rfl, h⟩

theorem run_tryExcept (p : Prog Op Ans ε α) (handler : ε → Prog Op Ans ε α) (s : σ) :
    run H (tryExcept p handler) s = match run H p s with
      | (.ok a, s') => (.ok a, s')
      | (.error e, s') => run H (handler e) s' := by
  rw [tryExcept, run_attempt]
  rcases run H p s with ⟨r, s'⟩
  cases r <;> rfl

@[simp] theorem run_perform (o : Op) (s : σ) : run H (perform o) s = H o s := by
  simp only [perform, run_call]
  rcases H o s with ⟨r, s'⟩
  cases r <;> rfl

@[simp] theorem run_ofExcept (r : Except ε α) (s : σ) :
    run H (ofExcept r : Prog Op Ans ε α) s = (r, s) := by
  cases r <;> rfl

@[simp] theorem exec_zero (p : Prog Op Ans ε α) (s : σ) : exec H 0 p s = (p, s) := by
  cases p <;> rfl

/-- The calls of `exec` are the first calls of `run`. -/
theorem run_exec (n : ℕ) (p : Prog Op Ans ε α) (s : σ) :
    run H (exec H n p s).1 (exec H n p s).2 = run H p s := by
  induction n generalizing p s with
  | zero => simp
  | succ n ih =>
    cases p with
    | ret a => rfl
    | raise e => rfl
    | call o k => simpa only [exec, run_call] using ih _ _

end Run

/-! ## Every call of a program -/

/-- The calls made so far with their answers, each with the time it was made at. -/
abbrev History (Op : Type) (Ans : Op → Type) (ε : Type) : Type :=
  List (ℕ × (o : Op) × Except ε (Ans o))

/-- Every call satisfies `Q` of the history before it, and the outcome satisfies
`post` of the whole history, for all answers. -/
def Along (Q : History Op Ans ε → Op → Prop) (post : History Op Ans ε → Except ε α → Prop) :
    History Op Ans ε → Prog Op Ans ε α → Prop
  | h, ret a => post h (.ok a)
  | h, raise e => post h (.error e)
  | h, call o k => Q h o ∧ ∀ n r, Along Q post (h ++ [(n, ⟨o, r⟩)]) (k r)

section Along
variable {Q Q' : History Op Ans ε → Op → Prop}
  {post post' : History Op Ans ε → Except ε α → Prop} {h : History Op Ans ε}

@[simp] theorem along_ret (a : α) :
    Along Q post h (ret a : Prog Op Ans ε α) ↔ post h (.ok a) := Iff.rfl

@[simp] theorem along_pure (a : α) :
    Along Q post h (pure a : Prog Op Ans ε α) ↔ post h (.ok a) := Iff.rfl

@[simp] theorem along_raise (e : ε) :
    Along Q post h (raise e : Prog Op Ans ε α) ↔ post h (.error e) := Iff.rfl

@[simp] theorem along_call (o : Op) (k : Except ε (Ans o) → Prog Op Ans ε α) :
    Along Q post h (call o k) ↔ Q h o ∧ ∀ n r, Along Q post (h ++ [(n, ⟨o, r⟩)]) (k r) :=
  Iff.rfl

@[simp] theorem along_attempt {post : History Op Ans ε → Except ε β → Prop}
    (p : Prog Op Ans ε α) (f : Except ε α → Prog Op Ans ε β) :
    Along Q post h (p.attempt f) ↔ Along Q (fun h' r => Along Q post h' (f r)) h p := by
  induction p generalizing h with
  | ret a => rfl
  | raise e => rfl
  | call o k ih => simp only [attempt, along_call, ih]

@[simp] theorem along_perform (o : Op) {post : History Op Ans ε → Except ε (Ans o) → Prop} :
    Along Q post h (perform o) ↔ Q h o ∧ ∀ n r, post (h ++ [(n, ⟨o, r⟩)]) r := by
  simp only [perform, along_call]
  refine and_congr_right fun _ => forall_congr' fun n => forall_congr' fun r => ?_
  cases r <;> rfl

@[simp] theorem along_ofExcept (r : Except ε α) :
    Along Q post h (ofExcept r : Prog Op Ans ε α) ↔ post h r := by
  cases r <;> rfl

theorem Along.mono {p : Prog Op Ans ε α} (hp : Along Q post h p)
    (hQ : ∀ h o, Q h o → Q' h o) (hpost : ∀ h r, post h r → post' h r) :
    Along Q' post' h p := by
  induction p generalizing h with
  | ret a => exact hpost _ _ hp
  | raise e => exact hpost _ _ hp
  | call o k ih => exact ⟨hQ _ _ hp.1, fun n r => ih r (hp.2 n r)⟩

/-- A watched program makes the calls of the program. What was seen of the calls so far is
read off the history. -/
theorem along_watch {bad : Op → ε → Bool} {post : History Op Ans ε → Except ε (Bool × Except ε α) → Prop}
    {seen : Bool} (hseen : seen = h.any fun x => failedWith bad x.2.1 x.2.2) (p : Prog Op Ans ε α) :
    Along Q post h (p.watch bad seen) ↔
      Along Q (fun h' r => post h' (.ok (h'.any fun x => failedWith bad x.2.1 x.2.2, r))) h p := by
  induction p generalizing h seen with
  | ret a => rw [watch, along_ret, along_ret, hseen]
  | raise e => rw [watch, along_ret, along_raise, hseen]
  | call o k ih =>
    rw [watch, along_call, along_call]
    refine and_congr_right fun _ => forall_congr' fun n => forall_congr' fun r => ih r ?_
    simp [hseen]

-- unfolding `Along` would run the program: from here on its lemmas take its place
attribute [irreducible] Along

/-- A relation that every permitted call respects relates the states before and
after a whole run. -/
theorem Along.run_rel {H : Handler Op Ans ε σ} {R : σ → σ → Prop} (hrefl : ∀ s, R s s)
    (htrans : ∀ a b c, R a b → R b c → R a c) (hQ : ∀ h o s, Q h o → R s (H o s).2)
    {p : Prog Op Ans ε α} (hp : Along Q post h p) (s : σ) : R s (run H p s).2 := by
  induction p generalizing h s with
  | ret a => exact hrefl s
  | raise e => exact hrefl s
  | call o k ih =>
    rw [along_call] at hp
    exact htrans _ _ _ (hQ h o s hp.1) (ih _ (hp.2 0 _) _)

end Along

end Prog

end Autotrading
