import Autotrading.DistributedLock

/-!
# A machine over another state

Two machines that run the same programs. Where the calls that the programs make are answered alike
over a state and over its abstraction, and lead to a state and its abstraction, so does every run.
-/
namespace Autotrading

open Prog

namespace Machine

variable {Op : Type} {Ans : Op → Type} {ε σ τ Label Move : Type}

/-- The same tasks over the abstraction of the state. -/
def Sys.mapState (abs : σ → τ) (s : Sys Op Ans ε σ Label) : Sys Op Ans ε τ Label :=
  ⟨abs s.state, s.tasks⟩

/-- What a machine does in a state, another one does in its abstraction, for calls with `Q`. -/
structure Simulates (Q : Op → Prop) (abs : σ → τ) (m : Machine Op Ans ε σ Label Move)
    (n : Machine Op Ans ε τ Label Move) : Prop where
  clock : ∀ s, n.clock (abs s) = m.clock s
  program : n.program = m.program
  launch : ∀ l s, n.launch l (abs s) = (m.launch l s).map abs
  ambient : ∀ a s, n.ambient a (abs s) = abs (m.ambient a s)
  handle : ∀ o s, Q o → n.handle o (abs s) = ((m.handle o s).1, abs (m.handle o s).2)

section Runs
variable {Q : Op → Prop} {abs : σ → τ} {m : Machine Op Ans ε σ Label Move}
  {n : Machine Op Ans ε τ Label Move} {s : Sys Op Ans ε σ Label}

theorem Simulates.next (h : Simulates Q abs m n) (hobeys : Obeys (fun _ _ o => Q o) s)
    (e : Event Label Move) : n.next (s.mapState abs) e = (m.next s e).mapState abs := by
  cases e with
  | launch l =>
    have hlaunch := h.launch l s.state
    simp only [Machine.next, Sys.mapState, hlaunch, h.program]
    cases m.launch l s.state with
    | none => rfl
    | some state => rfl
  | step i =>
    simp only [Machine.next, Sys.mapState]
    cases ht : s.tasks[i]? with
    | none => rfl
    | some t =>
      cases hp : t.prog with
      | ret a => simp only [hp]
      | raise e => simp only [hp]
      | call o k =>
        have hhandle := h.handle o s.state (hobeys.call ht hp)
        simp only [hp, hhandle, h.clock]
  | crash i =>
    simp only [Machine.next, Sys.mapState]
    cases s.tasks[i]? with
    | none => rfl
    | some t => rfl
  | ambient a =>
    have hambient := h.ambient a s.state
    simp only [Machine.next, Sys.mapState, hambient]

/-- A run of the one machine is a run of the other, with the same tasks after every event. -/
theorem Simulates.run (h : Simulates Q abs m n)
    (hprograms : ∀ l, Safe (fun _ o => Q o) [] (m.program l))
    (hobeys : Obeys (fun _ _ o => Q o) s) (es : List (Event Label Move)) :
    n.run (s.mapState abs) es = (m.run s es).mapState abs := by
  induction es generalizing s with
  | nil => rfl
  | cons e es ih =>
    have hnext : Obeys (fun _ _ o => Q o) (m.next s e) :=
      hobeys.change (Q := fun _ _ o => Q o) hprograms (m.next_change s e)
    rw [run_cons, run_cons, h.next hobeys e]
    exact ih hnext

end Runs

end Machine

/-! ## Clients of a lock -/

section Lock
variable {B : Type} {A : B → Type} {ρ π Label : Type}

/-- The same keys over the abstraction of the rest. -/
def LockWorld.mapRest (abs : ρ → π) (w : LockWorld ρ) : LockWorld π :=
  ⟨w.locks, w.now, w.tick, abs w.rest⟩

/-- A call of the section with `Q`, or one on a key. -/
def LockOp.Within (Q : B → Prop) : LockOp B → Prop
  | .other b => Q b
  | _ => True

/-- Where the calls of the sections are simulated, the clients are. -/
theorem lockMachine_simulates {Q : B → Prop} {abs : ρ → π} {env : LockEnv A ρ} {env' : LockEnv A π}
    (hfault : env'.fault = env.fault)
    (hother : ∀ b now r, Q b →
      env'.other b now (abs r) = ((env.other b now r).1, abs (env.other b now r).2))
    (program : Label → LockProgram A Unit) :
    Machine.Simulates (LockOp.Within Q) (LockWorld.mapRest abs) (lockMachine env program)
      (lockMachine env' program) := by
  have heffect : ∀ o w, LockOp.Within Q o → LockWorld.effect env' (LockWorld.mapRest abs w) o =
      ((w.effect env o).1, LockWorld.mapRest abs (w.effect env o).2) := by
    intro o w ho
    cases o with
    | setNxEx key ttlSeconds =>
      have hheld : (LockWorld.mapRest abs w).held key = w.held key := rfl
      simp only [LockWorld.effect, hheld]
      split_ifs
      · rfl
      · rfl
      · rfl
    | delete key => rfl
    | other b =>
      have hcall := hother b w.now w.rest ho
      simp only [LockWorld.effect, LockWorld.mapRest, hcall]
  constructor
  · intro w
    rfl
  · rfl
  · intro l w
    rfl
  · intro elapsed w
    rfl
  · intro o w ho
    have htick : (LockWorld.mapRest abs w).tick = w.tick := rfl
    show LockWorld.handle env' o (LockWorld.mapRest abs w) = _
    simp only [lockMachine, LockWorld.handle, hfault, htick]
    split
    · rw [heffect o w ho]
      rfl
    · rw [heffect o w ho]
      rfl
    · rfl

end Lock

end Autotrading
