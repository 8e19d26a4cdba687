import Autotrading.KisMessages
import Autotrading.Machine
import Mathlib.Logic.Function.Basic

/-!
# Distributed locks

`app/utils/distributed_lock.py`: a key that Redis sets with `NX` and `EX`, deleted at the end
of the section, with no token of the owner. The clients run over Redis, whose clock they do
not see, and may do anything else in their sections.
-/
namespace Autotrading

open Machine Prog

/-- The calls of a client: two on a key, and whatever else its section calls. -/
inductive LockOp (B : Type)
  | setNxEx (key : String) (ttlSeconds : ℕ)
  | delete (key : String)
  | other (b : B)

section Programs
variable {B : Type} {A : B → Type}

abbrev LockAns (A : B → Type) : LockOp B → Type
  | .setNxEx _ _ => Bool
  | .delete _ => Unit
  | .other b => A b

abbrev LockProgram (A : B → Type) : Type → Type := Prog (LockOp B) (LockAns A) PyExc

/-- A section that calls nothing on the keys. -/
def Prog.inSection {α : Type} : Prog B A PyExc α → LockProgram A α
  | ret a => ret a
  | raise e => raise e
  | call b k => call (.other b) fun r => (k r).inSection

def acquireLock (key : String) (ttlSeconds : ℕ) : LockProgram A Bool :=
  perform (LockOp.setNxEx key ttlSeconds)

def releaseLock (key : String) : LockProgram A Unit := perform (LockOp.delete key)

def lockAcquisitionError (key : String) : PyExc :=
  .other "LockAcquisitionError" s!"분산락 획득 실패: key={key}"

/-- `async with distributed_lock(...)` around a body. A release that fails is logged. -/
def distributedLock {α : Type} (key : String) (ttlSeconds : ℕ) (body : LockProgram A α) :
    LockProgram A α := do
  let acquired ← acquireLock key ttlSeconds
  if !acquired then raise (lockAcquisitionError key)
  else
    body.attempt fun r => do
      tryExcept (releaseLock key) fun e => if e.isException then pure () else raise e
      ofExcept r

end Programs

/-! ## Redis -/

/-- The keys with the times they expire at, the time, and the rest of the world. -/
structure LockWorld (ρ : Type) where
  locks : String → Option ℕ
  now : ℕ
  tick : ℕ
  rest : ρ

/-- Which call fails, with what and whether Redis carried it out, and what the calls inside a
section do. -/
structure LockEnv {B : Type} (A : B → Type) (ρ : Type) where
  fault : ℕ → LockOp B → Option (PyExc × Bool)
  other : (b : B) → ℕ → ρ → Except PyExc (A b) × ρ

namespace LockWorld
variable {B : Type} {A : B → Type} {ρ : Type}

/-- The key exists. -/
def held (w : LockWorld ρ) (key : String) : Bool := (w.locks key).any fun expiry => w.now < expiry

/-- What Redis does for a call. -/
def effect (env : LockEnv A ρ) (w : LockWorld ρ) :
    (o : LockOp B) → Except PyExc (LockAns A o) × LockWorld ρ
  | .setNxEx key ttlSeconds =>
    if ttlSeconds = 0 then
      (.error (.other "ResponseError" "invalid expire time in 'set' command"), w)
    else if w.held key then (.ok false, w)
    else
      let expiry := w.now + ttlSeconds * 1000000
      (.ok true, { w with locks := Function.update w.locks key (some expiry) })
  | .delete key => (.ok (), { w with locks := Function.update w.locks key none })
  | .other b => ((env.other b w.now w.rest).1, { w with rest := (env.other b w.now w.rest).2 })

/-- A call takes place, or fails before or after it took place. -/
def handle (env : LockEnv A ρ) : Handler (LockOp B) (LockAns A) PyExc (LockWorld ρ) := fun o w =>
  match env.fault w.tick o with
  | none => ((w.effect env o).1, { (w.effect env o).2 with tick := w.tick + 1 })
  | some (e, true) => (.error e, { (w.effect env o).2 with tick := w.tick + 1 })
  | some (e, false) => (.error e, { w with tick := w.tick + 1 })

end LockWorld

/-- Clients over Redis. Time passes between the calls. -/
def lockMachine {B : Type} {A : B → Type} {ρ Label : Type} (env : LockEnv A ρ)
    (program : Label → LockProgram A Unit) :
    Machine (LockOp B) (LockAns A) PyExc (LockWorld ρ) Label ℕ where
  handle := LockWorld.handle env
  clock w := w.now
  program := program
  launch _ w := some w
  ambient elapsed w := { w with now := w.now + elapsed }

end Autotrading
