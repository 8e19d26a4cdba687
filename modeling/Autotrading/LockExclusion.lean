import Autotrading.DistributedLock

/-!
# Mutual exclusion of the sections

The keys carry no token, so it is the time that keeps sections apart: while every client in a
section is before the expiry of what it stored, the key holds what it stored. Nobody else is
let in, and the release removes the client's own entry.
-/
namespace Autotrading

open Machine Prog

variable {B : Type} {A : B → Type} {ρ : Type}

/-! ## Redis -/

namespace LockWorld
variable (env : LockEnv A ρ) (w : LockWorld ρ)

/-- What a call does to the keys. -/
theorem locks_handle (o : LockOp B) :
    (handle env o w).2.locks = w.locks ∨
      (∃ key ttlSeconds, o = .setNxEx key ttlSeconds ∧ w.held key = false ∧
        (handle env o w).2.locks =
          Function.update w.locks key (some (w.now + ttlSeconds * 1000000))) ∨
      ∃ key, o = .delete key ∧ (handle env o w).2.locks = Function.update w.locks key none := by
  have heffect : (w.effect env o).2.locks = w.locks ∨
      (∃ key ttlSeconds, o = .setNxEx key ttlSeconds ∧ w.held key = false ∧
        (w.effect env o).2.locks =
          Function.update w.locks key (some (w.now + ttlSeconds * 1000000))) ∨
      ∃ key, o = .delete key ∧ (w.effect env o).2.locks = Function.update w.locks key none := by
    cases o with
    | setNxEx key ttlSeconds =>
      by_cases hzero : ttlSeconds = 0
      · exact .inl (by simp [effect, hzero])
      · by_cases hheld : w.held key = true
        · exact .inl (by simp [effect, hzero, hheld])
        · rw [Bool.not_eq_true] at hheld
          exact .inr (.inl ⟨key, ttlSeconds, rfl, hheld, by simp [effect, hzero, hheld]⟩)
    | delete key => exact .inr (.inr ⟨key, rfl, rfl⟩)
    | other b => exact .inl rfl
  unfold handle
  split
  · exact heffect
  · exact heffect
  · exact .inl rfl

/-- Who is let in stored its own entry under a free key. -/
theorem acquired_handle {key : String} {ttlSeconds : ℕ}
    (h : (handle env (.setNxEx key ttlSeconds) w).1 = .ok true) :
    w.held key = false ∧ (handle env (.setNxEx key ttlSeconds) w).2.locks =
      Function.update w.locks key (some (w.now + ttlSeconds * 1000000)) := by
  unfold handle at h ⊢
  split at h
  · by_cases hzero : ttlSeconds = 0
    · simp [effect, hzero] at h
    · by_cases hheld : w.held key = true
      · simp [effect, hzero, hheld] at h
      · rw [Bool.not_eq_true] at hheld
        exact ⟨hheld, by simp [effect, hzero, hheld]⟩
  · cases h
  · cases h

end LockWorld

/-! ## Clients -/

/-- A client: it runs its body under a lock. -/
structure LockClient {B : Type} (A : B → Type) where
  key : String
  ttlSeconds : ℕ
  body : Prog B A PyExc Unit

def LockClient.program (c : LockClient A) : LockProgram A Unit :=
  distributedLock c.key c.ttlSeconds c.body.inSection

abbrev LockEntry (A : B → Type) : Type := ℕ × (o : LockOp B) × Except PyExc (LockAns A o)

abbrev LockCalls (A : B → Type) : Type := History (LockOp B) (LockAns A) PyExc

def grantedAt (time : ℕ) : Except PyExc Bool → Option ℕ
  | .ok true => some time
  | _ => none

theorem grantedAt_isSome {time : ℕ} {r : Except PyExc Bool} (h : (grantedAt time r).isSome) :
    r = .ok true := by
  unfold grantedAt at h
  split at h
  · rfl
  · cases h

/-- The time of a call that took the key. -/
def acquisition : LockEntry A → Option ℕ
  | (time, ⟨.setNxEx _ _, r⟩) => grantedAt time r
  | _ => none

def acquiredAt (h : LockCalls A) : Option ℕ := h.findSome? acquisition

def isRelease : LockEntry A → Bool
  | (_, ⟨.delete _, _⟩) => true
  | _ => false

abbrev ClientTask (A : B → Type) : Type := Task (LockOp B) (LockAns A) PyExc (LockClient A)

/-- The client has taken the key, and its release has not come back. -/
def insideSection (t : ClientTask A) : Bool :=
  (acquiredAt t.history).isSome && !t.history.any isRelease && !t.prog.isEnded

/-- When the key that the client took expires. -/
def lockExpiry (t : ClientTask A) : ℕ :=
  (acquiredAt t.history).getD 0 + t.label.ttlSeconds * 1000000

abbrev LockSys (A : B → Type) (ρ : Type) : Type :=
  Sys (LockOp B) (LockAns A) PyExc (LockWorld ρ) (LockClient A)

/-- Every client in a section is before the expiry of its key. -/
def SectionsInTime (s : LockSys A ρ) (_ : Event (LockClient A) ℕ) : Prop :=
  ∀ t ∈ s.tasks, insideSection t = true → s.state.now < lockExpiry t

instance (s : LockSys A ρ) (e : Event (LockClient A) ℕ) : Decidable (SectionsInTime s e) :=
  inferInstanceAs (Decidable (∀ t ∈ s.tasks, _))

/-! ## What a client calls -/

/-- A client takes its key first, and calls anything else only when it got it. -/
def Disciplined (c : LockClient A) (h : LockCalls A) : LockOp B → Prop
  | .setNxEx key ttlSeconds => key = c.key ∧ ttlSeconds = c.ttlSeconds ∧ h = []
  | .delete key => key = c.key ∧ (acquiredAt h).isSome ∧ h.any isRelease = false
  | .other _ => (acquiredAt h).isSome

/-- The client has taken the key and not let go of it. -/
def Entered (h : LockCalls A) : Prop := (acquiredAt h).isSome ∧ h.any isRelease = false

theorem acquiredAt_append {h : LockCalls A} (hh : (acquiredAt h).isSome) (x : LockEntry A) :
    acquiredAt (h ++ [x]) = acquiredAt h := by
  obtain ⟨time, htime⟩ := Option.isSome_iff_exists.mp hh
  unfold acquiredAt at *
  rw [List.findSome?_append, htime, Option.some_or]

theorem Entered.append {h : LockCalls A} (hh : Entered h) {x : LockEntry A}
    (hx : isRelease x = false) : Entered (h ++ [x]) := by
  constructor
  · rw [acquiredAt_append hh.1]
    exact hh.1
  · rw [List.any_append, hh.2, List.any_cons, hx, List.any_nil]
    rfl

theorem along_inSection {α : Type} {c : LockClient A} {h : LockCalls A} (p : Prog B A PyExc α)
    (hh : Entered h) : Along (Disciplined c) (fun h' _ => Entered h') h p.inSection := by
  induction p generalizing h with
  | ret a => exact (along_ret a).mpr hh
  | raise e => exact (along_raise e).mpr hh
  | call b k ih =>
    rw [Prog.inSection, along_call]
    refine ⟨hh.1, fun n r => ih r (hh.append ?_)⟩
    rfl

/-- A client is disciplined. -/
theorem safe_program (c : LockClient A) : Safe (Disciplined c) [] c.program := by
  unfold LockClient.program distributedLock acquireLock
  have hacquire : Along (Disciplined c)
      (fun h' r => r = .ok true → Entered h') [] (perform (LockOp.setNxEx c.key c.ttlSeconds)) := by
    have hfirst : Disciplined c [] (.setNxEx c.key c.ttlSeconds) := ⟨rfl, rfl, rfl⟩
    refine .perform hfirst ?_
    rintro n r rfl
    exact ⟨rfl, rfl⟩
  refine hacquire.bind_safe fun h₁ acquired _ hentered => ?_
  cases acquired with
  | false => exact safe_raise _
  | true =>
    refine (along_inSection c.body (hentered rfl)).attempt fun h₂ r _ hh₂ => ?_
    refine Safe.bind ?_ fun h₃ _ _ => safe_ofExcept r
    have hrelease : Disciplined c h₂ (.delete c.key) := ⟨rfl, hh₂⟩
    refine Safe.tryExcept (safe_perform hrelease) fun h₃ e _ => ?_
    split
    · exact safe_pure ()
    · exact safe_raise e

/-! ## The invariant -/

/-- A key holds what the one client in its section stored. -/
structure Owned (s : LockSys A ρ) : Prop where
  disciplined : Obeys Disciplined s
  stored : ∀ t ∈ s.tasks, insideSection t = true → s.state.locks t.label.key = some (lockExpiry t)
  alone : ∀ (i j : ℕ) (t u : ClientTask A), s.tasks[i]? = some t → s.tasks[j]? = some u →
    insideSection t = true → insideSection u = true → t.label.key = u.label.key → i = j

section Steps
variable {env : LockEnv A ρ} {s : LockSys A ρ}

theorem insideSection_iff {t : ClientTask A} :
    insideSection t = true ↔ Entered t.history ∧ t.prog.isEnded = false := by
  simp [insideSection, Entered, and_assoc]

/-- While a client is in its section in time, its key is held. -/
theorem Owned.held (h : Owned s) {e : Event (LockClient A) ℕ} (htime : SectionsInTime s e)
    {t : ClientTask A} (ht : t ∈ s.tasks) (hin : insideSection t = true) :
    s.state.held t.label.key = true := by
  rw [LockWorld.held, h.stored t ht hin, Option.any_some, decide_eq_true_iff]
  exact htime t ht hin

/-- The call of one client leaves what another in its section has stored. -/
theorem Owned.others (h : Owned s) {i : ℕ} (htime : SectionsInTime s (.step i)) {t u : ClientTask A}
    {o : LockOp B} {k : Except PyExc (LockAns A o) → LockProgram A Unit}
    (ht : s.tasks[i]? = some t) (hp : t.prog = .call o k) {j : ℕ} (hij : i ≠ j)
    (hu : s.tasks[j]? = some u) (hin : insideSection u = true) :
    (LockWorld.handle env o s.state).2.locks u.label.key = s.state.locks u.label.key := by
  have hmem := List.mem_of_getElem? hu
  rcases LockWorld.locks_handle env s.state o with hsame | ⟨key, ttl, rfl, hfree, heq⟩ | ⟨key, rfl, heq⟩
  · rw [hsame]
  · have hne : u.label.key ≠ key := by
      intro hkey
      rw [← hkey, h.held htime hmem hin] at hfree
      cases hfree
    rw [heq, Function.update_of_ne hne]
  · have hcall := h.disciplined.call ht hp
    have hne : u.label.key ≠ key := by
      intro hkey
      have hinside : insideSection t = true := by
        rw [insideSection_iff, hp]
        exact ⟨hcall.2, rfl⟩
      exact hij (h.alone i j t u ht hu hinside hin (by rw [hkey, hcall.1]))
    rw [heq, Function.update_of_ne hne]

/-- A client that is in its section after a call has its own entry stored; it was there before,
or nobody was. -/
theorem Owned.own (h : Owned s) {i : ℕ} (htime : SectionsInTime s (.step i)) {t : ClientTask A}
    {o : LockOp B} {k : Except PyExc (LockAns A o) → LockProgram A Unit}
    (ht : s.tasks[i]? = some t) (hp : t.prog = .call o k)
    (hin : insideSection (t.advance s.state.now o (LockWorld.handle env o s.state).1 k) = true) :
    (LockWorld.handle env o s.state).2.locks t.label.key =
        some (lockExpiry (t.advance s.state.now o (LockWorld.handle env o s.state).1 k)) ∧
      (insideSection t = true ∨
        ∀ u ∈ s.tasks, insideSection u = true → u.label.key ≠ t.label.key) := by
  have hcall := h.disciplined.call ht hp
  have hentered : Entered (t.history ++ [(s.state.now, ⟨o, (LockWorld.handle env o s.state).1⟩)]) :=
    (insideSection_iff.mp hin).1
  cases o with
  | setNxEx key ttlSeconds =>
    obtain ⟨rfl, rfl, hnone⟩ := hcall
    have hgranted : (LockWorld.handle env (.setNxEx t.label.key t.label.ttlSeconds) s.state).1 =
        .ok true := by
      rw [hnone, List.nil_append] at hentered
      have hsome := hentered.1
      rw [acquiredAt, List.findSome?_singleton] at hsome
      have hgrant : (grantedAt s.state.now
          (LockWorld.handle env (.setNxEx t.label.key t.label.ttlSeconds) s.state).1).isSome := hsome
      exact grantedAt_isSome hgrant
    obtain ⟨hfree, hlocks⟩ := LockWorld.acquired_handle env s.state hgranted
    constructor
    · rw [hlocks, Function.update_self, lockExpiry]
      simp only [Task.advance, hnone, hgranted, List.nil_append]
      have hacquired : acquiredAt (A := A) [(s.state.now,
          ⟨.setNxEx t.label.key t.label.ttlSeconds, .ok true⟩)] = some s.state.now := rfl
      rw [hacquired, Option.getD_some]
    · right
      intro u hu hinside hkey
      rw [← hkey, h.held htime hu hinside] at hfree
      cases hfree
  | delete key =>
    have hnone := hentered.2
    rw [List.any_append] at hnone
    simp [isRelease] at hnone
  | other b =>
    have hinside : insideSection t = true := by
      have hnone := hentered.2
      rw [List.any_append, Bool.or_eq_false_iff] at hnone
      rw [insideSection_iff, hp]
      exact ⟨⟨hcall, hnone.1⟩, rfl⟩
    refine ⟨?_, .inl hinside⟩
    have hlocks : (LockWorld.handle env (.other b) s.state).2.locks = s.state.locks := by
      rcases LockWorld.locks_handle env s.state (.other b) with hsame | ⟨_, _, ⟨⟩, _⟩ | ⟨_, ⟨⟩, _⟩
      exact hsame
    rw [hlocks, h.stored t (List.mem_of_getElem? ht) hinside, lockExpiry, lockExpiry]
    simp only [Task.advance, acquiredAt_append hcall]

/-- A list of tasks in which those in a section are as before. -/
theorem Owned.of_same (h : Owned s) {tasks : List (ClientTask A)}
    (hdisciplined : Obeys Disciplined (⟨s.state, tasks⟩ : LockSys A ρ))
    (hsame : ∀ (j : ℕ) (t : ClientTask A), tasks[j]? = some t → insideSection t = true →
      s.tasks[j]? = some t) : Owned (⟨s.state, tasks⟩ : LockSys A ρ) where
  disciplined := hdisciplined
  stored t ht hin := by
    obtain ⟨j, hj⟩ := List.getElem?_of_mem ht
    exact h.stored t (List.mem_of_getElem? (hsame j t hj hin)) hin
  alone i j t u ht hu hint hinu := h.alone i j t u (hsame i t ht hint) (hsame j u hu hinu) hint hinu

/-- The call of a client keeps the sections apart. -/
theorem Owned.step (h : Owned s) {i : ℕ} (htime : SectionsInTime s (.step i)) {t : ClientTask A}
    {o : LockOp B} {k : Except PyExc (LockAns A o) → LockProgram A Unit}
    (ht : s.tasks[i]? = some t) (hp : t.prog = .call o k)
    (hdisciplined : Obeys Disciplined (⟨(LockWorld.handle env o s.state).2,
      s.tasks.set i (t.advance s.state.now o (LockWorld.handle env o s.state).1 k)⟩ : LockSys A ρ)) :
    Owned (⟨(LockWorld.handle env o s.state).2,
      s.tasks.set i (t.advance s.state.now o (LockWorld.handle env o s.state).1 k)⟩ :
        LockSys A ρ) := by
  -- nobody else is in the section of the client that just made a call
  have hapart (j : ℕ) (u : ClientTask A) (hij : i ≠ j) (hu : s.tasks[j]? = some u)
      (hinu : insideSection u = true)
      (hin : insideSection (t.advance s.state.now o (LockWorld.handle env o s.state).1 k) = true) :
      u.label.key ≠ t.label.key := by
    rcases (h.own htime ht hp hin).2 with hbefore | hnobody
    · intro hkey
      exact hij (h.alone i j t u ht hu hbefore hinu hkey.symm)
    · exact hnobody u (List.mem_of_getElem? hu) hinu
  refine ⟨hdisciplined, ?_, ?_⟩
  · intro u hu hinu
    obtain ⟨j, hj⟩ := List.getElem?_of_mem hu
    rcases of_getElem?_set hj with ⟨-, rfl⟩ | ⟨hij, hu⟩
    · exact (h.own htime ht hp hinu).1
    · rw [h.others htime ht hp hij hu hinu]
      exact h.stored u (List.mem_of_getElem? hu) hinu
  · intro j l u v hu hv hinu hinv hkey
    rcases of_getElem?_set hu with ⟨hj, rfl⟩ | ⟨hij, hu⟩
    · rcases of_getElem?_set hv with ⟨hl, -⟩ | ⟨hil, hv⟩
      · exact hj.symm.trans hl
      · exact absurd hkey.symm (hapart l v hil hv hinv hinu)
    · rcases of_getElem?_set hv with ⟨hl, rfl⟩ | ⟨hil, hv⟩
      · exact absurd hkey (hapart j u hij hu hinu hinv)
      · exact h.alone j l u v hu hv hinu hinv hkey

/-- One event keeps the sections apart. -/
theorem Owned.change {program : LockClient A → LockProgram A Unit}
    (hprogram : ∀ c, Safe (Disciplined c) [] (program c)) (h : Owned s)
    {e : Event (LockClient A) ℕ} {s' : LockSys A ρ} (htime : SectionsInTime s e)
    (hc : Change (lockMachine env program) s e s') : Owned s' := by
  have hdisciplined := h.disciplined.change hprogram hc
  cases hc with
  | idle => exact h
  | launched c state hl =>
    obtain rfl : s.state = state := Option.some.inj hl
    refine h.of_same hdisciplined fun j t ht hin => ?_
    rw [List.getElem?_append] at ht
    split at ht
    · exact ht
    · rw [List.mem_singleton.mp (List.mem_of_getElem? ht)] at hin
      cases hin
  | stepped i t o k ht hp => exact h.step htime ht hp hdisciplined
  | crashed i t ht =>
    refine h.of_same hdisciplined fun j u hu hin => ?_
    rcases of_getElem?_set hu with ⟨-, rfl⟩ | ⟨-, hu⟩
    · rw [insideSection_iff] at hin
      cases hin.2
    · exact hu
  | moved elapsed => exact ⟨hdisciplined, h.stored, h.alone⟩

end Steps

/-! ## Runs -/

/-- What a client has called, it called with its key. -/
theorem acquired_of_body {c : LockClient A} {h : LockCalls A}
    (h₁ : ∀ h₀ x h₂, h = h₀ ++ x :: h₂ → Disciplined c h₀ x.2.1) {x : LockEntry A} (hx : x ∈ h)
    {b : B} (hb : x.2.1 = .other b) : (acquiredAt h).isSome := by
  obtain ⟨before, after, rfl⟩ := List.append_of_mem hx
  have hcall := h₁ before x after rfl
  rw [hb] at hcall
  have hbefore : (acquiredAt before).isSome := hcall
  obtain ⟨time, htime⟩ := Option.isSome_iff_exists.mp hbefore
  unfold acquiredAt at *
  rw [List.findSome?_append, htime, Option.some_or]
  rfl

/-- In a run whose clients are in time there is never more than one of them in the section of
a key. Who releases a key removes its own entry while nobody else is in the section, and who
did not get the key calls nothing of its section. -/
theorem distributedLock_exclusive (env : LockEnv A ρ) (w : LockWorld ρ)
    (es : List (Event (LockClient A) ℕ))
    (htime : Meets (lockMachine env LockClient.program) SectionsInTime (.start w) es) :
    let s := (lockMachine env LockClient.program).run (.start w) es
    (∀ (i j : ℕ) (t u : ClientTask A), s.tasks[i]? = some t → s.tasks[j]? = some u →
      insideSection t = true → insideSection u = true → t.label.key = u.label.key → i = j) ∧
    (∀ (i : ℕ) (t : ClientTask A) (key : String) (k : Except PyExc Unit → LockProgram A Unit),
      s.tasks[i]? = some t → t.prog = .call (.delete key) k →
        s.state.locks key = some (lockExpiry t) ∧
          ∀ (j : ℕ) (u : ClientTask A), s.tasks[j]? = some u → insideSection u = true →
            u.label.key = key → j = i) ∧
    ∀ t ∈ s.tasks, (∃ x ∈ t.history, ∃ b, x.2.1 = .other b) → (acquiredAt t.history).isSome := by
  intro s
  have howned : Owned s := by
    have hstart : Owned (.start w : LockSys A ρ) := ⟨nofun, nofun, nofun⟩
    exact htime.invariant (fun _ _ _ h htime hc => h.change safe_program htime hc) hstart
  have hkept := kept_run (m := lockMachine env LockClient.program) safe_program w es
  refine ⟨howned.alone, ?_, ?_⟩
  · intro i t key k ht hp
    have hcall := howned.disciplined.call (o := .delete key) ht hp
    obtain ⟨rfl, hentered⟩ := hcall
    have hinside : insideSection t = true := by
      rw [insideSection_iff, hp]
      exact ⟨hentered, rfl⟩
    refine ⟨howned.stored t (List.mem_of_getElem? ht) hinside, ?_⟩
    intro j u hu hin hkey
    exact howned.alone j i u t hu ht hin hinside hkey
  · rintro t ht ⟨x, hx, b, hb⟩
    exact acquired_of_body (hkept.recorded t ht) hx hb

/-- Calls that do nothing and never fail. -/
def LockEnv.idle : LockEnv (fun _ : Unit => Unit) Unit := ⟨fun _ _ => none, fun _ _ _ => (.ok (), ())⟩

def tokenClient : LockClient fun _ : Unit => Unit :=
  ⟨"kis:access_token:lock", 55, .call () fun _ => .ret ()⟩

/-- Two clients that want the lock of the token. -/
def twoTokenClients : List (Event (LockClient fun _ : Unit => Unit) ℕ) :=
  [.launch tokenClient, .launch tokenClient, .step 0, .ambient 1000000, .step 1, .step 0, .step 0]

theorem distributedLock_exclusive_sample :
    let s := (lockMachine LockEnv.idle LockClient.program).run (.start ⟨fun _ => none, 0, 0, ()⟩)
      twoTokenClients
    (∀ (i j : ℕ) (t u : ClientTask fun _ : Unit => Unit), s.tasks[i]? = some t →
      s.tasks[j]? = some u → insideSection t = true → insideSection u = true →
      t.label.key = u.label.key → i = j) ∧
    (∀ (i : ℕ) (t : ClientTask fun _ : Unit => Unit) (key : String)
      (k : Except PyExc Unit → LockProgram (fun _ : Unit => Unit) Unit),
      s.tasks[i]? = some t → t.prog = .call (.delete key) k →
        s.state.locks key = some (lockExpiry t) ∧
          ∀ (j : ℕ) (u : ClientTask fun _ : Unit => Unit), s.tasks[j]? = some u →
            insideSection u = true → u.label.key = key → j = i) ∧
    ∀ t ∈ s.tasks, (∃ x ∈ t.history, ∃ b, x.2.1 = .other b) → (acquiredAt t.history).isSome :=
  distributedLock_exclusive LockEnv.idle ⟨fun _ => none, 0, 0, ()⟩ twoTokenClients (by decide +kernel)

end Autotrading
