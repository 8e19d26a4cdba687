import Autotrading.RebalanceRecords

/-!
# The lock of the automatic rebalance

`SET NX EX` on one key, without an owner. Only the automatic task takes it, before it looks
at anything else, and only it deletes it, as its last call. As long as no invocation is under
way for longer than the TTL, the key in the store is that of the one invocation that holds the
lock.
-/
namespace Autotrading

open Machine Prog RebalanceRun
open Machine.Sys (start)

variable {settings : Settings} {env : Env} {s s' : System} {e : Event} {w : World} {h : Calls}

def Label.isAutomatic : Label → Bool
  | executeRebalance _ _ => true
  | _ => false

/-- The call took the lock. -/
def locks : Entry → Bool
  | (_, ⟨.acquireRebalanceLock _, .ok true⟩) => true
  | _ => false

/-- The call was to release it. -/
def unlocks : Entry → Bool
  | (_, ⟨.releaseRebalanceLock, _⟩) => true
  | _ => false

/-! ## Who uses the lock -/

def LockCall : Op → Prop
  | .acquireRebalanceLock _ => True
  | .releaseRebalanceLock => True
  | _ => False

/-- Every call of the automatic task is one of its gates, the release of a lock that it took,
or lies behind the gates. Nothing follows the release. -/
structure Guarded (settings : Settings) (force : Bool) (h : Calls) (o : Op) : Prop where
  silent : h.any unlocks = false
  gated : Gate o ∨ o = .releaseRebalanceLock ∧ h.any locks = true ∨
    ¬ LockCall o ∧ ∃ h₀, Gated settings force h₀ ∧ h₀ <+: h

/-- The other tasks do not touch the lock. -/
def LockConduct (settings : Settings) (l : Label) (h : Calls) (o : Op) : Prop :=
  match l with
  | .executeRebalance _ force => Guarded settings force h o
  | _ => ¬ LockCall o

theorem any_locks_of_gated {force : Bool} (hg : Gated settings force h) : h.any locks = true := by
  have hdue : ∀ {h₀ : Calls}, Due settings h₀ → h₀.any locks = true := by
    rintro h₀ ⟨⟩
    rfl
  cases hg with
  | forced due => exact hdue due
  | checked due => simp [hdue due]

theorem any_of_prefix {p : Entry → Bool} {h' : Calls} (hh : h <+: h') (hp : h.any p = true) :
    h'.any p = true := by
  obtain ⟨h₂, rfl⟩ := hh
  rw [List.any_append, hp, Bool.true_or]

theorem any_locks_of_answered {ttlSeconds : ℤ}
    (ha : Answered h (.acquireRebalanceLock ttlSeconds) true) : h.any locks = true := by
  obtain ⟨n, hn⟩ := ha
  exact List.any_eq_true.mpr ⟨_, hn, rfl⟩

section Automatic
variable {x : RebalanceRun} {force : Bool}

theorem allows_not_lockCall : x.Allows fun _ o => ¬ LockCall o where
  plain := by
    intro h o ho
    cases o
    all_goals first | exact False.elim ho | exact id
  cash := fun _ => id
  orders := fun _ plan _ => by
    refine ⟨⟨fun h o ho => ?_, fun _ _ _ _ => id, fun _ _ _ _ _ => id⟩, fun _ _ _ => id, fun _ => id⟩
    cases o
    all_goals first | exact False.elim ho | exact id

theorem not_lockCall_run {aborts : PyExc → Bool} :
    Safe (fun _ o => ¬ LockCall o) h (x.run aborts) := safe_run allows_not_lockCall id

theorem gated_executeRebalance :
    Safe (fun h o => Gate o ∨ o = .releaseRebalanceLock ∧ h.any locks = true ∨
      ¬ LockCall o ∧ ∃ h₀, Gated settings force h₀ ∧ h₀ <+: h) []
      (x.executeRebalance settings force) := by
  refine safe_executeRebalance (fun h o ho => .inl ho) (fun h hg => ?_) fun h hlocked =>
    .inr (.inl ⟨rfl, any_locks_of_answered hlocked⟩)
  refine not_lockCall_run.extends_calls.mono ?_ fun _ _ hr => hr
  exact fun h' o ho => .inr (.inr ⟨ho.2, h, hg, ho.1⟩)

/-- Nothing follows the release of the lock. -/
theorem silent_executeRebalance :
    Safe (fun h _ => h.any unlocks = false) [] (x.executeRebalance settings force) := by
  have hkeep : ∀ (h : Calls) (o : Op) (n : ℕ) (r : Except PyExc (Ans o)), h.any unlocks = false →
      o ≠ .releaseRebalanceLock → (h ++ [(n, ⟨o, r⟩)] : Calls).any unlocks = false := by
    intro h o n r hh ho
    have hother : unlocks (n, ⟨o, r⟩) = false := by
      cases o
      case releaseRebalanceLock => exact absurd rfl ho
      all_goals rfl
    simp [hh, hother]
  unfold executeRebalance KillSwitchService.isOn
  rw [Prog.bind_assoc]
  refine safe_perform_bind rfl fun n₀ switch => ?_
  by_cases hon : switch = some "1"
  · simp only [hon]
    exact safe_pure _
  · have hoff : (switch == some "1") = false := by simp [hon]
    simp only [hoff]
    refine safe_perform_bind rfl fun n₁ acquired => ?_
    cases acquired with
    | false => exact safe_pure _
    | true =>
      have hbody : Safe (fun _ o => o ≠ .releaseRebalanceLock) [(n₀, ⟨.getKillSwitch, .ok switch⟩),
          (n₁, ⟨.acquireRebalanceLock rebalanceLockTtlSeconds, .ok true⟩)]
          (x.executeUnderLock settings force) := by
        refine safe_executeUnderLock ?_ (fun h _ => ?_) hon
        · rintro h o ho rfl
          exact ho
        · refine not_lockCall_run.mono ?_ fun _ _ hr => hr
          rintro h' o ho rfl
          exact ho trivial
      have hsilent := (hbody.keeping hkeep rfl).mono (fun _ _ hq => hq.1) fun _ _ hr => hr
      refine Along.attempt hsilent fun h₂ outcome _ hh₂ => ?_
      exact Safe.attempt (safe_perform hh₂.1) fun _ _ _ => safe_ofExcept _

end Automatic

theorem program_lockConduct (l : Label) : Safe (LockConduct settings l) [] (l.program settings) := by
  cases l with
  | executeRebalance x force =>
    refine (silent_executeRebalance.and gated_executeRebalance).mono ?_ fun _ _ _ => trivial
    exact fun h o ho => ⟨ho.1, ho.2⟩
  | runRebalance x => exact safe_runRebalance not_lockCall_run
  | _ =>
    refine (program_not_runCall rfl).mono (fun h o ho hlock => ho ?_) fun _ _ hr => hr
    cases o
    case acquireRebalanceLock => trivial
    case releaseRebalanceLock => trivial
    all_goals exact False.elim hlock

/-! ## The invariant -/

/-- The task holds the lock. -/
def holdsRebalanceLock (t : Task) : Bool :=
  t.label.isAutomatic && !t.prog.isEnded && t.history.any locks

/-- Every call of an invocation that is under way is less than the TTL ago. -/
def WithinTtl (env : Env) (s : System) (_ : Event) : Prop :=
  ∀ t ∈ s.tasks, t.label.isAutomatic = true → t.prog.isEnded = false → ∀ y ∈ t.history,
    env.now s.state.tick < env.now y.1 + rebalanceLockTtlSeconds * 1000000

instance (env : Env) (s : System) (e : Event) : Decidable (WithinTtl env s e) :=
  inferInstanceAs (Decidable (∀ t ∈ s.tasks, t.label.isAutomatic = true →
    t.prog.isEnded = false → ∀ y ∈ t.history,
      env.now s.state.tick < env.now y.1 + rebalanceLockTtlSeconds * 1000000))

/-- Every call of an invocation that is under way was made today, in Seoul. -/
def Today (env : Env) (s : System) (_ : Event) : Prop :=
  ∀ t ∈ s.tasks, t.label.isAutomatic = true → t.prog.isEnded = false → ∀ y ∈ t.history,
    kstDate (env.now s.state.tick) = kstDate (env.now y.1)

instance (env : Env) (s : System) (e : Event) : Decidable (Today env s e) :=
  inferInstanceAs (Decidable (∀ t ∈ s.tasks, t.label.isAutomatic = true →
    t.prog.isEnded = false → ∀ y ∈ t.history,
      kstDate (env.now s.state.tick) = kstDate (env.now y.1)))

/-- The key in the store is that of the task. -/
def KeyOf (env : Env) (w : World) (t : Task) : Prop :=
  ∃ y ∈ t.history, w.rebalanceLock = some (env.now y.1 + rebalanceLockTtlSeconds * 1000000)

/-- One task at most holds the lock, and the key in the store is its own. -/
structure LockOwned (env : Env) (s : System) : Prop where
  key : ∀ t ∈ s.tasks, holdsRebalanceLock t = true → KeyOf env s.state t
  one : ∀ (i j : ℕ) (t u : Task), s.tasks[i]? = some t → s.tasks[j]? = some u →
    holdsRebalanceLock t = true → holdsRebalanceLock u = true → i = j

/-- What the lock guarantees of the automatic tasks. -/
structure Locked (settings : Settings) (env : Env) (s : System) : Prop where
  kept : Kept (LockConduct settings) s
  owned : LockOwned env s

theorem locked_start (w : World) : Locked settings env (start w) where
  kept := by
    constructor
    all_goals
      intro t ht
      cases ht
  owned := by
    constructor
    · intro t ht
      cases ht
    · intro i j t u ht
      cases ht

/-- As long as an invocation holds the lock in time, nobody takes it. -/
theorem LockOwned.locked (h : LockOwned env s) (hp : WithinTtl env s e) {t : Task}
    (ht : t ∈ s.tasks) (hh : holdsRebalanceLock t = true) :
    s.state.rebalanceLocked (env.now s.state.tick) = true := by
  obtain ⟨y, hy, hkey⟩ := h.key t ht hh
  simp only [holdsRebalanceLock, Bool.and_eq_true, Bool.not_eq_true'] at hh
  have hintime := hp t ht hh.1.1 hh.1.2 y hy
  rw [World.rebalanceLocked, hkey]
  simpa using hintime

theorem KeyOf.mono {w' : World} {t t' : Task} (hk : KeyOf env w t)
    (hlock : w'.rebalanceLock = w.rebalanceLock) (hh : t.history <+: t'.history) :
    KeyOf env w' t' := by
  obtain ⟨y, hy, hkey⟩ := hk
  exact ⟨y, hh.subset hy, by rw [hlock, hkey]⟩

/-- An event that leaves the key alone and makes no task a holder. -/
theorem LockOwned.carry (h : LockOwned env s)
    (hlock : s'.state.rebalanceLock = s.state.rebalanceLock)
    (hheld : ∀ (i : ℕ) (t' : Task), s'.tasks[i]? = some t' → holdsRebalanceLock t' = true →
      ∃ t, s.tasks[i]? = some t ∧ holdsRebalanceLock t = true ∧ t.history <+: t'.history) :
    LockOwned env s' where
  key := by
    intro t' ht' hh'
    obtain ⟨i, hi⟩ := List.getElem?_of_mem ht'
    obtain ⟨t, ht, hh, hgrown⟩ := hheld i t' hi hh'
    exact (h.key t (List.mem_of_getElem? ht) hh).mono hlock hgrown
  one := by
    intro i j t' u' ht' hu' hht' hhu'
    obtain ⟨t, ht, hht, -⟩ := hheld i t' ht' hht'
    obtain ⟨u, hu, hhu, -⟩ := hheld j u' hu' hhu'
    exact h.one i j t u ht hu hht hhu

/-- An event after which only the task at `i` may hold the lock. -/
theorem LockOwned.only {i : ℕ} (honly : ∀ (j : ℕ) (u : Task), s'.tasks[j]? = some u →
      holdsRebalanceLock u = true → j = i ∧ KeyOf env s'.state u) : LockOwned env s' where
  key := by
    intro u hu hh
    obtain ⟨j, hj⟩ := List.getElem?_of_mem hu
    exact (honly j u hj hh).2
  one := by
    intro j k u v hu hv hhu hhv
    rw [(honly j u hu hhu).1, (honly k v hv hhv).1]

/-- A task that takes the lock, or releases it, is automatic and keeps to its gates. -/
theorem LockConduct.of_lockCall {l : Label} {o : Op} (hc : LockConduct settings l h o)
    (ho : LockCall o) : ∃ x force, l = .executeRebalance x force ∧ Guarded settings force h o := by
  cases l with
  | executeRebalance x force => exact ⟨x, force, rfl, hc⟩
  | _ => exact absurd ho hc

theorem locks_of_other {o : Op} (ho : ¬ LockCall o) (n : ℕ) (a : Except PyExc (Ans o)) :
    locks (n, ⟨o, a⟩) = false := by
  cases o
  case acquireRebalanceLock ttl => exact absurd trivial ho
  all_goals rfl

section Step
variable {i : ℕ} {t : Task} {o : Op} {k : Except PyExc (Ans o) → Prog Op Ans PyExc Unit}

/-- The system after task `i` has made the call `o`. -/
def stepped (env : Env) (s : System) (i : ℕ) (t : Task) (o : Op)
    (k : Except PyExc (Ans o) → Prog Op Ans PyExc Unit) : System :=
  ⟨(World.handle env o s.state).2,
    s.tasks.set i (t.advance s.state.tick o (World.handle env o s.state).1 k)⟩

/-- A call that is not the taking of the lock makes nobody a holder. -/
theorem held_before (ht : s.tasks[i]? = some t) (hp : t.prog = .call o k)
    (hlocks : locks (s.state.tick, ⟨o, (World.handle env o s.state).1⟩) = false) :
    ∀ (j : ℕ) (u' : Task), (stepped env s i t o k).tasks[j]? = some u' →
      holdsRebalanceLock u' = true →
      ∃ u, s.tasks[j]? = some u ∧ holdsRebalanceLock u = true ∧ u.history <+: u'.history := by
  intro j u' hu' hh
  by_cases hij : i = j
  · subst hij
    rw [stepped, List.getElem?_set_self (List.getElem?_eq_some_iff.mp ht).1] at hu'
    obtain rfl := Option.some.inj hu'
    refine ⟨t, ht, ?_, List.prefix_append _ _⟩
    simp only [holdsRebalanceLock, Task.advance, List.any_append, List.any_cons, List.any_nil,
      hlocks, Bool.or_false, Bool.and_eq_true] at hh ⊢
    exact ⟨⟨hh.1.1, by simp [hp, Prog.isEnded]⟩, hh.2⟩
  · rw [stepped, List.getElem?_set_ne hij] at hu'
    exact ⟨u', hu', hh, List.prefix_refl _⟩

/-- The lock is taken when nobody holds it. -/
theorem LockOwned.acquire (h : LockOwned env s) (hintime : WithinTtl env s e)
    (ht : s.tasks[i]? = some t)
    {k : Except PyExc Bool → Prog Op Ans PyExc Unit}
    (hp : t.prog = .call (.acquireRebalanceLock rebalanceLockTtlSeconds) k) :
    LockOwned env (stepped env s i t (.acquireRebalanceLock rebalanceLockTtlSeconds) k) := by
  cases hlocks : locks (s.state.tick, ⟨.acquireRebalanceLock rebalanceLockTtlSeconds,
      (World.handle env (.acquireRebalanceLock rebalanceLockTtlSeconds) s.state).1⟩) with
  | false =>
    refine h.carry ?_ (held_before ht hp hlocks)
    rcases World.handle_cases env s.state (.acquireRebalanceLock rebalanceLockTtlSeconds)
      with ⟨e', he⟩ | he
    · rw [stepped, he]
      rfl
    · rw [he] at hlocks
      by_cases hheld : s.state.rebalanceLocked (env.now s.state.tick) = true
      · rw [stepped, he]
        simp only [World.effect, hheld, if_true]
        rfl
      · simp [World.effect, hheld, locks] at hlocks
  | true =>
    have hfree : s.state.rebalanceLocked (env.now s.state.tick) = false := by
      by_contra hheld
      rw [Bool.not_eq_false] at hheld
      rcases World.handle_cases env s.state (.acquireRebalanceLock rebalanceLockTtlSeconds)
        with ⟨e', he⟩ | he
      · rw [he] at hlocks
        cases hlocks
      · rw [he] at hlocks
        simp [World.effect, hheld, locks] at hlocks
    have hkey : (World.handle env (.acquireRebalanceLock rebalanceLockTtlSeconds)
        s.state).2.rebalanceLock =
          some (env.now s.state.tick + rebalanceLockTtlSeconds * 1000000) := by
      rcases World.handle_cases env s.state (.acquireRebalanceLock rebalanceLockTtlSeconds)
        with ⟨e', he⟩ | he
      · rw [he] at hlocks
        cases hlocks
      · rw [he]
        simp [World.effect, hfree, World.next]
    refine LockOwned.only (i := i) fun j u hu hh => ?_
    by_cases hij : i = j
    · subst hij
      rw [stepped, List.getElem?_set_self (List.getElem?_eq_some_iff.mp ht).1] at hu
      obtain rfl := Option.some.inj hu
      exact ⟨rfl, _, List.mem_append_right _ (List.mem_singleton_self _), hkey⟩
    · rw [stepped, List.getElem?_set_ne hij] at hu
      have hlocked := h.locked hintime (List.mem_of_getElem? hu) hh
      rw [hfree] at hlocked
      cases hlocked

/-- The task that releases the lock held it, and ends. -/
theorem LockOwned.release (h : LockOwned env s) {x : RebalanceRun} {force : Bool}
    (hl : t.label = .executeRebalance x force)
    (hg : Guarded settings force t.history .releaseRebalanceLock) (ht : s.tasks[i]? = some t)
    {k : Except PyExc Unit → Prog Op Ans PyExc Unit} (hp : t.prog = .call .releaseRebalanceLock k)
    (hkept : Obeys (LockConduct settings) (stepped env s i t .releaseRebalanceLock k)) :
    LockOwned env (stepped env s i t .releaseRebalanceLock k) := by
  have hlocks : t.history.any locks = true := by
    rcases hg.gated with hgate | ⟨-, hlocks⟩ | ⟨hnot, -⟩
    · exact False.elim hgate
    · exact hlocks
    · exact absurd trivial hnot
  have hholds : holdsRebalanceLock t = true := by
    simp [holdsRebalanceLock, hl, hp, hlocks, Label.isAutomatic, Prog.isEnded]
  refine LockOwned.only (i := i) fun j u hu hh => ?_
  by_cases hij : i = j
  · subst hij
    have hself := hu
    rw [stepped, List.getElem?_set_self (List.getElem?_eq_some_iff.mp ht).1] at hu
    cases hnext : u.prog with
    | ret a => simp [holdsRebalanceLock, hnext, Prog.isEnded] at hh
    | raise e => simp [holdsRebalanceLock, hnext, Prog.isEnded] at hh
    | call o' k' =>
      have hconduct := hkept.call hself hnext
      rw [← Option.some.inj hu, Task.advance, hl] at hconduct
      have hsilent := hconduct.silent
      rw [List.any_append, List.any_cons, unlocks] at hsilent
      simp at hsilent
  · rw [stepped, List.getElem?_set_ne hij] at hu
    exact absurd (h.one i j t u ht hu hholds hh) hij

end Step

/-- One event, with every invocation in time. -/
theorem Locked.change (h : Locked settings env s) (hintime : WithinTtl env s e)
    (hc : Change (autotrading settings env) s e s') : Locked settings env s' := by
  have hkept : Kept (LockConduct settings) s' := h.kept.change program_lockConduct hc
  refine ⟨hkept, ?_⟩
  cases hc with
  | idle => exact h.owned
  | launched l w' hl =>
    refine h.owned.carry (launch_fields hl).2.1 fun i t ht hh => ?_
    rw [List.getElem?_append] at ht
    split at ht
    · exact ⟨t, ht, hh, List.prefix_refl _⟩
    · rw [List.mem_singleton.mp (List.mem_of_getElem? ht)] at hh
      simp [holdsRebalanceLock] at hh
  | stepped i t o k ht hp =>
    by_cases ho : LockCall o
    · obtain ⟨x, force, hl, hg⟩ := (h.kept.obeys.call ht hp).of_lockCall ho
      cases o
      case acquireRebalanceLock ttlSeconds =>
        have httl : ttlSeconds = rebalanceLockTtlSeconds := by
          rcases hg.gated with hgate | ⟨hrelease, -⟩ | ⟨hnot, -⟩
          · exact hgate
          · cases hrelease
          · exact absurd trivial hnot
        subst httl
        exact h.owned.acquire hintime ht hp
      case releaseRebalanceLock => exact h.owned.release hl hg ht hp hkept.obeys
      all_goals exact False.elim ho
    · have hlock : (World.handle env o s.state).2.rebalanceLock = s.state.rebalanceLock := by
        refine World.rebalanceLock_handle ?_ ?_
        · rintro ttl rfl
          exact ho trivial
        · rintro rfl
          exact ho trivial
      exact h.owned.carry hlock (held_before ht hp (locks_of_other ho _ _))
  | crashed i t ht =>
    refine h.owned.carry rfl fun j u hu hh => ?_
    by_cases hij : i = j
    · subst hij
      rw [List.getElem?_set_self (List.getElem?_eq_some_iff.mp ht).1] at hu
      rw [← Option.some.inj hu] at hh
      simp [holdsRebalanceLock, Prog.isEnded] at hh
    · rw [List.getElem?_set_ne hij] at hu
      exact ⟨u, hu, hh, List.prefix_refl _⟩
  | moved a =>
    refine h.owned.carry (ambient_fields a s.state).2.1 fun j u hu hh => ?_
    exact ⟨u, hu, hh, List.prefix_refl _⟩

theorem locked_run {es : List Event}
    (hes : Meets (autotrading settings env) (WithinTtl env) (start w) es) :
    Locked settings env ((autotrading settings env).run (start w) es) :=
  hes.invariant (fun _ _ _ h hp hc => h.change hp hc) (locked_start w)

/-- The calls of an automatic task are made on one day. -/
def OnOneDay (env : Env) (l : Label) (h : Calls) (x : Entry) : Prop :=
  l.isAutomatic = true → ∀ y ∈ h, kstDate (env.now x.1) = kstDate (env.now y.1)

theorem recorded_onOneDay {es : List Event}
    (hes : Meets (autotrading settings env) (Today env) (start w) es) :
    Recorded (OnOneDay env) ((autotrading settings env).run (start w) es) := by
  have hstart : Recorded (OnOneDay env) (start w : System) := by
    intro t ht
    cases ht
  refine hes.invariant (fun s e s' h htoday hc => ?_) hstart
  refine Recorded.change h hc fun i t o k _ ht hp hl y hy => ?_
  have hlive : t.prog.isEnded = false := by rw [hp, Prog.isEnded]
  exact htoday t (List.mem_of_getElem? ht) hl hlive y hy

/-! ## Every run in time -/

/-- What an automatic task does other than its gates lies behind them. -/
theorem gated_before (h : Kept (LockConduct settings) s) {t : Task} (ht : t ∈ s.tasks)
    (hl : t.label.isAutomatic = true) {h₁ h₂ : Calls} {n : ℕ} {o : Op} {r : Except PyExc (Ans o)}
    (hh : t.history = h₁ ++ (n, ⟨o, r⟩) :: h₂) (hgate : ¬ Gate o) (hlock : ¬ LockCall o) :
    ∃ force h₀, Gated settings force h₀ ∧ h₀ <+: h₁ := by
  have hconduct := h.recorded t ht h₁ _ h₂ hh
  cases hlabel : t.label with
  | executeRebalance x force =>
    rw [hlabel] at hconduct
    rcases hconduct.gated with hg | ⟨rfl, -⟩ | ⟨-, hg⟩
    · exact absurd hg hgate
    · exact absurd trivial hlock
    · exact ⟨force, hg⟩
  | _ =>
    rw [hlabel] at hl
    cases hl

/-- An automatic run that is under way behind its gates holds the lock. -/
theorem Locked.holds (h : Locked settings env s) {t : Task} (ht : t ∈ s.tasks)
    (hl : t.label.isAutomatic = true) (hlive : t.prog.isEnded = false) {n : ℕ} {o : Op}
    {r : Except PyExc (Ans o)} (hmade : (n, ⟨o, r⟩) ∈ t.history) (hgate : ¬ Gate o)
    (hlock : ¬ LockCall o) : holdsRebalanceLock t = true := by
  obtain ⟨h₁, h₂, hh⟩ := List.append_of_mem hmade
  obtain ⟨force, h₀, hgated, hbegins⟩ := gated_before h.kept ht hl hh hgate hlock
  have hlocks : t.history.any locks = true := by
    refine any_of_prefix (hbegins.trans ?_) (any_locks_of_gated hgated)
    rw [hh]
    exact List.prefix_append _ _
  simp [holdsRebalanceLock, hl, hlive, hlocks]

/-- The two calls of the check of the window. -/
theorem exists_window_of_gated {force : Bool} (hg : Gated settings force h) :
    ∃ n m last now, (n, ⟨.lastCompletedRebalance, .ok (some last)⟩) ∈ h ∧
      (m, ⟨.now, .ok now⟩) ∈ h ∧ (window settings last).decide now = .runRebalance := by
  have hdue : ∀ {h₀ : Calls}, Due settings h₀ → ∃ n m last now,
      (n, ⟨.lastCompletedRebalance, .ok (some last)⟩) ∈ h₀ ∧ (m, ⟨.now, .ok now⟩) ∈ h₀ ∧
        (window settings last).decide now = .runRebalance := by
    intro h₀ hd
    obtain @⟨n₀, n₁, n₂, n₃, switch, last, now, hoff, hdecide⟩ := hd
    exact ⟨n₂, n₃, last, now, by simp, by simp, hdecide⟩
  cases hg with
  | forced due => exact hdue due
  | checked due =>
    obtain ⟨n, m, last, now, hlast, hnow, hdecide⟩ := hdue due
    exact ⟨n, m, last, now, by simp [hlast], by simp [hnow], hdecide⟩

/-- The call started the run of a rebalance. -/
def startsRun : Entry → Bool
  | (_, ⟨.executeStrategy, _⟩) => true
  | _ => false

/-- An automatic run that is under way. -/
def runsAutomatically (t : Task) : Bool :=
  t.label.isAutomatic && !t.prog.isEnded && t.history.any startsRun

theorem exists_of_startsRun (hh : h.any startsRun = true) :
    ∃ n r, (n, ⟨.executeStrategy, r⟩) ∈ h := by
  obtain ⟨⟨n, o, r⟩, hmem, hstarts⟩ := List.any_eq_true.mp hh
  cases o
  case executeStrategy => exact ⟨n, r, hmem⟩
  all_goals cases hstarts

/-- What the database and the clock answered. -/
theorem exists_state_of_lastCompleted {es : List Event} {t : Task}
    (ht : t ∈ ((autotrading settings env).run (start w) es).tasks) {n : ℕ} {last : Option Instant}
    (hread : (n, ⟨.lastCompletedRebalance, .ok last⟩) ∈ t.history) :
    ∃ es₁, es₁ <+: es ∧ ((autotrading settings env).run (start w) es₁).state.tick = n ∧
      ((autotrading settings env).run (start w) es₁).state.lastCompleted = last := by
  obtain ⟨es₁, hes₁, heq⟩ := exists_state_of_entry ht hread
  obtain ⟨htick, hanswer⟩ := Prod.mk.inj heq
  have hok : (World.handle env .lastCompletedRebalance
      ((autotrading settings env).run (start w) es₁).state).1 = .ok last :=
    (eq_of_heq (Sigma.mk.inj hanswer).2).symm
  refine ⟨es₁, hes₁, htick.symm, ?_⟩
  rcases World.handle_cases env ((autotrading settings env).run (start w) es₁).state
    .lastCompletedRebalance with ⟨e', he⟩ | he
  · rw [he] at hok
    cases hok
  · rw [he] at hok
    exact Except.ok.inj hok

theorem eq_now_of_entry {es : List Event} {t : Task}
    (ht : t ∈ ((autotrading settings env).run (start w) es).tasks) {n : ℕ} {now : Instant}
    (hread : (n, ⟨.now, .ok now⟩) ∈ t.history) : now = env.now n := by
  obtain ⟨es₁, hes₁, heq⟩ := exists_state_of_entry ht hread
  obtain ⟨htick, hanswer⟩ := Prod.mk.inj heq
  have hok : (World.handle env .now
      ((autotrading settings env).run (start w) es₁).state).1 = .ok now :=
    (eq_of_heq (Sigma.mk.inj hanswer).2).symm
  rcases World.handle_cases env ((autotrading settings env).run (start w) es₁).state .now
    with ⟨e', he⟩ | he
  · rw [he] at hok
    cases hok
  · rw [he] at hok
    rw [htick]
    exact (Except.ok.inj hok).symm

/-- In every run of the system in which each automatic invocation ends within the TTL of its
lock and on the day it began: at most one automatic run is under way, and one starts thirty
days or more after the latest live rebalance that had completed when its window was checked. -/
theorem automatic_rebalances_spaced (settings : Settings) (env : Env) (w : World) (es : List Event)
    (hcalendar : ∀ d, d ≤ settings.calendar.nextBusinessDay d)
    (hintime : Meets (autotrading settings env) (WithinTtl env) (start w) es)
    (htoday : Meets (autotrading settings env) (Today env) (start w) es) :
    (∀ (i j : ℕ) (t u : Task), ((autotrading settings env).run (start w) es).tasks[i]? = some t →
      ((autotrading settings env).run (start w) es).tasks[j]? = some u →
      runsAutomatically t = true → runsAutomatically u = true → i = j) ∧
    ∀ t ∈ ((autotrading settings env).run (start w) es).tasks, t.label.isAutomatic = true →
      ∀ n r, (n, ⟨.executeStrategy, r⟩) ∈ t.history → ∃ es₁ last, es₁ <+: es ∧
        ((autotrading settings env).run (start w) es₁).state.lastCompleted = some last ∧
        (((autotrading settings env).run (start w) es₁).state.tick,
          ⟨.lastCompletedRebalance, .ok (some last)⟩) ∈ t.history ∧
        kstDate last + 30 ≤ kstDate (env.now n) := by
  have hlocked := locked_run hintime
  constructor
  · intro i j t u ht hu hrt hru
    have hholds : ∀ v ∈ ((autotrading settings env).run (start w) es).tasks,
        runsAutomatically v = true → holdsRebalanceLock v = true := by
      intro v hv hrv
      simp only [runsAutomatically, Bool.and_eq_true, Bool.not_eq_true'] at hrv
      obtain ⟨n, r, hmade⟩ := exists_of_startsRun hrv.2
      exact hlocked.holds hv hrv.1.1 hrv.1.2 hmade id id
    exact hlocked.owned.one i j t u ht hu (hholds t (List.mem_of_getElem? ht) hrt)
      (hholds u (List.mem_of_getElem? hu) hru)
  · intro t ht hl n r hmade
    obtain ⟨h₁, h₂, hh⟩ := List.append_of_mem hmade
    obtain ⟨force, h₀, hgated, hbegins⟩ := gated_before hlocked.kept ht hl hh id id
    obtain ⟨n₂, n₃, last, now, hlast, hnow, hdecide⟩ := exists_window_of_gated hgated
    have hbefore : ∀ y ∈ h₀, y ∈ t.history := by
      intro y hy
      rw [hh]
      exact List.mem_append_left _ (hbegins.subset hy)
    obtain ⟨es₁, hes₁, htick, hstored⟩ := exists_state_of_lastCompleted ht (hbefore _ hlast)
    refine ⟨es₁, last, hes₁, hstored, by rw [htick]; exact hbefore _ hlast, ?_⟩
    have hinterval := RebalanceWindow.interval_of_run (x := window settings last) hcalendar hdecide
    have hday := recorded_onOneDay htoday t ht h₁ _ h₂ hh hl _ (hbegins.subset hnow)
    rw [eq_now_of_entry ht (hbefore _ hnow), ← hday] at hinterval
    exact hinterval

/-- The calendar of the samples goes forward. -/
theorem le_nextBusinessDay_weekdays (d : ℤ) : d ≤ KrxCalendar.weekdays.nextBusinessDay d := by
  show d ≤ if (d + 3) % 7 = 4 then d + 3 else if (d + 3) % 7 = 5 then d + 2 else d + 1
  split
  · omega
  · split <;> omega

/-- Surroundings on the morning of Monday, 1970-02-02, with 1000 in cash. -/
def Env.inFebruary : Env :=
  { Env.quiet with now := fun _ => 32 * microsecondsPerDay + 1800000000, availableBuy := fun _ => 1000 }

/-- Stores with a rebalance that completed on Thursday, 1970-01-01. -/
def World.afterRebalance : World :=
  { World.holding [] [] with
    records := [{ id := 7, executedAt := 0, dryRun := false, status := .completed, committed := true }] }

/-- Two invocations, the second while the first is under way. -/
def twoInvocations : List Event :=
  .launch (.executeRebalance (.sample 1 [("005930", 100)]) true) ::
    .launch (.executeRebalance (.sample 2 [("005930", 100)]) false) ::
    List.replicate 6 (.step 0) ++ List.replicate 2 (.step 1)

theorem automatic_rebalances_spaced_sample :
    ∃ t ∈ ((autotrading .sample .inFebruary).run (start .afterRebalance) twoInvocations).tasks,
      runsAutomatically t = true ∧ ∃ n last es₁, es₁ <+: twoInvocations ∧
        ((autotrading .sample .inFebruary).run (start .afterRebalance) es₁).state.lastCompleted =
          some last ∧ kstDate last + 30 ≤ kstDate (Env.inFebruary.now n) := by
  have hstarted : (((autotrading .sample .inFebruary).run (start .afterRebalance)
      twoInvocations).tasks[0]?.any runsAutomatically) = true := by decide +kernel
  obtain ⟨t, ht, hruns⟩ := (Option.any_eq_true _ _).mp hstarted
  have hmem := List.mem_of_getElem? ht
  have hspaced := automatic_rebalances_spaced .sample .inFebruary .afterRebalance twoInvocations
    le_nextBusinessDay_weekdays (by decide +kernel) (by decide +kernel)
  have hstart := hruns
  simp only [runsAutomatically, Bool.and_eq_true] at hstart
  obtain ⟨n, r, hmade⟩ := exists_of_startsRun hstart.2
  obtain ⟨es₁, last, hes₁, hlast, -, hinterval⟩ := hspaced.2 t hmem hstart.1.1 n r hmade
  exact ⟨t, hmem, hruns, n, last, es₁, hes₁, hlast, hinterval⟩

/-! ## The manual runs -/

/-- The call read the holdings. -/
def readsHoldings : Entry → Bool
  | (_, ⟨.holdingList, .ok _⟩) => true
  | _ => false

/-- A live run that is under way and past its query of the holdings. -/
def pastHoldings (t : Task) : Bool :=
  (t.label.rebalanceRun.any fun x => !x.dryRun) && !t.prog.isEnded && t.history.any readsHoldings

/-- The task is such an automatic run. -/
def pastHoldingsAutomatically (t : Task) : Bool := pastHoldings t && t.label.isAutomatic

theorem countP_le_one {α : Type} {p : α → Bool} {xs : List α}
    (hone : ∀ (i j : ℕ) (a b : α), xs[i]? = some a → xs[j]? = some b → p a = true → p b = true →
      i = j) : xs.countP p ≤ 1 := by
  induction xs with
  | nil => simp
  | cons x xs ih =>
    by_cases hx : p x = true
    · have hrest : xs.countP p = 0 := by
        rw [List.countP_eq_zero]
        intro y hy hpy
        obtain ⟨j, hj⟩ := List.getElem?_of_mem hy
        have hindex := hone 0 (j + 1) x y (by simp) (by simpa using hj) hx hpy
        omega
      rw [List.countP_cons_of_pos hx, hrest]
    · have hsmall := ih fun i j a b ha hb hpa hpb => by
        have hindex := hone (i + 1) (j + 1) a b (by simpa using ha) (by simpa using hb) hpa hpb
        omega
      rw [List.countP_cons_of_neg hx]
      exact hsmall

/-- In every run of the system in which each automatic invocation ends in time, at most one of
the live runs past the query of the holdings is automatic. The manual route takes no lock. -/
theorem automatic_rebalances_exclusive (settings : Settings) (env : Env) (w : World)
    (es : List Event) (hes : Meets (autotrading settings env) (WithinTtl env) (start w) es) :
    ((autotrading settings env).run (start w) es).tasks.countP pastHoldingsAutomatically ≤ 1 := by
  have hlocked := locked_run hes
  have hholds : ∀ v ∈ ((autotrading settings env).run (start w) es).tasks,
      pastHoldingsAutomatically v = true → holdsRebalanceLock v = true := by
    intro v hv hpast
    simp only [pastHoldingsAutomatically, pastHoldings, Bool.and_eq_true, Bool.not_eq_true']
      at hpast
    obtain ⟨⟨n, o, r⟩, hmade, hreads⟩ := List.any_eq_true.mp hpast.1.2
    cases o
    case holdingList => exact hlocked.holds hv hpast.2 hpast.1.1.2 hmade id id
    all_goals cases hreads
  refine countP_le_one fun i j t u ht hu hpt hpu => ?_
  exact hlocked.owned.one i j t u ht hu (hholds t (List.mem_of_getElem? ht) hpt)
    (hholds u (List.mem_of_getElem? hu) hpu)

/-- The first of the two invocations is past its query of the holdings. -/
theorem automatic_rebalances_exclusive_sample :
    (((autotrading .sample .inFebruary).run (start .afterRebalance)
      (twoInvocations ++ [.step 0])).tasks[0]?.any pastHoldingsAutomatically) = true ∧
    ((autotrading .sample .inFebruary).run (start .afterRebalance)
      (twoInvocations ++ [.step 0])).tasks.countP pastHoldingsAutomatically ≤ 1 := by
  refine ⟨by decide +kernel, ?_⟩
  exact automatic_rebalances_exclusive .sample .inFebruary .afterRebalance _ (by decide +kernel)

/-- The account holds ten shares. -/
def Env.withHolding : Env :=
  { Env.inFebruary with holdingList := fun _ => [⟨"005930", "Samsung", "10", "100", "1000"⟩] }

/-- The automatic run and two manual ones, one after the other up to the order that each
stores. -/
def threeRuns : List Event :=
  .launch (.executeRebalance (.sample 1 []) true) :: .launch (.runRebalance (.sample 2 [])) ::
    .launch (.runRebalance (.sample 3 [])) ::
    List.replicate 10 (.step 0) ++ List.replicate 6 (.step 1) ++ List.replicate 6 (.step 2)

/-- All three are past the query of the holdings at once, in time, and each has stored an
order to sell the same ten shares. -/
theorem holding_sold_three_times :
    Meets (autotrading .sample .withHolding) (WithinTtl .withHolding) (start .afterRebalance)
      threeRuns ∧
    (∀ i < 3, (((autotrading .sample .withHolding).run (start .afterRebalance)
      threeRuns).tasks[i]?.any pastHoldings) = true) ∧
    (((autotrading .sample .withHolding).run (start .afterRebalance)
      threeRuns).state.orders.rows.map fun o => (o.rebalanceId, o.orderPos, o.stockCode, o.orderQty)) =
      [(some 1, .sell, "005930", 10), (some 2, .sell, "005930", 10),
        (some 3, .sell, "005930", 10)] := by
  refine ⟨?_, ?_, ?_⟩
  all_goals decide +kernel

end Autotrading
