import Autotrading.RebalanceLock
import Autotrading.RebalanceSnapshot

/-!
# The kill switch during a rebalance

The automatic task looks at the switch once, before its lock; a manual run never does, and
neither looks between two orders. No order is created while the switch is on as long as it
is turned on when no rebalance behind that look has orders left to store, and no manual run
that has any starts while it is on.
-/
namespace Autotrading

open Machine Prog RebalanceRun
open Machine.Sys (start)

variable {settings : Settings} {env : Env} {s s' : System} {e : Event} {w : World} {h : Calls}

/-! ## What a rebalance queues -/

/-- A rebalance queues the order that its last call stored. -/
def QueuesStored (l : Label) (h : Calls) (o : Op) : Prop :=
  l.rebalanceId.isSome = true → ∀ id d, o = .enqueue (.processOrder id) d →
    OrderGenerator.JustStored id h

section Queues
variable {l : Label}

theorem queuesStored_of_not_enqueue {o : Op} (ho : ∀ m d, o ≠ .enqueue m d) :
    QueuesStored l h o := by
  intro _ id d heq
  exact absurd heq (ho (.processOrder id) d)

theorem allows_queuesStored (g : OrderGenerator) (plan : RebalancePlan) :
    g.Allows (QueuesStored l) plan where
  plain := by
    intro h o ho
    refine queuesStored_of_not_enqueue ?_
    rintro m d rfl
    exact ho
  cancel := fun _ _ _ _ => queuesStored_of_not_enqueue nofun
  queue := by
    intro h id _ _ hstored _ id' d heq
    obtain ⟨hm, -⟩ := Op.enqueue.inj heq
    rw [← Message.processOrder.inj hm]
    exact hstored
  insert := fun _ _ _ => queuesStored_of_not_enqueue nofun
  cash := fun _ => queuesStored_of_not_enqueue nofun

theorem queuesStored_run {x : RebalanceRun} {aborts : PyExc → Bool} :
    Safe (QueuesStored l) h (x.run aborts) := by
  refine safe_run ⟨fun h o ho => ?_, fun h => queuesStored_of_not_enqueue nofun, fun _ plan _ =>
    allows_queuesStored _ plan⟩ (queuesStored_of_not_enqueue nofun)
  refine queuesStored_of_not_enqueue ?_
  rintro m d rfl
  exact ho

theorem program_queuesStored (l : Label) : Safe (QueuesStored l) [] (l.program settings) := by
  have hother : l.rebalanceId = none → Safe (QueuesStored l) [] (l.program settings) := by
    intro hnone
    refine (along_true (l.program settings)).mono ?_ fun _ _ _ => trivial
    intro h o _ hsome
    rw [hnone] at hsome
    cases hsome
  cases l with
  | rebalance g plan => exact OrderGenerator.safe_rebalance (allows_queuesStored g plan)
  | runRebalance x => exact safe_runRebalance queuesStored_run
  | executeRebalance x force =>
    refine safe_executeRebalance (fun h o ho => ?_) (fun _ _ => queuesStored_run) fun _ _ =>
      queuesStored_of_not_enqueue nofun
    refine queuesStored_of_not_enqueue ?_
    rintro m d rfl
    exact ho
  | _ => exact hother rfl

end Queues

/-! ## The look at the switch -/

/-- The gates begin with a look at the switch, which was off. -/
theorem exists_switch_of_gated {force : Bool} (hg : Gated settings force h) :
    ∃ n switch rest, h = (n, ⟨.getKillSwitch, .ok switch⟩) :: rest ∧ switch ≠ some "1" := by
  have hdue : ∀ {h₀ : Calls}, Due settings h₀ → ∃ n switch rest,
      h₀ = (n, ⟨.getKillSwitch, .ok switch⟩) :: rest ∧ switch ≠ some "1" := by
    intro h₀ hd
    obtain @⟨n₀, n₁, n₂, n₃, switch, last, now, hoff, -⟩ := hd
    exact ⟨n₀, switch, _, rfl, hoff⟩
  cases hg with
  | forced due => exact hdue due
  | @checked h₀ n m now due =>
    obtain ⟨n₀, switch, rest, hh, hoff⟩ := hdue due
    refine ⟨n₀, switch, rest ++ [(n, ⟨.now, .ok now⟩)] ++
      [(m, ⟨.rebalanceInMonth (yearAndMonth (kstDate now)), .ok false⟩)], ?_, hoff⟩
    rw [hh]
    simp

/-- The task has no sell or buy order left to store, or is yet to look at the switch. -/
def Harmless (t : Task) : Prop := Finished t ∨ t.label.isAutomatic = true ∧ t.history = []

/-- An automatic task stores no order before it has come through its gates. -/
theorem storesNoOrder_of_guarded {force : Bool} {o : Op} (hg : Guarded settings force h o)
    (hnot : ∀ h₀, Gated settings force h₀ → ¬ h₀ <+: h) : StoresNoOrder o := by
  rcases hg.gated with hgate | ⟨rfl, -⟩ | ⟨-, h₀, hgated, hbegins⟩
  · cases o
    case insertOrders os => exact False.elim hgate
    all_goals trivial
  · trivial
  · exact absurd hbegins (hnot h₀ hgated)

/-- The first call of an automatic task, while the switch is on, is its last chance. -/
theorem finished_of_first {x : RebalanceRun} {force : Bool} {n : ℕ} {o : Op}
    {r : Except PyExc (Ans o)} {p : Program Unit}
    (hsafe : Safe (LockConduct settings (.executeRebalance x force)) [(n, ⟨o, r⟩)] p)
    (hon : ∀ switch, switch ≠ some "1" →
      (⟨o, r⟩ : (o : Op) × Except PyExc (Ans o)) ≠ ⟨.getKillSwitch, .ok switch⟩) :
    Safe (fun _ o => StoresNoOrder o) [(n, ⟨o, r⟩)] p := by
  refine hsafe.extends_calls.mono (fun h' o' ho' => ?_) fun _ _ hr => hr
  obtain ⟨hgrown, hguarded⟩ := ho'
  refine storesNoOrder_of_guarded hguarded fun h₀ hgated hbegins => ?_
  obtain ⟨n₀, switch, rest, rfl, hoff⟩ := exists_switch_of_gated hgated
  obtain ⟨h₂, rfl⟩ := hgrown
  obtain ⟨h₃, hh⟩ := hbegins
  have hfirst := (List.cons.inj hh).1
  exact hon switch hoff (Prod.mk.inj hfirst).2.symm

/-! ## Runs with the switch on -/

/-- The kill switch is on. -/
def SwitchedOn (s : System) (_ : Event) : Prop := s.state.killSwitch = some "1"

instance (s : System) (e : Event) : Decidable (SwitchedOn s e) :=
  inferInstanceAs (Decidable (s.state.killSwitch = some "1"))

/-- The next call of the program turns the switch on. -/
def turnsOn : Program Unit → Bool
  | .call (.setKillSwitch value) _ => value = "1"
  | _ => false

/-- The switch is turned on, and a rebalance is launched while it is on, where `p` holds of
the rebalances. -/
def SwitchesWhile (p : Task → Prop) (settings : Settings) (s : System) : Event → Prop
  | .launch l => s.state.killSwitch = some "1" → l.rebalanceId.isSome = true →
      p ⟨l, [], l.program settings⟩
  | .step i => s.tasks[i]?.any (fun t => turnsOn t.prog) = true →
      ∀ t ∈ s.tasks, t.label.rebalanceId.isSome = true → p t
  | _ => True

/-- The switch is turned on when no rebalance behind its look at it has orders left to
store, and no manual run that has any is launched while it is on. -/
def Heeds : Settings → System → Event → Prop := SwitchesWhile Harmless

/-- While the switch is on no rebalance stores an order. -/
structure Heeded (settings : Settings) (s : System) : Prop where
  kept : Kept (LockConduct settings) s
  harmless : s.state.killSwitch = some "1" → ∀ t ∈ s.tasks, t.label.rebalanceId.isSome = true →
    Harmless t

theorem heeded_start (w : World) : Heeded settings (start w) where
  kept := by
    constructor
    all_goals
      intro t ht
      cases ht
  harmless := by
    intro _ t ht
    cases ht

/-- After a step the switch is on if it was, or if the step turned it on. -/
theorem on_before {i : ℕ} {t : Task} {o : Op} {k} (ht : s.tasks[i]? = some t)
    (hp : t.prog = .call o k) (hon : (World.handle env o s.state).2.killSwitch = some "1") :
    s.state.killSwitch = some "1" ∨ s.tasks[i]?.any (fun t => turnsOn t.prog) = true := by
  by_cases hset : ∃ v, o = .setKillSwitch v
  · obtain ⟨v, rfl⟩ := hset
    rcases World.handle_cases env s.state (.setKillSwitch v) with ⟨e', he⟩ | he
    · rw [he] at hon
      exact .inl hon
    · rw [he] at hon
      have hv : v = "1" := Option.some.inj hon
      exact .inr (by simp [ht, hp, turnsOn, hv])
  · rw [World.killSwitch_handle fun v hv => hset ⟨v, hv⟩] at hon
    exact .inl hon

/-- A harmless task stores no order. -/
theorem Harmless.call (h : Kept (LockConduct settings) s) {i : ℕ} {t : Task} {o : Op} {k}
    (ht : s.tasks[i]? = some t) (hp : t.prog = .call o k) (hh : Harmless t) : StoresNoOrder o := by
  rcases hh with hfinished | ⟨hl, hempty⟩
  · rw [Finished, hp, Safe, along_call] at hfinished
    exact hfinished.1
  · have hconduct := h.obeys.call ht hp
    cases hlabel : t.label with
    | executeRebalance x force =>
      rw [hlabel, hempty] at hconduct
      refine storesNoOrder_of_guarded hconduct fun h₀ hgated hbegins => ?_
      obtain ⟨n, switch, rest, rfl, -⟩ := exists_switch_of_gated hgated
      cases List.eq_nil_of_prefix_nil hbegins
    | _ =>
      rw [hlabel] at hl
      cases hl

/-- A look at the switch tells that it is on. -/
theorem answer_of_on {w : World} (hon : (World.handle env .getKillSwitch w).2.killSwitch = some "1")
    {switch : Option String} (hread : (World.handle env .getKillSwitch w).1 = .ok switch) :
    switch = some "1" := by
  rw [World.killSwitch_handle fun v hv => by cases hv] at hon
  rcases World.handle_cases env w .getKillSwitch with ⟨e', he⟩ | he
  · rw [he] at hread
    cases hread
  · rw [he] at hread
    exact (Except.ok.inj hread).symm.trans hon

/-- It stays harmless while the switch is on. -/
theorem Harmless.step (h : Kept (LockConduct settings) s) {i : ℕ} {t : Task} {o : Op} {k}
    (ht : s.tasks[i]? = some t) (hp : t.prog = .call o k) (hh : Harmless t)
    (hon : (World.handle env o s.state).2.killSwitch = some "1") :
    Harmless (t.advance s.state.tick o (World.handle env o s.state).1 k) := by
  left
  rcases hh with hfinished | ⟨hl, hempty⟩
  · rw [Finished, hp, Safe, along_call] at hfinished
    exact hfinished.2 _ _
  · have hsafe := h.obeys t (List.mem_of_getElem? ht)
    rw [hp, hempty, Safe, along_call] at hsafe
    cases hlabel : t.label with
    | executeRebalance x force =>
      rw [hlabel] at hsafe
      have hrest := hsafe.2 s.state.tick (World.handle env o s.state).1
      rw [List.nil_append] at hrest
      have hlast := finished_of_first hrest fun switch hoff heq => by
        obtain ⟨rfl, hread⟩ := Sigma.mk.inj heq
        exact hoff (answer_of_on hon (eq_of_heq hread))
      rw [Finished, Task.advance, hempty]
      exact hlast
    | _ =>
      rw [hlabel] at hl
      cases hl

theorem Heeded.change (h : Heeded settings s) (hheeds : Heeds settings s e)
    (hc : Change (autotrading settings env) s e s') : Heeded settings s' where
  kept := h.kept.change program_lockConduct hc
  harmless := by
    intro hon t' ht' hrid
    cases hc with
    | idle => exact h.harmless hon t' ht' hrid
    | launched l w' hl =>
      have hswitch : s.state.killSwitch = some "1" := by rw [← (launch_fields hl).2.2, hon]
      rcases List.mem_append.mp ht' with hold | hnew
      · exact h.harmless hswitch t' hold hrid
      · obtain rfl := List.mem_singleton.mp hnew
        exact hheeds hswitch hrid
    | stepped i t o k ht hp =>
      have hall : ∀ u ∈ s.tasks, u.label.rebalanceId.isSome = true → Harmless u := by
        rcases on_before ht hp hon with hswitch | hturns
        · exact h.harmless hswitch
        · exact hheeds hturns
      rcases List.mem_or_eq_of_mem_set ht' with hold | rfl
      · exact hall t' hold hrid
      · exact (hall t (List.mem_of_getElem? ht) hrid).step h.kept ht hp hon
    | crashed i t ht =>
      rcases List.mem_or_eq_of_mem_set ht' with hold | rfl
      · exact h.harmless hon t' hold hrid
      · exact .inl (safe_ret ())
    | moved a =>
      have hswitch : s.state.killSwitch = some "1" := by
        rw [← (ambient_fields a s.state).2.2]
        exact hon
      exact h.harmless hswitch t' ht' hrid

/-- Rebalances have stored no sell or buy order since tick `n₀`. -/
structure StoredNothing (settings : Settings) (n₀ : ℕ) (s : System) : Prop extends
    Heeded settings s where
  since : n₀ ≤ s.state.tick
  nothing : Known (fun _ l (x : Entry) => l.rebalanceId.isSome = true → n₀ ≤ x.1 →
    StoresNoOrder x.2.1) s

theorem StoredNothing.change {n₀ : ℕ} (h : StoredNothing settings n₀ s)
    (hheeds : Heeds settings s e) (hon : SwitchedOn s e)
    (hc : Change (autotrading settings env) s e s') : StoredNothing settings n₀ s' where
  toHeeded := h.toHeeded.change hheeds hc
  since := h.since.trans (tick_change hc)
  nothing := by
    refine h.nothing.change hc (fun _ _ hx => hx) fun i t o k _ ht hp hrid _ => ?_
    exact (h.harmless hon t (List.mem_of_getElem? ht) hrid).call h.kept ht hp

/-- The insert of the order was in progress at tick `n₀`, or it is a cancel order. -/
inductive InProgress (n₀ : ℕ) (id : OrderId) : Calls → Prop
  | inserted (h m o) (hid : o.id = id) (before : m < n₀ ∨ o.orderKind = .cancel) :
      InProgress n₀ id (h ++ [(m, ⟨.insertOrders [o], .ok ()⟩)])
  | flushed (h m o) (hid : o.id = id) (cancel : o.orderKind = .cancel) :
      InProgress n₀ id (h ++ [(m, ⟨.flushOrder o, .ok ()⟩)])

/-- From tick `n₀` on the task stores no sell or buy order, and queues none but one whose
insert was in progress. -/
structure CreatesNothing (n₀ : ℕ) (t : Task) : Prop where
  inserted : ∀ n os r, (n, ⟨.insertOrders os, r⟩) ∈ t.history → n₀ ≤ n →
    ∀ o ∈ os, o.orderKind = .cancel
  queued : ∀ h₁ n id d r h₂, t.history = h₁ ++ (n, ⟨.enqueue (.processOrder id) d, r⟩) :: h₂ →
    n₀ ≤ n → InProgress n₀ id h₁

/-- In every run of the system that heeds the switch, no rebalance creates an order from any
instant on from which the switch stays on. -/
theorem switched_rebalances_create_nothing (settings : Settings) (env : Env) (w : World)
    (es₁ es₂ : List Event)
    (hes : Meets (autotrading settings env) (Heeds settings) (start w) (es₁ ++ es₂))
    (hon : Meets (autotrading settings env) SwitchedOn
      ((autotrading settings env).run (start w) es₁) es₂) :
    ∀ t ∈ ((autotrading settings env).run (start w) (es₁ ++ es₂)).tasks,
      t.label.rebalanceId.isSome = true →
      CreatesNothing ((autotrading settings env).run (start w) es₁).state.tick t := by
  obtain ⟨hes₁, hes₂⟩ := Meets.append.mp hes
  have hheeded : Heeded settings ((autotrading settings env).run (start w) es₁) :=
    hes₁.invariant (fun _ _ _ h hheeds hc => h.change hheeds hc) (heeded_start w)
  have hnothing : StoredNothing settings ((autotrading settings env).run (start w) es₁).state.tick
      ((autotrading settings env).run (start w) es₁) := by
    refine ⟨hheeded, le_refl _, fun t ht x hx _ hsince => ?_⟩
    have hpast := (sound_run settings env w es₁).stamped t ht x hx
    omega
  have hrun := (hes₂.and hon).invariant
    (fun _ _ _ h hstep hc => StoredNothing.change h hstep.1 hstep.2 hc) hnothing
  rw [← run_append] at hrun
  intro t ht hrid
  have hstored : ∀ n os r, (n, ⟨.insertOrders os, r⟩) ∈ t.history →
      ((autotrading settings env).run (start w) es₁).state.tick ≤ n →
      ∀ o ∈ os, o.orderKind = .cancel := by
    intro n os r hmade hsince
    exact hrun.nothing t ht _ hmade hrid hsince
  refine ⟨hstored, fun h₁ n id d r h₂ hh hsince => ?_⟩
  have hqueues := (kept_run program_queuesStored w (es₁ ++ es₂)).recorded t ht h₁ _ h₂ hh
  cases hqueues hrid id d rfl with
  | inserted h m o hid =>
    refine .inserted h m o hid ?_
    by_cases hbefore : m < ((autotrading settings env).run (start w) es₁).state.tick
    · exact .inl hbefore
    · have hmade : (m, ⟨.insertOrders [o], .ok ()⟩) ∈ t.history := by
        rw [hh]
        simp
      exact .inr (hstored m [o] _ hmade (Nat.le_of_not_lt hbefore) o (List.mem_singleton_self o))
  | flushed h m o hid cancel => exact .flushed h m o hid cancel

/-! ## A switch turned on between two orders -/

instance {p : Task → Prop} [DecidablePred p] : ∀ e, Decidable (SwitchesWhile p settings s e)
  | .launch l => inferInstanceAs (Decidable (s.state.killSwitch = some "1" →
      l.rebalanceId.isSome = true → p ⟨l, [], l.program settings⟩))
  | .step i => inferInstanceAs (Decidable (s.tasks[i]?.any (fun t => turnsOn t.prog) = true →
      ∀ t ∈ s.tasks, t.label.rebalanceId.isSome = true → p t))
  | .crash _ => inferInstanceAs (Decidable True)
  | .ambient _ => inferInstanceAs (Decidable True)

/-- The task has ended, or is an automatic one that is yet to begin. -/
def rests (t : Task) : Bool := !running t || t.label.isAutomatic && t.history.isEmpty

theorem harmless_of_rests {t : Task} (ht : rests t = true) : Harmless t := by
  rw [rests, Bool.or_eq_true, Bool.not_eq_true', Bool.and_eq_true, List.isEmpty_iff] at ht
  rcases ht with hended | hfresh
  · exact .inl (finished_of_not_running hended)
  · exact .inr hfresh

theorem SwitchesWhile.heeds (h : SwitchesWhile (fun t => rests t = true) settings s e) :
    Heeds settings s e := by
  cases e with
  | launch l => exact fun hon hrid => harmless_of_rests (h hon hrid)
  | step i => exact fun hturns t ht hrid => harmless_of_rests (h hturns t ht hrid)
  | crash i => exact h
  | ambient a => exact h

/-- A manual run that is to buy two stocks makes `n` calls, and the switch is turned on. -/
def switchedAfter (n : ℕ) : List Event :=
  .launch (.runRebalance (.sample 1 [("005930", 100), ("000660", 100)])) ::
    List.replicate n (.step 0) ++ [.launch (.api (.killSwitch true)), .step 1]

/-- The run has ended; then an automatic one begins. -/
theorem switched_rebalances_create_nothing_sample :
    ∃ t ∈ ((autotrading .sample .inFebruary).run (start .afterRebalance) (switchedAfter 20 ++
        [.launch (.executeRebalance (.sample 2 [("005930", 100)]) true), .step 2, .step 2])).tasks,
      t.label.isAutomatic = true ∧ CreatesNothing
        ((autotrading .sample .inFebruary).run (start .afterRebalance) (switchedAfter 20)).state.tick
        t := by
  have hheeds : Meets (autotrading .sample .inFebruary)
      (SwitchesWhile (fun t => rests t = true) .sample) (start .afterRebalance)
      (switchedAfter 20 ++ [.launch (.executeRebalance (.sample 2 [("005930", 100)]) true),
        .step 2, .step 2]) := by decide +kernel
  have hlast : (((autotrading .sample .inFebruary).run (start .afterRebalance) (switchedAfter 20 ++
      [.launch (.executeRebalance (.sample 2 [("005930", 100)]) true), .step 2,
        .step 2])).tasks[2]?.any fun t =>
          t.label.isAutomatic && t.label.rebalanceId.isSome) = true := by decide +kernel
  obtain ⟨t, ht, hauto⟩ := (Option.any_eq_true _ _).mp hlast
  rw [Bool.and_eq_true] at hauto
  refine ⟨t, List.mem_of_getElem? ht, hauto.1, ?_⟩
  refine switched_rebalances_create_nothing _ _ _ _ _ ?_ (by decide +kernel) t
    (List.mem_of_getElem? ht) hauto.2
  have hstep : ∀ s e, True → SwitchesWhile (fun t => rests t = true) .sample s e →
      Heeds .sample s e ∧ True := fun s e _ h => ⟨h.heeds, trivial⟩
  exact hheeds.implies hstep trivial

/-- The call stores a NEW order at tick `n` or later. -/
def storesNewSince (n : ℕ) : Entry → Bool
  | (m, ⟨.insertOrders os, _⟩) => decide (n ≤ m) && os.any fun o => o.orderKind = .new
  | _ => false

/-- The switch is turned on behind the first order: the second one is stored and queued. -/
theorem order_created_while_switched :
    Meets (autotrading .sample .inFebruary) SwitchedOn
      ((autotrading .sample .inFebruary).run (start .afterRebalance) (switchedAfter 11))
      [.step 0, .step 0] ∧
    ∃ t ∈ ((autotrading .sample .inFebruary).run (start .afterRebalance)
        (switchedAfter 11 ++ [.step 0, .step 0])).tasks,
      t.label.rebalanceId.isSome = true ∧ ¬ CreatesNothing
        ((autotrading .sample .inFebruary).run (start .afterRebalance) (switchedAfter 11)).state.tick
        t := by
  refine ⟨by decide +kernel, ?_⟩
  have hstored : (((autotrading .sample .inFebruary).run (start .afterRebalance)
      (switchedAfter 11 ++ [.step 0, .step 0])).tasks[0]?.any fun t =>
        t.label.rebalanceId.isSome && t.history.any (storesNewSince ((autotrading .sample
          .inFebruary).run (start .afterRebalance) (switchedAfter 11)).state.tick)) = true := by
    decide +kernel
  obtain ⟨t, ht, htask⟩ := (Option.any_eq_true _ _).mp hstored
  rw [Bool.and_eq_true] at htask
  refine ⟨t, List.mem_of_getElem? ht, htask.1, fun hcreates => ?_⟩
  obtain ⟨⟨n, op, r⟩, hmade, hnew⟩ := List.any_eq_true.mp htask.2
  cases op
  case insertOrders os =>
    simp only [storesNewSince, Bool.and_eq_true, decide_eq_true_eq, List.any_eq_true] at hnew
    obtain ⟨hsince, o, ho, hkind⟩ := hnew
    have hcancel := hcreates.inserted n os r hmade hsince o ho
    rw [hkind] at hcancel
    cases hcancel
  all_goals cases hnew

end Autotrading
