import Autotrading.FailedRebalances
import Autotrading.RebalanceLock

/-!
# After a failed automatic rebalance

Its policy is to tell of the failure and to stop, but nothing records the stop: the date of
the latest rebalance that completed is what it was, and the month is not checked under
`force`. The next trigger starts a new rebalance whenever it still falls into the window.
-/
namespace Autotrading

open Machine Prog RebalanceRun
open Machine.Sys (start)

variable {settings : Settings} {env : Env} {s s' : System} {e : Event} {w : World} {h : Calls}

/-! ## Failures and completions -/

/-- A live invocation as the beat schedule makes it, with `force`. -/
def Label.isScheduled : Label → Bool
  | executeRebalance x force => force && !x.dryRun
  | _ => false

/-- A live run from the route. -/
def Label.isManual : Label → Bool
  | runRebalance x => !x.dryRun
  | _ => false

/-- The call queued an order. -/
def queuesOrder : Entry → Bool
  | (_, ⟨.enqueue (.processOrder _) _, _⟩) => true
  | _ => false

/-- The call recorded a failure, or told of one. -/
def fails : Entry → Bool
  | (_, ⟨.failRebalance _ _, .ok _⟩) => true
  | (_, ⟨.rebalanceAlert _ success _, _⟩) => !success
  | _ => false

/-- The call recorded a completion. -/
def completes : Entry → Bool
  | (_, ⟨.completeRebalance _, .ok _⟩) => true
  | _ => false

/-- With its call `x` a scheduled run failed, having queued an order. -/
def FailedWith (t : Task) (x : Entry) : Prop :=
  t.label.isScheduled = true ∧ fails x = true ∧ ∃ y ∈ t.history, queuesOrder y = true ∧ y.1 < x.1

instance (t : Task) (x : Entry) : Decidable (FailedWith t x) :=
  inferInstanceAs (Decidable (t.label.isScheduled = true ∧ fails x = true ∧
    ∃ y ∈ t.history, queuesOrder y = true ∧ y.1 < x.1))

/-- The task began after tick `n`. -/
def Begun (n : ℕ) (t : Task) : Prop := t.history.head?.all (fun y => decide (n < y.1)) = true

instance (n : ℕ) (t : Task) : Decidable (Begun n t) :=
  inferInstanceAs (Decidable (t.history.head?.all (fun y => decide (n < y.1)) = true))

/-- A manual rebalance completed after tick `n`, before tick `m`. -/
def CompletedBetween (s : System) (n m : ℕ) : Prop :=
  ∃ v ∈ s.tasks, v.label.isManual = true ∧ ∃ c ∈ v.history, completes c = true ∧ n < c.1 ∧ c.1 < m

instance (s : System) (n m : ℕ) : Decidable (CompletedBetween s n m) :=
  inferInstanceAs (Decidable (∃ v ∈ s.tasks, v.label.isManual = true ∧
    ∃ c ∈ v.history, completes c = true ∧ n < c.1 ∧ c.1 < m))

/-- No scheduled trigger that began after a failure queues orders before a manual rebalance
has completed. -/
def Stopped (s : System) : Prop :=
  ∀ t ∈ s.tasks, ∀ x ∈ t.history, FailedWith t x → ∀ u ∈ s.tasks, u.label.isScheduled = true →
    Begun x.1 u → ∀ z ∈ u.history, queuesOrder z = true → CompletedBetween s x.1 z.1

/-- The task has just read the date of the latest rebalance, and is about to look at the
clock. -/
def checksWindow (t : Task) : Option Instant :=
  match t.prog, t.history.getLast? with
  | .call .now _, some (_, ⟨.lastCompletedRebalance, .ok last⟩) => last
  | _, _ => none

/-- A scheduled trigger that began after a failure, with no manual rebalance completed since,
looks at the clock outside the window. -/
def StandsDown (settings : Settings) (env : Env) (s : System) : Event → Prop
  | .step i => ∀ u ∈ s.tasks[i]?, u.label.isScheduled = true → ∀ last ∈ checksWindow u,
      ∀ t ∈ s.tasks, ∀ x ∈ t.history, FailedWith t x → Begun x.1 u →
      ¬ CompletedBetween s x.1 s.state.tick →
      (window settings last).decide (env.now s.state.tick) ≠ .runRebalance
  | _ => True

/-! ## The look at the clock -/

/-- The task found the window open at tick `n`. -/
def FoundOpen (settings : Settings) (u : Task) (n : ℕ) : Prop :=
  ∃ h₁ n₂ last now h₂, u.history = (h₁ ++ [(n₂, ⟨.lastCompletedRebalance, .ok (some last)⟩)]) ++
    (n, ⟨.now, .ok now⟩) :: h₂ ∧ (window settings last).decide now = .runRebalance

/-- Every scheduled trigger that found the window open after a failure began after a manual
completion. -/
structure Stopping (settings : Settings) (env : Env) (s : System) : Prop where
  sound : Sound env s
  stopped : ∀ t ∈ s.tasks, ∀ x ∈ t.history, FailedWith t x → ∀ u ∈ s.tasks,
    u.label.isScheduled = true → Begun x.1 u → ∀ n, FoundOpen settings u n → CompletedBetween s x.1 n

/-- Completions stay. -/
theorem CompletedBetween.change {n m : ℕ} (h : CompletedBetween s n m)
    (hc : Change (autotrading settings env) s e s') : CompletedBetween s' n m := by
  obtain ⟨v, hv, hl, c, hmem, hcomplete, hafter, hbefore⟩ := h
  obtain ⟨v', hv', hl', hh⟩ := hc.task_after hv
  exact ⟨v', hv', by rw [hl', hl], c, hh.subset hmem, hcomplete, hafter, hbefore⟩

/-- A failure was there before, or is the call just made. -/
theorem FailedWith.before (hs : Sound env s) (hc : Change (autotrading settings env) s e s')
    {t' : Task} (ht' : t' ∈ s'.tasks) {x : Entry} (hmem : x ∈ t'.history) (hx : FailedWith t' x) :
    (∃ t ∈ s.tasks, x ∈ t.history ∧ FailedWith t x) ∨ s'.state.tick ≤ x.1 + 1 := by
  obtain ⟨hl, hfails, y, hy, hqueues, hearlier⟩ := hx
  obtain ⟨i, hi⟩ := List.getElem?_of_mem ht'
  rcases hc.task_at hi with ⟨t, ht, hl', hh⟩ | hnil | ⟨t, o, k, -, ht, hl', -, hstate, hh⟩
  · rw [← hh] at hmem hy
    exact .inl ⟨t, List.mem_of_getElem? ht, hmem, by rw [hl', hl], hfails, y, hy, hqueues, hearlier⟩
  · rw [hnil] at hmem
    cases hmem
  · have ht := List.mem_of_getElem? ht
    rw [hh, List.mem_append, List.mem_singleton] at hmem hy
    rcases hmem with hold | rfl
    · have hpast := hs.stamped t ht x hold
      rcases hy with hy | rfl
      · exact .inl ⟨t, ht, hold, by rw [hl', hl], hfails, y, hy, hqueues, hearlier⟩
      · have htick : x.1 < s.state.tick := hpast
        have hlater : s.state.tick < x.1 := hearlier
        omega
    · have htick : s'.state.tick = s.state.tick + 1 := by
        rw [hstate]
        exact World.tick_handle
      exact .inr htick.le

/-- A task that has made a call began when it had made fewer. -/
theorem Begun.of_prefix {n : ℕ} {t u : Task} (hu : Begun n u) {h₁ h₂ h₃ : Calls} {y : Entry}
    (hut : u.history = (h₁ ++ [y]) ++ h₂) (htt : t.history = (h₁ ++ [y]) ++ h₃) : Begun n t := by
  have hhead : t.history.head? = u.history.head? := by
    rw [hut, htt]
    cases h₁ <;> rfl
  unfold Begun
  rw [hhead]
  exact hu

theorem Begun.first {n : ℕ} {t : Task} (ht : Begun n t) {h₁ h₂ : Calls} {y : Entry}
    (hh : t.history = h₁ ++ y :: h₂) : ∃ z ∈ t.history, n < z.1 := by
  have hhead : ∃ z, t.history.head? = some z := by
    rw [hh]
    cases h₁ <;> exact ⟨_, rfl⟩
  obtain ⟨z, hz⟩ := hhead
  rw [Begun, hz] at ht
  exact ⟨z, List.mem_of_head? hz, of_decide_eq_true ht⟩

theorem checksWindow_of {t : Task} {k} {n : ℕ} {last : Instant} {h₁ : Calls}
    (hp : t.prog = .call .now k)
    (hh : t.history = h₁ ++ [(n, ⟨.lastCompletedRebalance, .ok (some last)⟩)]) :
    checksWindow t = some last := by
  simp [checksWindow, hp, hh]

/-- The clock answers what it shows. -/
theorem now_handle {w : World} {now : Instant} (hread : (World.handle env .now w).1 = .ok now) :
    now = env.now w.tick := by
  rcases World.handle_cases env w .now with ⟨e', he⟩ | he
  · rw [he] at hread
    cases hread
  · rw [he] at hread
    exact (Except.ok.inj hread).symm

theorem Stopping.change (h : Stopping settings env s) (hstands : StandsDown settings env s e)
    (hc : Change (autotrading settings env) s e s') : Stopping settings env s' where
  sound := h.sound.change hc
  stopped := by
    intro t' ht' x hmem hx u' hu' hl hbegun n hopen
    obtain ⟨h₁, n₂, last, now, h₂, hh, hdecide⟩ := hopen
    rcases FailedWith.before h.sound hc ht' hmem hx with ⟨t, ht, hold, hfailed⟩ | hnew
    · rcases hc.split hu' hh with ⟨u, hu, hl', h₃, hu₃⟩ | ⟨i, u, o, k, he, hi, hl', hp, -, hy, hu₁⟩
      · have hbefore := hbegun.of_prefix hh hu₃
        have hfound : FoundOpen settings u n := ⟨h₁, n₂, last, now, h₃, hu₃, hdecide⟩
        exact (h.stopped t ht x hold hfailed u hu (by rw [hl', hl]) hbefore n hfound).change hc
      · -- the look at the clock is the call just made
        obtain ⟨htick, hanswer⟩ := Prod.mk.inj hy
        obtain ⟨hop, hread⟩ := Sigma.mk.inj hanswer
        subst hop
        have hnow := now_handle (eq_of_heq hread).symm
        have hbefore : Begun x.1 u := hbegun.of_prefix hh (hu₁.trans (List.append_nil _).symm)
        by_contra hnot
        subst he
        refine hstands u (by rw [hi]; rfl) (by rw [hl', hl]) last (checksWindow_of hp hu₁) t ht x
          hold hfailed hbefore (fun hcompleted => hnot ?_) ?_
        · rw [htick]
          exact hcompleted.change hc
        · rw [← hnow]
          exact hdecide
    · -- the failure is the call just made: no task that has made a call began after it
      obtain ⟨z, hz, hafter⟩ := hbegun.first hh
      have hpast : z.1 < s'.state.tick := (h.sound.change hc).stamped u' hu' z hz
      omega

/-! ## Every run -/

/-- A task makes its calls one after the other. -/
theorem recorded_ticks (settings : Settings) (env : Env) (w : World) (es : List Event) :
    Recorded (fun _ h x => ∀ y ∈ h, y.1 < x.1) ((autotrading settings env).run (start w) es) := by
  induction es using List.reverseRecOn with
  | nil =>
    intro t ht
    cases ht
  | append_singleton es e ih =>
    rw [run_append, run_cons, run_nil]
    refine Recorded.change ih (next_change _ _ e) fun i t o k _ ht hp y hy => ?_
    exact (sound_run settings env w es).stamped t (List.mem_of_getElem? ht) y hy

/-- Behind its gates a task has found the window open. -/
theorem foundOpen_of_gated {force : Bool} {u : Task} {h₀ h₂ : Calls}
    (hg : Gated settings force h₀) (hh : u.history = h₀ ++ h₂) :
    ∃ n, FoundOpen settings u n ∧ ∃ y ∈ h₀, y.1 = n := by
  have hdue : ∀ {h₁ h₂ : Calls}, Due settings h₁ → u.history = h₁ ++ h₂ →
      ∃ n, FoundOpen settings u n ∧ ∃ y ∈ h₁, y.1 = n := by
    intro h₁ h₂ hd hh
    obtain @⟨n₀, n₁, n₂, n₃, switch, last, now, hoff, hdecide⟩ := hd
    refine ⟨n₃, ⟨[(n₀, ⟨.getKillSwitch, .ok switch⟩),
      (n₁, ⟨.acquireRebalanceLock rebalanceLockTtlSeconds, .ok true⟩)], n₂, last, now, h₂, ?_,
      hdecide⟩, (n₃, ⟨.now, .ok now⟩), by simp, rfl⟩
    rw [hh]
    simp
  cases hg with
  | forced due => exact hdue due hh
  | @checked h₁ n m now due =>
    rw [List.append_assoc, List.append_assoc] at hh
    obtain ⟨n', hopen, y, hy, htick⟩ := hdue due hh
    exact ⟨n', hopen, y, by simp [hy], htick⟩

/-- In every run of the system in which triggers after a failure stand down: after a
scheduled run that failed having queued orders, no later trigger queues orders before a
manual rebalance has completed. -/
theorem failure_stops_automation (settings : Settings) (env : Env) (w : World) (es : List Event)
    (hes : Meets (autotrading settings env) (StandsDown settings env) (start w) es) :
    Stopped ((autotrading settings env).run (start w) es) := by
  have hstart : Stopping settings env (start w) := by
    refine ⟨sound_start w, ?_⟩
    intro t ht
    cases ht
  have hstopping := hes.invariant (fun _ _ _ h hstands hc => Stopping.change h hstands hc) hstart
  intro t ht x hmem hx u hu hl hbegun z hz hqueues
  have hauto : u.label.isAutomatic = true := by
    cases hlabel : u.label with
    | executeRebalance x force => rfl
    | _ =>
      rw [hlabel] at hl
      cases hl
  obtain ⟨h₁, h₂, hh⟩ := List.append_of_mem hz
  have hgated : ∃ force h₀, Gated settings force h₀ ∧ h₀ <+: h₁ := by
    obtain ⟨n, o, r⟩ := z
    cases o
    case enqueue m d =>
      exact gated_before (kept_run program_lockConduct w es) hu hauto hh id id
    all_goals cases hqueues
  obtain ⟨force, h₀, hgated, h₃, rfl⟩ := hgated
  obtain ⟨n, hopen, y, hy, rfl⟩ := foundOpen_of_gated hgated (hh.trans (List.append_assoc _ _ _))
  obtain ⟨v, hv, hmanual, c, hc, hcompletes, hafter, hbefore⟩ :=
    hstopping.stopped t ht x hmem hx u hu hl hbegun y.1 hopen
  have hlater := recorded_ticks settings env w es u hu _ z h₂ hh y (List.mem_append_left _ hy)
  exact ⟨v, hv, hmanual, c, hc, hcompletes, hafter, by omega⟩

/-! ## The morning after -/

instance : ∀ e, Decidable (StandsDown settings env s e)
  | .step i => inferInstanceAs (Decidable (∀ u ∈ s.tasks[i]?, u.label.isScheduled = true →
      ∀ last ∈ checksWindow u, ∀ t ∈ s.tasks, ∀ x ∈ t.history, FailedWith t x → Begun x.1 u →
      ¬ CompletedBetween s x.1 s.state.tick →
      (window settings last).decide (env.now s.state.tick) ≠ .runRebalance))
  | .launch _ => inferInstanceAs (Decidable True)
  | .crash _ => inferInstanceAs (Decidable True)
  | .ambient _ => inferInstanceAs (Decidable True)

/-- The message to the queue for the second order fails, on the day the rebalance is due; the
next trigger comes on `day`. -/
def Env.failingThen (day : ℤ) : Env :=
  { Env.inFebruary with
    now := fun n => (if n < 20 then 32 else day) * microsecondsPerDay + 1800000000
    fault := fun n _ => if n = 16 then some (.other "OperationalError" "broker unreachable") else none }

/-- Two triggers of the beat schedule. -/
def twoTriggers : List Event :=
  .launch (.executeRebalance (.sample 1 [("005930", 100), ("000660", 100)]) true) ::
    List.replicate 20 (.step 0) ++
    .launch (.executeRebalance (.sample 2 [("005930", 100), ("000660", 100)]) true) ::
    List.replicate 15 (.step 1)

/-- The second trigger comes after the delay. -/
theorem failure_stops_automation_sample :
    (∃ t ∈ ((autotrading .sample (.failingThen 40)).run (start .afterRebalance) twoTriggers).tasks,
      ∃ x ∈ t.history, FailedWith t x) ∧
    Stopped ((autotrading .sample (.failingThen 40)).run (start .afterRebalance) twoTriggers) :=
  ⟨by decide +kernel, failure_stops_automation _ _ _ _ (by decide +kernel)⟩

/-- The second trigger comes on the next morning, and queues an order of a new rebalance. -/
theorem restarted_next_morning : ¬ Stopped ((autotrading .sample (.failingThen 33)).run
    (start .afterRebalance) twoTriggers) := by
  intro h
  have hqueued : ∃ t ∈ ((autotrading .sample (.failingThen 33)).run (start .afterRebalance)
      twoTriggers).tasks, ∃ x ∈ t.history, FailedWith t x ∧
      ∃ u ∈ ((autotrading .sample (.failingThen 33)).run (start .afterRebalance) twoTriggers).tasks,
        u.label.isScheduled = true ∧ Begun x.1 u ∧ ∃ z ∈ u.history, queuesOrder z = true ∧
          ¬ CompletedBetween ((autotrading .sample (.failingThen 33)).run (start .afterRebalance)
            twoTriggers) x.1 z.1 := by decide +kernel
  obtain ⟨t, ht, x, hx, hfailed, u, hu, hl, hbegun, z, hz, hqueues, hnot⟩ := hqueued
  exact hnot (h t ht x hx hfailed u hu hl hbegun z hz hqueues)

end Autotrading
