import Autotrading.StoreEffects
import Autotrading.SystemConduct

/-!
# Rules for runs of the system

What holds of every task in every run, and what one event can do to a stored row:
nothing, or a statement of the conduct that selects it.
-/
namespace Autotrading

open Machine Prog OrderState OrderRepository
open Machine.Sys (start)

variable {settings : Settings} {env : Env} {s s' : System} {e : Event} {w : World}

/-- Past and future calls of the tasks keep to the conduct, what the tasks were told is
what the stores and the surroundings say, and no tick is used twice. -/
structure Sound (env : Env) (s : System) : Prop where
  obeys : Obeys Conduct s
  recorded : Recorded (fun l h (x : Entry) => Conduct l h x.2.1) s
  honest : Known (fun _ _ x => World.Honest env x) s
  stamped : Known (fun w _ x => x.1 < w.tick) s
  ticked : ∀ t ∈ s.tasks, ∀ t' ∈ s.tasks, ∀ x ∈ t.history, ∀ x' ∈ t'.history, x.1 = x'.1 →
    t.label = t'.label ∧ x = x'

theorem sound_start (w : World) : Sound env (start w) where
  obeys := by intro t ht; cases ht
  recorded := by intro t ht; cases ht
  honest := by intro t ht; cases ht
  stamped := by intro t ht; cases ht
  ticked := by intro t ht; cases ht

/-- Launches and ambient moves leave the orders, the requests and the clock alone. -/
theorem launch_stores {l : Label} {w'  : World} (h : World.launch l w = some w') :
    w'.orders = w.orders ∧ w'.snapshots = w.snapshots ∧ w'.requests = w.requests ∧
      w'.sent = w.sent ∧ w'.tick = w.tick := by
  unfold World.launch at h
  split at h
  · split at h
    · obtain rfl := Option.some.inj h
      simp
    · cases h
  · split at h
    · split at h
      · obtain rfl := Option.some.inj h
        simp
      · cases h
    · obtain rfl := Option.some.inj h
      simp

theorem ambient_stores (m : Move) (w : World) :
    (w.ambient m).orders = w.orders ∧ (w.ambient m).snapshots = w.snapshots ∧
      (w.ambient m).requests = w.requests ∧ (w.ambient m).sent = w.sent ∧
      (w.ambient m).tick = w.tick := by
  cases m with
  | redeliver m =>
    simp only [World.ambient]
    split <;> exact ⟨rfl, rfl, rfl, rfl, rfl⟩
  | expireRecoveryLock => exact ⟨rfl, rfl, rfl, rfl, rfl⟩

/-- A rebalance starts under an id that no order carries. -/
theorem launch_rebalance {l : Label} {w' : World} {rid : RebalanceId}
    (h : World.launch l w = some w') (hl : l.rebalanceId = some rid) :
    ∀ r ∈ w.orders.rows, r.rebalanceId ≠ some rid := by
  simp only [World.launch, hl] at h
  split at h
  · next hfresh =>
    simp only [World.freshRebalance, Bool.and_eq_true, List.all_eq_true,
      decide_eq_true_eq] at hfresh
    exact hfresh.1.2
  · cases h

/-- What tracks an order is a cycle of worker 2. -/
theorem exists_cycle_of_tracks {l : Label} {id : OrderId} (hl : l.tracks = some id) :
    ∃ attempt first, l = .processOrderStatus (some id) attempt first := by
  cases l with
  | processOrderStatus id' attempt first =>
    obtain rfl : id' = some id := hl
    exact ⟨attempt, first, rfl⟩
  | _ => cases hl

/-- The clock never goes back. -/
theorem tick_change (hc : Change (autotrading settings env) s e s') :
    s.state.tick ≤ s'.state.tick := by
  cases hc with
  | idle => exact le_refl _
  | launched l state hl => exact (launch_stores hl).2.2.2.2.ge
  | stepped i t o k ht hp =>
    have htick : ((autotrading settings env).handle o s.state).2.tick = s.state.tick + 1 :=
      World.tick_handle
    simp only [htick]
    omega
  | crashed i t ht => exact le_refl _
  | moved a => exact (ambient_stores a s.state).2.2.2.2.ge

theorem Sound.change (h : Sound env s) (hc : Change (autotrading settings env) s e s') :
    Sound env s' where
  obeys := h.obeys.change program_conduct hc
  recorded := h.recorded.change hc fun i t o k _ ht hp => h.obeys.call ht hp
  honest := h.honest.change hc (fun _ _ hx => hx) fun i t o k _ ht hp =>
    World.honest_handle env s.state o
  stamped := by
    refine h.stamped.change hc (fun _ _ hx => lt_of_lt_of_le hx (tick_change hc)) ?_
    intro i t o k _ ht hp
    have htick : ((autotrading settings env).handle o s.state).2.tick = s.state.tick + 1 :=
      World.tick_handle
    rw [htick]
    exact Nat.lt_succ_self _
  ticked := by
    intro t ht t' ht' x hx x' hx' hsame
    rcases hc.entry ht hx with ⟨u, hu, hl, hx⟩ | ⟨i, u, o, k, he, hu, hl, hp, -, rfl⟩
    · rcases hc.entry ht' hx' with ⟨u', hu', hl', hx'⟩ | ⟨i', u', o', k', -, -, -, -, -, rfl⟩
      · rw [← hl, ← hl']
        exact h.ticked u hu u' hu' x hx x' hx' hsame
      · exact absurd hsame (h.stamped u hu x hx).ne
    · rcases hc.entry ht' hx' with ⟨u', hu', -, hx'⟩ | ⟨i', u', o', k', he', hu', hl', hp', -, rfl⟩
      · exact absurd hsame.symm (h.stamped u' hu' x' hx').ne
      · -- both are the one call just made
        rw [he] at he'
        cases he'
        obtain rfl := Option.some.inj (hu.symm.trans hu')
        obtain rfl : o = o' := (Prog.call.inj (hp.symm.trans hp')).1
        exact ⟨hl.symm.trans hl', rfl⟩

theorem sound_run (settings : Settings) (env : Env) (w : World) (es : List Event) :
    Sound env ((autotrading settings env).run (start w) es) :=
  run_invariant (fun _ _ _ h hc => h.change hc) es (sound_start w)

/-! ## Rows -/

theorem expectedStatuses_tracked {status s : OrderStatus}
    (hs : s ∈ ProcessOrderStatus.expectedStatuses status) : s ∈ trackingTargetStatuses :=
  (List.mem_filter.mp hs).1

/-- A step of a task. -/
theorem Sound.write {i : ℕ} {t : Task} {u : OrderUpdate} {k} (h : Sound env s)
    (ht : s.tasks[i]? = some t) (hp : t.prog = .call (.updateOrder u) k) :
    Write t.label t.history u := h.obeys.call ht hp

/-- The event is a step of task `t`, the `i`-th, in which its statement `u` changes the
stored row `r` under the id `k`. -/
structure Written (s s' : System) (e : Event) (k : OrderId) (r : Order) (i : ℕ) (t : Task)
    (u : OrderUpdate) : Prop where
  event : e = .step i
  task : s.tasks[i]? = some t
  prog : ∃ kont, t.prog = .call (.updateOrder u) kont
  write : Write t.label t.history u
  selects : u.selects r = true
  row : s'.state.orders.get? k = some (u.set.apply r)
  after : ∃ t' ∈ s'.tasks, t'.label = t.label ∧
    t'.history = t.history ++ [(s.state.tick, ⟨.updateOrder u, .ok true⟩)]

/-- What one event does to a stored row: nothing, or a statement of the stepping
task that selects it. -/
theorem row_change (hs : Sound env s) (hc : Change (autotrading settings env) s e s')
    {k : OrderId} {r : Order} (hr : s.state.orders.get? k = some r) :
    s'.state.orders.get? k = some r ∨ ∃ i t u, Written s s' e k r i t u := by
  cases hc with
  | idle => exact .inl hr
  | launched l state hl =>
    refine .inl ?_
    rw [(launch_stores hl).1]
    exact hr
  | stepped i t o kont ht hp =>
    rcases World.get?_handle hr o with hkeep | ⟨u, rfl, hsel, hok, hnew⟩
    · exact .inl hkeep
    · have hlen := (List.getElem?_eq_some_iff.mp ht).1
      refine .inr ⟨i, t, u, rfl, ht, ⟨_, hp⟩, hs.write ht hp, hsel, hnew, ?_⟩
      refine ⟨_, List.mem_of_getElem? (List.getElem?_set_self hlen), rfl, ?_⟩
      exact congrArg (fun r => t.history ++ [(s.state.tick, (⟨.updateOrder u, r⟩ :
        (o : Op) × Except PyExc (Ans o)))]) hok
  | crashed i t ht => exact .inl hr
  | moved a =>
    refine .inl ?_
    show (World.ambient a s.state).orders.get? k = some r
    rw [(ambient_stores a s.state).1]
    exact hr

/-- The event is a step of task `t`, the `i`-th, in which it stores the order `o` among
`os` as the row `r`. -/
structure Inserted (env : Env) (s : System) (e : Event) (r : Order) (i : ℕ) (t : Task)
    (os : List Order) (o : Order) : Prop where
  event : e = .step i
  task : s.tasks[i]? = some t
  prog : ∃ kont, t.prog = .call (.insertOrders os) kont
  mem : o ∈ os
  insert : Insert t.label t.history o
  row : r = s.state.stamp env o

/-- A row under a new id was inserted by the stepping task. -/
theorem row_new (hs : Sound env s) (hc : Change (autotrading settings env) s e s')
    {k : OrderId} {r : Order} (hnone : s.state.orders.get? k = none)
    (hr : s'.state.orders.get? k = some r) :
    ∃ i t os o, Inserted env s e r i t os o := by
  cases hc with
  | idle => exact absurd (hnone.symm.trans hr) (by simp)
  | launched l state hl =>
    rw [(launch_stores hl).1] at hr
    exact absurd (hnone.symm.trans hr) (by simp)
  | stepped i t o kont ht hp =>
    obtain ⟨os, rfl, o', ho', hro⟩ := World.get?_handle_new hnone hr
    exact ⟨i, t, os, o', rfl, ht, ⟨_, hp⟩, ho', hs.obeys.call ht hp o' ho', hro⟩
  | crashed i t ht => exact absurd (hnone.symm.trans hr) (by simp)
  | moved a =>
    have hr' : (World.ambient a s.state).orders.get? k = some r := hr
    rw [(ambient_stores a s.state).1] at hr'
    exact absurd (hnone.symm.trans hr') (by simp)

/-- A task is answered once. -/
theorem Sound.fetched_once (h : Sound env s) {t : Task} (ht : t ∈ s.tasks) {x x' : Entry}
    (hx : x ∈ t.history) (hx' : x' ∈ t.history) (hf : fetches x = true) (hf' : fetches x' = true) :
    x = x' := by
  -- the later of two answers would have been asked for with the earlier one at hand
  have hlast : ∀ h₁ h₂ (y : Entry), t.history = h₁ ++ y :: h₂ → fetches y = true →
      ∀ z ∈ h₁, fetches z = false := by
    intro h₁ h₂ y hh hy
    obtain ⟨n, o, r⟩ := y
    have hconduct := h.recorded t ht h₁ _ h₂ hh
    cases o
    case get q => exact hconduct
    all_goals cases hy
  obtain ⟨h₁, h₂, hh⟩ := List.append_of_mem hx
  have hsplit := hx'
  rw [hh, List.mem_append, List.mem_cons] at hsplit
  rcases hsplit with hbefore | hsame | hafter
  · have hfalse := hlast h₁ h₂ x hh hf x' hbefore
    rw [hf'] at hfalse
    cases hfalse
  · exact hsame.symm
  · obtain ⟨h₃, h₄, rfl⟩ := List.append_of_mem hafter
    have hmem : x ∈ h₁ ++ x :: h₃ := by simp
    have hfalse := hlast (h₁ ++ x :: h₃) h₄ x' (by simp [hh]) hf' x hmem
    rw [hf] at hfalse
    cases hfalse

/-- The row a task read carries the id it asked for. -/
theorem Sound.read_id (h : Sound env s) {t : Task} (ht : t ∈ s.tasks) {k : Option OrderId}
    {r : Order} (hr : Answered t.history (.selectOrder k) (some r)) : k = some r.id := by
  obtain ⟨n, hn⟩ := hr
  exact h.honest t ht _ hn

/-! ## Messages -/

/-- What one event can send. -/
theorem sent_change (hs : Sound env s) (hc : Change (autotrading settings env) s e s') {m : Message}
    (hm : m ∈ s'.state.sent) :
    m ∈ s.state.sent ∨
      ∃ i t n k, e = .step i ∧ s.tasks[i]? = some t ∧ t.prog = .call (.enqueue m n) k ∧
        Send t.label t.history m := by
  cases hc with
  | idle => exact .inl hm
  | launched l state hl =>
    rw [(launch_stores hl).2.2.2.1] at hm
    exact .inl hm
  | stepped i t o k ht hp =>
    have hsent : m ∈ s.state.sent ∨ ∃ n, o = .enqueue m n := World.mem_sent_handle hm
    rcases hsent with hold | ⟨n, rfl⟩
    · exact .inl hold
    · exact .inr ⟨i, t, n, k, rfl, ht, hp, hs.obeys.call ht hp⟩
  | crashed i t ht => exact .inl hm
  | moved a =>
    have hm' : m ∈ (World.ambient a s.state).sent := hm
    rw [(ambient_stores a s.state).2.2.2.1] at hm'
    exact .inl hm'

theorem sent_mono (hc : Change (autotrading settings env) s e s') {m : Message}
    (hm : m ∈ s.state.sent) : m ∈ s'.state.sent := by
  cases hc with
  | idle => exact hm
  | launched l state hl =>
    rw [(launch_stores hl).2.2.2.1]
    exact hm
  | stepped i t o k ht hp => exact World.sent_handle_mono hm
  | crashed i t ht => exact hm
  | moved a =>
    have hsent : (World.ambient a s.state).sent = s.state.sent := (ambient_stores a s.state).2.2.2.1
    show m ∈ (World.ambient a s.state).sent
    rw [hsent]
    exact hm

/-- A message that is in the queue, or that has started a task, was sent. -/
structure Delivered (s : System) : Prop where
  queued : ∀ m ∈ s.state.queue, m ∈ s.state.sent
  started : ∀ t ∈ s.tasks, ∀ m, t.label.message = some m → m ∈ s.state.sent

theorem delivered_start (hw : ∀ m ∈ w.queue, m ∈ w.sent) : Delivered (start w) where
  queued := hw
  started := by intro t ht; cases ht

/-- No message starts a rebalance. -/
theorem message_of_rebalance {l : Label} {rid : RebalanceId} (hl : l.rebalanceId = some rid) :
    l.message = none := by
  cases l with
  | processOrder id => cases hl
  | processOrderStatus id attempt first => cases hl
  | captureRebalanceSnapshot rid => cases hl
  | _ => rfl

/-- A launch takes its message off the queue. -/
theorem launch_queue {l : Label} {w' : World} (h : World.launch l w = some w') :
    (∀ m ∈ w'.queue, m ∈ w.queue) ∧ ∀ m, l.message = some m → m ∈ w.queue := by
  unfold World.launch at h
  split at h
  · next rid hrid =>
    split at h
    · obtain rfl := Option.some.inj h
      refine ⟨fun m hm => hm, fun m hm => ?_⟩
      rw [message_of_rebalance hrid] at hm
      cases hm
    · cases h
  · split at h
    · next m₀ hm₀ =>
      split at h
      · obtain rfl := Option.some.inj h
        refine ⟨fun m hm => List.mem_of_mem_erase hm, fun m hm => ?_⟩
        obtain rfl := Option.some.inj (hm₀.symm.trans hm)
        assumption
      · cases h
    · next hnone =>
      obtain rfl := Option.some.inj h
      refine ⟨fun m hm => hm, fun m hm => ?_⟩
      rw [hnone] at hm
      cases hm

theorem Delivered.change (h : Delivered s) (hc : Change (autotrading settings env) s e s') :
    Delivered s' where
  queued := by
    intro m hm
    cases hc with
    | idle => exact h.queued m hm
    | launched l state hl =>
      rw [(launch_stores hl).2.2.2.1]
      exact h.queued m ((launch_queue hl).1 m hm)
    | stepped i t o k ht hp => exact World.queue_sent_handle h.queued m hm
    | crashed i t ht => exact h.queued m hm
    | moved a =>
      cases a with
      | redeliver m' =>
        have hm' : m ∈ (World.ambient (.redeliver m') s.state).queue := hm
        show m ∈ (World.ambient (.redeliver m') s.state).sent
        rw [(ambient_stores (.redeliver m') s.state).2.2.2.1]
        simp only [World.ambient] at hm'
        split at hm'
        · next hsent =>
          rcases List.mem_append.mp hm' with hold | hnew
          · exact h.queued m hold
          · obtain rfl := List.mem_singleton.mp hnew
            exact hsent
        · exact h.queued m hm'
      | expireRecoveryLock => exact h.queued m hm
  started := by
    intro t' ht' m hm
    have hmono := fun hold : m ∈ s.state.sent => sent_mono hc hold
    cases hc with
    | idle => exact h.started t' ht' m hm
    | launched l state hl =>
      rcases List.mem_append.mp ht' with ht' | ht'
      · exact hmono (h.started t' ht' m hm)
      · obtain rfl := List.mem_singleton.mp ht'
        exact hmono (h.queued m ((launch_queue hl).2 m hm))
    | stepped i t o k ht hp =>
      rcases List.mem_or_eq_of_mem_set ht' with ht' | rfl
      · exact hmono (h.started t' ht' m hm)
      · exact hmono (h.started t (List.mem_of_getElem? ht) m hm)
    | crashed i t ht =>
      rcases List.mem_or_eq_of_mem_set ht' with ht' | rfl
      · exact h.started t' ht' m hm
      · exact h.started t (List.mem_of_getElem? ht) m hm
    | moved a => exact hmono (h.started t' ht' m hm)

/-! ## Order requests -/

def isPost : Entry → Bool
  | (_, ⟨.post _, _⟩) => true
  | _ => false

/-- A task of worker 1 for the order has come to its order request. -/
def Submitted (s : System) (id : OrderId) : Prop :=
  ∃ t ∈ s.tasks, t.label = .processOrder id ∧ t.history.any isPost = true

theorem submitted_iff {s : System} {id : OrderId} :
    Submitted s id ↔ ∃ t ∈ s.tasks,
      t.label.message = some (.processOrder id) ∧ t.history.any isPost = true := by
  have hlabel : ∀ l : Label, l.message = some (.processOrder id) ↔ l = .processOrder id := by
    intro l
    cases l <;> simp [Label.message]
  simp only [Submitted, hlabel]

/-- Such a task was let through by the gate of the order. -/
theorem Sound.submitted_gate (hs : Sound env s) {id : OrderId} (h : Submitted s id) :
    ∃ t ∈ s.tasks, ∃ u : OrderUpdate, u.id = id ∧ Answered t.history (.updateOrder u) true := by
  obtain ⟨t, ht, hl, hpost⟩ := h
  obtain ⟨⟨n, o, r⟩, hx, hpost⟩ := List.any_eq_true.mp hpost
  obtain ⟨h₁, h₂, hh⟩ := List.append_of_mem hx
  cases o
  case post q =>
    obtain ⟨id', order, hl', hread, hgate⟩ := hs.recorded t ht h₁ _ h₂ hh
    have hsame : id' = id := by
      rw [hl] at hl'
      cases hl'
      rfl
    have hpre : h₁ <+: t.history := ⟨_, hh.symm⟩
    have hid := hs.read_id ht (hread.mono hpre)
    refine ⟨t, ht, _, ?_, hgate.mono hpre⟩
    rw [← hsame, Option.some.inj hid]
    rfl
  all_goals cases hpost

end Autotrading
