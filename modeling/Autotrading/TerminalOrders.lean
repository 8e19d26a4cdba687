import Autotrading.SystemRules

/-!
# Terminal orders are frozen

Every statement that a task issues names the statuses it expects, and none of them
is terminal. The one statement without such a guard, on the parent of a child
order, is never reached.
-/
namespace Autotrading

open Machine OrderState OrderRepository
open Machine.Sys (start)

variable {settings : Settings} {env : Env} {s s' : System} {e : Event}

/-- No statement of a task selects a terminal row. -/
theorem Write.guarded {l : Label} {h : Calls} {u : OrderUpdate} (hw : Write l h u) : u.Guarded := by
  have htracking : ∀ s ∈ trackingTargetStatuses, ¬ Terminal s := fun _ => not_terminal_of_tracked
  cases hw with
  | gate => exact ⟨[.pending], rfl, by simp [Terminal, terminalStates]⟩
  | release => exact ⟨[.processing], rfl, by simp [Terminal, terminalStates]⟩
  | submit => exact ⟨[.processing], rfl, by simp [Terminal, terminalStates]⟩
  | track => exact ⟨_, rfl, fun s hs => htracking s (expectedStatuses_tracked hs)⟩
  | timeout => exact ⟨trackingTargetStatuses, rfl, htracking⟩
  | fail => exact ⟨trackingTargetStatuses, rfl, htracking⟩

/-- One event leaves a terminal row as it is. -/
theorem terminal_change (hs : Sound env s) (hc : Change (autotrading settings env) s e s')
    {k : OrderId} {r : Order} (hr : s.state.orders.get? k = some r) (ht : Terminal r.status) :
    s'.state.orders.get? k = some r := by
  rcases row_change hs hc hr with hkeep | ⟨i, t, u, -, -, -, hw, hsel, -, -⟩
  · exact hkeep
  · have hfalse := hw.guarded.not_selects ht
    rw [hsel] at hfalse
    cases hfalse

/-- A terminal row stays as it is in every run from a sound state. -/
theorem Sound.terminal_run (hs : Sound env s) (es : List Event) {k : OrderId} {r : Order}
    (hr : s.state.orders.get? k = some r) (ht : Terminal r.status) :
    ((autotrading settings env).run s es).state.orders.get? k = some r := by
  have hstep : ∀ s e s', Sound env s ∧ s.state.orders.get? k = some r →
      Change (autotrading settings env) s e s' → Sound env s' ∧ s'.state.orders.get? k = some r :=
    fun s e s' h hc => ⟨h.1.change hc, terminal_change h.1 hc h.2 ht⟩
  exact (run_invariant hstep es ⟨hs, hr⟩).2

/-- No statement matches an order that was terminal from the start. -/
theorem terminal_never_matched (settings : Settings) (env : Env) {w : World} {k : OrderId} {r : Order}
    (hr : w.orders.get? k = some r) (ht : Terminal r.status) (es : List Event) {t : Task}
    (hmem : t ∈ ((autotrading settings env).run (start w) es).tasks) {u : OrderUpdate} (hu : u.id = k) :
    ¬ Prog.Answered t.history (.updateOrder u) true := by
  have hstep : ∀ s e s', (Sound env s ∧ s.state.orders.get? k = some r ∧
        Known (fun _ _ (x : Entry) => ∀ n u, x = (n, ⟨.updateOrder u, .ok true⟩) → u.id ≠ k) s) →
      Change (autotrading settings env) s e s' →
      Sound env s' ∧ s'.state.orders.get? k = some r ∧
        Known (fun _ _ (x : Entry) => ∀ n u, x = (n, ⟨.updateOrder u, .ok true⟩) → u.id ≠ k) s' := by
    rintro s e s' ⟨hs, hrow, hknown⟩ hc
    refine ⟨hs.change hc, terminal_change hs hc hrow ht, ?_⟩
    refine hknown.change hc (fun _ _ hx => hx) fun i t o kont _ hi hp n u hx hid => ?_
    obtain rfl : o = .updateOrder u := congrArg (fun x : Entry => x.2.1) hx
    have hanswer : (World.handle env (.updateOrder u) s.state).1 = .ok true := by
      have hpair := congrArg Prod.snd hx
      exact eq_of_heq (Sigma.mk.inj hpair).2
    have hlive := (hs.write hi hp).guarded.not_selects ht
    rcases World.handle_updateOrder env s.state u with ⟨e, he⟩ | ⟨matched, table, hx', he⟩
    · rw [he] at hanswer
      cases hanswer
    · rw [he] at hanswer
      obtain rfl := Except.ok.inj hanswer
      obtain ⟨o, ho, hsel⟩ := (OrderTable.execute_matched hx').mp rfl
      rw [hid] at ho
      obtain rfl := Option.some.inj (hrow.symm.trans ho)
      rw [hlive] at hsel
      cases hsel
  have hinv := run_invariant hstep es ⟨sound_start w, hr, by intro t ht; cases ht⟩
  rintro ⟨n, hn⟩
  exact hinv.2.2 t hmem _ hn n u rfl hu

/-- An order that has ended is not submitted any more. -/
theorem terminal_not_submitted (settings : Settings) (env : Env) {w : World} {k : OrderId} {r : Order}
    (hr : w.orders.get? k = some r) (ht : Terminal r.status) (es : List Event) :
    ¬ Submitted ((autotrading settings env).run (start w) es) k := by
  intro hsub
  obtain ⟨t, hmem, u, hu, hgate⟩ := (sound_run settings env w es).submitted_gate hsub
  exact terminal_never_matched settings env hr ht es hmem hu hgate

/-- After any run, whatever any task does next, in any order, a terminal order keeps
its status, its quantities and every other column. -/
theorem terminal_order_frozen (settings : Settings) (env : Env) (w : World)
    (es later : List Event) {k : OrderId} {r : Order}
    (hr : ((autotrading settings env).run (start w) es).state.orders.get? k = some r)
    (ht : Terminal r.status) :
    ((autotrading settings env).run (start w) (es ++ later)).state.orders.get? k = some r := by
  rw [run_append]
  exact (sound_run settings env w es).terminal_run later hr ht

/-- Order 1 is filled while its MODIFY child, order 2, fills in part: the cycle of the
child leaves it alone. -/
theorem filled_order_frozen_under_child :
    ((autotrading .sample { Env.quiet with
        get := fun _ _ => ExecutionAnswer.ofRows [⟨"91252", "8", "10", "4", "0", "0", "100", "6"⟩] }).run
      (start (.holding [{ Order.sample 1 .filled with filledQty := 10, remainingQty := 0 },
        Order.childSample 2 .modify] [.processOrderStatus (some 2) 0 none]))
      ([] ++ .launch (.processOrderStatus (some 2) 0 none) ::
        List.replicate 12 (.step 0))).state.orders.get? 1 =
      some { Order.sample 1 .filled with filledQty := 10, remainingQty := 0 } :=
  terminal_order_frozen _ _ _ [] _ (by decide +kernel) (by decide)

end Autotrading
