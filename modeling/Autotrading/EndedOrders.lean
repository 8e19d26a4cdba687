import Autotrading.TerminalOrders

/-!
# Orders seen to end

A cycle looks at the orders of a rebalance through the objects its session holds. What
it takes for ended is ended in the database: it read a terminal row, its own statement
stored a terminal status, or a statement on all tracked statuses came after it had read
one of them.
-/
namespace Autotrading

open Machine Prog OrderState OrderRepository
open Machine.Sys (start)

variable {settings : Settings} {env : Env} {s s' : System} {e : Event} {w : World} {id : OrderId}

/-- The stored order has ended. -/
def RowEnded (id : OrderId) (w : World) : Prop :=
  ∃ r, w.orders.get? id = some r ∧ Terminal r.status

/-- The stored order is tracked or has ended. -/
def RowAhead (id : OrderId) (w : World) : Prop :=
  ∃ r, w.orders.get? id = some r ∧ (r.status ∈ trackingTargetStatuses ∨ Terminal r.status)

/-- A tracked order stays tracked or ends. -/
theorem Write.ahead {l : Label} {h : Calls} {u : OrderUpdate} (hw : Write l h u) {r : Order}
    (hsel : u.selects r = true) (hr : r.status ∈ trackingTargetStatuses) :
    u.set.nextStatus ∈ trackingTargetStatuses ∨ Terminal u.set.nextStatus := by
  have hexp := (OrderUpdate.selects_iff.mp hsel).2
  -- the statements of worker 1 are on other statuses
  have hother : ∀ status, u.expected = some [status] → status ∉ trackingTargetStatuses → False := by
    intro status hu hstatus
    have hmem := List.mem_singleton.mp (hexp _ hu)
    exact hstatus (hmem ▸ hr)
  cases hw with
  | gate => exact (hother _ rfl (by decide)).elim
  | release => exact (hother _ rfl (by decide)).elim
  | submit => exact (hother _ rfl (by decide)).elim
  | @track id attempt first h order n snapshot made =>
    have hallowed := made.allowed
    have htracked := made.tracked
    show snapshot.result.nextStatus ∈ trackingTargetStatuses ∨ Terminal snapshot.result.nextStatus
    revert hallowed htracked
    cases order.status <;> cases snapshot.result.nextStatus <;> decide
  | timeout => exact .inr (show Terminal .timeout by decide)
  | fail => exact .inr (show Terminal .failed by decide)

theorem RowEnded.change (h : RowEnded id s.state) (hs : Sound env s)
    (hc : Change (autotrading settings env) s e s') : RowEnded id s'.state := by
  obtain ⟨r, hr, ht⟩ := h
  exact ⟨r, terminal_change hs hc hr ht, ht⟩

theorem RowAhead.change (h : RowAhead id s.state) (hs : Sound env s)
    (hc : Change (autotrading settings env) s e s') : RowAhead id s'.state := by
  obtain ⟨r, hr, htracked | hend⟩ := h
  · rcases row_change hs hc hr with hkeep | ⟨i, t, u, hw⟩
    · exact ⟨r, hkeep, .inl htracked⟩
    · have hnext := hw.write.ahead hw.selects htracked
      rw [← u.set.apply_status r] at hnext
      exact ⟨_, hw.row, hnext⟩
  · exact ⟨r, terminal_change hs hc hr hend, .inr hend⟩

/-- What the tasks have read and seen to end is so in the stores. -/
structure Witnessed (s : System) : Prop where
  ahead : Known (fun w _ => World.ReadOf fun o => o.status ∈ trackingTargetStatuses →
    RowAhead o.id w) s
  ended : Known (fun w _ => World.ReadOf fun o => Terminal o.status → RowEnded o.id w) s
  stored : ∀ t ∈ s.tasks, ∀ h₁ n u matched h₂,
    t.history = h₁ ++ (n, ⟨.updateOrder u, .ok matched⟩) :: h₂ → Terminal u.set.nextStatus →
    matched = true ∨ (u.expected = some trackingTargetStatuses ∧
      ∃ k o, Answered h₁ (.selectOrder k) (some o) ∧ o.id = u.id ∧
        o.status ∈ trackingTargetStatuses) →
    RowEnded u.id s.state

theorem witnessed_start (w : World) : Witnessed (start w) where
  ahead := by intro t ht; cases ht
  ended := by intro t ht; cases ht
  stored := by intro t ht; cases ht

/-- What holds of the stored rows, and is kept, holds of every row that was read. -/
theorem read_change {P : OrderId → World → Prop} {q : Order → Prop}
    (hP : ∀ r, s.state.orders.get? r.id = some r → q r → P r.id s.state)
    (hkeep : ∀ (id : OrderId) (s' : System) (e : Event), P id s.state →
      Change (autotrading settings env) s e s' → P id s'.state)
    (h : Known (fun w _ => World.ReadOf fun o => q o → P o.id w) s)
    (hc : Change (autotrading settings env) s e s') :
    Known (fun w _ => World.ReadOf fun o => q o → P o.id w) s' := by
  refine h.change hc (fun _ _ hx => hx.mono fun r hr hq => hkeep _ _ _ (hr hq) hc) ?_
  intro i t o k _ ht hp
  have hc' := Change.stepped (m := autotrading settings env) i t o k ht hp
  have hrows : ∀ k r, s.state.orders.get? k = some r → q r → P r.id s.state := by
    intro k r hr hq
    rw [← KeyedTable.key_of_get? hr] at hr
    exact hP r hr hq
  have hread : World.ReadOf (fun r => q r → P r.id s.state)
      (s.state.tick, ⟨o, (World.handle env o s.state).1⟩) := World.readOf_handle hrows s.state.tick o
  exact hread.mono fun r hr hq => hkeep _ _ _ (hr hq) hc'

theorem Witnessed.change (h : Witnessed s) (hs : Sound env s)
    (hc : Change (autotrading settings env) s e s') : Witnessed s' where
  ahead := by
    refine read_change (fun r hr htracked => ⟨r, hr, .inl htracked⟩) ?_ h.ahead hc
    exact fun id s' e hrow hc' => hrow.change hs hc'
  ended := by
    refine read_change (fun r hr hend => ⟨r, hr, hend⟩) ?_ h.ended hc
    exact fun id s' e hrow hc' => hrow.change hs hc'
  stored := by
    intro t' ht' h₁ n u matched h₂ hh hend hseen
    rcases hc.split ht' hh with ⟨t, ht, -, h₃, hh⟩ | ⟨i, t, o, k, -, hi, -, hp, hstate, hx, rfl⟩
    · exact (h.stored t ht h₁ n u matched h₃ hh hend hseen).change hs hc
    · -- the statement has just been executed
      have ht := List.mem_of_getElem? hi
      obtain rfl : o = .updateOrder u := (congrArg (fun x : Entry => x.2.1) hx).symm
      have hok : (World.handle env (.updateOrder u) s.state).1 = .ok matched := by
        have hpair := congrArg Prod.snd hx
        exact (eq_of_heq (Sigma.mk.inj hpair).2).symm
      obtain ⟨hafter, hmatched⟩ := World.updateOrder_ok hok u.id
      have hselected : ∀ r, s.state.orders.get? u.id = some r → u.selects r = true →
          RowEnded u.id s'.state := by
        intro r hr hsel
        refine ⟨u.set.apply r, ?_, ?_⟩
        · rw [hstate]
          exact hafter.trans (by rw [hr, Option.map_some, OrderUpdate.refresh, if_pos hsel])
        · rw [SetClause.apply_status]
          exact hend
      rcases hseen with hm | ⟨hexp, k, o, hread, hid, htracked⟩
      · obtain ⟨r, hr, hsel⟩ := hmatched.mp hm
        exact hselected r hr hsel
      · -- the row read earlier is tracked still or has ended
        obtain ⟨m, hm⟩ := hread
        obtain ⟨r, hr, hnow | hnow⟩ := h.ahead t ht _ hm htracked
        · rw [hid] at hr
          refine hselected r hr (OrderUpdate.selects_iff.mpr ⟨KeyedTable.key_of_get? hr, ?_⟩)
          intro statuses hstatuses
          rw [hexp] at hstatuses
          obtain rfl := Option.some.inj hstatuses
          exact hnow
        · rw [hid] at hr
          exact RowEnded.change ⟨r, hr, hnow⟩ hs hc

/-- What a task has seen to end has ended. -/
theorem Witnessed.endSeen (h : Witnessed s) {t : Task} (ht : t ∈ s.tasks)
    (hseen : EndSeen t.history id) : RowEnded id s.state := by
  cases hseen with
  | read answered terminal =>
    obtain ⟨n, hn⟩ := answered
    exact h.ended t ht _ hn terminal
  | wrote answered terminal =>
    obtain ⟨n, hn⟩ := answered
    obtain ⟨h₁, h₂, hh⟩ := List.append_of_mem hn
    exact h.stored t ht h₁ n _ true h₂ hh terminal (.inl rfl)
  | late history read same tracked expected terminal =>
    exact h.stored t ht _ _ _ _ _ history terminal (.inr ⟨expected, _, _, read, same, tracked⟩)

end Autotrading
