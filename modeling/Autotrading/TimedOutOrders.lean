import Autotrading.TrackingCycle

/-!
# Orders that time out

The cycle that finds the tracking window over stores the order as TIMEOUT and then makes
a cancel order for what is left of it. `uuid` is the function of `celery`, so making the id
raises, and the handler around it only logs: no cancel order is ever stored.
-/
namespace Autotrading.ProcessOrderStatus

open Prog OrderState OrderRepository TrackingSnapshot

variable {env : Env} {w w' : World} {id : OrderId} {order : Order} {attempt : ℕ}
  {first : Option Instant} {cycle : Cycle} {snapshot : Snapshot}

/-- The cancel order for `quantity` shares of `order`, stored and queued by this cycle. -/
structure CancelQueued (order : Order) (quantity : ℤ) (w w' : World) (c : Order) : Prop where
  unknown : w.orders.get? c.id = none
  stored : w'.orders.get? c.id = some c
  kind : c.orderKind = .cancel
  quantity : c.orderQty = quantity
  original : c.originalOrderId = some order.id
  brokerOrderNo : c.originalBrokerOrderNo = order.brokerOrderNo
  brokerOrgNo : c.originalBrokerOrgNo = order.brokerOrgNo
  rebalance : c.rebalanceId = order.rebalanceId
  queued : w'.queue.count (.processOrder c.id) = w.queue.count (.processOrder c.id) + 1

/-- The order is stored as TIMEOUT with these quantities, and exactly one cancel order for
what is left of it is stored and queued. -/
def TimeoutHandled (id : OrderId) (filledQty remainingQty : ℤ) (w w' : World) : Prop :=
  ∃ order, w'.orders.get? id = some order ∧ order.status = .timeout ∧
    order.filledQty = filledQty ∧ order.remainingQty = remainingQty ∧
    ∃ c, CancelQueued order remainingQty w w' c ∧
      ∀ c', CancelQueued order remainingQty w w' c' → c' = c

/-- No order has come to the table. -/
def NoneNew (w w' : World) : Prop := ∀ k, w.orders.get? k = none → w'.orders.get? k = none

theorem NoneNew.not_handled {filledQty remainingQty : ℤ} (h : NoneNew w w') :
    ¬ TimeoutHandled id filledQty remainingQty w w' := by
  intro hhandled
  obtain ⟨order, -, -, -, -, c, hc, -⟩ := hhandled
  have hnone := h c.id hc.unknown
  rw [hc.stored] at hnone
  cases hnone

/-- Worker 2 inserts no order, whatever a cycle meets. -/
theorem run_noneNew (env : Env) (w : World) (id : OrderId) (attempt : ℕ) (first : Option Instant) :
    NoneNew w (run (World.handle env) (processOrderStatus (some id) attempt first) w).2 := by
  have hconduct := conduct_processOrderStatus (some id) attempt first
  refine hconduct.run_rel (R := NoneNew) (fun _ _ hk => hk)
    (fun a b c hab hbc k hk => hbc k (hab k hk)) ?_ w
  intro h o s ho k hk
  by_cases hi : ∃ os, o = .insertOrders os
  · obtain ⟨os, rfl⟩ := hi
    have hempty : os = [] := by
      rw [List.eq_nil_iff_forall_not_mem]
      intro c hc
      have hcreator := (ho c hc).creator
      cases hcreator
    rcases World.handle_insertOrders env s os with ⟨e, he⟩ | ⟨t, ht, he⟩
    · rw [he]
      exact hk
    · rw [he]
      rw [hempty, List.map_nil] at ht
      obtain rfl := Option.some.inj ht
      exact hk
  · by_cases hu : ∃ u, o = .updateOrder u
    · obtain ⟨u, rfl⟩ := hu
      rcases World.handle_updateOrder env s u with ⟨e, he⟩ | ⟨matched, t, ht, he⟩
      · rw [he]
        exact hk
      · rw [he]
        show t.get? k = none
        rw [OrderTable.get?_execute ht, hk, Option.map_none]
    · rw [World.orders_handle (fun u hu' => hu ⟨u, hu'⟩) fun os hi' => hi ⟨os, hi'⟩]
      exact hk

/-- In no surroundings and for no order does a cycle do what it means to when the window
is over: the cancel order is missing. -/
theorem timeout_never_handled (env : Env) (w : World) (id : OrderId) (attempt : ℕ)
    (first : Option Instant) (filledQty remainingQty : ℤ) :
    ¬ TimeoutHandled id filledQty remainingQty w
      (run (World.handle env) (processOrderStatus (some id) attempt first) w).2 :=
  (run_noneNew env w id attempt first).not_handled

/-! ## What the cycle does store -/

/-- The statement of the timeout. -/
def timedOut (cycle : Cycle) (order : Order) (snapshot : Snapshot) : OrderUpdate :=
  trackingUpdate order.id trackingTargetStatuses (timeoutResult cycle snapshot.result)

/-- The message of a timeout fits its column, so the row fits when the result did. -/
theorem fits_timedOut (hfit : ((tracked order snapshot).set.apply order).Fits) :
    ((timedOut cycle order snapshot).set.apply
      ((tracked order snapshot).set.apply order)).Fits := by
  have hmsg : Order.fitsText 32 "ORDER_TIMEOUT" = true := by decide
  simp only [Order.Fits, Order.fits, timedOut, tracked, trackingUpdate, timeoutResult,
    SetClause.apply, Order.fitsOptional, Bool.and_eq_true] at hfit ⊢
  simp_all

/-- The cancel order comes to nothing. -/
theorem quiet_cancelAfterTimeout (env : Env) (order : Order) (remainingQty : ℤ) :
    Quiet (World.handle env) World.orders (cancelAfterTimeout order remainingQty) := by
  intro w
  unfold cancelAfterTimeout newCancelOrderId
  rw [raise_bind]
  exact ⟨(), w, rfl, rfl⟩

theorem run_timeoutOrder {loaded : List Order} (hup : Available env)
    (hr : w.orders.get? order.id = some order) (htracked : order.status ∈ trackingTargetStatuses)
    (hfit : ((timedOut cycle order snapshot).set.apply order).Fits) :
    ∃ w', run (World.handle env) (timeoutOrder cycle order snapshot loaded) w = (.ok (), w') ∧
      w'.orders.get? order.id = some ((timedOut cycle order snapshot).set.apply order) := by
  have hsel : (timedOut cycle order snapshot).selects order = true := by
    simp [timedOut, trackingUpdate, OrderUpdate.selects, htracked]
  obtain ⟨t, hstore, ht⟩ := World.handle_updateOrder_fits (hup w.tick (.updateOrder _) (by simp)) hr
    hsel hfit
  have hquiet : Quiet (World.handle env) World.orders (do
      let published ← publishOrderUpdate ((timedOut cycle order snapshot).refresh order)
      if 0 < order.remainingQty ∧
          Python.truthy ((timedOut cycle order snapshot).refresh order).brokerOrderNo then
        cancelAfterTimeout ((timedOut cycle order snapshot).refresh order) order.remainingQty
      triggerRebalanceSnapshotIfCompleted ((timedOut cycle order snapshot).refresh order)
        ((timedOut cycle order snapshot).refresh order :: loaded ++ published)) := by
    refine (quiet_publishOrderUpdate hup _).bind ?_
    intro published
    split
    · refine (quiet_cancelAfterTimeout env _ _).bind ?_
      intro _
      exact quiet_triggerRebalanceSnapshot hup _ _
    · exact quiet_triggerRebalanceSnapshot hup _ _
  obtain ⟨_, w', hrest, hw'⟩ := hquiet { w.next with orders := t }
  refine ⟨w', ?_, by rw [hw']; exact ht⟩
  unfold timeoutOrder updateOrderTrackingResult
  rw [run_bind, run_perform]
  rw [timedOut] at hstore hrest
  rw [hstore]
  exact hrest

/-- Once the window is closed, an open order times out. -/
theorem retrack_closed {loaded : List Order} (hlive : snapshot.result.nextStatus ∉ terminalStatuses)
    (hwindow : resolveRetrackingDelay cycle.attempt cycle.elapsed = none) :
    retrack cycle order snapshot loaded = timeoutOrder cycle order snapshot loaded := by
  unfold retrack
  rw [if_neg hlive, hwindow]

/-- Beyond the window an open order is stored as TIMEOUT with the quantities of the answer. -/
theorem timeout_stored {answer : DailyOrderExecutionResponse} (hup : Available env)
    (hr : w.orders.get? order.id = some order) (hkind : order.orderKind = .new)
    (hchildless : Childless order.id w) (hnumber : Python.truthy order.brokerOrderNo = true)
    (htracked : order.status ∈ trackingTargetStatuses)
    (hanswer : queried env w order = .ok answer)
    (hsnapshot : extractOrderTrackingSnapshot order answer false = .ok snapshot)
    (hopen : snapshot.result.nextStatus ∈ trackingTargetStatuses)
    (hallowed : canTransition order.status snapshot.result.nextStatus = true)
    (hfit : ((tracked order snapshot).set.apply order).Fits)
    (hwindow : 1800 * 1000000 ≤ (cycleAt attempt first (env.now w.tick)).elapsed) :
    ∃ stored, (run (World.handle env) (processOrderStatus (some order.id) attempt first) w).2.orders.get?
        order.id = some stored ∧ stored.status = .timeout ∧
      stored.filledQty = snapshot.result.filledQty ∧
      stored.remainingQty = snapshot.result.remainingQty := by
  obtain ⟨w₁, loaded, hw₁, hrun⟩ := @run_tracked env w order snapshot attempt first answer hup hr
    hkind hchildless hnumber htracked hanswer hsnapshot hallowed hfit
  have hrow : w₁.orders.get? order.id = some ((tracked order snapshot).set.apply order) := by
    have hsel : (tracked order snapshot).selects order = true :=
      expectedStatuses_selects htracked snapshot.result
    rw [hw₁, hr, Option.map_some, OrderUpdate.refresh, if_pos hsel]
  have hopen' : ((tracked order snapshot).set.apply order).status ∈ trackingTargetStatuses := by
    rw [SetClause.apply_status]
    exact hopen
  have hid : ((tracked order snapshot).set.apply order).id = order.id := SetClause.apply_id _ _
  rw [← hid] at hrow
  obtain ⟨w₂, htimeout, hw₂⟩ := @run_timeoutOrder env w₁ _ (cycleAt attempt first (env.now w.tick))
    snapshot loaded hup hrow hopen' (fits_timedOut hfit)
  have hdelay : resolveRetrackingDelay attempt (cycleAt attempt first (env.now w.tick)).elapsed =
      none := by
    unfold resolveRetrackingDelay
    rw [if_neg (by omega), if_pos hwindow]
  have hlive : snapshot.result.nextStatus ∉ terminalStatuses := by
    rw [mem_terminalStatuses]
    exact not_terminal_of_tracked hopen
  rw [hid] at hw₂
  rw [hrun, retrack_closed hlive hdelay, run_tryExcept, htimeout]
  exact ⟨_, hw₂, rfl, rfl, rfl⟩

/-! ## An order that is left behind -/

/-- Surroundings in which the broker reports six of ten shares as open, half an hour after
the chain began. -/
def overdue : Env :=
  { Env.quiet with
    get := fun _ _ => ExecutionAnswer.ofRows [⟨"91252", "7", "10", "6", "0", "0", "100", "4"⟩]
    now := fun _ => 1800000000 }

/-- The tenth cycle of order 1 there. -/
def overdueCycle : World :=
  (run (World.handle overdue) (processOrderStatus (some 1) 10 (some 0))
    (.holding [{ Order.sample 1 .accepted with rebalanceId := some 3 }] [])).2

/-- Order 1 is stored as TIMEOUT with six shares left and no cancel order; the one message
sent captures the rebalance as complete. -/
theorem timeout_without_cancel :
    (overdueCycle.orders.rows.map fun r => (r.id, r.status, r.filledQty, r.remainingQty)) =
        [(1, .timeout, 4, 6)] ∧
      overdueCycle.queue = [.captureRebalanceSnapshot 3] ∧
      ¬ TimeoutHandled 1 4 6 (.holding [{ Order.sample 1 .accepted with rebalanceId := some 3 }] [])
        overdueCycle := by
  refine ⟨by decide +kernel, by decide +kernel, ?_⟩
  exact (run_noneNew _ _ _ _ _).not_handled

end Autotrading.ProcessOrderStatus
