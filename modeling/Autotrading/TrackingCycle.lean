import Autotrading.TrackingEnds

/-!
# A tracking cycle alone

What one run of `_process_order_status` stores when nothing but the query to the broker
can fail: the result its answer gives for the order, behind the check of the state
machine.
-/
namespace Autotrading.ProcessOrderStatus

open Prog OrderState OrderRepository TrackingSnapshot

variable {env : Env} {w : World} {order : Order} {cycle : Cycle} {snapshot : Snapshot}

/-- Only the queries to the broker can fail. -/
def Available (env : Env) : Prop := ∀ n o, (∀ request, o ≠ .get request) → env.fault n o = none

/-- No order of the table has `id` as its original. -/
def Childless (id : OrderId) (w : World) : Prop :=
  ∀ r ∈ w.orders.rows, r.originalOrderId ≠ some id

theorem childless_iff {id : OrderId} :
    Childless id w ↔ ∀ k r, w.orders.get? k = some r → r.originalOrderId ≠ some id := by
  constructor
  · intro h k r hr
    exact h r (KeyedTable.get?_eq_some.mp hr).1
  · intro h r hr
    exact h r.id r (KeyedTable.get?_of_mem hr)

/-- The calls behind the statement of a cycle. -/
def followsUp : Op → Bool
  | .selectOrder (some _) | .ordersByRebalanceId _ | .commit | .publish | .enqueue _ _ => true
  | _ => false

/-- They succeed and change no order. -/
theorem quiet_followsUp (hup : Available env) {o : Op} (ho : followsUp o = true) :
    Quiet (World.handle env) World.orders (Op.perform o) := by
  refine quiet_perform ?_
  intro w
  have hfault : env.fault w.tick o = none := by
    refine hup _ _ ?_
    intro request he
    rw [he] at ho
    cases ho
  simp only [World.handle, hfault]
  cases o
  case selectOrder k =>
    cases k with
    | none => cases ho
    | some id => exact ⟨_, _, rfl, rfl⟩
  case ordersByRebalanceId | commit | publish | enqueue => exact ⟨_, _, rfl, rfl⟩
  all_goals cases ho

/-- Publishing an order makes calls of two kinds. -/
theorem quiet_publish_of {τ : Type} {f : World → τ}
    (hselect : ∀ id, Quiet (World.handle env) f (Op.perform (.selectOrder (some id))))
    (hpublish : Quiet (World.handle env) f (Op.perform .publish)) (order : Order) :
    Quiet (World.handle env) f (publishOrderUpdate order) := by
  unfold publishOrderUpdate getOrderById
  refine Quiet.tryExcept ?_
  refine (hselect order.id).bind ?_
  intro found
  cases found with
  | none => exact quiet_pure _
  | some self =>
    refine hpublish.bind ?_
    intro _
    cases order.originalOrderId with
    | none => exact quiet_pure _
    | some parentId =>
      refine (hselect parentId).bind ?_
      intro parent
      cases parent with
      | none => exact quiet_pure _
      | some parent =>
        refine hpublish.bind ?_
        intro _
        exact quiet_pure _

theorem quiet_publishOrderUpdate (hup : Available env) (order : Order) :
    Quiet (World.handle env) World.orders (publishOrderUpdate order) :=
  quiet_publish_of (fun _ => quiet_followsUp hup rfl) (quiet_followsUp hup rfl) order

theorem quiet_triggerRebalanceSnapshot (hup : Available env) (order : Order) (loaded : List Order) :
    Quiet (World.handle env) World.orders (triggerRebalanceSnapshotIfCompleted order loaded) := by
  unfold triggerRebalanceSnapshotIfCompleted getOrdersByRebalanceId
  cases order.rebalanceId with
  | none => exact quiet_pure _
  | some rid =>
    refine Quiet.tryExcept ?_
    refine (quiet_followsUp hup (o := .ordersByRebalanceId rid) rfl).bind ?_
    intro rows
    dsimp only
    split
    · exact quiet_followsUp hup rfl
    · exact quiet_pure _

/-- Inside the tracking window a cycle queues the next one. -/
theorem quiet_retrack (hup : Available env)
    (hwindow : (resolveRetrackingDelay cycle.attempt cycle.elapsed).isSome = true)
    (order : Order) (loaded : List Order) :
    Quiet (World.handle env) World.orders (retrack cycle order snapshot loaded) := by
  unfold retrack
  obtain ⟨delay, hdelay⟩ := Option.isSome_iff_exists.mp hwindow
  split
  · exact quiet_pure _
  · rw [hdelay]
    exact quiet_followsUp hup rfl

/-- Step 8 is about CANCEL and MODIFY orders. -/
theorem adjustParent_new (hkind : order.orderKind = .new) :
    adjustParent order snapshot = pure (some []) := by
  unfold adjustParent
  cases order.originalOrderId with
  | none => rfl
  | some parentId => simp [hkind]

/-! ## The parts of a cycle -/

/-- The query changes no order and no message. -/
theorem run_executions (env : Env) (request : ExecutionsRequest) (w : World) :
    (run (World.handle env) (TradeService.getDailyOrderExecutions request) w).2.orders = w.orders ∧
      (run (World.handle env) (TradeService.getDailyOrderExecutions request) w).2.queue = w.queue := by
  have hcalls : Safe (fun _ o => o = Op.get request) [] (TradeService.getDailyOrderExecutions request) :=
    safe_dailyOrderExecutions KisOrder.httpRetryCount fun _ _ => rfl
  refine hcalls.run_rel (R := fun a b : World => b.orders = a.orders ∧ b.queue = a.queue)
    (fun _ => ⟨rfl, rfl⟩) (fun a b c hab hbc => ⟨hbc.1.trans hab.1, hbc.2.trans hab.2⟩) ?_ w
  intro h o s ho
  rw [ho]
  exact ⟨World.orders_handle (by simp) (by simp), World.queue_handle (by simp)⟩

/-- The answer the query of a cycle comes to, which starts with three other calls. -/
def queried (env : Env) (w : World) (order : Order) : Except PyExc DailyOrderExecutionResponse :=
  (run (World.handle env) (TradeService.getDailyOrderExecutions (executionsRequest order))
    w.next.next.next).1

/-- A cycle observes its order through the answer, and changes no order and no message. -/
theorem run_observe (hup : Available env) {answer : DailyOrderExecutionResponse}
    (hanswer : queried env w order = .ok answer) :
    ∃ hasChildOrders w', run (World.handle env) (observe order) w.next.next =
        (extractOrderTrackingSnapshot order answer hasChildOrders, w') ∧
      w'.orders = w.orders ∧ w'.queue = w.queue ∧
      (Childless order.id w → hasChildOrders = false) := by
  have htoken : World.handle env .accessToken w.next.next =
      (.ok (env.accessToken w.next.next.tick), w.next.next.next) := by
    simp [World.handle, hup w.next.next.tick .accessToken (by simp), World.effect]
  obtain ⟨horders, hqueue⟩ := run_executions env (executionsRequest order) w.next.next.next
  unfold queried at hanswer
  unfold observe
  rw [run_bind, run_perform, htoken]
  simp only
  rw [run_bind]
  rcases hrun : run (World.handle env) (TradeService.getDailyOrderExecutions (executionsRequest order))
    w.next.next.next with ⟨r, w₁⟩
  rw [hrun] at hanswer horders hqueue
  obtain rfl : r = .ok answer := hanswer
  simp only
  by_cases hkind : order.orderKind = .new
  · have hexists : World.handle env (.existsChildOrders order.id) w₁ =
        (.ok (w₁.orders.rows.any fun o => o.originalOrderId = some order.id), w₁.next) := by
      simp [World.handle, hup w₁.tick (.existsChildOrders order.id) (by simp), World.effect]
    refine ⟨w₁.orders.rows.any fun o => o.originalOrderId = some order.id, w₁.next, ?_, horders,
      hqueue, ?_⟩
    · rw [if_pos hkind, existsChildOrders, run_bind, run_perform, hexists]
      simp only [run_ofExcept]
    · intro hchildless
      rw [List.any_eq_false]
      intro r hr
      rw [horders] at hr
      simpa using hchildless r hr
  · refine ⟨false, w₁, ?_, horders, hqueue, fun _ => rfl⟩
    rw [if_neg hkind, run_bind, run_pure]
    simp only [run_ofExcept]

/-- The statement of a cycle. -/
def tracked (order : Order) (snapshot : Snapshot) : OrderUpdate :=
  trackingUpdate order.id (expectedStatuses order.status) snapshot.result

/-- Steps 7 and 8 store the result. -/
theorem run_storeSnapshot (hup : Available env) (hr : w.orders.get? order.id = some order)
    (hkind : order.orderKind = .new) (htracked : order.status ∈ trackingTargetStatuses)
    (hallowed : canTransition order.status snapshot.result.nextStatus = true)
    (hfit : ((tracked order snapshot).set.apply order).Fits) :
    ∃ w' loaded, (∀ k, w'.orders.get? k = (w.orders.get? k).map (tracked order snapshot).refresh) ∧
      run (World.handle env) (storeSnapshot cycle order snapshot) w =
        run (World.handle env)
          (retrack cycle ((tracked order snapshot).set.apply order) snapshot loaded) w' := by
  have hsel : (tracked order snapshot).selects order = true :=
    expectedStatuses_selects htracked snapshot.result
  obtain ⟨t, hstore, -⟩ := World.handle_updateOrder_fits (hup w.tick (.updateOrder _) (by simp)) hr
    hsel hfit
  have hget := fun k => (@World.updateOrder_ok env w (tracked order snapshot) true
    (by rw [hstore]) k).1
  rw [hstore] at hget
  have hrefresh : (tracked order snapshot).refresh order = (tracked order snapshot).set.apply order := by
    rw [OrderUpdate.refresh, if_pos hsel]
  have hadjust : adjustParent ((tracked order snapshot).set.apply order) snapshot = pure (some []) :=
    adjustParent_new (by rw [SetClause.apply_orderKind, hkind])
  unfold storeSnapshot updateOrderTrackingResult
  rw [if_neg (by simp [hallowed]), run_bind, run_perform]
  rw [tracked] at hstore hrefresh hadjust hget ⊢
  rw [hstore]
  simp only [Bool.not_true, Bool.false_eq_true, if_false, hrefresh, hadjust]
  obtain ⟨_, w₁, hcommit, hw₁⟩ := quiet_followsUp hup (o := .commit) rfl { w.next with orders := t }
  obtain ⟨published, w₂, hpublished, hw₂⟩ := quiet_publishOrderUpdate hup
    ((trackingUpdate order.id (expectedStatuses order.status) snapshot.result).set.apply order) w₁
  have hquiet : w₂.orders = t := hw₂.trans hw₁
  rw [run_bind, run_pure]
  simp only
  rw [run_bind, hcommit]
  simp only
  rw [run_bind, hpublished]
  simp only
  split
  · obtain ⟨_, w₃, htrigger, hw₃⟩ := quiet_triggerRebalanceSnapshot hup
      ((trackingUpdate order.id (expectedStatuses order.status) snapshot.result).set.apply order)
      ((trackingUpdate order.id (expectedStatuses order.status) snapshot.result).set.apply order ::
        [] ++ published) w₂
    refine ⟨w₃, [] ++ published, ?_, ?_⟩
    · intro k
      rw [hw₃, hquiet]
      exact hget k
    · rw [run_bind, htrigger]
  · refine ⟨w₂, [] ++ published, ?_, rfl⟩
    intro k
    rw [hquiet]
    exact hget k

/-! ## The whole cycle -/

section Cycle
variable {attempt : ℕ} {first : Option Instant} {answer : DailyOrderExecutionResponse}

theorem run_begins (hup : Available env) (hr : w.orders.get? order.id = some order) :
    run (World.handle env) (processOrderStatus (some order.id) attempt first) w =
      run (World.handle env) (tryExcept (trackOrder (cycleAt attempt first (env.now w.tick)) order)
        (handleError (cycleAt attempt first (env.now w.tick)) (some order))) w.next.next := by
  have hnow : World.handle env .now w = (.ok (env.now w.tick), w.next) := by
    simp [World.handle, hup w.tick .now (by simp), World.effect]
  have hselect : World.handle env (.selectOrder (some order.id)) w.next =
      (.ok (some order), w.next.next) := by
    have hr' : w.next.orders.get? order.id = some order := hr
    simp [World.handle, hup w.next.tick (.selectOrder _) (by simp), World.effect, hr']
  unfold processOrderStatus getOrderById
  rw [run_bind, run_perform, hnow]
  simp only
  rw [run_attempt, run_perform, hselect]
  rfl

/-- A cycle of an order that has ended, or was never sent, does nothing. -/
theorem run_untracked (hup : Available env) (hr : w.orders.get? order.id = some order)
    (hstatus : order.status ∉ trackingTargetStatuses) :
    (run (World.handle env) (processOrderStatus (some order.id) attempt first) w).2.orders =
      w.orders := by
  rw [run_begins hup hr, trackOrder, if_pos hstatus]
  rfl

/-- A cycle of a NEW order without children stores its result before step 9. -/
theorem run_tracked (hup : Available env) (hr : w.orders.get? order.id = some order)
    (hkind : order.orderKind = .new) (hchildless : Childless order.id w)
    (hnumber : Python.truthy order.brokerOrderNo = true)
    (htracked : order.status ∈ trackingTargetStatuses)
    (hanswer : queried env w order = .ok answer)
    (hsnapshot : extractOrderTrackingSnapshot order answer false = .ok snapshot)
    (hallowed : canTransition order.status snapshot.result.nextStatus = true)
    (hfit : ((tracked order snapshot).set.apply order).Fits) :
    ∃ w' loaded, (∀ k, w'.orders.get? k = (w.orders.get? k).map (tracked order snapshot).refresh) ∧
      run (World.handle env) (processOrderStatus (some order.id) attempt first) w =
        run (World.handle env) (tryExcept (retrack (cycleAt attempt first (env.now w.tick))
          ((tracked order snapshot).set.apply order) snapshot loaded)
          (handleError (cycleAt attempt first (env.now w.tick)) (some order))) w' := by
  obtain ⟨hasChildOrders, w₁, hobserve, hw₁, -, hnone⟩ := run_observe hup hanswer
  rw [hnone hchildless, hsnapshot] at hobserve
  have hr₁ : w₁.orders.get? order.id = some order := by
    rw [hw₁]
    exact hr
  obtain ⟨w₂, loaded, hw₂, hstore⟩ := run_storeSnapshot hup hr₁ hkind htracked hallowed hfit
  refine ⟨w₂, loaded, ?_, ?_⟩
  · intro k
    rw [hw₂, hw₁]
  · rw [run_begins hup hr, trackOrder_eq _ htracked hnumber, run_tryExcept, run_tryExcept, run_bind,
      hobserve]
    simp only
    rw [hstore]

/-- Inside the tracking window that is all the cycle does to the orders. -/
theorem run_processOrderStatus (hup : Available env) (hr : w.orders.get? order.id = some order)
    (hkind : order.orderKind = .new) (hchildless : Childless order.id w)
    (hnumber : Python.truthy order.brokerOrderNo = true)
    (htracked : order.status ∈ trackingTargetStatuses)
    (hanswer : queried env w order = .ok answer)
    (hsnapshot : extractOrderTrackingSnapshot order answer false = .ok snapshot)
    (hallowed : canTransition order.status snapshot.result.nextStatus = true)
    (hfit : ((tracked order snapshot).set.apply order).Fits)
    (hwindow : (cycleAt attempt first (env.now w.tick)).elapsed < 1800 * 1000000) (k : OrderId) :
    (run (World.handle env) (processOrderStatus (some order.id) attempt first) w).2.orders.get? k =
      (w.orders.get? k).map (tracked order snapshot).refresh := by
  obtain ⟨w₁, loaded, hw₁, hrun⟩ := @run_tracked env w order snapshot attempt first answer hup hr
    hkind hchildless hnumber htracked hanswer hsnapshot hallowed hfit
  have hdelay : (resolveRetrackingDelay attempt
      (cycleAt attempt first (env.now w.tick)).elapsed).isSome = true := by
    unfold resolveRetrackingDelay
    split
    · rfl
    · rw [if_neg (by omega)]
      rfl
  have hquiet : Quiet (World.handle env) World.orders
      (retrack (cycleAt attempt first (env.now w.tick)) ((tracked order snapshot).set.apply order)
        snapshot loaded) := quiet_retrack hup hdelay _ loaded
  obtain ⟨_, w₂, hretrack, hw₂⟩ := hquiet w₁
  rw [hrun, run_tryExcept, hretrack, ← hw₁ k, hw₂]

end Cycle

end Autotrading.ProcessOrderStatus
