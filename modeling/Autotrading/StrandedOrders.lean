import Autotrading.TerminalOrders

/-!
# Orders stranded in PROCESSING

A lone run of `_process_order` for an order it takes from PENDING to PROCESSING. Both
exception handlers call `update_order_failure_result` without a required argument,
so an exception that is no rate limit leaves the order in PROCESSING, which nothing
recovers.
-/
namespace Autotrading.ProcessOrder

open Prog OrderState OrderRepository

variable {settings : Settings} {env : Env} {w : World} {id : OrderId} {order : Order}

/-- An exception on which worker 1 tries again. -/
def rateLimited : PyExc → Bool
  | .kisOrder e => isRateLimitError e
  | _ => false

/-- The database and the queue are up: no statement, commit, rollback or message
fails, and what the driver raises for a refused statement is no rate limit. -/
structure StoresUp (env : Env) : Prop where
  update : ∀ n u, env.fault n (.updateOrder u) = none
  enqueue : ∀ n m d, env.fault n (.enqueue m d) = none
  rollback : ∀ n, env.fault n .rollback = none
  refused : ∀ n, rateLimited (env.refused n) = false

/-- The world behind the gate. -/
def afterGate (env : Env) (w : World) (id : OrderId) (order : Order) : World :=
  (World.handle env (.updateOrder (gate order)) (World.handle env (.selectOrder (some id)) w).2).2

/-- The token, the switch, the checks and the broker come to a response that fits its
columns, or to a rate limit. -/
def Delivers (settings : Settings) (env : Env) (w : World) (id : OrderId) (order : Order) : Prop :=
  match (run (World.handle env) (submission settings ((gate order).refresh order))
    (afterGate env w id order)).1 with
  | .ok r => ((resultUpdate ((gate order).refresh order) r).set.apply
      ((gate order).refresh order)).Fits
  | .error e => rateLimited e = true

/-- The order is stored with a result, or back in PENDING with a further task queued. -/
def Settled (id : OrderId) (w w' : World) : Prop :=
  (w'.orders.get? id).any (fun r => r.status ∈ [OrderStatus.requested, .accepted, .failed] ||
    (r.status = .pending && w.queue.count (.processOrder id) < w'.queue.count (.processOrder id))) =
      true

/-! ## Between the gate and the result -/

/-- Steps 3 and 4 change neither the orders nor the queue. -/
theorem run_submission (settings : Settings) (env : Env) (w : World) (order : Order) :
    (run (World.handle env) (submission settings order) w).2.orders = w.orders ∧
      (run (World.handle env) (submission settings order) w).2.queue = w.queue := by
  have hsubmitting : Submitting [] (submission settings order) := submitting_submission
  have hcall : ∀ (h : Calls) (o : Op) (s : World), Submits o →
      (World.handle env o s).2.orders = s.orders ∧ (World.handle env o s).2.queue = s.queue := by
    intro h o s ho
    refine ⟨World.orders_handle ?_ ?_, World.queue_handle ?_⟩
    · rintro u rfl
      exact ho
    · rintro os rfl
      exact ho
    · rintro m n rfl
      exact ho
  exact hsubmitting.run_rel (R := fun a b : World => b.orders = a.orders ∧ b.queue = a.queue)
    (fun _ => ⟨rfl, rfl⟩) (fun a b c hab hbc => ⟨hbc.1.trans hab.1, hbc.2.trans hab.2⟩) hcall w

theorem gate_refresh (hpending : order.status = .pending) :
    (gate order).selects order = true ∧
      (gate order).refresh order = { order with status := .processing } := by
  have hsel : (gate order).selects order = true := by
    simp [gate, OrderUpdate.selects, hpending]
  refine ⟨hsel, ?_⟩
  rw [OrderUpdate.refresh, if_pos hsel]
  rfl

/-- The gate matches the order it was read for. -/
theorem handle_gate (hup : StoresUp env)
    (hread : env.fault w.tick (.selectOrder (some order.id)) = none)
    (hr : w.orders.get? order.id = some order) (hpending : order.status = .pending) :
    World.handle env (.selectOrder (some order.id)) w = (.ok (some order), w.next) ∧
      World.handle env (.updateOrder (gate order)) w.next =
        (.ok true, afterGate env w order.id order) ∧
      (afterGate env w order.id order).orders.get? order.id = some ((gate order).refresh order) ∧
      (afterGate env w order.id order).queue = w.queue := by
  have hselect : World.handle env (.selectOrder (some order.id)) w = (.ok (some order), w.next) := by
    simp [World.handle, hread, World.effect, hr]
  obtain ⟨hsel, hrefresh⟩ := gate_refresh hpending
  have hr' : w.next.orders.get? (gate order).id = some order := hr
  obtain ⟨t, hgate, ht⟩ := World.handle_updateOrder_fits (hup.update _ _) hr' hsel
    (SetClause.fits_status _ (KeyedTable.fits_of_get? hr))
  have hafter : afterGate env w order.id order = { w.next.next with orders := t } := by
    rw [afterGate, hselect, hgate]
  refine ⟨hselect, by rw [hgate, hafter], ?_, by rw [hafter]; rfl⟩
  rw [hafter, OrderUpdate.refresh, if_pos hsel]
  exact ht

/-! ## The handlers -/

/-- A handled exception leaves the row alone, or is a rate limit and takes the order
back to PENDING with a further task. -/
theorem run_handleError (id : OrderId) (hup : StoresUp env) (e : PyExc) {row : Order}
    (hrow : w.orders.get? order.id = some row) (hprocessing : row.status = .processing) :
    (rateLimited e = false →
      (run (World.handle env) (handleError id (some order) e) w).2.orders = w.orders) ∧
    (rateLimited e = true →
      (run (World.handle env) (handleError id (some order) e) w).2.orders.get? order.id =
          some { row with status := .pending } ∧
        (run (World.handle env) (handleError id (some order) e) w).2.queue =
          w.queue ++ [.processOrder id]) := by
  have hrollback := World.handle_rollback (hup.rollback w.tick)
  cases e with
  | kisOrder e =>
    unfold handleError handleKisOrderError
    simp only [updateOrderFailureResult_raises, run_bind, run_perform, hrollback]
    by_cases hlimit : isRateLimitError e = true
    · have hrow' : w.next.orders.get? order.id = some row := hrow
      have hsel : (⟨order.id, some [.processing], .status .pending⟩ : OrderUpdate).selects row =
          true := by
        simp [OrderUpdate.selects, KeyedTable.key_of_get? hrow, hprocessing]
      obtain ⟨t, hrelease, ht⟩ := World.handle_updateOrder_fits (hup.update _ _) hrow' hsel
        (SetClause.fits_status _ (KeyedTable.fits_of_get? hrow))
      simp only [hlimit, if_true, releaseOrder, updateOrderStatus, run_bind, run_perform, hrelease,
        run_pure, World.handle_enqueue (hup.enqueue _ _ _), rateLimited]
      exact ⟨fun h => absurd h (by simp), fun _ => ⟨ht, rfl⟩⟩
    · rw [Bool.not_eq_true] at hlimit
      simp only [hlimit, Bool.false_eq_true, if_false, raise_bind, run_raise, rateLimited]
      exact ⟨fun _ => rfl, fun h => absurd h (by simp)⟩
  | kisAuth e =>
    unfold handleError handleException
    simp only [updateOrderFailureResult_raises, run_bind, run_perform, hrollback, raise_bind, run_raise]
    exact ⟨fun _ => rfl, fun h => by cases h⟩
  | other type text =>
    unfold handleError handleException
    simp only [updateOrderFailureResult_raises, run_bind, run_perform, hrollback, raise_bind, run_raise]
    exact ⟨fun _ => rfl, fun h => by cases h⟩

/-! ## The result -/

/-- Step 6 stores a response that fits its columns, and is refused otherwise. -/
theorem run_storeResult (hup : StoresUp env) (r : OrderResponse)
    (hrow : w.orders.get? order.id = some order) (hprocessing : order.status = .processing) :
    (((resultUpdate order r).set.apply order).Fits → ∃ w',
      run (World.handle env) (storeResult order r) w = (.ok (), w') ∧
        w'.orders.get? order.id = some ((resultUpdate order r).set.apply order) ∧
        ((extractOrderSnapshot r order.orderQty).nextStatus = .accepted →
          w'.queue = w.queue ++ [.processOrderStatus (some order.id) 0 none])) ∧
    (¬ ((resultUpdate order r).set.apply order).Fits →
      run (World.handle env) (storeResult order r) w = (.error (env.refused w.tick), w.next)) := by
  have hnext := extractOrderSnapshot_nextStatus r order.orderQty
  have hallowed : canTransition order.status (extractOrderSnapshot r order.orderQty).nextStatus =
      true := by
    rw [hprocessing]
    revert hnext
    cases (extractOrderSnapshot r order.orderQty).nextStatus <;> decide
  have hsel : (resultUpdate order r).selects order = true := by
    simp [resultUpdate, OrderUpdate.selects, hprocessing]
  unfold storeResult
  simp only [hallowed, Bool.not_true, Bool.false_eq_true, if_false, updateOrderSubmitResult]
  constructor
  · intro hfit
    obtain ⟨t, hstore, ht⟩ := World.handle_updateOrder_fits (hup.update _ _) hrow hsel hfit
    have hstore' := hstore
    simp only [resultUpdate] at hstore'
    rw [run_bind, run_perform, hstore']
    simp only [Bool.not_true, Bool.false_eq_true, if_false]
    split
    · rw [run_perform, World.handle_enqueue (hup.enqueue _ _ _)]
      exact ⟨_, rfl, ht, fun _ => rfl⟩
    · next hnot =>
      exact ⟨_, rfl, ht, fun haccepted => absurd (by simp [haccepted]) hnot⟩
  · intro hfit
    have hrefused := World.handle_updateOrder_refused (hup.update w.tick (resultUpdate order r)) hrow
      hsel hfit
    simp only [resultUpdate] at hrefused
    rw [run_bind, run_perform, hrefused]

/-- The whole task behind its gate. -/
theorem run_processOrder (settings : Settings) (hup : StoresUp env)
    (hread : env.fault w.tick (.selectOrder (some order.id)) = none)
    (hr : w.orders.get? order.id = some order) (hpending : order.status = .pending) :
    run (World.handle env) (processOrder settings order.id) w =
      run (World.handle env) (tryExcept (do
          let serviceResult ← submission settings ((gate order).refresh order)
          storeResult ((gate order).refresh order) serviceResult)
        (handleError order.id (some order))) (afterGate env w order.id order) := by
  obtain ⟨hselect, hgate, -, -⟩ := handle_gate hup hread hr hpending
  have hupdate : updateOrderStatus order.id [.pending] .processing =
      Op.perform (.updateOrder (gate order)) := rfl
  unfold processOrder getOrderById submitOrder
  rw [run_attempt, run_perform, hselect]
  simp only
  rw [run_tryExcept, run_tryExcept, hupdate, run_bind, run_perform, hgate]
  simp only [if_true]

/-- A task that takes an order out of PENDING settles it exactly when the steps behind
the gate come to a response that fits its columns or to a rate limit. Every other
outcome leaves the order in PROCESSING. -/
theorem processOrder_settles_iff (settings : Settings) {env : Env} {w : World} {order : Order}
    (hup : StoresUp env) (hread : env.fault w.tick (.selectOrder (some order.id)) = none)
    (hr : w.orders.get? order.id = some order) (hpending : order.status = .pending) :
    (Settled order.id w (run (World.handle env) (processOrder settings order.id) w).2 ↔
      Delivers settings env w order.id order) ∧
    (¬ Delivers settings env w order.id order →
      (run (World.handle env) (processOrder settings order.id) w).2.orders.get? order.id =
        some { order with status := .processing }) := by
  obtain ⟨-, -, hrow, hqueue⟩ := handle_gate hup hread hr hpending
  obtain ⟨-, hrefresh⟩ := gate_refresh hpending
  have hprocessing : ((gate order).refresh order).status = .processing := by rw [hrefresh]
  have hid : ((gate order).refresh order).id = order.id := OrderUpdate.refresh_id _ _
  have hframe := run_submission settings env (afterGate env w order.id order)
    ((gate order).refresh order)
  -- an order that is still in PROCESSING is not settled
  have hstranded : ∀ w' : World, w'.orders.get? order.id = some ((gate order).refresh order) →
      ¬ Settled order.id w w' ∧ w'.orders.get? order.id = some { order with status := .processing } := by
    intro w' hw'
    rw [hrefresh] at hw'
    exact ⟨by simp [Settled, hw'], hw'⟩
  rw [run_processOrder settings hup hread hr hpending, run_tryExcept, run_bind]
  unfold Delivers
  rcases hrun : run (World.handle env) (submission settings ((gate order).refresh order))
    (afterGate env w order.id order) with ⟨r, w₁⟩
  rw [hrun] at hframe
  have hrow₁ : w₁.orders.get? order.id = some ((gate order).refresh order) := by
    rw [hframe.1]
    exact hrow
  cases r with
  | ok r =>
    obtain ⟨hfits, hrefused⟩ := run_storeResult hup r (by rw [hid]; exact hrow₁) hprocessing
    by_cases hfit : ((resultUpdate ((gate order).refresh order) r).set.apply
        ((gate order).refresh order)).Fits
    · obtain ⟨w₂, hstore, hw₂, -⟩ := hfits hfit
      rw [hid] at hw₂
      have hnext := extractOrderSnapshot_nextStatus r ((gate order).refresh order).orderQty
      simp only [hstore]
      refine ⟨iff_of_true ?_ hfit, fun h => absurd hfit h⟩
      have hstatus : ((resultUpdate ((gate order).refresh order) r).set.apply
          ((gate order).refresh order)).status ∈ [OrderStatus.requested, .accepted, .failed] := by
        rw [SetClause.apply_status]
        exact hnext
      simp only [Settled, hw₂, Option.any_some, hstatus, decide_true, Bool.true_or]
    · simp only [hrefused hfit]
      have hrow_next : w₁.next.orders.get? order.id =
          some ((gate order).refresh order) := hrow₁
      have hleft := (run_handleError order.id hup (env.refused w₁.tick) hrow_next hprocessing).1
        (hup.refused _)
      have hrow₂ := hrow₁
      rw [show w₁.orders = w₁.next.orders from rfl, ← hleft] at hrow₂
      obtain ⟨hnot, hstored⟩ := hstranded _ hrow₂
      exact ⟨iff_of_false hnot hfit, fun _ => hstored⟩
  | error e =>
    obtain ⟨hleft, hlimit⟩ := run_handleError order.id hup e hrow₁ hprocessing
    simp only
    by_cases he : rateLimited e = true
    · obtain ⟨hpend, hsent⟩ := hlimit he
      have hqueue₁ : w₁.queue = w.queue := hframe.2.trans hqueue
      refine ⟨iff_of_true ?_ he, fun h => absurd he h⟩
      simp only [Settled, hpend, Option.any_some, hsent, hqueue₁]
      simp
    · have hrow₂ := hrow₁
      rw [← hleft (by simpa using he)] at hrow₂
      obtain ⟨hnot, hstored⟩ := hstranded _ hrow₂
      exact ⟨iff_of_false hnot he, fun _ => hstored⟩

/-- All three attempts of order 1 get no answer: it stays in PROCESSING. -/
theorem unanswered_order_stranded :
    ¬ Settled 1 (.holding [Order.sample 1 .pending] []) (run (World.handle .quiet)
      (processOrder .sample 1) (.holding [Order.sample 1 .pending] [])).2 := by
  unfold Settled
  decide +kernel

theorem processOrder_settles_iff_sample :
    (Settled 1 (.holding [Order.sample 1 .pending] []) (run (World.handle .quiet)
        (processOrder .sample 1) (.holding [Order.sample 1 .pending] [])).2 ↔
      Delivers .sample .quiet (.holding [Order.sample 1 .pending] []) 1 (Order.sample 1 .pending)) ∧
    (¬ Delivers .sample .quiet (.holding [Order.sample 1 .pending] []) 1 (Order.sample 1 .pending) →
      (run (World.handle .quiet) (processOrder .sample 1)
        (.holding [Order.sample 1 .pending] [])).2.orders.get? 1 =
          some { Order.sample 1 .pending with status := .processing }) :=
  @processOrder_settles_iff .sample .quiet (.holding [Order.sample 1 .pending] [])
    (Order.sample 1 .pending) ⟨fun _ _ => rfl, fun _ _ _ => rfl, fun _ => rfl, fun _ => rfl⟩ rfl
    (by decide +kernel) rfl

/-! ## The kill switch -/

/-- The order is stored as FAILED. -/
def StoredFailed (id : OrderId) (w : World) : Prop :=
  (w.orders.get? id).any (fun r => r.status = .failed) = true

theorem storedFailed_iff :
    StoredFailed id w ↔ ∃ r, w.orders.get? id = some r ∧ r.status = .failed := by
  simp [StoredFailed, Option.any_eq_true]

/-- A statement from and to other statuses changes nothing about that. -/
theorem storedFailed_handle {u : OrderUpdate} {s : OrderStatus} (hexp : u.expected = some [s])
    (hs : s ≠ .failed) (hnext : u.set.nextStatus ≠ .failed) :
    StoredFailed id (World.handle env (.updateOrder u) w).2 ↔ StoredFailed id w := by
  rw [storedFailed_iff, storedFailed_iff]
  cases hget : w.orders.get? id with
  | none =>
    cases hget' : (World.handle env (.updateOrder u) w).2.orders.get? id with
    | none => simp
    | some r =>
      obtain ⟨os, hos, -⟩ := World.get?_handle_new hget hget'
      cases hos
  | some r =>
    rcases @World.get?_handle env w id r hget (.updateOrder u) with hkeep | ⟨u', hu', hsel, -, hnew⟩
    · rw [hkeep]
    · obtain rfl : u = u' := by cases hu'; rfl
      have hstatus := (OrderUpdate.selects_iff.mp hsel).2 _ hexp
      rw [List.mem_singleton] at hstatus
      rw [hnew]
      simp [hstatus, hs, hnext]

/-- The switch is on, no request has been added, and the order is FAILED exactly when it
was before. -/
structure Blocked (id : OrderId) (w w' : World) : Prop where
  on : w'.killSwitch = some "1"
  requests : w'.requests = w.requests
  failed : StoredFailed id w' ↔ StoredFailed id w

/-- A call that writes neither the switch, nor the requests, nor the orders. -/
theorem Blocked.handle {w' : World} (h : Blocked id w w') {o : Op} (hs : ∀ v, o ≠ .setKillSwitch v)
    (hp : ∀ r, o ≠ .post r) (hu : ∀ u, o ≠ .updateOrder u) (hi : ∀ os, o ≠ .insertOrders os) :
    Blocked id w (World.handle env o w').2 where
  on := (World.killSwitch_handle hs).trans h.on
  requests := (World.requests_handle hp).trans h.requests
  failed := by
    rw [StoredFailed, World.orders_handle hu hi]
    exact h.failed

theorem Blocked.update {w' : World} (h : Blocked id w w') {u : OrderUpdate} {s : OrderStatus}
    (hexp : u.expected = some [s]) (hs : s ≠ .failed) (hnext : u.set.nextStatus ≠ .failed) :
    Blocked id w (World.handle env (.updateOrder u) w').2 where
  on := (World.killSwitch_handle (by simp)).trans h.on
  requests := (World.requests_handle (by simp)).trans h.requests
  failed := (storedFailed_handle hexp hs hnext).trans h.failed

/-- While the switch is on, steps 3 and 4 raise in front of the order request. -/
theorem submission_raises (order : Order) (s : World) (hs : Blocked id w s) :
    (∃ e, (run (World.handle env) (submission settings order) s).1 = .error e) ∧
      Blocked id w (run (World.handle env) (submission settings order) s).2 := by
  have htoken : Blocked id w (World.handle env .accessToken s).2 :=
    hs.handle (by simp) (by simp) (by simp) (by simp)
  unfold submission
  rw [checkKillSwitch_eq, KillSwitchService.isOn, run_bind, run_perform]
  rcases htok : World.handle env .accessToken s with ⟨r, s₁⟩
  rw [htok] at htoken
  cases r with
  | error e => exact ⟨⟨e, rfl⟩, htoken⟩
  | ok token =>
    have hon : s₁.killSwitch = some "1" := htoken.on
    have hswitch : Blocked id w (World.handle env .getKillSwitch s₁).2 :=
      Blocked.handle htoken (by simp) (by simp) (by simp) (by simp)
    simp only
    rw [run_bind, run_bind, run_bind, run_perform]
    rcases World.handle_cases env s₁ .getKillSwitch with ⟨e, he⟩ | heff
    · rw [he] at hswitch ⊢
      exact ⟨⟨e, rfl⟩, hswitch⟩
    · rw [heff] at hswitch ⊢
      have hread : (s₁.effect env .getKillSwitch).1 = .ok (some "1") := by
        simp [World.effect, hon]
      rw [hread]
      exact ⟨⟨_, rfl⟩, hswitch⟩

theorem keeps_handleError (env : Env) (w : World) (order : Option Order) (e : PyExc) :
    Prog.Keeps (World.handle env) (Blocked id w) (handleError id order e) := by
  have hrollback : Prog.Keeps (World.handle env) (Blocked id w) (Op.perform .rollback) :=
    keeps_perform fun s hs => hs.handle (by simp) (by simp) (by simp) (by simp)
  unfold handleError handleKisOrderError handleException
  simp only [updateOrderFailureResult_raises]
  split
  · refine hrollback.bind fun _ => ?_
    split
    · refine Prog.Keeps.bind ?_ fun _ => ?_
      · cases order with
        | none => exact keeps_perform fun s hs => hs.handle (by simp) (by simp) (by simp) (by simp)
        | some o =>
          refine Prog.Keeps.bind (keeps_perform fun s hs => ?_) fun _ => keeps_pure _
          exact hs.update rfl (by simp) (by simp [SetClause.nextStatus])
      · exact keeps_perform fun s hs => hs.handle (by simp) (by simp) (by simp) (by simp)
    · split
      · exact keeps_raise _
      · exact keeps_raise _
  · refine hrollback.bind fun _ => ?_
    split
    · exact keeps_raise _
    · exact keeps_raise _

/-- While the switch is on, the task sends nothing and stores no order as FAILED. -/
theorem keeps_processOrder (settings : Settings) (env : Env) (w : World) (id : OrderId) :
    Prog.Keeps (World.handle env) (Blocked id w) (processOrder settings id) := by
  unfold processOrder getOrderById
  refine Prog.Keeps.attempt ?_ fun r => ?_
  · exact keeps_perform fun s hs => hs.handle (by simp) (by simp) (by simp) (by simp)
  · split
    · exact keeps_handleError env w none _
    · exact keeps_pure _
    · next order =>
      refine Prog.Keeps.tryExcept ?_ fun e => keeps_handleError env w (some order) e
      unfold submitOrder updateOrderStatus
      refine Prog.Keeps.bind (keeps_perform fun s hs => ?_) fun updated => ?_
      · exact hs.update rfl (by simp) (by simp [SetClause.nextStatus])
      · split
        · exact keeps_bind_of_raises (submission_raises _)
        · exact keeps_pure _

/-- What the kill switch is to do to an order: no request, FAILED for good, and never
submitted by a later run, with the switch on or off, from the stores it leaves. -/
structure KillSwitchHolds (settings : Settings) (env : Env) (id : OrderId) (w : World) : Prop where
  noRequest : (run (World.handle env) (processOrder settings id) w).2.requests = w.requests
  failed : StoredFailed id (run (World.handle env) (processOrder settings id) w).2
  never : ∀ (settings' : Settings) (env' : Env) (es : List Event),
    ¬ Submitted ((autotrading settings' env').run
      (Machine.Sys.start (run (World.handle env) (processOrder settings id) w).2) es) id

/-- With the switch on no request reaches the broker, but the refusal is stored for no
order: the kill switch holds exactly for the orders that were FAILED before. -/
theorem kill_switch_holds_iff (settings : Settings) (env : Env) {w : World} (id : OrderId)
    (hon : w.killSwitch = some "1") :
    (run (World.handle env) (processOrder settings id) w).2.requests = w.requests ∧
      (KillSwitchHolds settings env id w ↔ StoredFailed id w) := by
  have hblocked := keeps_processOrder settings env w id w ⟨hon, rfl, Iff.rfl⟩
  refine ⟨hblocked.requests, fun h => hblocked.failed.mp h.failed, fun h => ?_⟩
  have hfailed := hblocked.failed.mpr h
  obtain ⟨r, hr, hstatus⟩ := storedFailed_iff.mp hfailed
  refine ⟨hblocked.requests, hfailed, fun settings' env' es => ?_⟩
  exact terminal_not_submitted settings' env' hr (by rw [hstatus]; decide) es

/-- A PENDING order under the switch is not stored as FAILED. -/
theorem kill_switch_leaves_order :
    ¬ KillSwitchHolds .sample .quiet 1
      { World.holding [Order.sample 1 .pending] [] with killSwitch := some "1" } := by
  intro h
  have hfailed := h.failed
  revert hfailed
  unfold StoredFailed
  decide +kernel

theorem kill_switch_holds_iff_sample :
    (run (World.handle .quiet) (processOrder .sample 1) { World.holding
        [Order.sample 1 .pending] [] with killSwitch := some "1" }).2.requests = [] ∧
      (KillSwitchHolds .sample .quiet 1
          { World.holding [Order.sample 1 .pending] [] with killSwitch := some "1" } ↔
        StoredFailed 1 { World.holding [Order.sample 1 .pending] [] with killSwitch := some "1" }) :=
  kill_switch_holds_iff _ _ _ rfl

end Autotrading.ProcessOrder
