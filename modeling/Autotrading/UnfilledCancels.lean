import Autotrading.Pipeline
import Autotrading.StoreEffects

/-!
# The cancels of a wait that timed out

The wait cancels what its own list of statuses calls open, and takes a remaining quantity of
0 for one that was never reported. Worker 1 looks at the original order again.
-/
namespace Autotrading

open Prog (run collect)

/-! ## The checks of a cancel -/

namespace ProcessOrder

variable {order original : Order} {id : OrderId}

/-- The numbers of the original order and the quantity of its child are as they must be. -/
def ChildNumbered (order : Order) : Prop :=
  Python.truthy order.originalBrokerOrderNo = true ∧
    Python.truthy order.originalBrokerOrgNo = true ∧ 0 < order.orderQty

theorem checkChildOrder_cases (tag : String) (hid : order.originalOrderId = some id) :
    (ChildNumbered order ∧ ∃ orderNo orgNo, checkChildOrder tag order = .ok (id, orderNo, orgNo)) ∨
      (¬ChildNumbered order ∧ ∃ e, checkChildOrder tag order = .error e) := by
  simp only [checkChildOrder, hid, ChildNumbered]
  by_cases hno : Python.truthy order.originalBrokerOrderNo = true
  · by_cases horg : Python.truthy order.originalBrokerOrgNo = true
    · by_cases hqty : order.orderQty ≤ 0
      · simp [hno, horg, hqty, not_lt.mpr hqty, throw, throwThe, MonadExceptOf.throw, bind, Except.bind]
      · simp [hno, horg, hqty, not_le.mp hqty, pure, Except.pure]
    · simp [hno, horg, throw, throwThe, MonadExceptOf.throw, bind, Except.bind]
  · simp [hno, throw, throwThe, MonadExceptOf.throw, bind, Except.bind]

theorem checkRemainder_cases (tag : String) (order original : Order) (id : OrderId) :
    (0 < original.remainingQty ∧ order.orderQty ≤ original.remainingQty ∧
        ∃ isFull, checkRemainder tag order id (some original) = .ok isFull) ∨
      (¬(0 < original.remainingQty ∧ order.orderQty ≤ original.remainingQty) ∧
        ∃ e, checkRemainder tag order id (some original) = .error e) := by
  simp only [checkRemainder]
  by_cases hnothing : original.remainingQty ≤ 0
  · simp [hnothing, not_lt.mpr hnothing, throw, throwThe, MonadExceptOf.throw, bind, Except.bind]
  · by_cases hmore : original.remainingQty < order.orderQty
    · simp [hnothing, hmore, throw, throwThe, MonadExceptOf.throw, bind, Except.bind]
    · simp [not_le.mp hnothing, hnothing, hmore, not_lt.mp hmore, pure, Except.pure]

/-- Worker 1 gets past the checks of a MODIFY or CANCEL order, in stores that can be read. -/
def PassesCheck (tag : String) (w : World) (order : Order) : Prop :=
  ∃ checked, (run (World.handle Env.quiet) (checkOriginalOrder tag order) w).1 = .ok checked

theorem passesCheck_iff {w : World} (tag : String) (hid : order.originalOrderId = some id)
    (hget : w.orders.get? id = some original) :
    PassesCheck tag w order ↔ ChildNumbered order ∧ order.orderQty ≤ original.remainingQty := by
  have hread : World.handle Env.quiet (.selectOrder (some id)) w = (.ok (some original), w.next) := by
    simp [World.handle, World.effect, Env.quiet, hget]
  have hrun : run (World.handle Env.quiet) (checkOriginalOrder tag order) w =
      run (World.handle Env.quiet) (Prog.ofExcept (checkChildOrder tag order) >>= fun x =>
        OrderRepository.getOrderById (some x.1) >>= fun original =>
          Prog.ofExcept (checkRemainder tag order x.1 original) >>= fun isFull =>
            pure (x.2.1, x.2.2, isFull)) w := rfl
  unfold PassesCheck
  rw [hrun, Prog.run_bind, Prog.run_ofExcept]
  rcases checkChildOrder_cases tag hid with ⟨hnumbered, orderNo, orgNo, hok⟩ | ⟨hnot, e, herr⟩
  · rw [hok]
    simp only [hnumbered, true_and]
    rw [OrderRepository.getOrderById, Prog.run_bind, Prog.run_perform, hread]
    simp only
    rw [Prog.run_bind, Prog.run_ofExcept]
    rcases checkRemainder_cases tag order original id with
      ⟨hpos, hle, isFull, hfull⟩ | ⟨hnot, e, herr⟩
    · rw [hfull]
      simp [hle]
    · rw [herr]
      have hqty := hnumbered.2.2
      simp only [reduceCtorEq, exists_false, false_iff, not_le]
      omega
  · rw [herr]
    simp [hnot]

/-- Worker 1 gets past the checks of a CANCEL order, in stores that can be read. -/
def PassesCancelCheck (w : World) (cancelOrder : Order) : Prop :=
  ∃ checked, (run (World.handle Env.quiet) (checkOriginalOrder "취소" cancelOrder) w).1 = .ok checked

theorem passesCancelCheck_iff {w : World} (hid : order.originalOrderId = some id)
    (hget : w.orders.get? id = some original) :
    PassesCancelCheck w order ↔ ChildNumbered order ∧ order.orderQty ≤ original.remainingQty :=
  passesCheck_iff "취소" hid hget

end ProcessOrder

/-! ## The cancels that are made -/

namespace OrderGenerator

/-- An order that the wait cancels. -/
def LeftUnfilled (order : Order) : Prop := order.status ∉ terminalStatuses ∧ 0 < openQuantity order

variable {env : Env} {w w' : World}

theorem orders_of_handle {o : Op} {r : Except PyExc (Ans o)} (h : World.handle env o w = (r, w'))
    (hu : ∀ u, o ≠ .updateOrder u) (hi : ∀ os, o ≠ .insertOrders os) : w'.orders = w.orders := by
  have horders : (World.handle env o w).2.orders = w.orders := World.orders_handle hu hi
  rwa [h] at horders

/-- One round makes the cancel of an order that is unfilled, and of no other. -/
theorem run_cancelUnfilledOrder {order : Order} {c : Option Order}
    (h : run (World.handle env) (cancelUnfilledOrder order) w = (.ok c, w')) :
    w'.orders = w.orders ∧
      (LeftUnfilled order ∧ (∃ id, c = some (cancelOrderOf order (openQuantity order) id)) ∨
        ¬LeftUnfilled order ∧ c = none) := by
  have hround : cancelUnfilledOrder order =
      if order.status ∈ terminalStatuses ∨ openQuantity order ≤ 0 then pure none
      else (do
        let cancelOrderId ← Op.perform .uuid4
        Op.perform (.flushOrder (cancelOrderOf order (openQuantity order) cancelOrderId))
        Op.perform (.enqueue (.processOrder cancelOrderId) 0)
        pure (some (cancelOrderOf order (openQuantity order) cancelOrderId))) := rfl
  rw [hround] at h
  by_cases hskip : order.status ∈ terminalStatuses ∨ openQuantity order ≤ 0
  · rw [if_pos hskip, Prog.run_pure, Prod.mk.injEq, Except.ok.injEq] at h
    have hnot : ¬LeftUnfilled order := by
      rintro ⟨hopen, hqty⟩
      exact hskip.elim hopen (not_le.mpr hqty)
    exact ⟨by rw [h.2], .inr ⟨hnot, h.1.symm⟩⟩
  · rw [if_neg hskip] at h
    rw [not_or, not_le] at hskip
    obtain ⟨id, w₁, hdraw, h⟩ := Prog.run_bind_ok _ h
    obtain ⟨_, w₂, hflush, h⟩ := Prog.run_bind_ok _ h
    obtain ⟨_, w₃, hqueue, h⟩ := Prog.run_bind_ok _ h
    rw [Prog.run_perform] at hdraw hflush hqueue
    rw [Prog.run_pure, Prod.mk.injEq, Except.ok.injEq] at h
    have horders₁ := orders_of_handle (o := .uuid4) hdraw (by simp) (by simp)
    have horders₂ := orders_of_handle (o := .flushOrder _) hflush (by simp) (by simp)
    have horders₃ := orders_of_handle (o := .enqueue _ _) hqueue (by simp) (by simp)
    refine ⟨?_, .inl ⟨hskip, id, h.1.symm⟩⟩
    rw [← h.2, horders₃, horders₂, horders₁]

/-- The rounds make a cancel for each unfilled order, and for no other. -/
theorem run_collect_cancelUnfilledOrder {rows cancels : List Order}
    (h : run (World.handle env) (collect cancelUnfilledOrder rows) w = (.ok cancels, w')) :
    w'.orders = w.orders ∧
      (∀ c ∈ cancels, ∃ order ∈ rows, ∃ id,
        LeftUnfilled order ∧ c = cancelOrderOf order (openQuantity order) id) ∧
      ∀ order ∈ rows, LeftUnfilled order →
        ∃ id, cancelOrderOf order (openQuantity order) id ∈ cancels := by
  induction rows generalizing w w' cancels with
  | nil =>
    rw [collect, Prog.run_pure, Prod.mk.injEq, Except.ok.injEq] at h
    simp [← h.1, ← h.2]
  | cons order rows ih =>
    rw [collect] at h
    obtain ⟨c, w₁, hround, h⟩ := Prog.run_bind_ok _ h
    obtain ⟨cs, w₂, hrest, h⟩ := Prog.run_bind_ok _ h
    rw [Prog.run_pure, Prod.mk.injEq, Except.ok.injEq] at h
    obtain ⟨horders, hmade⟩ := run_cancelUnfilledOrder hround
    obtain ⟨horders', hcancels, hunfilled⟩ := ih hrest
    rw [← h.1, ← h.2, horders', horders]
    refine ⟨rfl, ?_, ?_⟩
    · intro x hx
      rcases List.mem_append.mp hx with hx | hx
      · rcases hmade with ⟨hopen, id, rfl⟩ | ⟨-, rfl⟩
        · exact ⟨order, List.mem_cons_self, id, hopen, Option.mem_some.mp (Option.mem_toList.mp hx) |>.symm⟩
        · cases hx
      · obtain ⟨order', hmem, hrow⟩ := hcancels x hx
        exact ⟨order', List.mem_cons_of_mem _ hmem, hrow⟩
    · intro order' hmem hopen
      rcases List.mem_cons.mp hmem with rfl | hmem
      · rcases hmade with ⟨-, id, rfl⟩ | ⟨hnot, -⟩
        · exact ⟨id, List.mem_append_left _ (by simp)⟩
        · exact absurd hopen hnot
      · obtain ⟨id, hid⟩ := hunfilled order' hmem hopen
        exact ⟨id, List.mem_append_right _ hid⟩

/-- A cancel that worker 1 can send, of an order that has not ended. -/
def Executable (w : World) (c : Order) : Prop :=
  ProcessOrder.PassesCancelCheck w c ∧
    ∀ id original, c.originalOrderId = some id → w.orders.get? id = some original →
      ¬OrderState.Terminal original.status

/-- An order that a cancel can be sent for: the broker gave it its numbers and reported what
remains of it, and it did not time out. -/
def Cancelable (order : Order) : Prop :=
  order.status ≠ .timeout ∧ Python.truthy order.brokerOrderNo = true ∧
    Python.truthy order.brokerOrgNo = true ∧ order.remainingQty ≠ 0

theorem terminal_iff_of_open {s : OrderStatus} (h : s ∉ terminalStatuses) :
    OrderState.Terminal s ↔ s = .timeout := by
  cases s <;> simp_all [terminalStatuses, OrderState.Terminal, OrderState.terminalStates]

/-- The cancel of an unfilled order can be executed exactly when the order can be canceled. -/
theorem executable_stamp_iff {order : Order} {id : OrderId} (hopen : LeftUnfilled order)
    (hget : w'.orders.get? order.id = some order) :
    Executable w' (w.stamp env (cancelOrderOf order (openQuantity order) id)) ↔ Cancelable order := by
  have hcheck : ProcessOrder.PassesCancelCheck w'
      (w.stamp env (cancelOrderOf order (openQuantity order) id)) ↔ _ :=
    ProcessOrder.passesCancelCheck_iff rfl hget
  have hqty : openQuantity order ≤ order.remainingQty ↔ order.remainingQty ≠ 0 := by
    have hpos := hopen.2
    unfold openQuantity at hpos ⊢
    split at hpos
    · next hzero => simp [hzero] at hpos ⊢
                    exact hpos
    · next hreported => simp [hreported]
  have hended : (∀ id' original, some order.id = some id' → w'.orders.get? id' = some original →
      ¬OrderState.Terminal original.status) ↔ order.status ≠ .timeout := by
    rw [Ne, ← terminal_iff_of_open hopen.1]
    constructor
    · intro h
      exact h order.id order rfl hget
    · intro h id' original hid horiginal
      obtain rfl := Option.some.inj hid
      obtain rfl := Option.some.inj (hget.symm.trans horiginal)
      exact h
  unfold Executable Cancelable
  rw [hcheck]
  show (_ ∧ _) ∧ (∀ id' original, some order.id = some id' → _ → _) ↔ _
  rw [hended, ProcessOrder.ChildNumbered]
  show ((Python.truthy order.brokerOrderNo = true ∧ Python.truthy order.brokerOrgNo = true ∧
    0 < openQuantity order) ∧ openQuantity order ≤ order.remainingQty) ∧ _ ↔ _
  have hpos := hopen.2
  tauto

/-- What a wait that timed out stores. -/
theorem run_cancelUnfilledOrders {ids : List OrderId} {n : ℕ}
    (h : run (World.handle env) (cancelUnfilledOrders ids) w = (.ok n, w')) :
    ∃ (cancels : List Order) (w₁ : World),
      w'.orders.rows = w.orders.rows ++ cancels.map (w₁.stamp env) ∧
      (∀ c ∈ cancels, w.orders.get? c.id = none) ∧
      (∀ c ∈ cancels, ∃ order ∈ w.orders.rows, order.id ∈ ids ∧ ∃ id,
        LeftUnfilled order ∧ c = cancelOrderOf order (openQuantity order) id) ∧
      ∀ order ∈ w.orders.rows, order.id ∈ ids → LeftUnfilled order →
        ∃ id, cancelOrderOf order (openQuantity order) id ∈ cancels := by
  unfold cancelUnfilledOrders at h
  obtain ⟨rows, w₁, hread, h⟩ := Prog.run_bind_ok _ h
  obtain ⟨cancels, w₂, hrounds, h⟩ := Prog.run_bind_ok _ h
  obtain ⟨_, w₃, hinsert, h⟩ := Prog.run_bind_ok _ h
  rw [Prog.run_perform] at hread hinsert
  rw [Prog.run_pure, Prod.mk.injEq] at h
  have hrows : rows = w.orders.rows.filter fun o => o.id ∈ ids := by
    rcases World.handle_cases env w (.ordersByIds ids) with ⟨e, he⟩ | heff
    · rw [he] at hread
      cases hread
    · rw [heff] at hread
      exact (Except.ok.inj (congrArg Prod.fst hread)).symm
  have horders₁ := orders_of_handle (o := .ordersByIds ids) hread (by simp) (by simp)
  obtain ⟨horders₂, hcancels, hunfilled⟩ := run_collect_cancelUnfilledOrder hrounds
  rcases World.handle_insertOrders env w₂ cancels with ⟨e, he⟩ | ⟨t, ht, he⟩
  · rw [he] at hinsert
    cases hinsert
  · rw [he] at hinsert
    rw [Prod.mk.injEq] at hinsert
    have hw : w'.orders = t := by
      rw [← h.2, ← hinsert.2]
    rw [horders₂, horders₁] at ht
    refine ⟨cancels, w₂, ?_, ?_, ?_, ?_⟩
    · rw [hw, KeyedTable.rows_insertAll ht]
    · intro c hc
      have hstamped : w₂.stamp env c ∈ cancels.map (w₂.stamp env) := List.mem_map_of_mem hc
      have hnone : w.orders.get? (w₂.stamp env c).id = none :=
        KeyedTable.get?_none_of_insertAll ht hstamped
      exact hnone
    · intro c hc
      obtain ⟨order, hmem, hrow⟩ := hcancels c hc
      rw [hrows, List.mem_filter, decide_eq_true_iff] at hmem
      exact ⟨order, hmem.1, hmem.2, hrow⟩
    · intro order hmem hid hopen
      refine hunfilled order ?_ hopen
      rw [hrows, List.mem_filter, decide_eq_true_iff]
      exact ⟨hmem, hid⟩

/-- Every cancel that a timed-out wait stores can be executed exactly when every unfilled order
among those waited for can be canceled. -/
theorem cancels_executable_iff {ids : List OrderId} {n : ℕ}
    (h : run (World.handle env) (cancelUnfilledOrders ids) w = (.ok n, w')) :
    (∀ c ∈ w'.orders.rows, c ∉ w.orders.rows → Executable w' c) ↔
      ∀ order ∈ w.orders.rows, order.id ∈ ids → LeftUnfilled order → Cancelable order := by
  obtain ⟨cancels, w₁, hrows, hnew, hcancels, hunfilled⟩ := run_cancelUnfilledOrders h
  have hget (order) (hmem : order ∈ w.orders.rows) : w'.orders.get? order.id = some order := by
    refine KeyedTable.get?_of_mem ?_
    rw [hrows]
    exact List.mem_append_left _ hmem
  constructor
  · intro hall order hmem hid hopen
    obtain ⟨id, hc⟩ := hunfilled order hmem hid hopen
    have hstored : w₁.stamp env (cancelOrderOf order (openQuantity order) id) ∈ w'.orders.rows := by
      rw [hrows]
      exact List.mem_append_right _ (List.mem_map_of_mem hc)
    have hfresh : w₁.stamp env (cancelOrderOf order (openQuantity order) id) ∉ w.orders.rows :=
      fun hold => KeyedTable.get?_eq_none.mp (hnew _ hc) _ hold rfl
    exact (executable_stamp_iff hopen (hget order hmem)).mp (hall _ hstored hfresh)
  · intro hall c hc hfresh
    rw [hrows, List.mem_append, List.mem_map] at hc
    obtain ⟨c', hc', rfl⟩ := hc.resolve_left hfresh
    obtain ⟨order, hmem, hid, id, hopen, rfl⟩ := hcancels c' hc'
    exact (executable_stamp_iff hopen (hget order hmem)).mpr (hall order hmem hid hopen)

/-- An accepted order with nothing filled. -/
theorem cancels_executable_iff_sample :
    let w := World.holding [Order.sample 7 .accepted] []
    let w' := (run (World.handle Env.quiet) (cancelUnfilledOrders [7]) w).2
    (∀ c ∈ w'.orders.rows, c ∉ w.orders.rows → Executable w' c) ↔
      ∀ order ∈ w.orders.rows, order.id ∈ [7] → LeftUnfilled order → Cancelable order := by
  intro w w'
  have hok : (run (World.handle Env.quiet) (cancelUnfilledOrders [7]) w).1.isOk = true := by
    decide +kernel
  obtain ⟨n, hn⟩ : ∃ n, (run (World.handle Env.quiet) (cancelUnfilledOrders [7]) w).1 = .ok n := by
    cases hr : (run (World.handle Env.quiet) (cancelUnfilledOrders [7]) w).1 with
    | ok n => exact ⟨n, rfl⟩
    | error e =>
      rw [hr] at hok
      cases hok
  exact cancels_executable_iff (Prod.ext hn rfl)

/-- An order that worker 1 has not sent yet is canceled without the numbers of the broker. -/
theorem pending_order_canceled :
    let order : Order := { Order.sample 7 .pending with
      brokerOrderNo := none, brokerOrgNo := none, remainingQty := 0 }
    let w := World.holding [order] []
    let w' := (run (World.handle Env.quiet) (cancelUnfilledOrders [7]) w).2
    ¬∀ c ∈ w'.orders.rows, c ∉ w.orders.rows → Executable w' c := by
  intro order w w' h
  have hrow : cancelOrderOf order 10 1 ∈ w'.orders.rows := by decide +kernel
  have hnew : cancelOrderOf order 10 1 ∉ w.orders.rows := by decide +kernel
  have hget : w'.orders.get? 7 = some order := by decide +kernel
  have hpasses := (h _ hrow hnew).1
  have hnumbered := ((ProcessOrder.passesCancelCheck_iff rfl hget).mp hpasses).1
  exact absurd hnumbered.1 (by decide)

end OrderGenerator

end Autotrading
