import Autotrading.SystemCalls
import Autotrading.UnfilledCancels

/-!
# Cancel and revise requests

The API checks a request and its original order, and stores a child order; worker 1 checks the
child against the original order again. The API compares the quantity with 0 alone, worker 1
with the remaining quantity of the original order.
-/
namespace Autotrading.OrderRouter

open Prog (run)
open ProcessOrder (PassesCheck passesCheck_iff ChildNumbered)

/-- A cancel or a revise request. -/
inductive ChildRequest
  | cancel (orderId : OrderId) (quantity : ℤ) (dryRun : Bool)
  | revise (orderNo : OrderId) (quantity : ℤ) (orderType : OrderType) (price : ℚ) (dryRun : Bool)

namespace ChildRequest

def program : ChildRequest → Program Unit
  | cancel orderId quantity dryRun => cancelDomesticStockOrder orderId quantity dryRun
  | revise orderNo quantity orderType price dryRun =>
    reviseDomesticStockOrder orderNo quantity orderType price dryRun

def originalId : ChildRequest → OrderId
  | cancel orderId _ _ => orderId
  | revise orderNo _ _ _ _ => orderNo

def quantity : ChildRequest → ℤ
  | cancel _ quantity _ => quantity
  | revise _ quantity _ _ _ => quantity

def orderKind : ChildRequest → OrderKind
  | cancel _ _ _ => .cancel
  | revise _ _ _ _ _ => .modify

/-- How the checks of worker 1 name the request. -/
def tag : ChildRequest → String
  | cancel _ _ _ => "취소"
  | revise _ _ _ _ _ => "정정"

end ChildRequest

variable {env : Env} {w w' : World} {original : Order} {quantity : ℤ}

/-! ## What the API has checked -/

/-- What the check of the original order establishes. -/
structure Amendable (original : Order) : Prop where
  notCancel : original.orderKind ≠ .cancel
  opened : original.status ∈ [OrderStatus.accepted, OrderStatus.partialFilled]
  orderNo : Python.truthy original.brokerOrderNo = true
  orgNo : Python.truthy original.brokerOrgNo = true
  remaining : 0 < original.remainingQty

theorem amendable_of_validated {a : Unit}
    (h : validateOriginalOrderForModifyCancel original = .ok a) : Amendable original := by
  unfold validateOriginalOrderForModifyCancel at h
  by_cases hkind : original.orderKind = .cancel
  · simp [hkind, throw, throwThe, MonadExceptOf.throw, bind, Except.bind] at h
  by_cases hstatus : original.status ∈ [OrderStatus.accepted, OrderStatus.partialFilled]
  swap
  · simp [hkind, hstatus, throw, throwThe, MonadExceptOf.throw, bind, Except.bind] at h
  by_cases hno : Python.truthy original.brokerOrderNo = true
  swap
  · simp [hkind, hstatus, hno, throw, throwThe, MonadExceptOf.throw, bind, Except.bind] at h
  by_cases horg : Python.truthy original.brokerOrgNo = true
  swap
  · simp [hkind, hstatus, hno, horg, throw, throwThe, MonadExceptOf.throw, bind, Except.bind] at h
  by_cases hqty : original.remainingQty ≤ 0
  · simp [hkind, hstatus, hno, horg, hqty, throw, throwThe, MonadExceptOf.throw] at h
  exact ⟨hkind, hstatus, hno, horg, not_le.mp hqty⟩

/-! ## What the API stores -/

/-- The order is the one row that is new. -/
theorem rows_of_createAndQueue {order : OrderId → Order} {dryRun : Bool}
    (h : run (World.handle env) (createAndQueue order dryRun) w = (.ok (), w')) :
    ∃ id w₁, w'.orders.rows = w.orders.rows ++ [World.stamp w₁ env (order id)] := by
  have hsplit : createAndQueue order dryRun = Op.perform .uuid4 >>= fun id =>
      Op.perform (.insertOrders [order id]) >>= fun _ =>
        if !dryRun then Op.perform (.enqueue (.processOrder id) 0) else pure () := rfl
  rw [hsplit] at h
  obtain ⟨id, w₁, hdraw, h⟩ := Prog.run_bind_ok _ h
  obtain ⟨_, w₂, hinsert, h⟩ := Prog.run_bind_ok _ h
  rw [Prog.run_perform] at hdraw hinsert
  have horders₁ : w₁.orders = w.orders :=
    OrderGenerator.orders_of_handle (o := .uuid4) hdraw (by simp) (by simp)
  have horders₃ : w'.orders = w₂.orders := by
    cases dryRun with
    | true =>
      simp only [Bool.not_true, Bool.false_eq_true, if_false, Prog.run_pure, Prod.mk.injEq] at h
      rw [h.2]
    | false =>
      simp only [Bool.not_false, if_true, Prog.run_perform] at h
      exact OrderGenerator.orders_of_handle (o := .enqueue _ _) h (by simp) (by simp)
  refine ⟨id, w₁, ?_⟩
  rcases World.handle_insertOrders env w₁ [order id] with ⟨e, he⟩ | ⟨t, ht, he⟩
  · rw [he] at hinsert
    cases hinsert
  · rw [he, Prod.mk.injEq] at hinsert
    have horders₂ : w₂.orders = t := by
      rw [← hinsert.2]
    rw [horders₃, horders₂, KeyedTable.rows_insertAll ht, horders₁]
    rfl

/-- What an accepted request leaves: the original order as it was, and a child of it. -/
structure Accepted (request : ChildRequest) (w w' : World) (original child : Order) : Prop where
  found : w.orders.get? request.originalId = some original
  amendable : Amendable original
  rows : w'.orders.rows = w.orders.rows ++ [child]
  kind : child.orderKind = request.orderKind
  qty : child.orderQty = request.quantity
  positive : 0 < request.quantity
  parent : child.originalOrderId = some original.id
  orderNo : child.originalBrokerOrderNo = original.brokerOrderNo
  orgNo : child.originalBrokerOrgNo = original.brokerOrgNo

/-- The request from its own check on: its original order is read and checked, and the child
stored. -/
theorem accepted_of_run {request : ChildRequest} {check : Except PyExc Unit}
    {rest : Option Order → Program Unit} {t : Order → OrderType} {orderPrice : Option ℚ}
    {dryRun : Bool} (hpos : ∀ a, check = .ok a → 0 < request.quantity)
    (hnone : ∃ e, rest none = Prog.raise e)
    (hsome : ∀ original, rest (some original) =
      Prog.ofExcept (validateOriginalOrderForModifyCancel original) >>= fun _ =>
        createAndQueue (childOrder original request.orderKind (t original) orderPrice
          request.quantity) dryRun)
    (h : run (World.handle env) (Prog.ofExcept check >>= fun _ =>
      Op.perform (.selectOrder (some request.originalId)) >>= rest) w = (.ok (), w')) :
    ∃ original child, Accepted request w w' original child := by
  obtain ⟨a, w₁, hcheck, h⟩ := Prog.run_bind_ok _ h
  rw [Prog.run_ofExcept, Prod.mk.injEq] at hcheck
  obtain ⟨hcheck, rfl⟩ := hcheck
  obtain ⟨found, w₂, hread, h⟩ := Prog.run_bind_ok _ h
  rw [Prog.run_perform] at hread
  have horders := OrderGenerator.orders_of_handle (o := .selectOrder _) hread (by simp) (by simp)
  have hfound : found = w.orders.get? request.originalId := by
    rcases World.handle_cases env w (.selectOrder (some request.originalId)) with ⟨e, he⟩ | heff
    · rw [he] at hread
      cases hread
    · rw [heff] at hread
      exact (Except.ok.inj (congrArg Prod.fst hread)).symm
  cases found with
  | none =>
    obtain ⟨e, he⟩ := hnone
    rw [he, Prog.run_raise] at h
    cases h
  | some original =>
    rw [hsome] at h
    obtain ⟨_, w₃, hvalid, h⟩ := Prog.run_bind_ok _ h
    rw [Prog.run_ofExcept, Prod.mk.injEq] at hvalid
    obtain ⟨hvalid, rfl⟩ := hvalid
    obtain ⟨id, w₄, hrows⟩ := rows_of_createAndQueue h
    exact ⟨original, _, hfound.symm, amendable_of_validated hvalid, by rw [hrows, horders], rfl, rfl,
      hpos a hcheck, rfl, rfl, rfl⟩

theorem ChildRequest.accepted {request : ChildRequest}
    (h : run (World.handle env) request.program w = (.ok (), w')) :
    ∃ original child, Accepted request w w' original child := by
  cases request with
  | cancel orderId quantity dryRun =>
    exact accepted_of_run (t := Order.orderType) (fun _ => validateCancelRequest_quantity)
      ⟨_, rfl⟩ (fun _ => rfl) h
  | revise orderNo quantity orderType price dryRun =>
    exact accepted_of_run (t := fun _ => orderType) (fun _ => validateReviseRequest_quantity)
      ⟨_, rfl⟩ (fun _ => rfl) h

/-! ## What worker 1 makes of it -/

/-- The child of an accepted request carries the numbers that worker 1 asks for. -/
theorem Accepted.childNumbered {request : ChildRequest} {original child : Order}
    (h : Accepted request w w' original child) : ChildNumbered child := by
  refine ⟨?_, ?_, ?_⟩
  · rw [h.orderNo]
    exact h.amendable.orderNo
  · rw [h.orgNo]
    exact h.amendable.orgNo
  · rw [h.qty]
    exact h.positive

theorem Accepted.get?_original {request : ChildRequest} {original child : Order}
    (h : Accepted request w w' original child) : w'.orders.get? original.id = some original := by
  have hmem : original ∈ w.orders.rows := (KeyedTable.get?_eq_some.mp h.found).1
  refine KeyedTable.get?_of_mem ?_
  rw [h.rows]
  exact List.mem_append_left _ hmem

/-- The child that an accepted request stores passes the checks of worker 1, in the state it was
stored in, exactly when the quantity asked for is within what remains of the original order. -/
theorem accepted_child_passes_iff {request : ChildRequest}
    (h : run (World.handle env) request.program w = (.ok (), w')) :
    ∃ original child, w.orders.get? request.originalId = some original ∧
      w'.orders.rows = w.orders.rows ++ [child] ∧ child.orderKind = request.orderKind ∧
      child.originalOrderId = some original.id ∧
      (PassesCheck request.tag w' child ↔ request.quantity ≤ original.remainingQty) := by
  obtain ⟨original, child, haccepted⟩ := request.accepted h
  have hnumbered : ChildNumbered child := haccepted.childNumbered
  have hcheck := passesCheck_iff request.tag haccepted.parent haccepted.get?_original
  rw [haccepted.qty, and_iff_right hnumbered] at hcheck
  exact ⟨original, child, haccepted.found, haccepted.rows, haccepted.kind, haccepted.parent, hcheck⟩

/-- An order of which 10 remain, and a revision of 4. -/
theorem accepted_child_passes_iff_sample :
    let w := World.holding [Order.sample 7 .accepted] []
    let request := ChildRequest.revise 7 4 .limit 70000 false
    let w' := (run (World.handle Env.quiet) request.program w).2
    ∃ original child, w.orders.get? request.originalId = some original ∧
      w'.orders.rows = w.orders.rows ++ [child] ∧ child.orderKind = request.orderKind ∧
      child.originalOrderId = some original.id ∧
      (PassesCheck request.tag w' child ↔ request.quantity ≤ original.remainingQty) := by
  intro w request w'
  have hok : (run (World.handle Env.quiet) request.program w).1 = .ok () := by decide +kernel
  exact accepted_child_passes_iff (Prod.ext hok rfl)

/-- A cancel of 6 is accepted for an order of which 5 remain, and its child fails. -/
theorem cancel_beyond_remainder_fails :
    let original : Order := { Order.sample 7 .partialFilled with filledQty := 5, remainingQty := 5 }
    let w := World.holding [original] []
    let outcome := run (World.handle Env.quiet) (cancelDomesticStockOrder 7 6 false) w
    outcome.1 = .ok () ∧ ∃ child ∈ outcome.2.orders.rows,
      child.orderKind = .cancel ∧ child.orderQty = 6 ∧ ¬PassesCheck "취소" outcome.2 child := by
  intro original w outcome
  have hok : outcome.1 = .ok () := by decide +kernel
  refine ⟨hok, childOrder original .cancel .limit none 6 1, ?_, rfl, rfl, ?_⟩
  · decide +kernel
  · have hget : outcome.2.orders.get? 7 = some original := by decide +kernel
    rw [passesCheck_iff "취소" rfl hget]
    rintro ⟨-, hle⟩
    exact absurd hle (by decide)

end Autotrading.OrderRouter
