import Autotrading.Pipeline

/-!
# What a task can do

One predicate, `Conduct`, says of every call a task makes under what circumstances
it makes it: which statements it issues, with values from where, which messages it
sends, when it asks the broker for an order. `program_conduct` proves it of all
tasks once; the results about the system start from it and from what one call does
to the stores.
-/
namespace Autotrading

open Prog
open OrderState OrderRepository TrackingSnapshot

/-! ## The statements of the two workers -/

/-- The call brought an answer to an execution query. -/
def fetches : Entry → Bool
  | (_, ⟨.get _, .ok (.response statusCode _ _)⟩) => KisOrder.is2xx statusCode
  | _ => false

/-- At tick `n` the broker answered `answer` to `request`. -/
def FetchedAt (h : Calls) (n : ℕ) (request : ExecutionsRequest)
    (answer : DailyOrderExecutionResponse) : Prop :=
  ∃ statusCode body statusText,
    (n, ⟨.get request, .ok (.response statusCode body statusText)⟩) ∈ h ∧
      KisOrder.is2xx statusCode = true ∧ KisOrder.parseExecutions body = .ok answer

/-- The cycle read `order`, got an answer at tick `n` and made `snapshot` of it. -/
structure Snapshotted (h : Calls) (id : Option OrderId) (order : Order) (n : ℕ)
    (snapshot : Snapshot) : Prop where
  read : Answered h (.selectOrder id) (some order)
  tracked : order.status ∈ trackingTargetStatuses
  derived : ∃ answer hasChildOrders,
    FetchedAt h n (ProcessOrderStatus.executionsRequest order) answer ∧
      extractOrderTrackingSnapshot order answer hasChildOrders = .ok snapshot
  allowed : canTransition order.status snapshot.result.nextStatus = true

/-- The `UPDATE` statements of a task. -/
inductive Write : Label → Calls → OrderUpdate → Prop
  | gate {id h order} (read : Answered h (.selectOrder (some id)) (some order)) :
      Write (.processOrder id) h (ProcessOrder.gate order)
  | release {id h order} (read : Answered h (.selectOrder (some id)) (some order)) :
      Write (.processOrder id) h ⟨order.id, some [.processing], .status .pending⟩
  | submit {id h order rtCd msgCd msg1 brokerOrgNo brokerOrderNo nextStatus remainingQty}
      (read : Answered h (.selectOrder (some id)) (some order))
      (next : nextStatus ∈ [OrderStatus.requested, .accepted, .failed]) :
      Write (.processOrder id) h ⟨order.id, some [.processing],
        .submit rtCd msgCd msg1 brokerOrgNo brokerOrderNo nextStatus remainingQty⟩
  | track {id attempt first h order n snapshot} (made : Snapshotted h id order n snapshot) :
      Write (.processOrderStatus id attempt first) h (trackingUpdate order.id
        (ProcessOrderStatus.expectedStatuses order.status) snapshot.result)
  | timeout {id attempt first h order n snapshot cycle} (made : Snapshotted h id order n snapshot) :
      Write (.processOrderStatus id attempt first) h (trackingUpdate order.id
        trackingTargetStatuses (ProcessOrderStatus.timeoutResult cycle snapshot.result))
  | fail {id attempt first h order rtCd msgCd msg1}
      (read : Answered h (.selectOrder id) (some order)) :
      Write (.processOrderStatus id attempt first) h
        ⟨order.id, some trackingTargetStatuses, .failure rtCd msgCd msg1 .failed none none⟩

/-- A task knows that an order has ended: it read it so, its own statement ended it,
or a statement on all tracked statuses did or came too late. -/
inductive EndSeen (h : Calls) : OrderId → Prop
  | read {k o} (answered : Answered h (.selectOrder k) (some o)) (terminal : Terminal o.status) :
      EndSeen h o.id
  | wrote {u} (answered : Answered h (.updateOrder u) true) (terminal : Terminal u.set.nextStatus) :
      EndSeen h u.id
  | late {k o u h₁ n matched h₂} (history : h = h₁ ++ (n, ⟨.updateOrder u, .ok matched⟩) :: h₂)
      (read : Answered h₁ (.selectOrder k) (some o)) (same : o.id = u.id)
      (tracked : o.status ∈ trackingTargetStatuses)
      (expected : u.expected = some trackingTargetStatuses) (terminal : Terminal u.set.nextStatus) :
      EndSeen h u.id

theorem EndSeen.mono {h h' : Calls} {id : OrderId} (hs : EndSeen h id) (hh : h <+: h') :
    EndSeen h' id := by
  cases hs with
  | read answered terminal => exact .read (answered.mono hh) terminal
  | wrote answered terminal => exact .wrote (answered.mono hh) terminal
  | @late k o u h₁ n matched h₂ history read same tracked expected terminal =>
    obtain ⟨h₃, rfl⟩ := hh
    have hsplit : h ++ h₃ = h₁ ++ (n, ⟨.updateOrder u, .ok matched⟩) :: (h₂ ++ h₃) := by
      rw [history, List.append_assoc, List.cons_append]
    exact .late hsplit read same tracked expected terminal

/-! ## Inserts, messages and order requests -/

/-- Worker 2 inserts nothing. An inserted order carries an id the task drew, starts
PENDING and unfilled, and belongs to the task's rebalance unless it cancels another
order. -/
structure Insert (l : Label) (h : Calls) (o : Order) : Prop where
  creator : l.tracks = none
  drawn : Answered h .uuid4 o.id
  pending : o.status = .pending
  unfilled : o.filledQty = 0
  rebalance : o.orderKind ≠ .cancel → o.rebalanceId = l.rebalanceId

/-- The messages a task sends. -/
inductive Send : Label → Calls → Message → Prop
  | drawn {l h id} (drawn : Answered h .uuid4 id) (live : l.dryRun = false) :
      Send l h (.processOrder id)
  | again {id h} : Send (.processOrder id) h (.processOrder id)
  | recovered {l h os o} (read : Answered h .recoverableSubmitOrders os) (mem : o ∈ os) :
      Send l h (.processOrder o.id)
  | track {l h id attempt first} : Send l h (.processOrderStatus id attempt first)
  | capture {l h h₁ n rid rows h₂}
      (history : h = h₁ ++ (n, ⟨.ordersByRebalanceId rid, .ok rows⟩) :: h₂) (some : rows ≠ [])
      (ended : ∀ r ∈ rows, Terminal r.status ∨ EndSeen h₁ r.id) :
      Send l h (.captureRebalanceSnapshot rid)

/-- A task past the gate of worker 1. -/
def PastGate (l : Label) (h : Calls) : Prop :=
  ∃ id order, l = .processOrder id ∧ Answered h (.selectOrder (some id)) (some order) ∧
    Answered h (.updateOrder (ProcessOrder.gate order)) true

section
variable {l : Label} {h : Calls}

theorem PastGate.append (hg : PastGate l h) (h' : Calls) : PastGate l (h ++ h') := by
  obtain ⟨id, order, hl, hread, hgate⟩ := hg
  exact ⟨id, order, hl, hread.append h', hgate.append h'⟩

theorem PastGate.mono {h' : Calls} (hg : PastGate l h) (hh : h <+: h') : PastGate l h' := by
  obtain ⟨h₂, rfl⟩ := hh
  exact hg.append h₂

end

/-- The circumstances of each call of a task. -/
def Conduct (l : Label) (h : Calls) : Op → Prop
  | .updateOrder u => Write l h u
  | .insertOrders os => ∀ o ∈ os, Insert l h o
  | .enqueue m _ => Send l h m
  | .post _ => PastGate l h
  | .get _ => ∀ x ∈ h, fetches x = false
  | .insertSnapshot s => ∃ rid, l = .captureRebalanceSnapshot rid ∧ s.rebalanceId = some rid
  | _ => True

end Autotrading
