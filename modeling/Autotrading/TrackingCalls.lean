import Autotrading.TrackingConduct

/-!
# The calls of worker 2

Every call that a cycle can make, whatever it reads and whatever fails. A conduct that
allows them allows the cycle, so a rule about single calls needs no walk of its own.
-/
namespace Autotrading.ProcessOrderStatus

open Prog OrderState OrderRepository TrackingSnapshot

variable {h : Calls} {Q : Calls → Op → Prop} {cycle : Cycle} {order : Order}
  {snapshot : Snapshot} {loaded : List Order}

/-- The statement stores a result of worker 1. -/
def storesSubmission : SetClause → Bool
  | .submit .. => true
  | _ => false

/-- The calls of a cycle other than its query and its message to the next one. -/
def Follows : Op → Prop
  | .now => True
  | .selectOrder _ => True
  | .existsChildOrders _ => True
  | .ordersByRebalanceId _ => True
  | .updateOrder u => storesSubmission u.set = false
  | .commit => True
  | .rollback => True
  | .publish => True
  | .accessToken => True
  | .enqueue (.captureRebalanceSnapshot _) _ => True
  | _ => False

theorem follows_of_loads {o : Op} (ho : Loads o) : Follows o := by
  cases o
  all_goals first | exact trivial | exact ho.elim

theorem safe_dailyOrderExecutions {request : ExecutionsRequest} (n : ℕ)
    (hget : ∀ h', h <+: h' → Q h' (.get request)) :
    Safe Q h (KisOrder.dailyOrderExecutionsAttempts request n) := by
  induction n generalizing h with
  | zero => exact safe_raise _
  | succ n ih =>
    rw [KisOrder.dailyOrderExecutionsAttempts]
    refine Safe.bind (safe_perform (hget h (List.prefix_refl h))) fun h₁ reply hh₁ => ?_
    have ih := @ih h₁ fun h' hh' => hget h' (hh₁.trans hh')
    cases reply with
    | requestError e =>
      simp only
      split
      · exact safe_raise _
      · exact ih
    | response statusCode body statusText =>
      simp only
      split
      · exact safe_ofExcept _
      · split
        · exact safe_raise _
        · split
          · exact safe_raise _
          · exact ih

section Parts
variable (hQ : ∀ h o, Follows o → Q h o)

include hQ

theorem safe_publishOrderUpdate : Safe Q h (publishOrderUpdate order) :=
  (along_publishOrderUpdate fun h o ho => hQ h o (follows_of_loads ho)).safe

theorem safe_triggerRebalanceSnapshot :
    Safe Q h (triggerRebalanceSnapshotIfCompleted order loaded) := by
  unfold triggerRebalanceSnapshotIfCompleted getOrdersByRebalanceId
  split
  · exact safe_pure _
  · refine Safe.tryExcept ?_ fun h' _ _ =>
      Safe.bind (safe_perform (hQ h' _ trivial)) fun _ _ _ => safe_raise _
    refine Safe.bind (safe_perform (hQ h _ trivial)) fun h₁ rows _ => ?_
    simp only
    split
    · exact safe_perform (hQ h₁ _ trivial)
    · exact safe_pure _

theorem safe_adjustParent : Safe Q h (adjustParent order snapshot) := by
  unfold adjustParent adjustCanceledParent adjustModifiedParent getOrderById
  simp only [updateParentOrderAfterChild_raises]
  split
  · exact safe_pure _
  next parentId =>
  split
  · refine Safe.bind (safe_perform (hQ h _ trivial)) fun h₁ parent _ => ?_
    cases parent with
    | none => exact safe_raise _
    | some parent =>
      cases snapshot.row with
      | none => exact safe_raise _
      | some row =>
        simp only
        split
        · exact Safe.bind (safe_raise _) fun _ _ _ => safe_pure _
        · exact safe_pure _
  · split
    · refine Safe.bind (safe_perform (hQ h _ trivial)) fun h₁ parent _ => ?_
      cases parent with
      | none => exact safe_raise _
      | some parent =>
        simp only
        split
        · refine Safe.bind ?_ fun h₂ updated _ => ?_
          · unfold updateParentOrderAfterChild Python.Signature.call
            split
            · exact safe_perform (hQ h₁ _ rfl)
            · exact safe_raise _
          · split
            · exact Safe.bind (safe_perform (hQ h₂ _ trivial)) fun _ _ _ => safe_pure _
            · exact safe_pure _
        · exact safe_pure _
    · exact safe_pure _

theorem safe_timeoutOrder : Safe Q h (timeoutOrder cycle order snapshot loaded) := by
  unfold timeoutOrder updateOrderTrackingResult cancelAfterTimeout newCancelOrderId
  refine Safe.bind (safe_perform (hQ h _ rfl)) fun h₁ _ _ => ?_
  refine Safe.bind (safe_publishOrderUpdate hQ) fun h₂ published _ => ?_
  simp only [raise_bind]
  split
  · refine Safe.bind (Safe.tryExcept (safe_raise _) fun _ _ _ => safe_pure _) fun h₃ _ _ => ?_
    exact safe_triggerRebalanceSnapshot hQ
  · exact safe_triggerRebalanceSnapshot hQ

variable (hnext : ∀ h id attempt first n, Q h (.enqueue (.processOrderStatus id attempt first) n))

include hnext

theorem safe_storeSnapshot : Safe Q h (storeSnapshot cycle order snapshot) := by
  have hretrack : ∀ (h' : Calls) (o : Order) loaded,
      Safe Q h' (retrack cycle o snapshot loaded) := by
    intro h' o loaded
    unfold retrack
    split
    · exact safe_pure _
    · split
      · exact safe_timeoutOrder hQ
      · exact safe_perform (hnext h' _ _ _ _)
  unfold storeSnapshot updateOrderTrackingResult
  split
  · exact safe_perform (hQ h _ trivial)
  · refine Safe.bind (safe_perform (hQ h _ rfl)) fun h₁ updated _ => ?_
    simp only
    split
    · exact safe_perform (hQ h₁ _ trivial)
    · refine Safe.bind (safe_adjustParent hQ) fun h₂ loaded _ => ?_
      cases loaded with
      | none => exact safe_pure _
      | some loaded =>
        refine Safe.bind (safe_perform (hQ h₂ _ trivial)) fun h₃ _ _ => ?_
        refine Safe.bind (safe_publishOrderUpdate hQ) fun h₄ published _ => ?_
        split
        · exact Safe.bind (safe_triggerRebalanceSnapshot hQ) fun h₅ _ _ => hretrack h₅ _ _
        · exact hretrack h₄ _ _

theorem safe_trackOrder (hget : ∀ h', h <+: h' → Q h' (.get (executionsRequest order))) :
    Safe Q h (trackOrder cycle order) := by
  unfold trackOrder TradeService.getDailyOrderExecutions KisOrder.getDailyOrderExecutions
    existsChildOrders
  split
  · exact safe_pure _
  · split
    · exact safe_pure _
    · refine Safe.bind (safe_perform (hQ h _ trivial)) fun h₁ _ hh₁ => ?_
      refine Safe.bind (safe_dailyOrderExecutions _ fun h' hh' => hget h' (hh₁.trans hh'))
        fun h₂ answer _ => ?_
      have hrest : ∀ (h' : Calls) hasChildOrders, Safe Q h' (do
          let snapshot ← ofExcept (extractOrderTrackingSnapshot order answer hasChildOrders)
          storeSnapshot cycle order snapshot) := by
        intro h' hasChildOrders
        exact Safe.bind (safe_ofExcept _) fun h₃ snapshot _ => safe_storeSnapshot hQ hnext
      split
      · exact Safe.bind (safe_perform (hQ h₂ _ trivial)) fun h₃ hasChildOrders _ => hrest h₃ _
      · exact hrest h₂ _

theorem safe_handleError {order : Option Order} {e : PyExc} :
    Safe Q h (handleError cycle order e) := by
  have hrequeue : ∀ (h' : Calls) (orderPk : Option OrderId),
      Safe Q h' (requeueOrderTracking orderPk cycle) := by
    intro h' orderPk
    unfold requeueOrderTracking
    split
    · exact safe_pure _
    · exact safe_perform (hnext h' _ _ _ _)
  unfold handleError handleKisOrderError handleException
  simp only [updateOrderFailureResult_raises, updateOrderFailureResult_binds]
  split
  · refine Safe.bind (safe_perform (hQ h _ trivial)) fun h₁ _ _ => ?_
    split
    · exact hrequeue h₁ _
    · cases order with
      | none => exact safe_raise _
      | some o => exact Safe.bind (safe_perform (hQ h₁ _ rfl)) fun _ _ _ => safe_raise _
  · refine Safe.bind (safe_perform (hQ h _ trivial)) fun h₁ _ _ => ?_
    split
    · exact hrequeue h₁ _
    · split
      · exact safe_raise _
      · exact safe_raise _

/-- A cycle keeps to every conduct that allows its calls, of which the query is for the
order it read. -/
theorem safe_processOrderStatus (id : Option OrderId) (attempt : ℕ) (first : Option Instant)
    (hget : ∀ h order, Answered h (.selectOrder id) (some order) →
      Q h (.get (executionsRequest order))) :
    Safe Q h (processOrderStatus id attempt first) := by
  unfold processOrderStatus getOrderById
  refine Safe.bind (safe_perform (hQ h _ trivial)) fun h₁ nowUtc _ => ?_
  refine Along.attempt (along_answered (hQ h₁ (.selectOrder id) trivial)) fun h₂ r _ hread => ?_
  cases r with
  | error e => exact safe_handleError hQ hnext
  | ok found =>
    cases found with
    | none => exact safe_pure _
    | some order =>
      refine Safe.tryExcept (safe_trackOrder hQ hnext fun h' hh' => ?_) fun h₃ e _ =>
        safe_handleError hQ hnext
      exact hget h' order ((hread _ rfl).mono hh')

end Parts

end Autotrading.ProcessOrderStatus
