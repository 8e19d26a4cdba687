import Mathlib.Data.List.Basic
import Mathlib.Tactic.Common

/-!
# Order enumerations and the status machine

`app/core/enums.py` and `app/domain/order_state.py`.
-/
namespace Autotrading

inductive OrderType
  | market
  | limit
  | conditional
  deriving DecidableEq, Repr

inductive OrderStatus
  | pending
  | processing
  | requested
  | failed
  | accepted
  | partialFilled
  | filled
  | canceled
  | timeout
  deriving DecidableEq, Repr

inductive OrderAction
  | buy
  | sell
  | cancel
  | modify
  deriving DecidableEq, Repr

/-- The text stored for an action. -/
def OrderAction.value : OrderAction → String
  | buy => "buy"
  | sell => "sell"
  | cancel => "cancel"
  | modify => "modify"

inductive OrderKind
  | new
  | modify
  | cancel
  deriving DecidableEq, Repr

namespace OrderState

open OrderStatus

/-- `ALLOWED_TRANSITIONS.get(status, set())`: terminal states have no entry. -/
def allowedTransitions : OrderStatus → List OrderStatus
  | pending => [processing, failed]
  | processing => [requested, accepted, failed, pending]
  | requested => [requested, accepted, partialFilled, filled, canceled, failed, timeout]
  | accepted => [accepted, partialFilled, filled, canceled, failed, timeout]
  | partialFilled => [partialFilled, filled, canceled, failed, timeout]
  | _ => []

/-- `TERMINAL_STATES`. -/
def terminalStates : List OrderStatus := [filled, canceled, failed, timeout]

def canTransition (currentStatus nextStatus : OrderStatus) : Bool :=
  if currentStatus ∈ terminalStates then false
  else if currentStatus = nextStatus then true
  else decide (nextStatus ∈ allowedTransitions currentStatus)

abbrev Terminal (s : OrderStatus) : Prop := s ∈ terminalStates

theorem canTransition_self {s : OrderStatus} (h : ¬ Terminal s) : canTransition s s = true := by
  simp [canTransition, h]

/-- How far a status the tracking worker follows has come; the other statuses do
not occur on the way. -/
def progress : OrderStatus → ℕ
  | requested => 0
  | accepted => 1
  | partialFilled => 2
  | _ => 3

/-- `TRACKING_TARGET_STATUSES` of `tasks_order_status.py`. -/
def trackingTargetStatuses : List OrderStatus := [requested, accepted, partialFilled]

/-- `TERMINAL_STATUSES` of `tasks_order_status.py` lists the same four states. -/
def terminalStatuses : List OrderStatus := [failed, filled, canceled, timeout]

theorem mem_terminalStatuses (s : OrderStatus) : s ∈ terminalStatuses ↔ Terminal s := by
  cases s <;> simp [Terminal, terminalStatuses, terminalStates]

theorem not_terminal_of_tracked {s : OrderStatus} (h : s ∈ trackingTargetStatuses) :
    ¬ Terminal s := by
  cases s <;> simp_all [Terminal, trackingTargetStatuses, terminalStates]

/-- From a tracked status the machine moves to a tracked status that is at least
as far, or ends. -/
theorem canTransition_of_tracked {s s' : OrderStatus} (h : s ∈ trackingTargetStatuses)
    (h' : s' ∈ trackingTargetStatuses ∨ Terminal s') :
    canTransition s s' = true ↔ progress s ≤ progress s' := by
  cases s <;> cases s' <;>
    simp_all [Terminal, trackingTargetStatuses, canTransition, terminalStates, allowedTransitions,
      progress]

end OrderState

end Autotrading
