import Autotrading.SubmissionCalls

/-!
# The conduct of worker 1

`_process_order` keeps to `Conduct`.
-/
namespace Autotrading

open Prog OrderState OrderRepository

variable {h : Calls} {settings : Settings}

/-- Behind the gate the calls of steps 3 and 4 keep to the conduct. -/
theorem conduct_of_submits {l : Label} {o : Op} (hg : PastGate l h) (ho : Submits o) :
    Conduct l h o := by
  cases o
  case post r => exact hg
  all_goals trivial

theorem conduct_processOrder (id : OrderId) :
    Safe (Conduct (.processOrder id)) h (ProcessOrder.processOrder settings id) := by
  refine ProcessOrder.safe_processOrder ?_
  constructor
  case read => exact fun h => trivial
  case rollback => exact fun h => trivial
  case commit => exact fun h => trivial
  case gate => exact fun h order hread => Write.gate hread
  case submits =>
    intro h order _ hpast
    exact ProcessOrder.safe_submission_of_submits (fun h o hg ho => conduct_of_submits hg ho) hpast
  case release => exact fun h order hread => Write.release hread
  case again => exact fun h => Send.again
  case track => exact fun h k => Send.track
  case store =>
    intro h order o r hread hid _
    show Write (.processOrder id) h _
    rw [ProcessOrder.resultUpdate, hid]
    exact .submit hread (extractOrderSnapshot_nextStatus r o.orderQty)

end Autotrading
