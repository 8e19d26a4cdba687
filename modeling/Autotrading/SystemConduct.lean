import Autotrading.SystemCalls
import Autotrading.SubmissionConduct
import Autotrading.TrackingConduct

/-!
# The conduct of the system

The API, the rebalances, the recovery and the snapshot task, and from all of them
`program_conduct`.
-/
namespace Autotrading

open Prog OrderRepository

variable {l : Label} {h : Calls} {settings : Settings}

theorem conduct_recoverAllOrders : Safe (Conduct l) h Recovery.recoverAllOrders := by
  refine Recovery.safe_recoverAllOrders ⟨?_, ?_, ?_⟩
  · intro h o ho
    cases o
    all_goals first | exact trivial | exact ho.elim
  · exact fun h os o hread ho => Send.recovered hread ho
  · exact fun h id => Send.track

theorem conduct_captureRebalanceSnapshot (rid : RebalanceId) :
    Safe (Conduct (.captureRebalanceSnapshot rid)) h
      (PortfolioSnapshotService.captureRebalanceSnapshot rid) := by
  refine PortfolioSnapshotService.safe_captureRebalanceSnapshot ?_ ?_
  · intro h o ho
    cases o
    all_goals first | exact trivial | exact ho.elim
  · exact fun h s hs => ⟨rid, rfl, hs⟩

/-- An order that the API stores is queued when its request is no dry run. -/
theorem conduct_api (r : ApiRequest) : Safe (Conduct (.api r)) h (Label.apiProgram settings r) := by
  refine OrderRouter.safe_apiProgram ⟨?_, ?_, ?_⟩
  · intro h o ho
    cases o
    all_goals first | exact trivial | exact ho.elim
  · intro h o hmade o' ho'
    obtain rfl := List.mem_singleton.mp ho'
    exact ⟨rfl, hmade.drawn, hmade.pending, hmade.unfilled, fun _ => hmade.standalone⟩
  · exact fun h id hlive hdrawn => Send.drawn hdrawn hlive

/-- The orders of a rebalance, in every task of it. -/
theorem allows_orders {g : OrderGenerator} {plan : RebalancePlan} (htracks : l.tracks = none)
    (hid : l.rebalanceId = some plan.rebalanceId) (hlive : g.dryRun = false → l.dryRun = false) :
    g.Allows (Conduct l) plan where
  plain := by
    intro h o ho
    cases o
    all_goals first | exact trivial | exact ho.elim
  insert := by
    intro h r hr o ho
    obtain rfl := List.mem_singleton.mp ho
    refine ⟨htracks, hr.requested.1, rfl, rfl, fun _ => ?_⟩
    rw [OrderGenerator.orderRow, hr.requested.2, hid]
  cancel := by
    intro h os _ hos o ho
    obtain ⟨hdrawn, order, remaining, -, heq⟩ := hos o ho
    rw [heq] at hdrawn ⊢
    exact ⟨htracks, hdrawn, rfl, rfl, fun hk => absurd rfl hk⟩
  queue := fun h id hg hdrawn _ => Send.drawn hdrawn (hlive hg)
  cash := fun h => trivial

theorem conduct_rebalance {g : OrderGenerator} {plan : RebalancePlan} :
    Safe (Conduct (.rebalance g plan)) h (OrderGenerator.rebalance g plan) :=
  OrderGenerator.safe_rebalance (allows_orders rfl rfl fun hg => hg)

theorem allows_run {x : RebalanceRun} (htracks : l.tracks = none)
    (hid : l.rebalanceId = some x.rebalanceId) (hdry : l.dryRun = x.dryRun) :
    x.Allows (Conduct l) where
  plain := by
    intro h o ho
    cases o
    all_goals first | exact trivial | exact ho.elim
  cash := fun h => trivial
  orders := by
    intro hlive plan hplan
    exact allows_orders htracks (hid.trans (congrArg some hplan.symm)) fun _ => hdry.trans hlive

theorem conduct_runRebalance {x : RebalanceRun} :
    Safe (Conduct (.runRebalance x)) h (x.runRebalance settings) :=
  RebalanceRun.safe_runRebalance (RebalanceRun.safe_run (allows_run rfl rfl rfl) trivial)

theorem conduct_executeRebalance {x : RebalanceRun} {force : Bool} :
    Safe (Conduct (.executeRebalance x force)) [] (x.executeRebalance settings force) := by
  refine RebalanceRun.safe_executeRebalance ?_ (fun h _ =>
    RebalanceRun.safe_run (allows_run rfl rfl rfl) trivial) fun _ _ => trivial
  intro h o ho
  cases o
  all_goals first | exact trivial | exact ho.elim

/-! ## Every task -/

theorem program_conduct (l : Label) : Safe (Conduct l) [] (l.program settings) := by
  cases l with
  | api r => exact conduct_api r
  | rebalance g plan => exact conduct_rebalance
  | runRebalance x => exact conduct_runRebalance
  | executeRebalance x force => exact conduct_executeRebalance
  | processOrder id => exact conduct_processOrder id
  | processOrderStatus id attempt first => exact conduct_processOrderStatus id attempt first
  | captureRebalanceSnapshot rid => exact conduct_captureRebalanceSnapshot rid
  | recoverOrders => exact conduct_recoverAllOrders

end Autotrading
