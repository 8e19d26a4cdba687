import Autotrading.OrderQuantities

/-!
# Fills that were never executed

The broker reports the executed quantity of an order beside its other quantities. Worker 2 does
not read it: it takes what is left of the ordered quantity when remainder, confirmed cancels and
rejects are taken away.
-/
namespace Autotrading

open Machine Prog OrderState OrderRepository TrackingSnapshot
open Machine.Sys (start)

variable {settings : Settings} {env : Env}

/-- The row that carries the order number asked for. -/
def reportedItem (request : ExecutionsRequest) :
    HttpReply ExecutionAnswer → Option DailyOrderExecutionItem
  | .response statusCode body _ =>
    match KisOrder.parseExecutions body with
    | .ok answer =>
      if KisOrder.is2xx statusCode then answer.output1.bind (matchedRow request.odno) else none
    | .error _ => none
  | .requestError _ => none

/-- The row that a call was told of its order. -/
def toldItem : Entry → Option DailyOrderExecutionItem
  | (_, ⟨.get request, .ok reply⟩) => reportedItem request reply
  | _ => none

/-- The quantity filled that the statement stores as a tracking result. -/
def trackedFill : SetClause → Option ℤ
  | .tracking _ _ _ _ _ filledQty _ _ _ => some filledQty
  | _ => none

/-- The quantity filled that the call stored as a tracking result. -/
def storedFill : Entry → Option ℤ
  | (_, ⟨.updateOrder u, .ok true⟩) => trackedFill u.set
  | _ => none

/-! ## Rows and fills -/

theorem fetches_of_toldItem {x : Entry} {row : DailyOrderExecutionItem} (h : toldItem x = some row) :
    fetches x = true := by
  obtain ⟨n, o, r⟩ := x
  cases o
  case get request =>
    cases r with
    | error e => cases h
    | ok reply =>
      cases reply with
      | requestError e => cases h
      | response statusCode body text =>
        simp only [toldItem, reportedItem] at h
        split at h
        · split at h
          · next hstatus => exact hstatus
          · cases h
        · cases h
  all_goals cases h

/-- A snapshot of an answer that has a row of the order takes its fill from the row. -/
theorem Snapshotted.toldItem {h : Calls} {id : Option OrderId} {order : Order} {n : ℕ}
    {snapshot : Snapshot} (hs : Snapshotted h id order n snapshot) :
    ∃ x ∈ h, fetches x = true ∧ ∀ row, Autotrading.toldItem x = some row →
      ∃ q, rowQuantities row = .ok q ∧ snapshot.result.filledQty = q.filledQty := by
  obtain ⟨answer, hasChildOrders, ⟨code, body, text, hmem, hstatus, hparse⟩, hsnap⟩ := hs.derived
  refine ⟨_, hmem, hstatus, fun row htold => ?_⟩
  have hmatched : answer.output1.bind (matchedRow order.brokerOrderNo) = some row := by
    have hitem := htold
    simp only [Autotrading.toldItem, reportedItem, hparse, hstatus, if_true] at hitem
    exact hitem
  obtain ⟨output1, hout, hcases⟩ := extractOrderTrackingSnapshot_cases hsnap
  rw [hout, Option.bind_some] at hmatched
  rcases hcases with ⟨hnone, -⟩ | ⟨row', q, hrow', hq, rfl⟩
  · rw [hnone] at hmatched
    cases hmatched
  · obtain rfl := Option.some.inj (hrow'.symm.trans hmatched)
    exact ⟨q, hq, rfl⟩

/-- A tracking statement stores the fill of the snapshot. -/
theorem Write.trackedFill {l : Label} {h : Calls} {u : OrderUpdate} {filled : ℤ}
    (hw : Write l h u) (hfill : Autotrading.trackedFill u.set = some filled) :
    ∃ id order n snapshot, Snapshotted h id order n snapshot ∧
      snapshot.result.filledQty = filled := by
  cases hw with
  | gate => cases hfill
  | release => cases hfill
  | submit => cases hfill
  | fail => cases hfill
  | track made => exact ⟨_, _, _, _, made, Option.some.inj hfill⟩
  | timeout made => exact ⟨_, _, _, _, made, Option.some.inj hfill⟩

/-- The fill that a cycle stores is the difference of the quantities of the row it was told. -/
theorem Sound.storedFill {s : System} (hs : Sound env s) {t : Task} (ht : t ∈ s.tasks)
    {row : DailyOrderExecutionItem} {filled : ℤ} (hrow : row ∈ t.history.filterMap toldItem)
    (hfill : filled ∈ t.history.filterMap Autotrading.storedFill) :
    ∃ q, rowQuantities row = .ok q ∧ filled = q.filledQty := by
  obtain ⟨x, hx, htold⟩ := List.mem_filterMap.mp hrow
  obtain ⟨⟨n, o, r⟩, hy, hstored⟩ := List.mem_filterMap.mp hfill
  cases o
  case updateOrder u =>
    have hset : Autotrading.trackedFill u.set = some filled := by
      unfold Autotrading.storedFill at hstored
      split at hstored
      · next u' heq =>
        obtain ⟨hop, -⟩ := Sigma.mk.inj (Prod.mk.inj heq).2
        obtain rfl := Op.updateOrder.inj hop
        exact hstored
      · cases hstored
    obtain ⟨h₁, h₂, hsplit⟩ := List.append_of_mem hy
    have hwrite : Write t.label h₁ u := hs.recorded t ht h₁ _ h₂ hsplit
    obtain ⟨id, order, m, snapshot, hmade, hfilled⟩ := hwrite.trackedFill hset
    obtain ⟨z, hz, hfetches, hitem⟩ := hmade.toldItem
    have hzt : z ∈ t.history := by
      rw [hsplit]
      exact List.mem_append_left _ hz
    -- a cycle is answered once
    have hsame : z = x := hs.fetched_once ht hzt hx hfetches (fetches_of_toldItem htold)
    rw [hsame] at hitem
    obtain ⟨q, hq, hqty⟩ := hitem row htold
    exact ⟨q, hq, hfilled.symm.trans hqty⟩
  all_goals cases hstored

/-! ## Stored fills and executed quantities -/

/-- Whatever the tasks do, in any order: the fill that a cycle stores for the row it was told
exceeds the executed quantity of the row unless every other share that was ordered is among the
row's remaining, cancelled and rejected ones. -/
theorem stored_fill_le_executed_iff (settings : Settings) (env : Env) (w : World) (es : List Event)
    {t : Task} (ht : t ∈ ((autotrading settings env).run (start w) es).tasks)
    {row : DailyOrderExecutionItem} {filled : ℤ} (hrow : row ∈ t.history.filterMap toldItem)
    (hfill : filled ∈ t.history.filterMap storedFill) :
    ∃ q, rowQuantities row = .ok q ∧ ∀ executed, quantity row.totCcldQty = .ok executed →
      (filled ≤ executed ↔ 0 ≤ executed ∧
        q.orderQty - q.remainingQty - q.cancelConfirmQty - q.rejectedQty ≤ executed) := by
  obtain ⟨q, hq, rfl⟩ := (sound_run settings env w es).storedFill ht hrow hfill
  refine ⟨q, hq, fun executed _ => ?_⟩
  rw [RowQuantities.filledQty, max_le_iff, and_comm]

/-- One cycle for order 1, in surroundings in which the broker reports this row. -/
def cycleTold (row : DailyOrderExecutionItem) : System :=
  (autotrading .sample { Env.quiet with get := fun _ _ => ExecutionAnswer.ofRows [row] }).run
    (start openOrder) partialFill

/-- Six of ten shares are executed and four are left. -/
theorem stored_fill_le_executed_iff_sample :
    ∃ q, rowQuantities ⟨"91252", "7", "10", "4", "0", "0", "100", "6"⟩ = .ok q ∧
      ∀ executed, quantity "6" = .ok executed → ((6 : ℤ) ≤ executed ↔ 0 ≤ executed ∧
        q.orderQty - q.remainingQty - q.cancelConfirmQty - q.rejectedQty ≤ executed) := by
  have hcycle : ((cycleTold ⟨"91252", "7", "10", "4", "0", "0", "100", "6"⟩).tasks[0]?.any fun t =>
      ⟨"91252", "7", "10", "4", "0", "0", "100", "6"⟩ ∈ t.history.filterMap toldItem &&
        6 ∈ t.history.filterMap storedFill) = true := by decide +kernel
  obtain ⟨t, ht, htask⟩ := (Option.any_eq_true _ _).mp hcycle
  rw [Bool.and_eq_true, decide_eq_true_iff, decide_eq_true_iff] at htask
  exact stored_fill_le_executed_iff .sample _ openOrder partialFill (List.mem_of_getElem? ht) htask.1
    htask.2

/-- The open quantity of an order has moved to the number of its revision: nothing was executed,
and ten shares are stored as filled. -/
theorem moved_quantity_filled :
    let row : DailyOrderExecutionItem := ⟨"91252", "7", "10", "0", "0", "0", "0", "0"⟩
    quantity row.totCcldQty = .ok 0 ∧
      (∃ t ∈ (cycleTold row).tasks, row ∈ t.history.filterMap toldItem ∧
        10 ∈ t.history.filterMap storedFill) ∧
      ((cycleTold row).state.orders.get? 1).any
        (fun r => r.filledQty = 10 && r.status = .filled) = true := by
  decide +kernel


end Autotrading
