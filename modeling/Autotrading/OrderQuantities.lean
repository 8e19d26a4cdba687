import Autotrading.BrokerReports
import Autotrading.TrackingCalls

/-!
# The quantities of an order

Six writers set `filled_qty`, `remaining_qty` or both: the insert, the result of worker 1,
the two statements of worker 2 that store a snapshot, and the two on a parent, which are
never issued. Each stores quantities that lie within `order_qty`, from stale reads too:
`order_qty` never changes, and a snapshot takes both quantities from one source.
-/
namespace Autotrading

open Machine Prog OrderState OrderRepository TrackingSnapshot
open Machine.Sys (start)

variable {settings : Settings} {h h' : Calls} {l : Label}

/-! ## What the tasks store -/

/-- Inserted rows have a remainder within their order, and worker 1 stores nothing or all
of the order it read as its remainder. -/
def Sized (h : Calls) : Op → Prop
  | .insertOrders os => ∀ o ∈ os, 0 ≤ o.remainingQty ∧ o.remainingQty ≤ o.orderQty
  | .updateOrder u => ∀ rtCd msgCd msg1 brokerOrgNo brokerOrderNo nextStatus remainingQty,
      u.set = .submit rtCd msgCd msg1 brokerOrgNo brokerOrderNo nextStatus remainingQty →
      ∃ id order, Answered h (.selectOrder id) (some order) ∧ order.id = u.id ∧
        (remainingQty = some 0 ∨ remainingQty = some order.orderQty)
  | _ => True

theorem sized_of_submits {o : Op} (ho : Submits o) : Sized h o := by
  cases o
  case insertOrders os => exact ho.elim
  case updateOrder u => exact ho.elim
  all_goals trivial

theorem extractOrderSnapshot_remainingQty (r : OrderResponse) (qty : ℤ) :
    (ProcessOrder.extractOrderSnapshot r qty).remainingQty = 0 ∨
      (ProcessOrder.extractOrderSnapshot r qty).remainingQty = qty := by
  simp only [ProcessOrder.extractOrderSnapshot]
  split_ifs <;> simp

theorem sized_processOrder (id : OrderId) :
    Safe Sized h (ProcessOrder.processOrder settings id) := by
  have hstatus : ∀ {h' : Calls} {u : OrderUpdate} {status : OrderStatus}, u.set = .status status →
      Sized h' (.updateOrder u) := by
    intro h' u status hset rtCd msgCd msg1 brokerOrgNo brokerOrderNo nextStatus remainingQty hsubmit
    rw [hset] at hsubmit
    cases hsubmit
  refine ProcessOrder.safe_processOrder ?_
  constructor
  case gate => exact fun h order _ => hstatus rfl
  case release => exact fun h order _ => hstatus rfl
  case submits =>
    intro h order _ hpast
    exact ProcessOrder.safe_submission_of_submits (fun _ _ _ ho => sized_of_submits ho) hpast
  case store =>
    intro h order o r hread hid hqty rtCd msgCd msg1 brokerOrgNo brokerOrderNo nextStatus
      remainingQty hset
    obtain rfl : some (ProcessOrder.extractOrderSnapshot r o.orderQty).remainingQty = remainingQty := by
      injection hset
    refine ⟨some id, order, hread, hid.symm, ?_⟩
    rw [← hqty, Option.some.injEq, Option.some.injEq]
    exact extractOrderSnapshot_remainingQty r o.orderQty
  all_goals intros; trivial

theorem sized_api (r : ApiRequest) : Safe Sized h (Label.apiProgram settings r) := by
  refine OrderRouter.safe_apiProgram ⟨?_, ?_, ?_⟩
  · intro h o ho
    cases o
    all_goals first | exact trivial | exact ho.elim
  · intro h o hmade o' ho'
    obtain rfl := List.mem_singleton.mp ho'
    rw [hmade.remaining]
    exact ⟨hmade.quantity.le, le_rfl⟩
  · exact fun h id hlive hdrawn => trivial

theorem allows_sized {g : OrderGenerator} {plan : RebalancePlan} : g.Allows Sized plan where
  plain := by
    intro h o ho
    cases o
    all_goals first | exact trivial | exact ho.elim
  insert := by
    intro h r hr o ho
    obtain rfl := List.mem_singleton.mp ho
    exact ⟨le_rfl, hr.quantity.le⟩
  cancel := by
    intro h os hlive hos o ho
    obtain ⟨-, order, remaining, hpos, heq⟩ := hos o ho
    rw [heq]
    exact ⟨le_rfl, hpos.le⟩
  queue := fun h id hlive hdrawn hstored => trivial
  cash := fun h => trivial

theorem allows_sized_run {x : RebalanceRun} : x.Allows Sized := by
  refine ⟨fun h o ho => ?_, fun h => trivial, fun _ plan _ => allows_sized⟩
  cases o
  all_goals first | exact trivial | exact ho.elim

theorem sized_executeRebalance {x : RebalanceRun} {force : Bool} :
    Safe Sized [] (x.executeRebalance settings force) := by
  refine RebalanceRun.safe_executeRebalance ?_
    (fun h _ => RebalanceRun.safe_run allows_sized_run trivial) fun _ _ => trivial
  intro h o ho
  cases o
  all_goals first | exact trivial | exact ho.elim

/-- Worker 2 inserts nothing and stores no result of worker 1. -/
theorem sized_of_follows (h : Calls) (o : Op) (ho : ProcessOrderStatus.Follows o) : Sized h o := by
  cases o
  case insertOrders os => exact ho.elim
  case updateOrder u =>
    intro rtCd msgCd msg1 brokerOrgNo brokerOrderNo nextStatus remainingQty hset
    have hstores : ProcessOrderStatus.storesSubmission u.set = false := ho
    rw [hset] at hstores
    cases hstores
  all_goals trivial

/-- No capture writes the table of orders. -/
theorem sized_captureRebalanceSnapshot (rid : RebalanceId) :
    Safe Sized h (PortfolioSnapshotService.captureRebalanceSnapshot rid) := by
  refine PortfolioSnapshotService.safe_captureRebalanceSnapshot ?_ fun h s hs => trivial
  intro h o ho
  cases o
  all_goals first | exact trivial | exact ho.elim

/-- Nor does a recovery. -/
theorem sized_recoverAllOrders : Safe Sized h Recovery.recoverAllOrders := by
  refine Recovery.safe_recoverAllOrders ⟨?_, fun h os o _ _ => trivial, fun h id => trivial⟩
  intro h o ho
  cases o
  all_goals first | exact trivial | exact ho.elim

theorem program_sized (l : Label) : Safe Sized [] (l.program settings) := by
  cases l with
  | api r => exact sized_api r
  | rebalance g plan => exact OrderGenerator.safe_rebalance allows_sized
  | runRebalance x => exact RebalanceRun.safe_runRebalance (RebalanceRun.safe_run allows_sized_run trivial)
  | executeRebalance x force => exact sized_executeRebalance
  | processOrder id => exact sized_processOrder id
  | processOrderStatus id attempt first =>
    exact ProcessOrderStatus.safe_processOrderStatus sized_of_follows (fun _ _ _ _ _ => trivial)
      id attempt first fun _ _ _ => trivial
  | captureRebalanceSnapshot rid => exact sized_captureRebalanceSnapshot rid
  | recoverOrders => exact sized_recoverAllOrders

/-! ## The invariant -/

/-- The quantities of an order lie within it. -/
structure Order.Balanced (o : Order) : Prop where
  filledQty : 0 ≤ o.filledQty
  remainingQty : 0 ≤ o.remainingQty
  within : o.filledQty + o.remainingQty ≤ o.orderQty

/-- Before its submission an order has no fill. -/
def Order.Unsubmitted (o : Order) : Prop := o.status ∈ [.pending, .processing] → o.filledQty = 0

/-- A row that accounts for no more shares than were ordered. -/
structure Accounts (q : RowQuantities) : Prop where
  orderQty : 0 ≤ q.orderQty
  remainingQty : 0 ≤ q.remainingQty
  cancelConfirmQty : 0 ≤ q.cancelConfirmQty
  rejectedQty : 0 ≤ q.rejectedQty
  within : q.remainingQty + q.cancelConfirmQty + q.rejectedQty ≤ q.orderQty

instance (q : RowQuantities) : Decidable (Accounts q) :=
  decidable_of_iff (0 ≤ q.orderQty ∧ 0 ≤ q.remainingQty ∧ 0 ≤ q.cancelConfirmQty ∧
    0 ≤ q.rejectedQty ∧ q.remainingQty + q.cancelConfirmQty + q.rejectedQty ≤ q.orderQty)
    ⟨fun ⟨a, b, c, d, e⟩ => ⟨a, b, c, d, e⟩, fun ⟨a, b, c, d, e⟩ => ⟨a, b, c, d, e⟩⟩

/-- The order of this id is stored with this `order_qty`. -/
def StoredQty (w : World) (id : OrderId) (qty : ℤ) : Prop :=
  ∃ r, w.orders.get? id = some r ∧ r.orderQty = qty

/-- Every row that the event tells a cycle accounts for the quantity its order is stored
with. -/
def ReportsStored (env : Env) (s : System) (e : Event) : Prop :=
  ∀ id q, Told env id s e q → Accounts q ∧ StoredQty s.state id q.orderQty

variable {env : Env} {s s' : System} {e : Event} {w : World}

/-- No event removes a row or changes its `order_qty`. -/
theorem StoredQty.change {id : OrderId} {qty : ℤ} (h : StoredQty s.state id qty)
    (hs : Sound env s) (hc : Change (autotrading settings env) s e s') :
    StoredQty s'.state id qty := by
  obtain ⟨r, hr, hqty⟩ := h
  rcases row_change hs hc hr with hkeep | ⟨i, t, u, hw⟩
  · exact ⟨r, hkeep, hqty⟩
  · exact ⟨_, hw.row, (SetClause.apply_orderQty _ _).trans hqty⟩

/-- Stored orders, orders read and rows told all keep to the quantity ordered. -/
structure Weighed (env : Env) (s : System) : Prop where
  sound : Sound env s
  sized : Obeys (fun _ => Sized) s
  stored : ∀ k r, s.state.orders.get? k = some r → r.Balanced ∧ r.Unsubmitted
  read : Known (fun w _ => World.ReadOf fun o => o.Balanced ∧ StoredQty w o.id o.orderQty) s
  reported : ∀ id q, q ∈ reports s id → Accounts q ∧ StoredQty s.state id q.orderQty

/-- Two quantities stored for one order are the same. -/
theorem StoredQty.eq {id : OrderId} {qty : ℤ} {r : Order} (h : StoredQty w id qty)
    (hr : w.orders.get? id = some r) : r.orderQty = qty := by
  obtain ⟨r', hr', hqty⟩ := h
  obtain rfl := Option.some.inj (hr.symm.trans hr')
  exact hqty

/-- What a row accounts for lies within the order. -/
theorem Accounts.within_order {q : RowQuantities} (h : Accounts q) :
    q.filledQty + q.remainingQty ≤ q.orderQty := by
  have hwithin := h.within
  have hremaining := h.remainingQty
  have hcancel := h.cancelConfirmQty
  have hrejected := h.rejectedQty
  unfold RowQuantities.filledQty
  omega

/-- A statement that keeps the quantities keeps the balance, where an order that goes
back to its submission comes from there. -/
theorem Order.Balanced.kept {r : Order} {u : OrderUpdate} (hr : r.Balanced ∧ r.Unsubmitted)
    (hfilled : (u.set.apply r).filledQty = r.filledQty)
    (hremaining : (u.set.apply r).remainingQty = r.remainingQty)
    (hback : u.set.nextStatus ∈ [.pending, .processing] → r.status ∈ [.pending, .processing]) :
    (u.set.apply r).Balanced ∧ (u.set.apply r).Unsubmitted := by
  have hqty := u.set.apply_orderQty r
  refine ⟨⟨?_, ?_, ?_⟩, ?_⟩
  · rw [hfilled]
    exact hr.1.filledQty
  · rw [hremaining]
    exact hr.1.remainingQty
  · rw [hfilled, hremaining, hqty]
    exact hr.1.within
  · intro hstatus
    rw [SetClause.apply_status] at hstatus
    rw [hfilled]
    exact hr.2 (hback hstatus)

/-- The quantities of a snapshot that a task stores lie within the order stored. -/
theorem Weighed.snapshot (h : Weighed env s) {t : Task} (ht : t ∈ s.tasks) {id : Option OrderId}
    {attempt : ℕ} {first : Option Instant} (hl : t.label = .processOrderStatus id attempt first)
    {order : Order} {n : ℕ} {snapshot : Snapshot}
    (hmade : Snapshotted t.history id order n snapshot) {r : Order}
    (hr : s.state.orders.get? order.id = some r) :
    0 ≤ snapshot.result.filledQty ∧ 0 ≤ snapshot.result.remainingQty ∧
      snapshot.result.filledQty + snapshot.result.remainingQty ≤ r.orderQty := by
  obtain ⟨k, hread⟩ := hmade.read
  obtain ⟨hbalanced, hstored⟩ := h.read t ht _ hread
  rcases hmade.quantities with ⟨hfilled, hremaining⟩ | ⟨x, hx, q, htold, hfilled, hremaining⟩
  · have hqty := hstored.eq hr
    have hwithin := hbalanced.within
    rw [hfilled, hremaining]
    exact ⟨hbalanced.filledQty, hbalanced.remainingQty, by omega⟩
  · have htracks : t.label.tracks = some order.id := by
      rw [hl]
      exact h.sound.read_id ht hmade.read
    obtain ⟨haccounts, hqty⟩ :=
      h.reported order.id q (mem_reports.mpr ⟨t, ht, htracks, x, hx, htold⟩)
    have hrow := hqty.eq hr
    have hwithin := haccounts.within_order
    rw [hfilled, hremaining]
    exact ⟨q.filledQty_nonneg, haccounts.remainingQty, by omega⟩

/-- A status that a tracked order goes to is not one before the submission. -/
theorem submitted_of_tracked {status next : OrderStatus} (htracked : status ∈ trackingTargetStatuses)
    (hallowed : canTransition status next = true) : next ∉ [OrderStatus.pending, .processing] := by
  cases status <;> cases next <;> simp_all [trackingTargetStatuses, canTransition, terminalStates,
    allowedTransitions]

/-- Every statement of a task leaves the row it selects balanced. -/
theorem Weighed.write (h : Weighed env s) {i : ℕ} {t : Task} {u : OrderUpdate}
    (hi : s.tasks[i]? = some t) {k} (hp : t.prog = .call (.updateOrder u) k) {r : Order}
    (hr : s.state.orders.get? u.id = some r) (hsel : u.selects r = true) :
    (u.set.apply r).Balanced ∧ (u.set.apply r).Unsubmitted := by
  have ht := List.mem_of_getElem? hi
  have hrow := h.stored u.id r hr
  have hstatus := (OrderUpdate.selects_iff.mp hsel).2
  have hsized := h.sized.call hi hp
  have hw := h.sound.write hi hp
  -- a snapshot brings both quantities, and an order that is tracked stays submitted
  have hsnapshot : ∀ {id attempt first order n snapshot}, t.label = .processOrderStatus id attempt first →
      Snapshotted t.history id order n snapshot → u.id = order.id → ∀ r' : Order,
      r'.filledQty = snapshot.result.filledQty → r'.remainingQty = snapshot.result.remainingQty →
      r'.orderQty = r.orderQty → r'.status ∉ [OrderStatus.pending, .processing] →
      r'.Balanced ∧ r'.Unsubmitted := by
    intro id attempt first order n snapshot hl hmade hid r' hfilled hremaining hqty hnext
    rw [hid] at hr
    obtain ⟨hf, hm, hwithin⟩ := h.snapshot ht hl hmade hr
    rw [← hfilled] at hf hwithin
    rw [← hremaining] at hm hwithin
    rw [← hqty] at hwithin
    exact ⟨⟨hf, hm, hwithin⟩, fun hback => absurd hback hnext⟩
  generalize hl : t.label = l at hw
  cases hw with
  | gate read =>
    refine Order.Balanced.kept hrow rfl rfl fun _ => ?_
    rw [List.mem_singleton.mp (hstatus _ rfl)]
    simp
  | release read =>
    refine Order.Balanced.kept hrow rfl rfl fun _ => ?_
    rw [List.mem_singleton.mp (hstatus _ rfl)]
    simp
  | fail read =>
    refine Order.Balanced.kept hrow rfl rfl fun hback => ?_
    simp [SetClause.nextStatus] at hback
  | track made =>
    refine hsnapshot hl made rfl _ rfl rfl rfl ?_
    exact submitted_of_tracked made.tracked made.allowed
  | timeout made =>
    refine hsnapshot hl made rfl _ rfl rfl rfl ?_
    rw [SetClause.apply_status]
    simp [trackingUpdate, ProcessOrderStatus.timeoutResult, SetClause.nextStatus]
  | @submit id h' order rtCd msgCd msg1 brokerOrgNo brokerOrderNo nextStatus remainingQty read next =>
    have hunfilled : r.filledQty = 0 := hrow.2 (by simp [hstatus _ rfl])
    obtain ⟨id', order', ⟨m, hread⟩, hid, hremaining⟩ := hsized _ _ _ _ _ _ _ rfl
    obtain ⟨-, hstored⟩ := h.read t ht _ hread
    rw [hid] at hstored
    have hqty := hstored.eq hr
    have hwithin := hrow.1.within
    have hopen := hrow.1.remainingQty
    have hnext : nextStatus ∉ [OrderStatus.pending, .processing] := by
      revert next
      cases nextStatus <;> simp
    rcases hremaining with rfl | rfl
    · refine ⟨⟨?_, ?_, ?_⟩, fun hback => absurd hback hnext⟩ <;> simp [SetClause.apply] <;> omega
    · refine ⟨⟨?_, ?_, ?_⟩, fun hback => absurd hback hnext⟩ <;> simp [SetClause.apply] <;> omega

theorem Weighed.change (h : Weighed env s) (htold : ReportsStored env s e)
    (hc : Change (autotrading settings env) s e s') : Weighed env s' where
  sound := h.sound.change hc
  sized := h.sized.change program_sized hc
  stored := by
    intro k r hr
    cases hold : s.state.orders.get? k with
    | none =>
      obtain ⟨i, t, os, o, -, hi, ⟨kont, hp⟩, hmem, hins, rfl⟩ := row_new h.sound hc hold hr
      obtain ⟨hremaining, hwithin⟩ := h.sized.call hi hp o hmem
      have hfilled := hins.unfilled
      refine ⟨⟨?_, hremaining, ?_⟩, fun _ => hfilled⟩
      · show 0 ≤ o.filledQty
        omega
      · show o.filledQty + o.remainingQty ≤ o.orderQty
        omega
    | some r₀ =>
      rcases row_change h.sound hc hold with hkeep | ⟨i, t, u, hw⟩
      · obtain rfl := Option.some.inj (hkeep.symm.trans hr)
        exact h.stored k _ hold
      · obtain rfl := Option.some.inj (hw.row.symm.trans hr)
        obtain ⟨kont, hp⟩ := hw.prog
        have hid := (OrderUpdate.selects_iff.mp hw.selects).1
        rw [← KeyedTable.key_of_get? hold, hid] at hold
        exact h.write hw.task hp hold hw.selects
  read := by
    refine h.read.change hc ?_ ?_
    · intro l x hx
      exact hx.mono fun o ho => ⟨ho.1, ho.2.change h.sound hc⟩
    · intro i t o k he hi hp
      have hc' := Change.stepped (m := autotrading settings env) i t o k hi hp
      have hrows : ∀ k r, s.state.orders.get? k = some r →
          r.Balanced ∧ StoredQty s.state r.id r.orderQty := by
        intro k r hr
        refine ⟨(h.stored k r hr).1, r, ?_, rfl⟩
        rwa [KeyedTable.key_of_get? hr]
      have hread : World.ReadOf (fun r => r.Balanced ∧ StoredQty s.state r.id r.orderQty)
          (s.state.tick, ⟨o, (World.handle env o s.state).1⟩) :=
        World.readOf_handle hrows s.state.tick o
      exact hread.mono fun r hr => ⟨hr.1, hr.2.change h.sound hc'⟩
  reported := by
    intro id q hq
    rcases reports_change hc hq with hq | hq
    · obtain ⟨haccounts, hqty⟩ := h.reported id q hq
      exact ⟨haccounts, hqty.change h.sound hc⟩
    · obtain ⟨haccounts, hqty⟩ := htold id q hq
      exact ⟨haccounts, hqty.change h.sound hc⟩

theorem weighed_start (hw : ∀ k r, w.orders.get? k = some r → r.Balanced ∧ r.Unsubmitted) :
    Weighed env (start w) where
  sound := sound_start w
  sized := by intro t ht; cases ht
  stored := hw
  read := by intro t ht; cases ht
  reported := by intro id q hq; cases hq

/-- Whatever the tasks do, in any order: as long as the broker accounts for the quantities
stored, no order is ever stored with a negative quantity or with more shares filled and
remaining than were ordered. -/
theorem quantities_within_order (settings : Settings) (env : Env) {w : World}
    (hw : ∀ k r, w.orders.get? k = some r → r.Balanced ∧ r.Unsubmitted) {es : List Event}
    (hes : Meets (autotrading settings env) (ReportsStored env) (start w) es) {k : OrderId}
    {r : Order} (hr : ((autotrading settings env).run (start w) es).state.orders.get? k = some r) :
    0 ≤ r.filledQty ∧ 0 ≤ r.remainingQty ∧ r.filledQty + r.remainingQty ≤ r.orderQty := by
  have hweighed : Weighed env ((autotrading settings env).run (start w) es) :=
    hes.invariant (fun s e s' h htold hc => h.change htold hc) (weighed_start hw)
  have hbalanced := (hweighed.stored k r hr).1
  exact ⟨hbalanced.filledQty, hbalanced.remainingQty, hbalanced.within⟩

/-! ## A run -/

/-- The order that the task of a step tracks. -/
def tracking (s : System) : Event → Option OrderId
  | .step i => s.tasks[i]?.bind fun t => t.label.tracks
  | _ => none

theorem reportsStored_iff : ReportsStored env s e ↔ ∀ id ∈ tracking s e, ∀ q ∈ told? env id s e,
    Accounts q ∧ (s.state.orders.get? id).any (fun r => r.orderQty = q.orderQty) = true := by
  have hstored : ∀ id qty, StoredQty s.state id qty ↔
      (s.state.orders.get? id).any (fun r => r.orderQty = qty) = true := by
    intro id qty
    simp [StoredQty, Option.any_eq_true]
  constructor
  · intro h id _ q hq
    obtain ⟨haccounts, hqty⟩ := h id q (told_iff.mpr hq)
    exact ⟨haccounts, (hstored id _).mp hqty⟩
  · intro h id q hq
    have htracking : tracking s e = some id := by
      obtain ⟨i, t, o, k, rfl, ht, htracks, -, -⟩ := hq
      simp [tracking, ht, htracks]
    obtain ⟨haccounts, hqty⟩ := h id htracking q (told_iff.mp hq)
    exact ⟨haccounts, (hstored id _).mpr hqty⟩

instance (env : Env) (s : System) (e : Event) : Decidable (ReportsStored env s e) :=
  decidable_of_iff _ reportsStored_iff.symm

/-- The broker reports order 1 as filled in part. -/
def fillingInPart : Env :=
  { Env.quiet with
    get := fun _ _ => ExecutionAnswer.ofRows [⟨"91252", "7", "10", "4", "0", "0", "100", "6"⟩] }

/-- Order 1 is open and worker 2 is to track it. -/
def openOrder : World := .holding [Order.sample 1 .accepted] [.processOrderStatus (some 1) 0 none]

/-- One cycle of order 1. -/
def partialFill : List Event :=
  .launch (.processOrderStatus (some 1) 0 none) :: List.replicate 12 (.step 0)

theorem balanced_openOrder (k : OrderId) (r : Order) (hr : openOrder.orders.get? k = some r) :
    r.Balanced ∧ r.Unsubmitted := by
  have hrows : openOrder.orders.rows = [Order.sample 1 .accepted] := by decide +kernel
  have hmem := (KeyedTable.get?_eq_some.mp hr).1
  rw [hrows] at hmem
  obtain rfl := List.mem_singleton.mp hmem
  refine ⟨⟨?_, ?_, ?_⟩, fun hback => ?_⟩
  · decide
  · decide
  · decide
  · rfl

theorem quantities_within_order_sample :
    ∃ r, ((autotrading .sample fillingInPart).run (start openOrder)
        partialFill).state.orders.get? 1 = some r ∧ r.filledQty = 6 ∧
      0 ≤ r.filledQty ∧ 0 ≤ r.remainingQty ∧ r.filledQty + r.remainingQty ≤ r.orderQty := by
  have hfill : (((autotrading .sample fillingInPart).run (start openOrder)
      partialFill).state.orders.get? 1).any (fun r => r.filledQty = 6) = true := by decide +kernel
  obtain ⟨r, hr, hfilled⟩ := (Option.any_eq_true _ _).mp hfill
  exact ⟨r, hr, by simpa using hfilled,
    quantities_within_order .sample fillingInPart balanced_openOrder (by decide +kernel) hr⟩

end Autotrading
