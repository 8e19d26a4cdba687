import Autotrading.Conduct

/-!
# The calls of the other tasks

One walk each through the recovery, the snapshot task, the API and the rebalances, for any
condition on calls that allows what they do.
-/
namespace Autotrading

open Prog OrderRepository

variable {h h' : Calls} {settings : Settings}

/-! ## Recovery -/

namespace Recovery

/-- The calls of a recovery other than messages. -/
def Plain : Op → Prop
  | .acquireRecoveryLock => True
  | .releaseRecoveryLock => True
  | .recoverableSubmitOrders => True
  | .recoverableTrackingOrders => True
  | _ => False

/-- A condition on calls that allows a recovery. -/
structure Allows (Q : Calls → Op → Prop) : Prop where
  plain : ∀ h o, Plain o → Q h o
  submit : ∀ h os o, Answered h .recoverableSubmitOrders os → o ∈ os →
    Q h (.enqueue (.processOrder o.id) 0)
  track : ∀ h id, Q h (.enqueue (.processOrderStatus id 0 none) 0)

variable {Q : Calls → Op → Prop}

theorem safe_recoverSubmitOrders (hQ : Allows Q) : Safe Q h recoverSubmitOrders := by
  have hread := along_answered (hQ.plain h .recoverableSubmitOrders trivial)
  refine hread.bind_safe fun h₁ os _ hos => ?_
  refine safe_forEach fun o ho h₂ hh₂ => ?_
  exact safe_perform (hQ.submit h₂ os o ((hos os rfl).mono hh₂) ho)

theorem safe_recoverTrackingOrders (hQ : Allows Q) : Safe Q h recoverTrackingOrders := by
  refine Safe.bind (safe_perform (hQ.plain h .recoverableTrackingOrders trivial)) fun h₁ os _ => ?_
  exact safe_forEach fun o _ h₂ _ => safe_perform (hQ.track h₂ (some o.id))

theorem safe_recoverAllOrders (hQ : Allows Q) : Safe Q h recoverAllOrders := by
  unfold recoverAllOrders
  refine Safe.bind (safe_perform (hQ.plain h _ trivial)) fun h₁ acquired _ => ?_
  split
  · refine Safe.attempt ?_ fun h₂ _ _ => ?_
    · exact Safe.bind (safe_recoverSubmitOrders hQ) fun _ _ _ => safe_recoverTrackingOrders hQ
    · exact Safe.attempt (safe_perform (hQ.plain h₂ _ trivial)) fun _ _ _ => safe_ofExcept _
  · exact safe_pure _

end Recovery

/-! ## Snapshots -/

namespace PortfolioSnapshotService

/-- The calls of a capture other than the insert. -/
def Plain : Op → Prop
  | .snapshotIdByRebalance _ => True
  | .holdingList => True
  | .settlementCash => True
  | .uuid4 => True
  | .rollback => True
  | _ => False

theorem safe_captureRebalanceSnapshot {Q : Calls → Op → Prop} {rid : RebalanceId}
    (hplain : ∀ h o, Plain o → Q h o)
    (hinsert : ∀ h s, s.rebalanceId = some rid → Q h (.insertSnapshot s)) :
    Safe Q h (captureRebalanceSnapshot rid) := by
  refine Safe.tryExcept ?_ fun h₁ _ _ => safe_perform (hplain h₁ _ trivial)
  unfold capture
  refine Safe.bind (safe_perform (hplain h _ trivial)) fun h₁ existing _ => ?_
  split
  · refine Safe.bind (safe_perform (hplain h₁ _ trivial)) fun h₂ holdingsRaw _ => ?_
    refine Safe.bind (safe_perform (hplain h₂ _ trivial)) fun h₃ summary _ => ?_
    refine Safe.bind (safe_perform (hplain h₃ _ trivial)) fun h₄ snapshotId _ => ?_
    refine safe_ofExcept_bind fun cashAmount _ => ?_
    refine safe_ofExcept_bind fun holdings _ => ?_
    exact safe_perform (hinsert h₄ _ rfl)
  · exact safe_pure _

end PortfolioSnapshotService

/-! ## The API -/

namespace OrderRouter

/-- An order as the API stores it, under an id the task drew. -/
structure Made (h : Calls) (o : Order) : Prop where
  drawn : Answered h .uuid4 o.id
  pending : o.status = .pending
  unfilled : o.filledQty = 0
  standalone : o.rebalanceId = none
  quantity : 0 < o.orderQty
  remaining : o.remainingQty = o.orderQty

/-- The calls of the API other than inserts and messages. -/
def Plain : Op → Prop
  | .uuid4 => True
  | .selectOrder _ => True
  | .setKillSwitch _ => True
  | _ => False

/-- A condition on calls that allows a request. -/
structure Allows (Q : Calls → Op → Prop) (dryRun : Bool) : Prop where
  plain : ∀ h o, Plain o → Q h o
  insert : ∀ h o, Made h o → Q h (.insertOrders [o])
  queue : ∀ h id, dryRun = false → Answered h .uuid4 id → Q h (.enqueue (.processOrder id) 0)

theorem validateOrderRequest_quantity {stockCode : String} {quantity : ℤ} {orderType : OrderType}
    {price : ℚ} {a : Unit} (hv : validateOrderRequest stockCode quantity orderType price = .ok a) :
    0 < quantity := by
  by_contra hneg
  have hle : quantity ≤ 0 := by omega
  unfold validateOrderRequest at hv
  simp only [hle, if_true, bind, Except.bind, throw, throwThe, MonadExceptOf.throw] at hv
  split at hv <;> cases hv

theorem validateCancelRequest_quantity {quantity : ℤ} {a : Unit}
    (hv : validateCancelRequest quantity = .ok a) : 0 < quantity := by
  by_contra hneg
  rw [validateCancelRequest, if_pos (by omega)] at hv
  cases hv

theorem validateReviseRequest_quantity {quantity : ℤ} {orderType : OrderType} {price : ℚ} {a : Unit}
    (hv : validateReviseRequest quantity orderType price = .ok a) : 0 < quantity := by
  by_contra hneg
  have hle : quantity ≤ 0 := by omega
  unfold validateReviseRequest at hv
  simp only [hle, if_true, bind, Except.bind, throw, throwThe, MonadExceptOf.throw] at hv
  cases hv

section Traversal
variable {Q : Calls → Op → Prop} {dryRun : Bool} (hQ : Allows Q dryRun)

include hQ

theorem safe_createAndQueue {order : OrderId → Order}
    (horder : ∀ h' id, Answered h' .uuid4 id → (order id).id = id ∧ Made h' (order id)) :
    Safe Q h (createAndQueue order dryRun) := by
  unfold createAndQueue createOrder
  refine (along_answered (hQ.plain h .uuid4 trivial)).bind_safe fun h₁ id _ hdrawn => ?_
  obtain ⟨hid, hmade⟩ := horder h₁ id (hdrawn id rfl)
  refine Safe.bind (safe_perform (hQ.insert h₁ _ hmade)) fun h₂ _ hh₂ => ?_
  split
  · next hlive =>
    exact safe_perform (hQ.queue h₂ id (by simpa using hlive) ((hdrawn id rfl).mono hh₂))
  · exact safe_pure _

theorem safe_newDomesticStock {orderPos : OrderAction} {stockCode : String} {quantity : ℤ}
    {orderType : OrderType} {price : ℚ} :
    Safe Q h (newDomesticStock settings orderPos stockCode quantity orderType price dryRun) := by
  refine safe_ofExcept_bind fun _ hv => safe_createAndQueue hQ fun h₁ id hdrawn => ⟨rfl, ?_⟩
  exact ⟨hdrawn, rfl, rfl, rfl, validateOrderRequest_quantity hv, rfl⟩

theorem safe_childOrder {original : Order} {kind : OrderKind} {type : OrderType} {price : Option ℚ}
    {quantity : ℤ} (hpos : 0 < quantity) :
    Safe Q h (createAndQueue (childOrder original kind type price quantity) dryRun) :=
  safe_createAndQueue hQ fun _ _ hdrawn => ⟨rfl, hdrawn, rfl, rfl, rfl, hpos, rfl⟩

theorem safe_cancelDomesticStockOrder {orderId : OrderId} {quantity : ℤ} :
    Safe Q h (cancelDomesticStockOrder orderId quantity dryRun) := by
  refine safe_ofExcept_bind fun _ hv => ?_
  refine Safe.bind (safe_perform (hQ.plain h (.selectOrder _) trivial)) fun h₁ original _ => ?_
  split
  · exact safe_ofExcept_bind fun _ _ => safe_childOrder hQ (validateCancelRequest_quantity hv)
  · exact safe_raise _

theorem safe_reviseDomesticStockOrder {orderNo : OrderId} {quantity : ℤ} {orderType : OrderType}
    {price : ℚ} : Safe Q h (reviseDomesticStockOrder orderNo quantity orderType price dryRun) := by
  refine safe_ofExcept_bind fun _ hv => ?_
  refine Safe.bind (safe_perform (hQ.plain h (.selectOrder _) trivial)) fun h₁ original _ => ?_
  split
  · exact safe_ofExcept_bind fun _ _ => safe_childOrder hQ (validateReviseRequest_quantity hv)
  · exact safe_raise _

end Traversal

/-- A request keeps to every condition that allows its calls. -/
theorem safe_apiProgram {Q : Calls → Op → Prop} {r : ApiRequest} (hQ : Allows Q r.dryRun) :
    Safe Q h (Label.apiProgram settings r) := by
  cases r with
  | buy stockCode quantity orderType price dryRun => exact safe_newDomesticStock hQ
  | sell stockCode quantity orderType price dryRun => exact safe_newDomesticStock hQ
  | cancel orderId quantity dryRun => exact safe_cancelDomesticStockOrder hQ
  | revise orderNo quantity orderType price dryRun => exact safe_reviseDomesticStockOrder hQ
  | killSwitch enabled => exact safe_perform (hQ.plain h (.setKillSwitch _) trivial)

end OrderRouter

/-! ## Rebalances -/

namespace OrderGenerator
variable {g : OrderGenerator} {plan : RebalancePlan}

/-- A request for an order of the rebalance, under an id the task drew. -/
def Requested (rid : RebalanceId) (h : Calls) (r : OrderRequest) : Prop :=
  Answered h .uuid4 r.orderId ∧ r.rebalanceId = rid

theorem Requested.mono {rid : RebalanceId} {r : OrderRequest} (hr : Requested rid h r)
    (hh : h <+: h') : Requested rid h' r := ⟨hr.1.mono hh, hr.2⟩

/-- A request as `_create_order_request` and `_recalculate_buy_orders` make it. -/
structure Made (rid : RebalanceId) (h : Calls) (r : OrderRequest) : Prop where
  requested : Requested rid h r
  quantity : 0 < r.quantity

theorem Made.mono {rid : RebalanceId} {r : OrderRequest} (hr : Made rid h r) (hh : h <+: h') :
    Made rid h' r := ⟨hr.requested.mono hh, hr.quantity⟩

/-- A cancel order as `_cancel_unfilled_orders` makes it. -/
structure CancelMade (h : Calls) (o : Order) : Prop where
  drawn : Answered h .uuid4 o.id
  made : ∃ order remaining, 0 < remaining ∧ o = cancelOrderOf order remaining o.id

theorem CancelMade.mono {o : Order} (ho : CancelMade h o) (hh : h <+: h') : CancelMade h' o :=
  ⟨ho.drawn.mono hh, ho.made⟩

/-- The last call stored the order: as a row, or as a cancel order that is flushed. -/
inductive JustStored (id : OrderId) : Calls → Prop
  | inserted (h n o) (hid : o.id = id) : JustStored id (h ++ [(n, ⟨.insertOrders [o], .ok ()⟩)])
  | flushed (h n o) (hid : o.id = id) (cancel : o.orderKind = .cancel) :
      JustStored id (h ++ [(n, ⟨.flushOrder o, .ok ()⟩)])

/-- The calls of a rebalance other than inserts, messages and the look at its cash. -/
def Plain : Op → Prop
  | .uuid4 => True
  | .now => True
  | .ordersByIds _ => True
  | .flushOrder _ => True
  | _ => False

/-- A conduct that allows what a rebalance does apart from inserting new orders and looking
at its cash. -/
structure AllowsWait (Q : Calls → Op → Prop) (g : OrderGenerator) : Prop where
  plain : ∀ h o, Plain o → Q h o
  cancel : ∀ h os, g.dryRun = false → (∀ o ∈ os, CancelMade h o) → Q h (.insertOrders os)
  queue : ∀ h id, g.dryRun = false → Answered h .uuid4 id → JustStored id h →
    Q h (.enqueue (.processOrder id) 0)

/-- A conduct that allows what a rebalance does. -/
structure Allows (Q : Calls → Op → Prop) (g : OrderGenerator) (plan : RebalancePlan) : Prop
    extends AllowsWait Q g where
  insert : ∀ h r, Made plan.rebalanceId h r → Q h (.insertOrders [orderRow g r])
  cash : ∀ h, Q h .availableBuy

section Wait
variable {Q : Calls → Op → Prop} (hQ : AllowsWait Q g)

include hQ

theorem along_uuid4 : Along Q (fun h' r => ∀ id, r = .ok id → Answered h' .uuid4 id) h
    (Op.perform .uuid4) := along_answered (hQ.plain h .uuid4 trivial)

theorem along_createOrderRequest {action : OrderAction} {item : PositionDiffItem} :
    Along Q (fun h' r => ∀ y, r = .ok (some y) → Made plan.rebalanceId h' y) h
      (createOrderRequest g plan.rebalanceId action item) := by
  unfold createOrderRequest
  split
  · rw [along_pure]
    rintro y ⟨⟩
  · next hqty =>
    refine (along_uuid4 hQ).bind ?_ (by rintro _ _ _ _ _ ⟨⟩)
    intro h₁ orderId _ hdrawn
    rw [along_pure]
    rintro y ⟨⟩
    exact ⟨⟨hdrawn orderId rfl, rfl⟩, Int.not_le.mp hqty⟩

theorem along_recalculateBuyOrder {alloc : ℚ} {code : String} :
    Along Q (fun h' r => ∀ y, r = .ok (some y) → Made plan.rebalanceId h' y) h
      (recalculateBuyOrder g plan alloc code) := by
  have hnone : Along Q (fun h' r => ∀ y, r = .ok (some y) → Made plan.rebalanceId h' y) h
      (pure none : Program (Option OrderRequest)) := by
    rw [along_pure]
    rintro y ⟨⟩
  unfold recalculateBuyOrder
  simp only
  split
  · exact hnone
  · split
    · exact hnone
    · next hqty =>
      refine (along_uuid4 hQ).bind ?_ (by rintro _ _ _ _ _ ⟨⟩)
      intro h₁ orderId _ hdrawn
      rw [along_pure]
      rintro y ⟨⟩
      exact ⟨⟨hdrawn orderId rfl, rfl⟩, Int.not_le.mp hqty⟩

theorem safe_insertAndQueue {r : OrderRequest} (hr : Made plan.rebalanceId h r)
    (hinsert : Q h (.insertOrders [orderRow g r])) : Safe Q h (insertAndQueue g r) := by
  unfold insertAndQueue createOrder
  refine safe_perform_bind hinsert fun n _ => ?_
  split
  · next hlive =>
    refine safe_perform (hQ.queue _ _ (by simpa using hlive) ?_ (.inserted _ _ _ rfl))
    exact hr.requested.1.mono (List.prefix_append _ _)
  · exact safe_pure _

theorem along_cancelUnfilledOrder {order : Order} (hlive : g.dryRun = false) :
    Along Q (fun h' r => ∀ o, r = .ok (some o) → CancelMade h' o) h (cancelUnfilledOrder order) := by
  unfold cancelUnfilledOrder
  extract_lets remaining
  split
  · rw [along_pure]
    rintro o ⟨⟩
  · next hopen =>
    rw [not_or, Int.not_le] at hopen
    refine (along_uuid4 hQ).bind ?_ (by rintro _ _ _ _ _ ⟨⟩)
    intro h₁ id _ hdrawn
    have hflush : Along Q (fun h' r => r = .ok () → JustStored id h') h₁
        (Op.perform (.flushOrder (cancelOrderOf order remaining id))) := by
      refine .perform (hQ.plain h₁ (.flushOrder _) trivial) ?_
      rintro n r rfl
      exact .flushed _ _ _ rfl rfl
    refine hflush.bind ?_ (by rintro _ _ _ _ _ ⟨⟩)
    intro h₂ _ hh₂ hstored
    have hsend : Safe Q h₂ (Op.perform (.enqueue (.processOrder id) 0)) :=
      safe_perform (hQ.queue h₂ id hlive ((hdrawn id rfl).mono hh₂) (hstored rfl))
    refine Along.bind hsend ?_ (by rintro _ _ _ _ _ ⟨⟩)
    intro h₃ _ hh₃ _
    rw [along_pure]
    rintro o ⟨⟩
    exact ⟨(hdrawn id rfl).mono (hh₂.trans hh₃), order, remaining, hopen.2, rfl⟩

theorem safe_cancelUnfilledOrders {ids : List OrderId} (hlive : g.dryRun = false) :
    Safe Q h (cancelUnfilledOrders ids) := by
  unfold cancelUnfilledOrders
  refine Safe.bind (safe_perform (hQ.plain h _ trivial)) fun h₁ rows _ => ?_
  have hcollect : Along Q (fun h' r => ∀ os, r = .ok os → ∀ o ∈ os, CancelMade h' o) h₁
      (collect cancelUnfilledOrder rows) :=
    along_collect (fun _ _ _ hh ho => ho.mono hh) fun _ _ _ _ => along_cancelUnfilledOrder hQ hlive
  refine hcollect.bind_safe fun h₂ cancelOrders _ hos => ?_
  exact Safe.bind (safe_perform (hQ.cancel h₂ _ hlive (hos _ rfl))) fun _ _ _ => safe_pure _

theorem safe_finishTimeout {ids : List OrderId} {result : FillResult} (hlive : g.dryRun = false) :
    Safe Q h (finishTimeout ids result) := by
  unfold finishTimeout
  refine Safe.bind (safe_perform (hQ.plain h _ trivial)) fun h₁ rows _ => ?_
  simp only
  split
  · exact safe_pure _
  · exact Safe.bind (safe_cancelUnfilledOrders hQ hlive) fun _ _ _ => safe_pure _

theorem safe_pollFills {ids : List OrderId} {start : Instant} {result : FillResult} (n : ℕ)
    (hlive : g.dryRun = false) : Safe Q h (pollFills g ids start n result) := by
  induction n generalizing h result with
  | zero => exact safe_raise _
  | succ n ih =>
    rw [pollFills]
    refine Safe.bind (safe_perform (hQ.plain h _ trivial)) fun h₁ now _ => ?_
    split
    · exact safe_finishTimeout hQ hlive
    · refine Safe.bind (safe_perform (hQ.plain h₁ _ trivial)) fun h₂ rows _ => ?_
      refine Safe.bind (safe_ofExcept _) fun h₃ result' _ => ?_
      split
      · exact safe_pure _
      · exact ih

theorem safe_waitForFills {ids : List OrderId} {polls : ℕ} (hlive : g.dryRun = false) :
    Safe Q h (waitForFills g ids polls) := by
  unfold waitForFills
  exact Safe.bind (safe_perform (hQ.plain h _ trivial)) fun _ _ _ => safe_pollFills hQ _ hlive

theorem along_recalculateBuyOrders {cash : ℤ} :
    Along Q (fun h' r => ∀ ys, r = .ok ys → ∀ y ∈ ys, Made plan.rebalanceId h' y) h
      (recalculateBuyOrders g plan cash) := by
  unfold recalculateBuyOrders
  simp only
  split
  · rw [along_pure]
    rintro ys ⟨⟩ y hy
    cases hy
  · exact along_collect (fun _ _ _ hh hr => hr.mono hh) fun _ _ _ _ =>
      along_recalculateBuyOrder hQ

theorem along_generateOrders (plan : RebalancePlan) :
    Along Q (fun h' r => ∀ s b, r = .ok (s, b) →
        (∀ y ∈ s, Made plan.rebalanceId h' y) ∧ ∀ y ∈ b, Made plan.rebalanceId h' y) h
      (generateOrders g plan) := by
  have hcollect : ∀ (h : Calls) action items, Along Q
      (fun h' r => ∀ ys, r = .ok ys → ∀ y ∈ ys, Made plan.rebalanceId h' y) h
      (collect (createOrderRequest g plan.rebalanceId action) items) := by
    intro h action items
    exact along_collect (fun _ _ _ hh hr => hr.mono hh) fun _ _ _ _ => along_createOrderRequest hQ
  unfold generateOrders
  refine (hcollect h .sell plan.diff.sellList).bind ?_ (by rintro _ _ _ _ _ _ ⟨⟩)
  intro h₁ sells _ hsells
  refine (hcollect h₁ .buy plan.diff.buyList).bind ?_ (by rintro _ _ _ _ _ _ ⟨⟩)
  intro h₂ buys hh₂ hbuys
  rw [along_pure]
  rintro s b ⟨⟩
  exact ⟨fun y hy => (hsells _ rfl y hy).mono hh₂, hbuys _ rfl⟩

end Wait

section Traversal
variable {Q : Calls → Op → Prop} (hQ : Allows Q g plan)

include hQ

theorem safe_submitPhase {orders : List OrderRequest} {polls : ℕ}
    (hr : ∀ r ∈ orders, Made plan.rebalanceId h r) : Safe Q h (submitPhase g orders polls) := by
  unfold submitPhase
  refine Safe.bind ?_ fun h₁ _ _ => ?_
  · refine safe_forEach fun r hmem h₁ hh₁ => ?_
    have hmade := (hr r hmem).mono hh₁
    exact safe_insertAndQueue hQ.toAllowsWait hmade (hQ.insert h₁ r hmade)
  · split
    · next hwait =>
      exact Safe.bind (safe_waitForFills hQ.toAllowsWait hwait.2) fun _ _ _ => safe_pure _
    · exact safe_pure _

theorem safe_submitOrders {sells buys : List OrderRequest}
    (hs : ∀ r ∈ sells, Made plan.rebalanceId h r) (hb : ∀ r ∈ buys, Made plan.rebalanceId h r) :
    Safe Q h (submitOrders g plan sells buys) := by
  unfold submitOrders getActualCash
  refine Safe.bind (safe_submitPhase hQ hs) fun h₁ _ hh₁ => ?_
  split
  · refine Safe.bind (Safe.tryExcept (safe_perform (hQ.cash h₁)) fun _ _ _ =>
      safe_pure _) fun h₂ cash _ => ?_
    exact (along_recalculateBuyOrders hQ.toAllowsWait).bind_safe fun h₃ ys _ hys =>
      safe_submitPhase hQ (hys ys rfl)
  · exact safe_submitPhase hQ fun r hr => (hb r hr).mono hh₁

/-- A rebalance keeps to every conduct that allows its calls. -/
theorem safe_rebalance : Safe Q h (OrderGenerator.rebalance g plan) := by
  refine (along_generateOrders hQ.toAllowsWait plan).bind_safe fun h₁ orders _ hr => ?_
  exact safe_submitOrders hQ (hr _ _ rfl).1 (hr _ _ rfl).2

end Traversal

end OrderGenerator

/-! ## Runs of a rebalance -/

namespace RebalanceRun

/-- The calls of a run after its strategy, other than those of its orders and the looks at its
cash. -/
def Plain : Op → Prop
  | .holdingList => True
  | .flushRebalance _ _ => True
  | .completeRebalance _ => True
  | .failRebalance _ _ => True
  | .rebalanceAlert _ _ _ => True
  | _ => False

/-- The calls of the automatic task in front of its run. -/
def Gate : Op → Prop
  | .getKillSwitch => True
  | .acquireRebalanceLock ttlSeconds => ttlSeconds = rebalanceLockTtlSeconds
  | .lastCompletedRebalance => True
  | .now => True
  | .rebalanceInMonth _ => True
  | _ => False

/-- A conduct that allows what a run does after its strategy. -/
structure Allows (Q : Calls → Op → Prop) (x : RebalanceRun) : Prop where
  plain : ∀ h o, Plain o → Q h o
  cash : ∀ h, Q h .availableBuy
  orders : x.dryRun = false → ∀ plan : RebalancePlan, plan.rebalanceId = x.rebalanceId →
    x.executor.orderGenerator.Allows Q plan

section End
variable {Q : Calls → Op → Prop} {x : RebalanceRun}

theorem safe_fail {soFar : RebalanceResult} {broken : Bool} {e : PyExc}
    (hfail : ∀ h msg, Q h (.failRebalance x.rebalanceId msg))
    (halert : ∀ h msg, Q h (.rebalanceAlert x.rebalanceId false msg)) :
    Safe Q h (x.fail soFar broken e) := by
  have htell : ∀ h', Safe Q h' (do
      Op.perform (.rebalanceAlert x.rebalanceId false e.text)
      pure { soFar with errorMessage := e.text } : Program RebalanceResult) := by
    intro h'
    exact Safe.bind (safe_perform (halert h' _)) fun _ _ _ => safe_pure _
  unfold fail
  split
  · split
    · refine Safe.bind (Safe.tryExcept (safe_perform (hfail h _)) fun _ e' _ => ?_)
        fun h₁ _ _ => htell h₁
      split
      · exact safe_pure _
      · exact safe_raise _
    · exact htell h
  · exact safe_raise _

theorem safe_succeed {soFar : RebalanceResult}
    (halert : Q h (.rebalanceAlert x.rebalanceId true "")) : Safe Q h (x.succeed soFar) :=
  Safe.bind (safe_perform halert) fun _ _ _ => safe_pure _

end End

theorem along_generate {Q : Calls → Op → Prop} {x : RebalanceRun} {d : DiffResult}
    (hflush : Q h (.flushRebalance x.rebalanceId x.dryRun))
    (hwait : x.executor.orderGenerator.AllowsWait Q) :
    Along Q (fun h' r => ∀ s b, r = .ok (s, b) →
        (∀ y ∈ s, OrderGenerator.Made x.rebalanceId h' y) ∧
          ∀ y ∈ b, OrderGenerator.Made x.rebalanceId h' y) h (x.generate d) := by
  refine Along.bind (safe_perform hflush) (fun h₁ _ _ _ => ?_) (by rintro _ _ _ _ _ _ ⟨⟩)
  exact OrderGenerator.along_generateOrders hwait (x.plan d)

theorem safe_positionDiff {Q : Calls → Op → Prop} {x : RebalanceRun}
    (hholdings : Q h .holdingList) (hcash : ∀ h, Q h .availableBuy) : Safe Q h x.positionDiff := by
  unfold positionDiff
  refine Safe.bind (safe_perform hholdings) fun h₁ holdingsRaw _ => ?_
  refine safe_ofExcept_bind fun currentHoldings _ => ?_
  exact Safe.bind (safe_perform (hcash h₁)) fun _ _ _ => safe_pure _

section Run
variable {Q : Calls → Op → Prop} {x : RebalanceRun} {aborts : PyExc → Bool} (hQ : x.Allows Q)

include hQ

theorem safe_submitAndComplete {d : DiffResult} {sells buys : List OrderRequest}
    (hlive : x.dryRun = false) (hs : ∀ r ∈ sells, OrderGenerator.Made x.rebalanceId h r)
    (hb : ∀ r ∈ buys, OrderGenerator.Made x.rebalanceId h r) :
    Safe Q h (x.submitAndComplete d sells buys) :=
  Safe.bind (OrderGenerator.safe_submitOrders (hQ.orders hlive (x.plan d) rfl) hs hb)
    fun h₁ _ _ => safe_perform (hQ.plain h₁ _ trivial)

theorem safe_submit : Safe Q h (x.submit aborts) := by
  unfold submit
  refine Safe.watch_bind (safe_positionDiff (hQ.plain h _ trivial) hQ.cash) fun h₁ broken outcome _ => ?_
  cases outcome with
  | error e => exact safe_fail (fun _ _ => hQ.plain _ _ trivial) fun _ _ => hQ.plain _ _ trivial
  | ok d =>
    cases hdry : x.dryRun with
    | true => exact safe_pure _
    | false =>
      have hwait := (hQ.orders hdry (x.plan d) rfl).toAllowsWait
      have hgenerate := along_generate (d := d) (hQ.plain h₁ (.flushRebalance x.rebalanceId x.dryRun) trivial)
        hwait
      refine Along.watch_bind hgenerate fun h₂ broken outcome _ hmade => ?_
      cases outcome with
      | error e => exact safe_fail (fun _ _ => hQ.plain _ _ trivial) fun _ _ => hQ.plain _ _ trivial
      | ok orders =>
        obtain ⟨hs, hb⟩ := hmade _ _ rfl
        refine Safe.watch_bind (safe_submitAndComplete hQ hdry hs hb) fun h₃ broken outcome _ => ?_
        cases outcome with
        | error e => exact safe_fail (fun _ _ => hQ.plain _ _ trivial) fun _ _ => hQ.plain _ _ trivial
        | ok _ => exact safe_succeed (hQ.plain _ _ trivial)

theorem safe_run (hstrategy : Q h .executeStrategy) : Safe Q h (x.run aborts) :=
  Safe.bind (safe_perform hstrategy) fun _ _ _ => safe_submit hQ

end Run

/-! ## The entries of a rebalance -/

/-- The route runs the rebalance and nothing else. -/
theorem safe_runRebalance {Q : Calls → Op → Prop} {x : RebalanceRun}
    (hrun : Safe Q h (x.run settings.aborts)) : Safe Q h (x.runRebalance settings) :=
  Safe.bind hrun fun _ _ _ => safe_pure _

/-- The calls with which the automatic task comes to the check of the month: the kill switch
is off, the lock is taken, and the window after the last rebalance is open. -/
inductive Due (settings : Settings) : Calls → Prop
  | mk {n₀ n₁ n₂ n₃ switch last now} (off : switch ≠ some "1")
      (due : (window settings last).decide now = .runRebalance) :
      Due settings [(n₀, ⟨.getKillSwitch, .ok switch⟩),
        (n₁, ⟨.acquireRebalanceLock rebalanceLockTtlSeconds, .ok true⟩),
        (n₂, ⟨.lastCompletedRebalance, .ok (some last)⟩), (n₃, ⟨.now, .ok now⟩)]

/-- The calls with which the automatic task comes to its run. -/
inductive Gated (settings : Settings) : Bool → Calls → Prop
  | forced {h₀} (due : Due settings h₀) : Gated settings true h₀
  | checked {h₀ n m now} (due : Due settings h₀) :
      Gated settings false (h₀ ++ [(n, ⟨.now, .ok now⟩)] ++
        [(m, ⟨.rebalanceInMonth (yearAndMonth (kstDate now)), .ok false⟩)])

section Gates
variable {Q : Calls → Op → Prop} {x : RebalanceRun} {force : Bool}
  (hgate : ∀ h o, Gate o → Q h o)
  (hrun : ∀ h, Gated settings force h → Safe Q h (x.run settings.aborts))

include hgate

theorem along_alreadyDone (hdue : Due settings h) :
    Along Q (fun h' r => r = .ok false → Gated settings force h') h (alreadyDone force) := by
  unfold alreadyDone
  cases force with
  | true =>
    simp only [if_pos, along_pure]
    exact fun _ => .forced hdue
  | false =>
    rw [if_neg (by simp)]
    have hclock : Along Q (fun h' r => ∀ now, r = .ok now → ∃ n,
        h' = h ++ [(n, ⟨.now, .ok now⟩)]) h (Op.perform .now) := by
      refine .perform (hgate h .now trivial) ?_
      rintro n r now rfl
      exact ⟨n, rfl⟩
    refine hclock.bind ?_ (by rintro _ _ _ _ ⟨⟩)
    intro h₁ now _ hnow
    obtain ⟨n, rfl⟩ := hnow now rfl
    refine .perform (hgate _ (.rebalanceInMonth _) trivial) ?_
    rintro m r rfl
    exact .checked hdue

include hrun

theorem safe_executeUnderLock {n₀ n₁ switch} (off : switch ≠ some "1") :
    Safe Q [(n₀, ⟨.getKillSwitch, .ok switch⟩),
      (n₁, ⟨.acquireRebalanceLock rebalanceLockTtlSeconds, .ok true⟩)]
      (x.executeUnderLock settings force) := by
  unfold executeUnderLock
  refine safe_perform_bind (hgate _ _ trivial) fun n₂ last => ?_
  cases last with
  | none => exact safe_pure _
  | some lastExecutedAt =>
    refine safe_perform_bind (hgate _ _ trivial) fun n₃ now => ?_
    split
    · next hdue =>
      refine (along_alreadyDone hgate (.mk off hdue)).bind_safe fun h₁ done _ hdone => ?_
      cases done with
      | true => exact safe_pure _
      | false =>
        have hgated := hdone rfl
        refine Safe.tryExcept (Safe.bind (hrun h₁ hgated) fun _ _ _ => safe_pure _) fun _ e _ => ?_
        split
        · exact safe_pure _
        · exact safe_raise _
    · exact safe_pure _

/-- The automatic task makes the calls of its gates, and those of a run that is past them, and
releases the lock that it took. -/
theorem safe_executeRebalance
    (hrelease : ∀ h, Answered h (.acquireRebalanceLock rebalanceLockTtlSeconds) true →
      Q h .releaseRebalanceLock) : Safe Q [] (x.executeRebalance settings force) := by
  unfold executeRebalance KillSwitchService.isOn
  rw [Prog.bind_assoc]
  refine safe_perform_bind (hgate _ _ trivial) fun n₀ switch => ?_
  by_cases hon : switch = some "1"
  · simp only [hon]
    exact safe_pure _
  · have hoff : (switch == some "1") = false := by simp [hon]
    simp only [hoff]
    refine safe_perform_bind (hgate _ _ rfl) fun n₁ acquired => ?_
    cases acquired with
    | false => exact safe_pure _
    | true =>
      refine Safe.attempt (safe_executeUnderLock hgate hrun hon) fun h₂ outcome hh₂ => ?_
      have hlocked : Answered h₂ (.acquireRebalanceLock rebalanceLockTtlSeconds) true :=
        answered_append.mono hh₂
      exact Safe.attempt (safe_perform (hrelease h₂ hlocked)) fun _ _ _ => safe_ofExcept _

end Gates

end RebalanceRun

end Autotrading
