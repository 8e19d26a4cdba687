import Autotrading.Conduct

/-!
# The calls of worker 1

One walk through steps 3 and 4 and one through the whole of `_process_order`, for any
condition on calls that allows what they do.
-/
namespace Autotrading

open Prog OrderState OrderRepository

variable {l : Label} {h : Calls} {settings : Settings}

/-- The calls of steps 3 and 4: none of them writes a row or sends a message. -/
def Submits : Op → Prop
  | .accessToken => True
  | .getKillSwitch => True
  | .selectOrder _ => True
  | .post _ => True
  | _ => False

/-- Every call of the program is one of steps 3 and 4. -/
abbrev Submitting {α : Type} (h : Calls) (p : Program α) : Prop := Safe (fun _ o => Submits o) h p

theorem extractOrderSnapshot_nextStatus (r : OrderResponse) (qty : ℤ) :
    (ProcessOrder.extractOrderSnapshot r qty).nextStatus ∈
      [OrderStatus.requested, .accepted, .failed] := by
  simp only [ProcessOrder.extractOrderSnapshot]
  split_ifs <;> simp

namespace ProcessOrder

/-- The calls of steps 3 and 4 that only read. -/
def Reads : Op → Prop
  | .accessToken => True
  | .getKillSwitch => True
  | .selectOrder _ => True
  | _ => False

/-! ## Between the gate and the result -/

/-- A condition on calls that allows steps 3 and 4: calls that read, which keep `U`, and
then requests that repeat one, which keep `I`. -/
structure AllowsSubmission (Q : Calls → Op → Prop) (U : Calls → Prop)
    (I : BrokerRequest → Calls → Prop) : Prop where
  reads : ∀ h o, Reads o → U h → Q h o
  kept : ∀ h o n r, Reads o → U h → U (h ++ [(n, ⟨o, r⟩)])
  first : ∀ h request, U h → I request h
  post : ∀ h request, I request h → Q h (.post request)
  again : ∀ h request n r, I request h → I request (h ++ [(n, ⟨.post request, r⟩)])

section Submission
variable {Q : Calls → Op → Prop} {U : Calls → Prop} {I : BrokerRequest → Calls → Prop}
  (hQ : AllowsSubmission Q U I)

include hQ

theorem along_reads {o : Op} (ho : Reads o) (hu : U h) : Along Q (fun h' _ => U h') h (perform o) :=
  .perform (hQ.reads h o ho hu) fun n r => hQ.kept h o n r ho hu

theorem safe_orderCashAttempts {texts : KisOrder.CashTexts} {request : BrokerRequest} (n : ℕ)
    (hi : I request h) : Safe Q h (KisOrder.orderCashAttempts texts request n) := by
  induction n generalizing h with
  | zero => exact safe_raise _
  | succ n ih =>
    rw [KisOrder.orderCashAttempts]
    refine safe_perform_bind (hQ.post h request hi) fun k reply => ?_
    have hnext := hQ.again h request k (.ok reply) hi
    cases reply with
    | requestError e =>
      simp only
      split
      · exact safe_raise _
      · exact ih hnext
    | response statusCode body statusText =>
      simp only
      split
      · exact safe_pure _
      · split
        · exact safe_raise _
        · exact ih hnext

theorem safe_modifyOrderAttempts {request : BrokerRequest} (n : ℕ) (hi : I request h) :
    Safe Q h (KisOrder.modifyOrderAttempts request n) := by
  induction n generalizing h with
  | zero => exact safe_raise _
  | succ n ih =>
    rw [KisOrder.modifyOrderAttempts]
    refine safe_perform_bind (hQ.post h request hi) fun k reply => ?_
    have hnext := hQ.again h request k (.ok reply) hi
    cases reply with
    | requestError e =>
      simp only
      split
      · exact safe_raise _
      · exact ih hnext
    | response statusCode body statusText =>
      simp only
      split
      · refine safe_ofExcept_bind fun data _ => ?_
        split
        · exact safe_raise _
        · exact safe_ofExcept _
      · split
        · exact safe_raise _
        · exact safe_raise _

theorem safe_modifyOrderByCash {a b c d e f g q y : String} (hu : U h) :
    Safe Q h (KisOrder.modifyOrderByCash a b c d e f g q y) :=
  safe_ofExcept_bind fun _ _ => safe_modifyOrderAttempts hQ _ (hQ.first h _ hu)

omit hQ in
theorem safe_tradeDomesticStock {byCash : String → String → Program OrderResponse}
    {stockCode price : String} {orderType : OrderType} (hcash : ∀ mode p, Safe Q h (byCash mode p)) :
    Safe Q h (TradeService.tradeDomesticStock byCash stockCode orderType price) := by
  refine safe_ofExcept_bind fun _ _ => ?_
  refine Safe.bind (hcash _ _) fun h₁ response _ => ?_
  exact safe_ofExcept_bind fun _ _ => safe_pure _

theorem safe_checkOriginalOrder_bind {α : Type} {tag : String} {order : Order}
    {f : String × String × Bool → Program α} (hu : U h)
    (hf : ∀ h' checked, U h' → Safe Q h' (f checked)) :
    Safe Q h (checkOriginalOrder tag order >>= f) := by
  unfold checkOriginalOrder getOrderById
  rw [bind_assoc]
  refine safe_ofExcept_bind fun child _ => ?_
  rw [bind_assoc]
  refine (along_reads hQ (o := .selectOrder _) trivial hu).bind_safe fun h₁ original _ hu₁ => ?_
  rw [bind_assoc]
  exact safe_ofExcept_bind fun isFull _ => hf h₁ _ hu₁

theorem safe_sendOrder {order : Order} (hu : U h) :
    Safe Q h (sendOrder settings order) := by
  have hcash : ∀ {texts : KisOrder.CashTexts} {request : String → BrokerRequest} {p : String},
      Safe Q h (ofExcept (KisOrder.priceText p) >>= fun price =>
        KisOrder.orderCash texts (request price)) := by
    intro texts request p
    refine safe_ofExcept_bind fun price _ => ?_
    exact Safe.bind (safe_orderCashAttempts hQ _ (hQ.first h _ hu)) fun _ _ _ => safe_ofExcept _
  unfold sendOrder
  simp only
  split
  · split
    · exact safe_tradeDomesticStock fun mode p => hcash
    · exact safe_tradeDomesticStock fun mode p => hcash
    · exact safe_raise _
  · refine safe_checkOriginalOrder_bind hQ hu fun h' checked hu' => ?_
    exact safe_ofExcept_bind fun _ _ => safe_modifyOrderByCash hQ hu'
  · refine safe_checkOriginalOrder_bind hQ hu fun h' checked hu' => ?_
    exact safe_ofExcept_bind fun _ _ => safe_modifyOrderByCash hQ hu'

/-- Steps 3 and 4 keep to every condition that allows their calls. -/
theorem safe_submission {order : Order} (hu : U h) : Safe Q h (submission settings order) := by
  unfold submission checkKillSwitch KillSwitchService.isOn
  refine (along_reads hQ (o := .accessToken) trivial hu).bind_safe fun h₁ _ _ hu₁ => ?_
  simp only [bind_assoc]
  refine (along_reads hQ (o := .getKillSwitch) trivial hu₁).bind_safe fun h₂ value _ hu₂ => ?_
  have hon : Along Q (fun h' _ => U h') h₂ (pure (value == some "1") : Program Bool) :=
    (along_pure _).mpr hu₂
  refine hon.bind_safe fun h₃ on _ hu₃ => ?_
  split
  · exact safe_raise _
  · exact safe_sendOrder hQ hu₃

end Submission

theorem submitting_submission {order : Order} : Submitting h (submission settings order) := by
  have hallows : AllowsSubmission (fun _ o => Submits o) (fun _ => True) fun _ _ => True := by
    refine ⟨?_, fun _ _ _ _ _ _ => trivial, fun _ _ _ => trivial, fun _ _ _ => trivial,
      fun _ _ _ _ _ => trivial⟩
    intro h o ho _
    cases o
    all_goals first | exact trivial | exact ho.elim
  exact safe_submission hallows trivial

/-! ## The whole task -/

/-- The statement of step 6. -/
def resultUpdate (order : Order) (r : OrderResponse) : OrderUpdate :=
  let s := extractOrderSnapshot r order.orderQty
  ⟨order.id, some [.processing],
    .submit s.rtCd s.msgCd s.msg1 s.brokerOrgNo s.brokerOrderNo s.nextStatus (some s.remainingQty)⟩

/-- A condition on calls that allows `_process_order` for the order `id`. -/
structure AllowsProcessOrder (Q : Calls → Op → Prop) (settings : Settings) (id : OrderId) :
    Prop where
  read : ∀ h, Q h (.selectOrder (some id))
  rollback : ∀ h, Q h .rollback
  commit : ∀ h, Q h .commit
  gate : ∀ h order, Answered h (.selectOrder (some id)) (some order) →
    Q h (.updateOrder (gate order))
  submits : ∀ h order, Answered h (.selectOrder (some id)) (some order) →
    PastGate (.processOrder id) h →
      Safe Q h (submission settings ((ProcessOrder.gate order).refresh order))
  store : ∀ h order o r, Answered h (.selectOrder (some id)) (some order) → o.id = order.id →
    o.orderQty = order.orderQty → Q h (.updateOrder (resultUpdate o r))
  release : ∀ h order, Answered h (.selectOrder (some id)) (some order) →
    Q h (.updateOrder ⟨order.id, some [.processing], .status .pending⟩)
  again : ∀ h, Q h (.enqueue (.processOrder id) 60)
  track : ∀ h k, Q h (.enqueue (.processOrderStatus k 0 none) 0)

/-- Behind the gate a condition on the kinds of calls is enough for steps 3 and 4. -/
theorem safe_submission_of_submits {Q : Calls → Op → Prop} {order : Order}
    (hQ : ∀ h o, PastGate l h → Submits o → Q h o) (hpast : PastGate l h) :
    Safe Q h (submission settings order) :=
  submitting_submission.extends_calls.mono (fun h' o ho => hQ h' o (hpast.mono ho.1) ho.2)
    fun _ _ _ => trivial

section Task
variable {Q : Calls → Op → Prop} {id : OrderId} (hQ : AllowsProcessOrder Q settings id)

include hQ

theorem safe_storeResult {order o : Order} {r : OrderResponse}
    (hread : Answered h (.selectOrder (some id)) (some order)) (hid : o.id = order.id)
    (hqty : o.orderQty = order.orderQty) : Safe Q h (storeResult o r) := by
  unfold storeResult updateOrderSubmitResult
  simp only
  split
  · exact safe_perform (hQ.rollback h)
  · refine Safe.bind (safe_perform (hQ.store h order o r hread hid hqty)) fun h₁ updated _ => ?_
    split
    · exact safe_perform (hQ.rollback h₁)
    · split
      · exact safe_perform (hQ.track h₁ _)
      · exact safe_pure _

theorem safe_submitOrder {order : Order}
    (hread : Answered h (.selectOrder (some id)) (some order)) :
    Safe Q h (submitOrder settings order) := by
  unfold submitOrder updateOrderStatus
  refine safe_perform_bind (hQ.gate h order hread) fun n updated => ?_
  split
  · next hupdated =>
    subst hupdated
    have hpast : PastGate (.processOrder id)
        (h ++ [(n, ⟨.updateOrder (gate order), .ok true⟩)]) :=
      ⟨id, order, rfl, hread.append _, answered_append⟩
    have hsubmission : Safe Q (h ++ [(n, ⟨.updateOrder (gate order), .ok true⟩)])
        (submission settings ((gate order).refresh order)) :=
      hQ.submits _ order (hread.append _) hpast
    have hqty : ((gate order).refresh order).orderQty = order.orderQty := by
      unfold OrderUpdate.refresh
      split <;> simp
    refine Safe.bind hsubmission fun h₁ r hh₁ => ?_
    exact safe_storeResult hQ ((hread.append _).mono hh₁) (OrderUpdate.refresh_id _ _) hqty
  · exact safe_pure _

theorem safe_handleError {order : Option Order} {e : PyExc}
    (hread : ∀ o, order = some o → Answered h (.selectOrder (some id)) (some o)) :
    Safe Q h (handleError id order e) := by
  unfold handleError handleKisOrderError handleException
  simp only [updateOrderFailureResult_raises]
  split
  · refine Safe.bind (safe_perform (hQ.rollback h)) fun h₁ _ hh₁ => ?_
    split
    · refine Safe.bind ?_ fun h₂ _ _ => safe_perform (hQ.again h₂)
      cases order with
      | none => exact safe_perform (hQ.commit h₁)
      | some o =>
        exact Safe.bind (safe_perform (hQ.release h₁ o ((hread o rfl).mono hh₁))) fun _ _ _ =>
          safe_pure _
    · split
      · exact safe_raise _
      · exact safe_raise _
  · refine Safe.bind (safe_perform (hQ.rollback h)) fun h₁ _ _ => ?_
    split
    · exact safe_raise _
    · exact safe_raise _

/-- The task keeps to every condition that allows its calls. -/
theorem safe_processOrder : Safe Q h (processOrder settings id) := by
  unfold processOrder getOrderById
  refine (along_answered (hQ.read h)).attempt fun h' r _ hread => ?_
  cases r with
  | error e => exact safe_handleError hQ fun o ho => by cases ho
  | ok found =>
    cases found with
    | none => exact safe_pure _
    | some order =>
      have hid := hread _ rfl
      refine Safe.tryExcept (safe_submitOrder hQ hid) fun h₁ e hh₁ => ?_
      refine safe_handleError hQ fun o ho => ?_
      obtain rfl := Option.some.inj ho
      exact hid.mono hh₁

end Task

end ProcessOrder

end Autotrading
