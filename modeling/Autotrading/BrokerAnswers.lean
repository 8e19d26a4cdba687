import Autotrading.OrderRetries
import Autotrading.StrandedOrders

/-!
# What the answers to an order request come to

Steps 3 and 4 of `_process_order` by the answers they got: a cash order comes to what
its last answer says, a revision or a cancel to what its first one says.
-/
namespace Autotrading.ProcessOrder

open Prog KisOrder

variable {settings : Settings} {env : Env} {w : World} {order : Order} {α β : Type}

/-- What the client and the service make of the last answer to a cash order. -/
def cashResult (texts : CashTexts) (reply : HttpReply OrderAnswer) : Except PyExc OrderResponse := do
  let body ← cashOutcome texts reply
  let response ← parseOrderCash texts body
  TradeService.orderDatetime response.output
  pure response

/-- A run that has sent these requests, the last of them with an answer that decides its
result as `decide` says. -/
structure Sent (env : Env) (decide : HttpReply OrderAnswer → Except PyExc α) (w : World)
    (result : Except PyExc α × World) (attempts : List (BrokerRequest × HttpOutcome)) : Prop where
  requests : result.2.requests = w.requests ++ attempts
  retried : ∀ a ∈ attempts.dropLast, answered a.2.reply = false
  last : ∀ a, attempts.getLast? = some a → answered a.2.reply = true ∨ PostsUp env →
    result.1 = decide a.2.reply

theorem sent_nothing {decide : HttpReply OrderAnswer → Except PyExc α}
    {result : Except PyExc α × World} (h : result.2.requests = w.requests) :
    Sent env decide w result [] where
  requests := by simp [h]
  retried := by simp
  last := by simp

/-- A computation without calls behind the requests. -/
theorem Sent.bind_ofExcept {decide : HttpReply OrderAnswer → Except PyExc α} {p : Program α}
    {attempts : List (BrokerRequest × HttpOutcome)} (f : α → Except PyExc β)
    (h : Sent env decide w (run (World.handle env) p w) attempts) :
    Sent env (fun reply => decide reply >>= f) w
      (run (World.handle env) (p >>= fun a => ofExcept (f a)) w) attempts := by
  have hrun : run (World.handle env) (p >>= fun a => ofExcept (f a)) w =
      ((run (World.handle env) p w).1 >>= f, (run (World.handle env) p w).2) := by
    rw [run_bind]
    rcases run (World.handle env) p w with ⟨r, w'⟩
    cases r with
    | error e => rfl
    | ok a => simp only [run_ofExcept]; rfl
  rw [hrun]
  refine ⟨h.requests, h.retried, fun a ha hlast => ?_⟩
  rw [h.last a ha hlast]

/-- Calls that are no requests in front. -/
theorem sent_bind {decide : HttpReply OrderAnswer → Except PyExc β} {p : Program α}
    {f : α → Program β} (hp : (run (World.handle env) p w).2.requests = w.requests)
    (hf : ∀ a w', w'.requests = w.requests →
      ∃ attempts, Sent env decide w' (run (World.handle env) (f a) w') attempts) :
    ∃ attempts, Sent env decide w (run (World.handle env) (p >>= f) w) attempts := by
  rw [run_bind]
  rcases hrun : run (World.handle env) p w with ⟨r, w'⟩
  rw [hrun] at hp
  cases r with
  | error e => exact ⟨[], sent_nothing hp⟩
  | ok a =>
    obtain ⟨attempts, hsent⟩ := hf a w' hp
    refine ⟨attempts, ?_, hsent.retried, hsent.last⟩
    rw [hsent.requests, hp]

theorem sent_orderCash (env : Env) (texts : CashTexts) (request : BrokerRequest) (w : World) :
    ∃ attempts, Sent env (fun reply => cashOutcome texts reply >>= parseOrderCash texts) w
      (run (World.handle env) (orderCash texts request) w) attempts := by
  obtain ⟨outcomes, hcame⟩ := run_orderCashAttempts env texts request httpRetryCount w
  have hsent : Sent env (cashOutcome texts) w
      (run (World.handle env) (orderCashAttempts texts request httpRetryCount) w)
      (outcomes.map fun o => (request, o)) := by
    refine ⟨hcame.requests, ?_, ?_⟩
    · intro a ha
      rw [← List.map_dropLast] at ha
      obtain ⟨o, ho, rfl⟩ := List.mem_map.mp ha
      exact hcame.retried o ho
    · intro a ha hlast
      rw [List.getLast?_map] at ha
      obtain ⟨o, ho, rfl⟩ := Option.map_eq_some_iff.mp ha
      exact hcame.last o ho hlast
  exact ⟨_, hsent.bind_ofExcept _⟩

/-- Calls other than requests add no request. -/
theorem run_requests {p : Program α} (hp : Safe (fun _ o => ∀ q, o ≠ .post q) [] p) (w : World) :
    (run (World.handle env) p w).2.requests = w.requests := by
  have hcall : ∀ (h : Calls) (o : Op) (s : World), (∀ q, o ≠ .post q) →
      (World.handle env o s).2.requests = s.requests := fun h o s ho => World.requests_handle ho
  exact hp.run_rel (R := fun a b : World => b.requests = a.requests) (fun _ => rfl)
    (fun a b c hab hbc => hbc.trans hab) hcall w

theorem sent_trade {texts : CashTexts} {request : String → String → BrokerRequest}
    (stockCode price : String) (type : OrderType) (w : World) :
    ∃ attempts, Sent env (cashResult texts) w (run (World.handle env)
      (TradeService.tradeDomesticStock (fun mode p => ofExcept (priceText p) >>= fun price =>
        orderCash texts (request mode price)) stockCode type price) w) attempts := by
  have hcash : ∀ (mode p : String) (w : World), ∃ attempts,
      Sent env (fun reply => cashOutcome texts reply >>= parseOrderCash texts) w
        (run (World.handle env) (ofExcept (priceText p) >>= fun price =>
          orderCash texts (request mode price)) w) attempts :=
    fun mode p w => sent_bind (run_requests (safe_ofExcept _) _) fun price w' _ => sent_orderCash env texts _ w'
  have htime : ∀ response : OrderResponse,
      (ofExcept (TradeService.orderDatetime response.output) >>= fun _ => pure response :
        Program OrderResponse) =
        ofExcept (TradeService.orderDatetime response.output >>= fun _ => pure response) := by
    intro response
    cases TradeService.orderDatetime response.output <;> rfl
  unfold TradeService.tradeDomesticStock
  refine sent_bind (run_requests (safe_ofExcept _) _) fun _ w' _ => ?_
  rcases TradeService.resolveOrderParams type price with ⟨mode, p⟩
  simp only [htime]
  obtain ⟨attempts, hsent⟩ := hcash mode p w'
  have hdecided := hsent.bind_ofExcept fun response : OrderResponse =>
    TradeService.orderDatetime response.output >>= fun _ => pure response
  have hresult : (fun reply => (cashOutcome texts reply >>= parseOrderCash texts) >>=
      fun response : OrderResponse => TradeService.orderDatetime response.output >>= fun _ =>
        pure response) = cashResult texts := by
    funext reply
    rw [cashResult]
    cases cashOutcome texts reply <;> rfl
  rw [hresult] at hdecided
  exact ⟨attempts, hdecided⟩

theorem unrequesting_checkKillSwitch {h : Calls} :
    Safe (fun _ o => ∀ q, o ≠ .post q) h checkKillSwitch := by
  rw [checkKillSwitch_eq, KillSwitchService.isOn]
  refine Safe.bind ?_ fun _ on _ => ?_
  · exact Safe.bind (safe_perform (by simp)) fun _ _ _ => safe_pure _
  · split
    · exact safe_raise _
    · exact safe_pure _

/-- Steps 3 and 4 of a cash order. -/
theorem sent_submission (settings : Settings) (env : Env) (w : World)
    (hnew : order.orderKind = .new) :
    ∃ texts attempts, Sent env (cashResult texts) w
      (run (World.handle env) (submission settings order) w) attempts := by
  have hsend : ∃ texts, ∀ w, ∃ attempts, Sent env (cashResult texts) w
      (run (World.handle env) (sendOrder settings order) w) attempts := by
    unfold sendOrder
    simp only [hnew]
    split
    · exact ⟨buyTexts, fun w => sent_trade _ _ _ w⟩
    · exact ⟨sellTexts, fun w => sent_trade _ _ _ w⟩
    · exact ⟨buyTexts, fun w => ⟨[], sent_nothing rfl⟩⟩
  obtain ⟨texts, hsend⟩ := hsend
  refine ⟨texts, ?_⟩
  unfold submission
  refine sent_bind (run_requests (safe_perform (by simp)) w) fun _ w₁ _ => ?_
  exact sent_bind (run_requests unrequesting_checkKillSwitch w₁) fun _ w₂ _ => hsend w₂

/-! ## Behind the answers -/

theorem unrequesting_storeResult {h : Calls} {response : OrderResponse} :
    Safe (fun _ o => ∀ q, o ≠ .post q) h (storeResult order response) := by
  unfold storeResult OrderRepository.updateOrderSubmitResult
  simp only
  split
  · exact safe_perform (by simp)
  · refine Safe.bind (safe_perform (by simp)) fun _ updated _ => ?_
    split
    · exact safe_perform (by simp)
    · split
      · exact safe_perform (by simp)
      · exact safe_pure _

theorem unrequesting_handleError {h : Calls} {id : OrderId} {read : Option Order} {e : PyExc} :
    Safe (fun _ o => ∀ q, o ≠ .post q) h (handleError id read e) := by
  unfold handleError handleKisOrderError handleException
  simp only [OrderRepository.updateOrderFailureResult_raises]
  split
  · refine Safe.bind (safe_perform (by simp)) fun _ _ _ => ?_
    split
    · refine Safe.bind ?_ fun _ _ _ => safe_perform (by simp)
      cases read with
      | none => exact safe_perform (by simp)
      | some o => exact Safe.bind (safe_perform (by simp)) fun _ _ _ => safe_pure _
    · split
      · exact safe_raise _
      · exact safe_raise _
  · refine Safe.bind (safe_perform (by simp)) fun _ _ _ => ?_
    split
    · exact safe_raise _
    · exact safe_raise _

/-- The requests of the whole task are those of steps 3 and 4. -/
theorem requests_processOrder (settings : Settings) (hup : StoresUp env)
    (hread : env.fault w.tick (.selectOrder (some order.id)) = none)
    (hr : w.orders.get? order.id = some order) (hpending : order.status = .pending) :
    (run (World.handle env) (processOrder settings order.id) w).2.requests =
      (run (World.handle env) (submission settings ((gate order).refresh order))
        (afterGate env w order.id order)).2.requests := by
  rw [run_processOrder settings hup hread hr hpending, run_tryExcept, run_bind]
  rcases run (World.handle env) (submission settings ((gate order).refresh order))
    (afterGate env w order.id order) with ⟨r, w₁⟩
  cases r with
  | error e => exact run_requests unrequesting_handleError w₁
  | ok response =>
    simp only
    have hstore : (run (World.handle env) (storeResult ((gate order).refresh order) response)
        w₁).2.requests = w₁.requests := run_requests unrequesting_storeResult w₁
    rcases hrun : run (World.handle env) (storeResult ((gate order).refresh order) response) w₁
      with ⟨r, w₂⟩
    rw [hrun] at hstore
    cases r with
    | ok a => exact hstore
    | error e => exact (run_requests unrequesting_handleError w₂).trans hstore

theorem requests_afterGate (env : Env) (w : World) (id : OrderId) (order : Order) :
    (afterGate env w id order).requests = w.requests := by
  rw [afterGate, World.requests_handle (by simp), World.requests_handle (by simp)]

end Autotrading.ProcessOrder
