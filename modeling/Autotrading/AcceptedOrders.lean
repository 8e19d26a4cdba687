import Autotrading.LostOrders
import Autotrading.RateLimits

/-!
# Accepted orders

The broker has accepted a buy or sell order. Between its answer and the row lie the
schema, the parsing of the order time and the limits of the columns: an answer that one
of them refuses leaves the order in PROCESSING.
-/
namespace Autotrading.ProcessOrder

open Prog KisOrder OrderState

variable {settings : Settings} {env : Env} {w : World} {order : Order} {d : OrderAnswer}

/-- The answer accepts the order: `rt_cd` `"0"`, and an object as output with a number if
it satisfies the schema. -/
def Accepts (d : OrderAnswer) : Prop :=
  d.rtCd = .text "0" ∧
    (d.output = .malformed true ∨ ∃ out, d.output = .object out ∧ out.odno ≠ "")

/-- The order is stored as ACCEPTED under the number of the answer, all of it open, and a
further tracking task is queued. -/
def RecordedAccepted (id : OrderId) (d : OrderAnswer) (w w' : World) : Prop :=
  (∃ r, w'.orders.get? id = some r ∧ r.status = .accepted ∧ r.remainingQty = r.orderQty ∧
    ∀ out, d.output = .object out → r.brokerOrderNo = some out.odno) ∧
  w.queue.count (.processOrderStatus (some id) 0 none) <
    w'.queue.count (.processOrderStatus (some id) 0 none)

/-- The answer satisfies the schema, its order time is a time of day, and its texts fit
their columns. -/
def Readable (order : Order) (d : OrderAnswer) : Prop :=
  ∃ response, d.validate = .ok response ∧
    TradeService.orderDatetime response.output = .ok () ∧
    ((resultUpdate order response).set.apply order).Fits

/-- What the client and the service make of an accepted order. -/
theorem cashResult_accepted (texts : CashTexts) (ha : Accepts d) {statusCode : ℕ}
    (h2xx : is2xx statusCode = true) (text : String) :
    cashResult texts (.response statusCode (.object d) text) = (do
      let response ← d.validate
      TradeService.orderDatetime response.output
      pure response) := by
  have hparse : parseOrderCash texts (.object d) = d.validate := by
    obtain ⟨hrt, hout⟩ := ha
    unfold parseOrderCash json
    rcases hout with hout | ⟨out, hout, -⟩
    · simp [bind, Except.bind, hrt, hout, JsonField.get]
    · simp [bind, Except.bind, hrt, hout, JsonField.get]
  rw [← hparse]
  simp only [cashResult, cashOutcome, h2xx, if_true]
  rfl

/-- The computation raises no rate limit. -/
def Unlimited {α : Type} (r : Except PyExc α) : Prop := ∀ e, r = .error e → rateLimited e = false

theorem unlimited_other {α : Type} (type text : String) :
    Unlimited (.error (.other type text) : Except PyExc α) := by
  intro e he
  obtain rfl := Except.error.inj he
  rfl

theorem unlimited_ok {α : Type} (a : α) : Unlimited (.ok a : Except PyExc α) := by
  intro e he
  cases he

theorem Unlimited.bind {α β : Type} {r : Except PyExc α} {f : α → Except PyExc β}
    (hr : Unlimited r) (hf : ∀ a, Unlimited (f a)) : Unlimited (r >>= f) := by
  intro e he
  cases r with
  | error e' =>
    have hsame : (.error e' : Except PyExc β) = .error e := he
    exact hr e (by rw [Except.error.inj hsame])
  | ok a => exact hf a e he

theorem unlimited_validate (d : OrderAnswer) : Unlimited d.validate := by
  unfold OrderAnswer.validate
  split
  · exact unlimited_ok _
  · exact unlimited_ok _
  · exact unlimited_ok _
  · exact unlimited_other _ _

theorem unlimited_orderDatetime (output : Option DomesticStockOrderResult) :
    Unlimited (TradeService.orderDatetime output) := by
  have hslice : ∀ digits, Unlimited (TradeService.intSlice digits) := by
    intro digits
    unfold TradeService.intSlice
    simp only
    split
    · exact unlimited_ok _
    · exact unlimited_other _ _
  unfold TradeService.orderDatetime
  cases output with
  | none => exact unlimited_other _ _
  | some out =>
    refine (hslice _).bind fun hour => (hslice _).bind fun minute => (hslice _).bind fun second => ?_
    dsimp only
    split
    · exact unlimited_other _ _
    · split
      · exact unlimited_other _ _
      · split
        · exact unlimited_other _ _
        · exact unlimited_ok _

/-- What the schema makes of an accepted order. -/
theorem validate_accepted (ha : Accepts d) {response : OrderResponse}
    (hv : d.validate = .ok response) :
    ∃ out, d.output = .object out ∧ response.output = some out ∧ response.rtCd = "0" ∧
      out.odno ≠ "" := by
  obtain ⟨hrt, hout | ⟨out, hout, hodno⟩⟩ := ha
  · unfold OrderAnswer.validate at hv
    rw [hout] at hv
    split at hv
    · next h => cases h
    · next h => cases h
    · next h => cases h
    · cases hv
  · refine ⟨out, hout, ?_⟩
    unfold OrderAnswer.validate at hv
    rw [hrt, hout] at hv
    split at hv
    · next h => cases h
    · next h => cases h
    · next hrt' _ _ hout' =>
      obtain rfl := Except.ok.inj hv
      obtain rfl := OrderOutput.object.inj hout'
      obtain rfl := JsonField.text.inj hrt'
      exact ⟨rfl, rfl, hodno⟩
    · cases hv

/-- The row that an accepted order becomes. -/
theorem resultUpdate_accepted (order : Order) {response : OrderResponse} {out : DomesticStockOrderResult}
    (hrt : response.rtCd = "0") (hout : response.output = some out) (hodno : out.odno ≠ "") :
    (extractOrderSnapshot response order.orderQty).nextStatus = .accepted ∧
      ((resultUpdate order response).set.apply order).status = .accepted ∧
      ((resultUpdate order response).set.apply order).remainingQty = order.orderQty ∧
      ((resultUpdate order response).set.apply order).brokerOrderNo = some out.odno := by
  have hnext : (extractOrderSnapshot response order.orderQty).nextStatus = .accepted := by
    simp [extractOrderSnapshot, hrt, hout, Python.truthy, hodno]
  refine ⟨hnext, ?_, ?_, ?_⟩
  · rw [SetClause.apply_status]
    exact hnext
  · simp [resultUpdate, SetClause.apply, extractOrderSnapshot, hrt, hout, Python.truthy, hodno]
  · simp [resultUpdate, SetClause.apply, extractOrderSnapshot, hout]

/-! ## From the answer to the row -/

/-- The last answer decides what steps 3 and 4 come to. -/
theorem submission_accepted (settings : Settings) (order : Order)
    (hnew : order.orderKind = .new) {statusCode : ℕ} {text : String}
    (hlast : (answers w (run (World.handle env) (submission settings order) w).2).getLast? =
      some (.response statusCode (.object d) text))
    (h2xx : is2xx statusCode = true) (haccepts : Accepts d) :
    (run (World.handle env) (submission settings order) w).1 = (do
      let response ← d.validate
      TradeService.orderDatetime response.output
      pure response) := by
  obtain ⟨texts, attempts, hsent⟩ := sent_submission settings env w hnew
  rw [answers, hsent.requests, List.drop_left, List.getLast?_map, Option.map_eq_some_iff] at hlast
  obtain ⟨a, ha, hreply⟩ := hlast
  rw [hsent.last a ha (.inl (by rw [hreply]; exact h2xx)), hreply]
  exact cashResult_accepted texts haccepts h2xx text

/-- An exception that is no rate limit leaves the order where it is. -/
theorem handleError_unrecorded (hup : StoresUp env) (order : Order) {read : Order} {w₁ : World}
    {e : PyExc} (hid : read.id = order.id) (hrow : w₁.orders.get? order.id = some order)
    (hprocessing : order.status = .processing) (he : rateLimited e = false) :
    (run (World.handle env) (handleError order.id (some read) e) w₁).2.orders.get? order.id =
        some order ∧
      ¬ RecordedAccepted order.id d w
        (run (World.handle env) (handleError order.id (some read) e) w₁).2 := by
  have hrow' : w₁.orders.get? read.id = some order := by rw [hid, hrow]
  have hstored := hrow
  rw [← (run_handleError order.id hup e hrow' hprocessing).1 he] at hstored
  refine ⟨hstored, ?_⟩
  rintro ⟨⟨r, hr, hstatus, -⟩, -⟩
  obtain rfl := Option.some.inj (hstored.symm.trans hr)
  rw [hprocessing] at hstatus
  cases hstatus

/-- An answer that comes through the service is readable when its texts fit. -/
theorem readable_iff {response : OrderResponse} (hvalid : d.validate = .ok response)
    (htime : TradeService.orderDatetime response.output = .ok ()) :
    Readable order d ↔ ((resultUpdate order response).set.apply order).Fits := by
  constructor
  · rintro ⟨response', hok, -, hfit⟩
    rw [hvalid] at hok
    obtain rfl := Except.ok.inj hok
    exact hfit
  · intro hfit
    exact ⟨response, hvalid, htime, hfit⟩

/-- Steps 5 to 7 record it then. -/
theorem storeResult_accepted (hup : StoresUp env) (hprocessing : order.status = .processing)
    (haccepts : Accepts d) {response : OrderResponse} (hvalid : d.validate = .ok response)
    {w₁ : World} (hrow : w₁.orders.get? order.id = some order) (hqueue : w₁.queue = w.queue)
    (hfit : ((resultUpdate order response).set.apply order).Fits) :
    ∃ w₂, run (World.handle env) (storeResult order response) w₁ = (.ok (), w₂) ∧
      RecordedAccepted order.id d w w₂ := by
  obtain ⟨out, hobject, hout, hrt, hodno⟩ := validate_accepted haccepts hvalid
  obtain ⟨hnext, hstatus, hremaining, hnumber⟩ := resultUpdate_accepted order hrt hout hodno
  obtain ⟨w₂, hstore, hrow₂, htracked⟩ := (run_storeResult hup response hrow hprocessing).1 hfit
  refine ⟨w₂, hstore, ⟨_, hrow₂, hstatus, ?_, ?_⟩, ?_⟩
  · rw [hremaining, SetClause.apply_orderQty]
  · intro out' hout'
    obtain rfl := OrderOutput.object.inj (hobject.symm.trans hout')
    exact hnumber
  · rw [htracked hnext, hqueue, List.count_append]
    simp

/-- The answer that accepts an order at this order time. -/
def acceptedAt (ordTmd : String) : OrderAnswer :=
  ⟨.text "0", .text "APBK0013", .text "주문 전송 완료 되었습니다.", .object ⟨"91252", "7", ordTmd⟩, ""⟩

/-- Surroundings in which the broker accepts every order with this order time. -/
def acceptingAt (ordTmd : String) : Env :=
  { Env.quiet with post := fun _ _ => ⟨true, .response 200 (.object (acceptedAt ordTmd)) ""⟩ }

theorem accepts_acceptedAt (ordTmd : String) : Accepts (acceptedAt ordTmd) :=
  ⟨rfl, .inr ⟨_, rfl, show ("7" : String) ≠ "" by decide⟩⟩

end Autotrading.ProcessOrder
