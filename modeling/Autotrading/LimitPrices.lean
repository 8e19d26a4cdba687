import Autotrading.DecimalText
import Autotrading.SystemRules

/-!
# The prices of limit orders

A limit price is stored with four decimals, turned into text by worker 1, read again by the
broker client and cut off at the point. Here it is followed from the request of the API to the
requests that worker 1 sends.
-/
namespace Autotrading

open Machine Prog OrderRepository
open Machine.Sys (start)
open Python (numericText)

variable {settings : Settings} {env : Env} {s s' : System} {e : Event} {h : Calls}

/-! ## The text of a stored price -/

/-- The text denotes exactly this price, and a price it is. -/
def Denotes (text : String) (price : ℚ) : Prop :=
  Python.Decimal.parse? text = some (.finite price) ∧ 0 < price

/-- Cutting off behind the fourth decimal and then at the point is cutting off at the point. -/
theorem floor_floor_div (q : ℚ) : ⌊((⌊q * 10000⌋ : ℤ) : ℚ) / 10000⌋ = ⌊q⌋ := by
  have hlow : (⌊q⌋ : ℚ) ≤ q := Int.floor_le q
  have hhigh : q < ⌊q⌋ + 1 := Int.lt_floor_add_one q
  have hscaled : ⌊q⌋ * 10000 ≤ ⌊q * 10000⌋ := by
    rw [Int.le_floor]
    push_cast
    linarith
  have hfloor : ((⌊q * 10000⌋ : ℤ) : ℚ) ≤ q * 10000 := Int.floor_le _
  have hcast : ((⌊q⌋ * 10000 : ℤ) : ℚ) ≤ ((⌊q * 10000⌋ : ℤ) : ℚ) := by exact_mod_cast hscaled
  push_cast at hcast
  rw [Int.floor_eq_iff]
  constructor
  · rw [le_div_iff₀ (by norm_num)]
    exact hcast
  · rw [div_lt_iff₀ (by norm_num)]
    linarith

/-- The client sends the integral part of a stored price. -/
theorem priceText_numericText {q : ℚ} (hq : 0 ≤ q) :
    KisOrder.priceText (numericText (some q)) = .ok (toString ⌊q⌋) := by
  have hscaled : 0 ≤ ⌊q * 10000⌋ := Int.floor_nonneg.mpr (by linarith)
  obtain ⟨n, hn⟩ := Int.eq_ofNat_of_zero_le hscaled
  have hparse := Python.Decimal.parse?_numericText hn
  have hfloor : ⌊((n : ℕ) : ℚ) / 10000⌋ = ⌊q⌋ := by
    have hcut := floor_floor_div q
    rwa [hn, Int.cast_natCast] at hcut
  have hnonneg : (0 : ℚ) ≤ (n : ℚ) / 10000 := by
    rw [le_div_iff₀ (by norm_num)]
    simp
  unfold KisOrder.priceText
  rw [hparse]
  simp only [Python.Decimal.toInt, Python.Decimal.truncate_of_nonneg hnonneg, hfloor]

theorem parse?_toString_int {n : ℤ} (hn : 0 ≤ n) :
    Python.Decimal.parse? (toString n) = some (.finite n) := by
  obtain ⟨k, rfl⟩ := Int.eq_ofNat_of_zero_le hn
  exact Python.Decimal.parse?_toString k

theorem toNumeric_of_pos {p : ℚ} (hp : 0 < p) :
    Order.toNumeric p = (⌊p * 10000 + 1 / 2⌋ : ℤ) / 10000 := by
  rw [Order.toNumeric, abs_of_pos hp, if_neg (not_lt.mpr hp.le)]

theorem toNumeric_nonneg {p : ℚ} (hp : 0 < p) : 0 ≤ Order.toNumeric p := by
  have hfloor : 0 ≤ ⌊p * 10000 + 1 / 2⌋ := Int.floor_nonneg.mpr (by linarith)
  rw [toNumeric_of_pos hp, le_div_iff₀ (by norm_num)]
  simpa using hfloor

theorem toNumeric_intCast {n : ℤ} (hn : (0 : ℚ) < n) : Order.toNumeric n = n := by
  have hfloor : ⌊(n : ℚ) * 10000 + 1 / 2⌋ = n * 10000 := by
    rw [Int.floor_eq_iff]
    push_cast
    constructor
    · linarith
    · linarith
  rw [toNumeric_of_pos hn, hfloor]
  push_cast
  field_simp

/-- What is sent for a stored limit price denotes the price exactly when it is integral. -/
theorem denotes_iff {p : ℚ} {text : String} (hp : 0 < p)
    (htext : KisOrder.priceText (numericText (some (Order.toNumeric p))) = .ok text) :
    Denotes text p ↔ p.den = 1 := by
  have hstored : 0 ≤ Order.toNumeric p := toNumeric_nonneg hp
  rw [priceText_numericText hstored] at htext
  obtain rfl := Except.ok.inj htext
  have hfloor : 0 ≤ ⌊Order.toNumeric p⌋ := Int.floor_nonneg.mpr hstored
  unfold Denotes
  rw [parse?_toString_int hfloor, Option.some.injEq, Python.Decimal.finite.injEq, and_iff_left hp]
  constructor
  · intro heq
    rw [← heq]
    exact Rat.den_intCast _
  · intro hden
    have hint : ((p.num : ℤ) : ℚ) = p := Rat.den_eq_one_iff p |>.mp hden
    rw [← hint] at hp ⊢
    rw [toNumeric_intCast hp, Int.floor_intCast]

/-! ## What worker 1 sends -/

/-- `ORD_UNPR`. -/
def BrokerRequest.ordUnpr : BrokerRequest → String
  | orderCash _ _ _ _ _ _ _ ordUnpr => ordUnpr
  | orderRvsecncl _ _ _ _ _ _ _ ordUnpr _ => ordUnpr

/-- The request carries the stored limit price of the order, as the client writes it. -/
def Priced (order : Order) (request : BrokerRequest) : Prop :=
  order.orderKind ≠ .cancel → order.orderType = .limit →
    KisOrder.priceText (numericText order.orderPrice) = .ok request.ordUnpr

/-- Order requests of this call are priced from an order read under the id. -/
def PricedCall (id : OrderId) (h : Calls) (o : Op) : Prop :=
  ∀ request, o = .post request →
    ∃ order, Answered h (.selectOrder (some id)) (some order) ∧ Priced order request

theorem Priced.of_terms {order order' : Order} {request : BrokerRequest}
    (h : Priced order request) (hkind : order'.orderKind = order.orderKind)
    (htype : order'.orderType = order.orderType) (hprice : order'.orderPrice = order.orderPrice) :
    Priced order' request := by
  unfold Priced
  rw [hkind, htype, hprice]
  exact h

namespace ProcessOrder

variable {P : BrokerRequest → Prop}

/-- Every order request of the program satisfies `P`. -/
abbrev Posting {α : Type} (P : BrokerRequest → Prop) (h : Calls) (p : Program α) : Prop :=
  Safe (fun _ o => ∀ request, o = .post request → P request) h p

theorem posting_perform {o : Op} (ho : ∀ request, o ≠ .post request) :
    Posting P h (Op.perform o) :=
  safe_perform fun request heq => absurd heq (ho request)

/-- The attempts of one request. No other request is allowed by this condition. -/
theorem allows_attempts : AllowsSubmission (fun _ o => ∀ request, o = .post request → P request)
    (fun _ => False) fun request _ => P request where
  reads := fun _ _ _ hfalse => hfalse.elim
  kept := fun _ _ _ _ _ hfalse => hfalse.elim
  first := fun _ _ hfalse => hfalse.elim
  post := by
    intro h request hrequest request' heq
    obtain rfl := Op.post.inj heq
    exact hrequest
  again := fun _ _ _ _ hrequest => hrequest

/-- A cash order carries the price its caller gives, behind the conversion of the client. -/
theorem posting_tradeDomesticStock {texts : KisOrder.CashTexts} {stockCode price : String}
    {orderType : OrderType} {request : String → String → BrokerRequest}
    (hrequest : ∀ text mode, orderType = .limit → KisOrder.priceText price = .ok text →
      P (request mode text))
    (hother : orderType ≠ .limit → ∀ mode text, P (request mode text)) :
    Posting P h (TradeService.tradeDomesticStock (fun mode p =>
      ofExcept (KisOrder.priceText p) >>= fun text => KisOrder.orderCash texts (request mode text))
      stockCode orderType price) := by
  refine safe_ofExcept_bind fun _ _ => ?_
  refine Safe.bind (safe_ofExcept_bind fun text htext => ?_) fun h₁ response _ => ?_
  · have hP : P (request (TradeService.resolveOrderParams orderType price).1 text) := by
      by_cases hlimit : orderType = .limit
      · refine hrequest text _ hlimit ?_
        rw [hlimit] at htext
        exact htext
      · exact hother hlimit _ text
    exact Safe.bind (safe_orderCashAttempts allows_attempts _ hP) fun _ _ _ => safe_ofExcept _
  · exact safe_ofExcept_bind fun _ _ => safe_pure _

theorem posting_checkOriginalOrder {tag : String} {order : Order} :
    Posting P h (checkOriginalOrder tag order) := by
  refine safe_ofExcept_bind fun child _ => ?_
  refine Safe.bind (posting_perform (by simp)) fun h₁ original _ => ?_
  exact safe_ofExcept_bind fun isFull _ => safe_pure _

theorem posting_sendOrder {order : Order} : Posting (Priced order) h (sendOrder settings order) := by
  unfold sendOrder
  simp only
  split
  · split
    · exact posting_tradeDomesticStock (fun text mode _ htext _ _ => htext)
        fun hother _ _ _ hlimit => absurd hlimit hother
    · exact posting_tradeDomesticStock (fun text mode _ htext _ _ => htext)
        fun hother _ _ _ hlimit => absurd hlimit hother
    · exact safe_raise _
  · refine Safe.bind posting_checkOriginalOrder fun h₁ checked _ => ?_
    refine safe_ofExcept_bind fun _ _ => safe_ofExcept_bind fun text htext => ?_
    refine safe_modifyOrderAttempts allows_attempts _ fun _ hlimit => ?_
    rw [if_neg (by rw [hlimit]; decide)] at htext
    exact htext
  · next hcancel =>
    refine Safe.bind posting_checkOriginalOrder fun h₁ checked _ => ?_
    refine safe_ofExcept_bind fun _ _ => safe_ofExcept_bind fun text htext => ?_
    exact safe_modifyOrderAttempts allows_attempts _ fun hkind => absurd hcancel hkind

theorem posting_submission {order : Order} :
    Posting (Priced order) h (submission settings order) := by
  unfold submission checkKillSwitch KillSwitchService.isOn
  refine Safe.bind (posting_perform (by simp)) fun h₁ _ _ => ?_
  simp only [bind_assoc]
  refine Safe.bind (posting_perform (by simp)) fun h₂ value _ => ?_
  refine Safe.bind (safe_pure _) fun h₃ on _ => ?_
  split
  · exact safe_raise _
  · exact posting_sendOrder

/-- Worker 1 sends no price but that of the order it read. -/
theorem pricedCall_processOrder (id : OrderId) :
    Safe (PricedCall id) h (processOrder settings id) := by
  refine @safe_processOrder _ settings _ _ ?_
  constructor
  case submits =>
    intro h order hread _
    have hposting : Posting (Priced ((gate order).refresh order)) h
        (submission settings ((gate order).refresh order)) := posting_submission
    refine hposting.extends_calls.mono (fun h' o ho request hpost => ?_) fun _ _ _ => trivial
    refine ⟨order, hread.mono ho.1, (ho.2 request hpost).of_terms ?_ ?_ ?_⟩
    all_goals
      unfold OrderUpdate.refresh
      split <;> rfl
  all_goals
    intros
    intro request hpost
    cases hpost

end ProcessOrder

/-- Every order request of every task is priced from the order the task read. -/
theorem program_priced (l : Label) :
    Safe (fun h o => ∀ request, o = .post request → ∃ id, l = .processOrder id ∧
      PricedCall id h o) [] (l.program settings) := by
  have hgate : Safe (Conduct l) [] (l.program settings) := program_conduct l
  cases l with
  | processOrder id =>
    refine (ProcessOrder.pricedCall_processOrder id).mono (fun h o hcall request _ => ?_)
      fun _ _ hr => hr
    exact ⟨id, rfl, hcall⟩
  | _ =>
    refine hgate.mono (fun h o hcall request hpost => ?_) fun _ _ hr => hr
    rw [hpost] at hcall
    obtain ⟨id, order, hl, -⟩ := hcall
    cases hl

/-! ## What the API stores -/

/-- The price of a limit request. -/
def ApiRequest.limitPrice : ApiRequest → Option ℚ
  | buy _ _ .limit price _ => some price
  | sell _ _ .limit price _ => some price
  | revise _ _ .limit price _ => some price
  | _ => none

/-- The order of a limit request with this price. -/
structure LimitOrder (p : ℚ) (o : Order) : Prop where
  kind : o.orderKind ≠ .cancel
  type : o.orderType = .limit
  price : o.orderPrice = some p
  positive : 0 < p

/-- A request at a limit price stores no order but one of it. -/
def StoresLimit (r : ApiRequest) (o : Op) : Prop :=
  ∀ price, r.limitPrice = some price → ∀ os, o = .insertOrders os → ∀ x ∈ os, LimitOrder price x

namespace OrderRouter

variable {r : ApiRequest} {dryRun : Bool}

theorem validatePrice_pos {price : ℚ} {marketText limitText : String} {a : Unit}
    (hv : validatePrice .limit price marketText limitText = .ok a) : 0 < price := by
  by_contra hneg
  rw [validatePrice, if_pos (not_lt.mp hneg)] at hv
  cases hv

theorem storesLimit_createAndQueue {order : OrderId → Order}
    (horder : ∀ price id, r.limitPrice = some price → LimitOrder price (order id)) :
    Safe (fun _ o => StoresLimit r o) h (createAndQueue order dryRun) := by
  unfold createAndQueue createOrder
  refine Safe.bind (safe_perform fun price _ os heq => ?_) fun h₁ id _ => ?_
  · cases heq
  refine Safe.bind (safe_perform fun price hprice os heq x hx => ?_) fun h₂ _ _ => ?_
  · obtain rfl := Op.insertOrders.inj heq
    rw [List.mem_singleton.mp hx]
    exact horder price id hprice
  split
  · refine safe_perform fun price _ os heq => ?_
    cases heq
  · exact safe_pure _

theorem storesLimit_newDomesticStock {orderPos : OrderAction} {stockCode : String} {quantity : ℤ}
    {orderType : OrderType} {price : ℚ}
    (hr : ∀ p, r.limitPrice = some p → orderType = .limit ∧ price = p) :
    Safe (fun _ o => StoresLimit r o) h
      (newDomesticStock settings orderPos stockCode quantity orderType price dryRun) := by
  refine safe_ofExcept_bind fun _ hv => storesLimit_createAndQueue fun p id hp => ?_
  obtain ⟨rfl, rfl⟩ := hr p hp
  have hpos : 0 < price := by
    unfold validateOrderRequest at hv
    simp only [bind, Except.bind, throw, throwThe, MonadExceptOf.throw] at hv
    split at hv
    · cases hv
    · split at hv
      · cases hv
      · exact validatePrice_pos hv
  exact ⟨by simp, rfl, rfl, hpos⟩

/-- A request that is accepted at a limit price stores an order at it. -/
theorem storesLimit_api : Safe (fun _ o => StoresLimit r o) h (Label.apiProgram settings r) := by
  cases r with
  | buy stockCode quantity orderType price dryRun =>
    refine storesLimit_newDomesticStock fun p hp => ?_
    cases orderType <;> cases hp
    exact ⟨rfl, rfl⟩
  | sell stockCode quantity orderType price dryRun =>
    refine storesLimit_newDomesticStock fun p hp => ?_
    cases orderType <;> cases hp
    exact ⟨rfl, rfl⟩
  | revise orderNo quantity orderType price dryRun =>
    refine safe_ofExcept_bind fun _ hv => ?_
    refine Safe.bind (safe_perform fun p _ os heq => by cases heq) fun h₁ original _ => ?_
    split
    · refine safe_ofExcept_bind fun _ _ => storesLimit_createAndQueue fun p id hp => ?_
      cases orderType <;> cases hp
      have hpos : 0 < price := by
        unfold validateReviseRequest at hv
        simp only [bind, Except.bind, throw, throwThe, MonadExceptOf.throw] at hv
        split at hv
        · cases hv
        · exact validatePrice_pos hv
      exact ⟨by simp [childOrder], rfl, rfl, hpos⟩
    · exact safe_raise _
  | cancel orderId quantity dryRun =>
    exact (along_true _).mono (fun _ _ _ p hp => by cases hp) fun _ _ hr => hr
  | killSwitch enabled =>
    exact (along_true _).mono (fun _ _ _ p hp => by cases hp) fun _ _ hr => hr

end OrderRouter

theorem program_storesLimit (l : Label) :
    Safe (fun _ o => ∀ r, l = .api r → StoresLimit r o) [] (l.program settings) := by
  cases l with
  | api r =>
    refine OrderRouter.storesLimit_api.mono (fun h o hstores r' hr => ?_) fun _ _ hr => hr
    obtain rfl := Label.api.inj hr
    exact hstores
  | _ => exact (along_true _).mono (fun _ _ _ r hr => by cases hr) fun _ _ hr => hr

/-! ## The rows of a run -/

/-- The row has the kind, the type and the price of the order. -/
structure SameTerms (o r : Order) : Prop where
  kind : r.orderKind = o.orderKind
  type : r.orderType = o.orderType
  price : r.orderPrice = o.orderPrice

/-- The row under the id of the order has the terms of the order. -/
def TermsHeld (w : World) (o : Order) : Prop := ∃ r, w.orders.get? o.id = some r ∧ SameTerms o r

/-- No statement changes the terms of a row. -/
theorem TermsHeld.change {o : Order} (h : TermsHeld s.state o) (hs : Sound env s)
    (hc : Change (autotrading settings env) s e s') : TermsHeld s'.state o := by
  obtain ⟨r, hr, hsame⟩ := h
  rcases row_change hs hc hr with hkeep | ⟨i, t, u, hw⟩
  · exact ⟨r, hkeep, hsame⟩
  · refine ⟨_, hw.row, ?_, ?_, ?_⟩
    · rw [← hsame.kind]
      simp
    · rw [← hsame.type]
      cases u.set <;> rfl
    · rw [← hsame.price]
      cases u.set <;> rfl

/-- The orders that the call stored. -/
def storedOrders : Entry → List Order
  | (_, ⟨.insertOrders os, .ok ()⟩) => os
  | _ => []

theorem mem_storedOrders {x : Entry} {o : Order} :
    o ∈ storedOrders x ↔ ∃ n os, x = (n, ⟨.insertOrders os, .ok ()⟩) ∧ o ∈ os := by
  constructor
  · intro ho
    unfold storedOrders at ho
    split at ho
    · next n os => exact ⟨n, os, rfl, ho⟩
    · cases ho
  · rintro ⟨n, os, rfl, ho⟩
    exact ho

/-- What the histories say of the terms of the rows. -/
structure Termed (env : Env) (s : System) : Prop where
  sound : Sound env s
  stored : Known (fun w _ x => ∀ o ∈ storedOrders x,
    TermsHeld w { o with orderPrice := o.orderPrice.map Order.toNumeric }) s
  read : Known (fun w _ => World.ReadOf (TermsHeld w)) s

theorem Termed.change (h : Termed env s) (hc : Change (autotrading settings env) s e s') :
    Termed env s' where
  sound := h.sound.change hc
  stored := by
    refine h.stored.change hc (fun l x hx o ho => (hx o ho).change h.sound hc) ?_
    intro i t op k _ ht hp o ho
    obtain ⟨n, os, heq, hmem⟩ := mem_storedOrders.mp ho
    obtain ⟨rfl, hanswer⟩ := World.handle_of_entry (Prod.mk.inj heq).2
    exact ⟨_, (World.insertOrders_ok hanswer hmem).2, rfl, rfl, rfl⟩
  read := by
    refine h.read.change hc (fun l x => World.ReadOf.mono fun o ho => ho.change h.sound hc) ?_
    intro i t op k _ ht hp
    have hread : World.ReadOf (TermsHeld s.state) (s.state.tick, ⟨op, (World.handle env op s.state).1⟩) := by
      refine World.readOf_handle (fun k r hr => ⟨r, ?_, rfl, rfl, rfl⟩) _ _
      rw [KeyedTable.key_of_get? hr]
      exact hr
    exact hread.mono fun o ho =>
      ho.change h.sound (Change.stepped (m := autotrading settings env) i t op k ht hp)

theorem termed_run (settings : Settings) (env : Env) (w : World) (es : List Event) :
    Termed env ((autotrading settings env).run (start w) es) := by
  refine run_invariant (fun _ _ _ h hc => h.change hc) es ⟨sound_start w, ?_, ?_⟩
  all_goals
    intro t ht
    cases ht

/-! ## From the API to the broker -/

/-- The order that the task submits. -/
def Label.submits : Label → Option OrderId
  | processOrder id => some id
  | _ => none

/-- The limit price at which the task takes its order. -/
def Label.limitPrice : Label → Option ℚ
  | api r => r.limitPrice
  | _ => none

/-- The order request that the call sends. -/
def postedRequest : Entry → Option BrokerRequest
  | (_, ⟨.post request, _⟩) => some request
  | _ => none

/-- The API accepted an order at this limit price, and worker 1 sent the request for it. -/
def SentAtLimit (s : System) (p : ℚ) (request : BrokerRequest) : Prop :=
  ∃ a ∈ s.tasks, a.label.limitPrice = some p ∧ ∃ o ∈ a.history.flatMap storedOrders,
    ∃ t ∈ s.tasks, t.label.submits = some o.id ∧ request ∈ t.history.filterMap postedRequest

/-- The price sent is made of the accepted one. -/
theorem Termed.priceText (h : Termed env s)
    (hpriced : Kept (fun l h o => ∀ request, o = .post request →
      ∃ id, l = .processOrder id ∧ PricedCall id h o) s)
    (hlimits : Kept (fun l _ o => ∀ r, l = .api r → StoresLimit r o) s) {p : ℚ}
    {request : BrokerRequest} (hsent : SentAtLimit s p request) :
    0 < p ∧ KisOrder.priceText (numericText (some (Order.toNumeric p))) = .ok request.ordUnpr := by
  obtain ⟨a, ha, hlimit, o, ho, t, ht, hsubmits, hrequest⟩ := hsent
  -- the order of the API task
  obtain ⟨x, hx, ho⟩ := List.mem_flatMap.mp ho
  have hrow := h.stored a ha x hx o ho
  have horder : LimitOrder p o := by
    obtain ⟨n, os, rfl, hmem⟩ := mem_storedOrders.mp ho
    obtain ⟨h₁, h₂, hsplit⟩ := List.append_of_mem hx
    cases hl : a.label with
    | api r =>
      rw [hl] at hlimit
      exact hlimits.recorded a ha h₁ _ h₂ hsplit r hl p hlimit os rfl o hmem
    | _ =>
      rw [hl] at hlimit
      cases hlimit
  -- the order that worker 1 read
  obtain ⟨⟨m, op, reply⟩, hy, hposted⟩ := List.mem_filterMap.mp hrequest
  obtain ⟨order, hread, hprice⟩ : ∃ order, Answered t.history (.selectOrder (some o.id))
      (some order) ∧ Priced order request := by
    cases op
    case post request' =>
      obtain rfl := Option.some.inj hposted
      obtain ⟨h₁, h₂, hsplit⟩ := List.append_of_mem hy
      obtain ⟨id, hl, hcall⟩ := hpriced.recorded t ht h₁ _ h₂ hsplit _ rfl
      rw [hl] at hsubmits
      obtain rfl := Option.some.inj hsubmits
      obtain ⟨order, hread, hprice⟩ := hcall _ rfl
      rw [hsplit]
      exact ⟨order, hread.append _, hprice⟩
    all_goals cases hposted
  have hid : order.id = o.id := (Option.some.inj (h.sound.read_id ht hread)).symm
  obtain ⟨k, hk⟩ := hread
  obtain ⟨r, hr, hterms⟩ := h.read t ht _ hk
  obtain ⟨r', hr', hterms'⟩ := hrow
  rw [hid] at hr
  obtain rfl := Option.some.inj (hr.symm.trans hr')
  refine ⟨horder.positive, ?_⟩
  have hstored : order.orderPrice = some (Order.toNumeric p) := by
    rw [← hterms.price, hterms'.price, horder.price]
    rfl
  rw [← hstored]
  refine hprice ?_ ?_
  · rw [← hterms.kind, hterms'.kind]
    exact horder.kind
  · rw [← hterms.type, hterms'.type]
    exact horder.type

/-- Whatever the tasks do, in any order: a request that is sent for an order of the API at a
limit price denotes that price exactly when the price is a whole number. -/
theorem limit_price_denoted_iff (settings : Settings) (env : Env) (w : World) (es : List Event)
    {p : ℚ} {request : BrokerRequest}
    (hsent : SentAtLimit ((autotrading settings env).run (start w) es) p request) :
    Denotes request.ordUnpr p ↔ p.den = 1 := by
  have htermed := termed_run settings env w es
  obtain ⟨hpos, htext⟩ := htermed.priceText (kept_run program_priced w es)
    (kept_run program_storesLimit w es) hsent
  exact denotes_iff hpos htext

/-- A purchase at this limit price is accepted, and worker 1 takes it up. -/
def limitPurchase (price : ℚ) : System :=
  (autotrading .sample .quiet).run (start (.holding [] []))
    (.launch (.api (.buy "005930" 10 .limit price false)) :: List.replicate 3 (.step 0) ++
      .launch (.processOrder 0) :: List.replicate 5 (.step 1))

/-- The request that buys ten shares at this price. -/
def purchaseRequest (ordUnpr : String) : BrokerRequest :=
  .orderCash .buy "12345678" "01" "005930" "" "00" "10" ordUnpr

theorem limit_price_denoted_iff_sample :
    Denotes (purchaseRequest "70000").ordUnpr 70000 ↔ (70000 : ℚ).den = 1 := by
  have hsent : SentAtLimit (limitPurchase 70000) 70000 (purchaseRequest "70000") := by
    unfold SentAtLimit
    decide +kernel
  exact limit_price_denoted_iff .sample .quiet (.holding [] []) _ hsent

/-- An order accepted at half a won is sent at 0, a price that the API and the service refuse. -/
theorem fractional_price_cut_off :
    SentAtLimit (limitPurchase (1 / 2)) (1 / 2) (purchaseRequest "0") ∧
      ¬Denotes (purchaseRequest "0").ordUnpr (1 / 2) := by
  have hsent : SentAtLimit (limitPurchase (1 / 2)) (1 / 2) (purchaseRequest "0") := by
    unfold SentAtLimit
    decide +kernel
  have hread : Python.Decimal.parse? (purchaseRequest "0").ordUnpr = some (.finite 0) := by
    decide +kernel
  refine ⟨hsent, ?_⟩
  rintro ⟨hdenotes, -⟩
  rw [hread, Option.some.injEq, Python.Decimal.finite.injEq] at hdenotes
  norm_num at hdenotes

end Autotrading
