import Autotrading.KeyedTable
import Autotrading.OrderState
import Autotrading.Python

/-!
# The table of orders

`app/db/models/order.py` and the `UPDATE` statements on it. A column limit is part
of the table: a statement that would exceed one is refused. Text payloads and
timestamps that no modelled function reads are left out.
-/
namespace Autotrading

open OrderState

/-- A UUID, as a number. -/
abbrev OrderId : Type := ℕ

abbrev RebalanceId : Type := ℕ

/-- Microseconds since the epoch. -/
abbrev Instant : Type := ℤ

/-- A row of `orders`. -/
structure Order where
  id : OrderId
  accountNo : String
  accountProductCode : String
  stockCode : String
  orderPos : OrderAction
  orderKind : OrderKind
  orderType : OrderType
  orderPrice : Option ℚ
  orderQty : ℤ
  status : OrderStatus
  originalOrderId : Option OrderId := none
  originalBrokerOrderNo : Option String := none
  originalBrokerOrgNo : Option String := none
  brokerOrderNo : Option String := none
  brokerOrgNo : Option String := none
  rtCd : Option String := none
  msgCd : Option String := none
  msg1 : Option String := none
  filledQty : ℤ := 0
  remainingQty : ℤ := 0
  avgFillPrice : Option Python.Decimal := none
  errorMessage : Option String := none
  createdAt : Instant
  rebalanceId : Option RebalanceId := none
  deriving DecidableEq

namespace Order

/-- `String(n)`. -/
def fitsText (n : ℕ) (s : String) : Bool := s.length ≤ n

def fitsOptional (n : ℕ) : Option String → Bool
  | some s => fitsText n s
  | none => true

/-- `Integer`: 32 bits. -/
def fitsInteger (n : ℤ) : Bool := -2147483648 ≤ n && n ≤ 2147483647

/-- `Numeric(18, 4)` holds fourteen digits before the point. -/
def fitsNumeric : Python.Decimal → Bool
  | .finite q => |q| < 99999999999999 + 99995 / 100000
  | .nan => true
  | .infinity => false

/-- What a `Numeric(18, 4)` column stores: four decimals, ties away from zero. -/
def toNumeric (q : ℚ) : ℚ :=
  let k := ⌊|q| * 10000 + 1 / 2⌋
  (if q < 0 then -k else k) / 10000

/-- The limits of the columns. -/
def fits (o : Order) : Bool :=
  fitsText 8 o.accountNo && fitsText 2 o.accountProductCode && fitsText 12 o.stockCode &&
  o.orderPrice.all (fun q => fitsNumeric (.finite q)) && fitsInteger o.orderQty &&
  fitsOptional 32 o.originalBrokerOrderNo && fitsOptional 16 o.originalBrokerOrgNo &&
  fitsOptional 32 o.brokerOrderNo && fitsOptional 16 o.brokerOrgNo &&
  fitsOptional 8 o.rtCd && fitsOptional 32 o.msgCd &&
  fitsInteger o.filledQty && fitsInteger o.remainingQty && o.avgFillPrice.all fitsNumeric

abbrev Fits (o : Order) : Prop := o.fits = true

end Order

/-- What an `UPDATE orders` statement sets, one form for each repository function. -/
inductive SetClause
  | status (newStatus : OrderStatus)
  | submit (rtCd msgCd msg1 : String) (brokerOrgNo brokerOrderNo : Option String)
      (nextStatus : OrderStatus) (remainingQty : Option ℤ)
  | tracking (rtCd msgCd msg1 : Option String) (brokerOrgNo brokerOrderNo : Option String)
      (filledQty : ℤ) (filledAvgPrice : Option Python.Decimal) (remainingQty : ℤ)
      (nextStatus : OrderStatus)
  | failure (rtCd msgCd : String) (msg1 : Option String) (nextStatus : OrderStatus)
      (brokerOrgNo brokerOrderNo : Option String)
  | parent (filledQty remainingQty : ℤ) (nextStatus : OrderStatus)
  deriving DecidableEq

namespace SetClause

/-- The row after the statement. -/
def apply (c : SetClause) (o : Order) : Order :=
  match c with
  | status newStatus => { o with status := newStatus }
  | submit rtCd msgCd msg1 brokerOrgNo brokerOrderNo nextStatus remainingQty =>
    { o with
      rtCd := some rtCd, msgCd := some msgCd, msg1 := some msg1, brokerOrgNo, brokerOrderNo
      status := nextStatus, remainingQty := remainingQty.getD o.remainingQty }
  | tracking rtCd msgCd msg1 brokerOrgNo brokerOrderNo filledQty filledAvgPrice remainingQty
      nextStatus =>
    { o with
      rtCd, msgCd, msg1, brokerOrgNo, brokerOrderNo, filledQty, remainingQty
      avgFillPrice := filledAvgPrice
      errorMessage := if nextStatus = .failed then msg1 else none
      status := nextStatus }
  | failure rtCd msgCd msg1 nextStatus brokerOrgNo brokerOrderNo =>
    { o with
      rtCd := some rtCd, msgCd := some msgCd, msg1, errorMessage := msg1, status := nextStatus
      brokerOrgNo := brokerOrgNo.or o.brokerOrgNo
      brokerOrderNo := brokerOrderNo.or o.brokerOrderNo }
  | parent filledQty remainingQty nextStatus =>
    { o with filledQty, remainingQty, status := nextStatus }

/-- The status the statement stores. -/
def nextStatus : SetClause → OrderStatus
  | status s => s
  | submit _ _ _ _ _ s _ => s
  | tracking _ _ _ _ _ _ _ _ s => s
  | failure _ _ _ s _ _ => s
  | parent _ _ s => s

variable (c : SetClause) (o : Order)

@[simp] theorem apply_id : (c.apply o).id = o.id := by cases c <;> rfl

@[simp] theorem apply_status : (c.apply o).status = c.nextStatus := by cases c <;> rfl

@[simp] theorem apply_orderKind : (c.apply o).orderKind = o.orderKind := by cases c <;> rfl

@[simp] theorem apply_orderQty : (c.apply o).orderQty = o.orderQty := by cases c <;> rfl

@[simp] theorem apply_originalOrderId : (c.apply o).originalOrderId = o.originalOrderId := by
  cases c <;> rfl

@[simp] theorem apply_createdAt : (c.apply o).createdAt = o.createdAt := by cases c <;> rfl

@[simp] theorem apply_rebalanceId : (c.apply o).rebalanceId = o.rebalanceId := by
  cases c <;> rfl

/-- No column limit depends on the status. -/
theorem fits_status {s : OrderStatus} (h : o.Fits) : ((status s).apply o).Fits := h

end SetClause

/-- `UPDATE orders SET ... WHERE id = :id [AND status IN :expected]`. -/
structure OrderUpdate where
  id : OrderId
  expected : Option (List OrderStatus)
  set : SetClause
  deriving DecidableEq

namespace OrderUpdate

/-- Does the statement change this row? -/
def selects (u : OrderUpdate) (o : Order) : Bool :=
  o.id = u.id && u.expected.all fun statuses => o.status ∈ statuses

/-- A loaded object after the statement: SQLAlchemy evaluates the `WHERE` clause on
the attributes the session holds and refreshes the objects that satisfy it. -/
def refresh (u : OrderUpdate) (o : Order) : Order :=
  if u.selects o then u.set.apply o else o

theorem selects_iff {u : OrderUpdate} {o : Order} :
    u.selects o = true ↔ o.id = u.id ∧ ∀ statuses, u.expected = some statuses → o.status ∈ statuses := by
  cases h : u.expected <;> simp [selects, h]

@[simp] theorem refresh_id (u : OrderUpdate) (o : Order) : (u.refresh o).id = o.id := by
  unfold refresh
  split <;> simp

/-- The statement leaves alone every row outside some set of live statuses. -/
def Guarded (u : OrderUpdate) : Prop :=
  ∃ statuses, u.expected = some statuses ∧ ∀ s ∈ statuses, ¬ Terminal s

theorem Guarded.not_selects {u : OrderUpdate} (h : u.Guarded) {o : Order}
    (ho : Terminal o.status) : u.selects o = false := by
  obtain ⟨statuses, hexp, hlive⟩ := h
  by_contra hsel
  have hmem := (selects_iff.mp (Bool.eq_true_of_not_eq_false hsel)).2 statuses hexp
  exact hlive _ hmem ho

end OrderUpdate

/-- The table `orders`. -/
abbrev OrderTable : Type := KeyedTable Order OrderId Order.id Order.Fits

namespace OrderTable

/-- Execute an `UPDATE`: whether a row matched, or `none` for a refused statement. -/
def execute (t : OrderTable) (u : OrderUpdate) : Option (Bool × OrderTable) :=
  (t.update u.selects u.set.apply u.set.apply_id).map fun t' => (t.rows.any u.selects, t')

theorem get?_execute {t t' : OrderTable} {u : OrderUpdate} {b : Bool}
    (h : t.execute u = some (b, t')) (k : OrderId) : t'.get? k = (t.get? k).map u.refresh := by
  simp only [execute, Option.map_eq_some_iff, Prod.mk.injEq] at h
  obtain ⟨t₁, h₁, -, rfl⟩ := h
  exact KeyedTable.get?_update h₁ k

/-- A statement tells that a row matched exactly when the row of its id did. -/
theorem execute_matched {t t' : OrderTable} {u : OrderUpdate} {b : Bool}
    (h : t.execute u = some (b, t')) :
    b = true ↔ ∃ o, t.get? u.id = some o ∧ u.selects o = true := by
  simp only [execute, Option.map_eq_some_iff, Prod.mk.injEq] at h
  obtain ⟨t₁, -, rfl, rfl⟩ := h
  rw [List.any_eq_true]
  constructor
  · rintro ⟨o, hmem, hsel⟩
    exact ⟨o, KeyedTable.get?_eq_some.mpr ⟨hmem, (OrderUpdate.selects_iff.mp hsel).1⟩, hsel⟩
  · rintro ⟨o, hget, hsel⟩
    exact ⟨o, (KeyedTable.get?_eq_some.mp hget).1, hsel⟩

end OrderTable

end Autotrading
