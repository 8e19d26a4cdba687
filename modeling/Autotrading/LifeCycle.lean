import Autotrading.TrackingCycle
import Mathlib.Data.List.ReduceOption
import Mathlib.Tactic.Simps.Basic

/-!
# The life of an order at the broker

A broker fills, cancels and rejects parts of an order until nothing of it is left. The
cycles of a NEW order without children follow that life: the stored status ends when the
order has, and the filled quantity is the one of the last row seen.
-/
namespace Autotrading.ProcessOrderStatus

open Prog OrderState OrderRepository TrackingSnapshot

/-! ## Lives -/

/-- What the broker has done so far with an order of `orderQty`. -/
@[ext] structure Life (orderQty : ℤ) where
  filled : ℤ
  cancelled : ℤ
  rejected : ℤ
  filled_nonneg : 0 ≤ filled
  cancelled_nonneg : 0 ≤ cancelled
  rejected_nonneg : 0 ≤ rejected
  within : filled + cancelled + rejected ≤ orderQty

namespace Life

variable {orderQty : ℤ}

def rest (l : Life orderQty) : ℤ := orderQty - l.filled - l.cancelled - l.rejected

theorem rest_nonneg (l : Life orderQty) : 0 ≤ l.rest := by
  have h := l.within
  rw [rest]
  omega

/-- The later life: no part has become smaller. -/
instance : LE (Life orderQty) where
  le l l' := l.filled ≤ l'.filled ∧ l.cancelled ≤ l'.cancelled ∧ l.rejected ≤ l'.rejected

theorem le_def {l l' : Life orderQty} :
    l ≤ l' ↔ l.filled ≤ l'.filled ∧ l.cancelled ≤ l'.cancelled ∧ l.rejected ≤ l'.rejected := Iff.rfl

/-- The broker has done nothing yet. -/
def fresh (h : 0 < orderQty) : Life orderQty where
  filled := 0
  cancelled := 0
  rejected := 0
  filled_nonneg := le_refl 0
  cancelled_nonneg := le_refl 0
  rejected_nonneg := le_refl 0
  within := by omega

theorem fresh_le (h : 0 < orderQty) (l : Life orderQty) : fresh h ≤ l :=
  le_def.mpr ⟨l.filled_nonneg, l.cancelled_nonneg, l.rejected_nonneg⟩

/-- Nothing happens to an order of which nothing is left. -/
theorem eq_of_rest {l l' : Life orderQty} (h : l ≤ l') (hrest : l.rest = 0) : l' = l := by
  obtain ⟨hfilled, hcancelled, hrejected⟩ := le_def.mp h
  have hwithin := l'.within
  rw [rest] at hrest
  ext <;> omega

/-- The row of an execution answer. -/
@[simps] def quantities (l : Life orderQty) : RowQuantities where
  orderQty := orderQty
  remainingQty := l.rest
  cancelConfirmQty := l.cancelled
  rejectedQty := l.rejected

@[simp] theorem filledQty_quantities (l : Life orderQty) : l.quantities.filledQty = l.filled := by
  have h := l.filled_nonneg
  simp only [RowQuantities.filledQty, quantities, rest]
  omega

end Life

/-- The status tells how far the order has come. -/
structure Shows {orderQty : ℤ} (l : Life orderQty) (status : OrderStatus) : Prop where
  known : status ∈ trackingTargetStatuses ∨ Terminal status
  ended : Terminal status ↔ l.rest = 0
  whole : status = .filled ↔ l.filled = orderQty
  started : status = .partialFilled → 0 < l.filled

section Statuses
variable {orderQty : ℤ}

theorem filled_iff (l : Life orderQty) :
    l.filled = orderQty ↔ l.rest = 0 ∧ l.cancelled = 0 ∧ l.rejected = 0 := by
  have hwithin := l.within
  have hcancelled := l.cancelled_nonneg
  have hrejected := l.rejected_nonneg
  rw [Life.rest]
  constructor
  · intro h
    omega
  · intro h
    omega

/-- The status derived from a row tells it. -/
theorem shows_rowStatus (hqty : 0 < orderQty) (l : Life orderQty) :
    Shows l (rowStatus l.quantities) := by
  have hfilled := l.filled_nonneg
  have hcancelled := l.cancelled_nonneg
  have hrejected := l.rejected_nonneg
  have hwithin := l.within
  have hrest : l.rest = orderQty - l.filled - l.cancelled - l.rejected := rfl
  unfold rowStatus
  simp only [Life.filledQty_quantities, Life.quantities_orderQty, Life.quantities_remainingQty,
    Life.quantities_cancelConfirmQty, Life.quantities_rejectedQty]
  split_ifs
  all_goals
    constructor <;> simp only [Terminal, terminalStates, trackingTargetStatuses, List.mem_cons,
      reduceCtorEq, List.not_mem_nil, or_false, or_true, true_iff, false_iff, forall_const,
      false_implies]
    all_goals omega

/-- The machine allows the status of every later row. -/
theorem canTransition_of_le (hqty : 0 < orderQty) {l l' : Life orderQty} {status : OrderStatus}
    (hle : l ≤ l') (hshows : Shows l status) (hlive : ¬ Terminal status) :
    canTransition status (rowStatus l'.quantities) = true := by
  have htracked : status ∈ trackingTargetStatuses := hshows.known.resolve_right hlive
  have hlater := shows_rowStatus hqty l'
  have hderived := derived_rowStatus l'.quantities
  rw [canTransition_of_tracked htracked hlater.known]
  have hfilled := (Life.le_def.mp hle).1
  have haccepted : status = .partialFilled → rowStatus l'.quantities ≠ .accepted := by
    intro hpartial hrow
    have hzero := hderived.accepted hrow
    have hpos := hshows.started hpartial
    rw [Life.filledQty_quantities] at hzero
    omega
  have hrow := hderived.outcome
  revert haccepted hrow htracked
  cases status <;> cases rowStatus l'.quantities <;>
    simp [trackingTargetStatuses, progress]

end Statuses

/-! ## What the cycles of an order are shown -/

section Visits
variable {orderQty : ℤ}

/-- The texts of an answer fit the columns they are stored in. -/
structure Storable (answer : DailyOrderExecutionResponse) : Prop where
  rtCd : Order.fitsText 8 answer.rtCd = true
  msgCd : Order.fitsText 32 answer.msgCd = true
  rows : ∀ rows, answer.output1 = some rows → ∀ row ∈ rows,
    Order.fitsText 16 row.ordGnoBrno = true ∧ Order.fitsText 32 row.odno = true ∧
      (Python.toDecimal (some row.avgPrvs)).all Order.fitsNumeric = true

/-- The answer holds no row of the order, or the row of this life. -/
def Holds (order : Order) (answer : DailyOrderExecutionResponse) (found : Option (Life orderQty)) :
    Prop :=
  ∃ rows, answer.output1 = some rows ∧
    match found with
    | none => matchedRow order.brokerOrderNo rows = none
    | some l => ∃ row, matchedRow order.brokerOrderNo rows = some row ∧
      rowQuantities row = .ok l.quantities

/-- A cycle of the order alone, with what the broker shows it. -/
structure Visit (orderQty : ℤ) where
  env : Env
  attempt : ℕ
  first : Option Instant
  found : Option (Life orderQty)

def Visit.after (v : Visit orderQty) (id : OrderId) (w : World) : World :=
  (run (World.handle v.env) (processOrderStatus (some id) v.attempt v.first) w).2

/-- Inside the tracking window, nothing but the broker can fail, and the broker answers
an order that is still tracked. -/
structure Visit.Answered (v : Visit orderQty) (id : OrderId) (w : World) : Prop where
  available : Available v.env
  window : (cycleAt v.attempt v.first (v.env.now w.tick)).elapsed < 1800 * 1000000
  answered : ∀ order, w.orders.get? id = some order → order.status ∈ trackingTargetStatuses →
    ∃ answer, queried v.env w order = .ok answer ∧ Storable answer ∧ Holds order answer v.found

/-- Lone cycles of the order and what they were shown. In between others may do what they
want, short of changing the order or giving it a child. -/
inductive Trail (id : OrderId) (w : World) : List (Option (Life orderQty)) → World → Prop
  | start : Trail id w [] w
  | others {seen w₁ w₂} (run : Trail id w seen w₁)
      (same : w₂.orders.get? id = w₁.orders.get? id) (childless : Childless id w₂) :
      Trail id w seen w₂
  | visit {seen w₁} (run : Trail id w seen w₁) (v : Visit orderQty) (answered : v.Answered id w₁) :
      Trail id w (seen ++ [v.found]) (v.after id w₁)

/-- A NEW order without children, just sent to the broker. -/
structure Starts (orderQty : ℤ) (id : OrderId) (w : World) : Prop where
  childless : Childless id w
  row : ∃ order, w.orders.get? id = some order ∧ order.orderKind = .new ∧
    order.orderQty = orderQty ∧ 0 < orderQty ∧ order.status ∈ [.requested, .accepted] ∧
    order.filledQty = 0 ∧ ∃ number, order.brokerOrderNo = some number ∧ Python.strip number ≠ []

/-- The row of the order stands where this life says. -/
structure Reflects (order : Order) (l : Life orderQty) : Prop where
  kind : order.orderKind = .new
  qty : order.orderQty = orderQty
  number : ∃ number, order.brokerOrderNo = some number ∧ Python.strip number ≠ []
  filled : order.filledQty = l.filled
  shows : Shows l order.status

theorem Reflects.truthy {order : Order} {l : Life orderQty} (h : Reflects order l) :
    Python.truthy order.brokerOrderNo = true := by
  obtain ⟨number, hnumber, hblank⟩ := h.number
  rw [hnumber, Python.truthy, decide_eq_true_eq]
  intro hempty
  rw [hempty] at hblank
  exact hblank rfl

theorem Starts.reflects {id : OrderId} {w : World} (h : Starts orderQty id w) :
    ∃ (hqty : 0 < orderQty) (order : Order), w.orders.get? id = some order ∧
      Reflects order (Life.fresh hqty) := by
  obtain ⟨order, hr, hkind, hquantity, hqty, hstatus, hfilled, hnumber⟩ := h.row
  refine ⟨hqty, order, hr, hkind, hquantity, hnumber, hfilled, ?_⟩
  have hrest : (Life.fresh hqty).rest ≠ 0 := by
    simp only [Life.rest, Life.fresh]
    omega
  have hwhole : (Life.fresh hqty).filled ≠ orderQty := by
    simp only [Life.fresh]
    omega
  revert hstatus
  cases order.status <;> simp only [List.mem_cons, reduceCtorEq, List.not_mem_nil, or_false,
    or_true, false_implies, true_implies]
  all_goals
    constructor <;> simp [trackingTargetStatuses, Terminal, terminalStates, hrest, hwhole]

/-- A row in the columns keeps fitting when what a cycle stores does. -/
theorem fits_kept {order : Order} {answer : DailyOrderExecutionResponse} (hfit : order.Fits)
    (hanswer : Storable answer) :
    ((tracked order (keptSnapshot order answer)).set.apply order).Fits := by
  have hrt := hanswer.rtCd
  have hmsg := hanswer.msgCd
  simp only [Order.Fits, Order.fits, tracked, trackingUpdate, keptSnapshot, SetClause.apply,
    Order.fitsOptional, Bool.and_eq_true] at hfit hrt hmsg ⊢
  simp_all

theorem fits_row {order : Order} {answer : DailyOrderExecutionResponse}
    {row : DailyOrderExecutionItem} {rows : List DailyOrderExecutionItem} {l : Life order.orderQty}
    (hfit : order.Fits) (hanswer : Storable answer) (hrows : answer.output1 = some rows)
    (hrow : row ∈ rows) :
    ((tracked order (rowSnapshot order answer row l.quantities false)).set.apply order).Fits := by
  have hrt := hanswer.rtCd
  have hmsg := hanswer.msgCd
  obtain ⟨horg, hnumber, hprice⟩ := hanswer.rows rows hrows row hrow
  have hparts : Order.fitsInteger l.filled = true ∧ Order.fitsInteger l.rest = true := by
    have hqty : Order.fitsInteger order.orderQty = true := by
      simp only [Order.Fits, Order.fits, Bool.and_eq_true] at hfit
      tauto
    have hrest := l.rest_nonneg
    have hfilled := l.filled_nonneg
    have hcancelled := l.cancelled_nonneg
    have hrejected := l.rejected_nonneg
    rw [Life.rest] at hrest ⊢
    simp only [Order.fitsInteger, Bool.and_eq_true, decide_eq_true_eq] at hqty ⊢
    omega
  simp only [Order.Fits, Order.fits, tracked, trackingUpdate, rowSnapshot, SetClause.apply,
    Order.fitsOptional, Life.filledQty_quantities, Life.quantities_remainingQty,
    Bool.and_eq_true] at hfit hrt hmsg ⊢
  simp_all

theorem matchedRow_strip {number : Option String} {rows : List DailyOrderExecutionItem}
    {row : DailyOrderExecutionItem} (hrow : matchedRow number rows = some row) :
    row ∈ rows ∧ Python.strip row.odno = Python.strip (Python.str number) := by
  unfold matchedRow at hrow
  have hsame := List.find?_some hrow
  exact ⟨List.mem_of_find?_eq_some hrow, eq_of_beq hsame⟩

/-- What a cycle makes of its order: the status is one the machine allows, and the row
afterwards stands where the answer says. -/
theorem Reflects.step {order : Order} {l : Life orderQty} {found : Option (Life orderQty)}
    {answer : DailyOrderExecutionResponse} (h : Reflects order l) (hqty : 0 < orderQty)
    (hlive : ¬ Terminal order.status) (hfit : order.Fits) (hstorable : Storable answer)
    (hholds : Holds order answer found) (hle : ∀ l', found = some l' → l ≤ l') :
    ∃ snapshot, extractOrderTrackingSnapshot order answer false = .ok snapshot ∧
      canTransition order.status snapshot.result.nextStatus = true ∧
      ((tracked order snapshot).set.apply order).Fits ∧
      Reflects ((tracked order snapshot).set.apply order) (found.getD l) := by
  obtain ⟨rows, hrows, hmatch⟩ := hholds
  cases found with
  | none =>
    refine ⟨keptSnapshot order answer, extractOrderTrackingSnapshot_kept hrows hmatch false,
      canTransition_self hlive, fits_kept hfit hstorable, ?_⟩
    constructor
    · rw [SetClause.apply_orderKind, h.kind]
    · rw [SetClause.apply_orderQty, h.qty]
    · exact h.number
    · exact h.filled
    · exact h.shows
  | some l' =>
    obtain ⟨row, hrow, hquantities⟩ := hmatch
    obtain ⟨hmem, hsame⟩ := matchedRow_strip hrow
    obtain ⟨number, hnumber, hblank⟩ := h.number
    have hnext : (rowSnapshot order answer row l'.quantities false).result.nextStatus =
        rowStatus l'.quantities := by simp [rowSnapshot]
    have hallowed := canTransition_of_le hqty (hle l' rfl) h.shows hlive
    refine ⟨rowSnapshot order answer row l'.quantities false,
      extractOrderTrackingSnapshot_row hrows hrow hquantities false, by rw [hnext]; exact hallowed,
      ?_, ?_⟩
    · obtain rfl := h.qty
      exact fits_row hfit hstorable hrows hmem
    · constructor
      · rw [SetClause.apply_orderKind, h.kind]
      · rw [SetClause.apply_orderQty, h.qty]
      · refine ⟨row.odno, rfl, ?_⟩
        rw [hsame, hnumber]
        exact hblank
      · exact l'.filledQty_quantities
      · have hshows := shows_rowStatus hqty l'
        rw [← hnext] at hshows
        exact hshows

/-- One cycle: what it derives, and where it leaves the order. -/
theorem Reflects.visit {id : OrderId} {w : World} {order : Order} {l : Life orderQty}
    {v : Visit orderQty} (h : Reflects order l) (hqty : 0 < orderQty)
    (hr : w.orders.get? id = some order) (hchildless : Childless id w) (hv : v.Answered id w)
    (hle : ∀ l', v.found = some l' → l ≤ l') :
    (¬ Terminal order.status → ∃ answer snapshot, queried v.env w order = .ok answer ∧
      extractOrderTrackingSnapshot order answer false = .ok snapshot ∧
      canTransition order.status snapshot.result.nextStatus = true) ∧
    Childless id (v.after id w) ∧
    ∃ order', (v.after id w).orders.get? id = some order' ∧ Reflects order' (v.found.getD l) := by
  obtain rfl := KeyedTable.key_of_get? hr
  by_cases hterminal : Terminal order.status
  · -- the cycle finds the order ended, and the broker's part in it is over
    have hstatus : order.status ∉ trackingTargetStatuses := by
      intro htracked
      exact not_terminal_of_tracked htracked hterminal
    have hkept : (v.after order.id w).orders = w.orders := run_untracked hv.available hr hstatus
    refine ⟨fun hlive => absurd hterminal hlive, ?_, order, by rw [hkept]; exact hr, ?_⟩
    · unfold Childless
      rw [hkept]
      exact hchildless
    · have hsame : v.found.getD l = l := by
        cases hfound : v.found with
        | none => rfl
        | some l' => exact Life.eq_of_rest (hle l' hfound) (h.shows.ended.mp hterminal)
      rw [hsame]
      exact h
  · have htracked := h.shows.known.resolve_right hterminal
    obtain ⟨answer, hanswer, hstorable, hholds⟩ := hv.answered order hr htracked
    obtain ⟨snapshot, hsnapshot, hallowed, hfit, hreflects⟩ := h.step hqty hterminal
      (KeyedTable.fits_of_get? hr) hstorable hholds hle
    have hafter := run_processOrderStatus hv.available hr h.kind hchildless h.truthy htracked hanswer
      hsnapshot hallowed hfit hv.window
    have hsel : (tracked order snapshot).selects order = true :=
      expectedStatuses_selects htracked snapshot.result
    refine ⟨fun _ => ⟨answer, snapshot, hanswer, hsnapshot, hallowed⟩, ?_,
      (tracked order snapshot).set.apply order, ?_, hreflects⟩
    · rw [childless_iff] at hchildless ⊢
      intro k r hrow
      rw [Visit.after, hafter, Option.map_eq_some_iff] at hrow
      obtain ⟨r₀, hr₀, rfl⟩ := hrow
      rw [OrderUpdate.refresh]
      split
      · rw [SetClause.apply_originalOrderId]
        exact hchildless k r₀ hr₀
      · exact hchildless k r₀ hr₀
    · rw [Visit.after, hafter, hr, Option.map_some, OrderUpdate.refresh, if_pos hsel]

/-! ## Whole runs -/

/-- The last life seen. -/
def lastSeen (hqty : 0 < orderQty) (seen : List (Option (Life orderQty))) : Life orderQty :=
  seen.reduceOption.getLastD (Life.fresh hqty)

theorem lastSeen_concat (hqty : 0 < orderQty) (seen : List (Option (Life orderQty)))
    (found : Option (Life orderQty)) :
    lastSeen hqty (seen ++ [found]) = found.getD (lastSeen hqty seen) := by
  unfold lastSeen
  rw [List.reduceOption_append, List.reduceOption_singleton]
  cases found with
  | none => simp
  | some l => simp

/-- In a growing sequence the last life seen comes before the next one. -/
theorem lastSeen_le (hqty : 0 < orderQty) {seen : List (Option (Life orderQty))}
    {l : Life orderQty} (hmono : (seen ++ [some l]).reduceOption.Pairwise (· ≤ ·)) :
    lastSeen hqty seen ≤ l := by
  rw [List.reduceOption_append, List.reduceOption_singleton, List.pairwise_append] at hmono
  obtain ⟨-, -, hbefore⟩ := hmono
  unfold lastSeen
  cases hlast : seen.reduceOption.getLast? with
  | none =>
    rw [List.getLastD_eq_getLast?, hlast]
    exact Life.fresh_le hqty l
  | some l₀ =>
    rw [List.getLastD_eq_getLast?, hlast]
    exact hbefore l₀ (List.mem_of_getLast? hlast) l (by simp)

/-- The order always stands where the last life seen says. -/
theorem reflects_run {id : OrderId} {w w' : World} {seen : List (Option (Life orderQty))}
    (hqty : 0 < orderQty) (hstart : Starts orderQty id w) (hrun : Trail id w seen w')
    (hmono : seen.reduceOption.Pairwise (· ≤ ·)) :
    Childless id w' ∧ ∃ order, w'.orders.get? id = some order ∧
      Reflects order (lastSeen hqty seen) := by
  induction hrun with
  | start =>
    obtain ⟨_, order, hr, hreflects⟩ := hstart.reflects
    exact ⟨hstart.childless, order, hr, hreflects⟩
  | others run same childless ih =>
    obtain ⟨-, order, hr, hreflects⟩ := ih hmono
    exact ⟨childless, order, by rw [same, hr], hreflects⟩
  | @visit seen w₁ run v answered ih =>
    have hbefore : seen.reduceOption.Pairwise (· ≤ ·) := by
      rw [List.reduceOption_append] at hmono
      exact (List.pairwise_append.mp hmono).1
    obtain ⟨hchildless, order, hr, hreflects⟩ := ih hbefore
    have hle : ∀ l, v.found = some l → lastSeen hqty seen ≤ l := by
      intro l hl
      rw [hl] at hmono
      exact lastSeen_le hqty hmono
    obtain ⟨-, hchildless', order', hr', hreflects'⟩ :=
      hreflects.visit hqty hr hchildless answered hle
    refine ⟨hchildless', order', hr', ?_⟩
    rw [lastSeen_concat]
    exact hreflects'

/-- The cycle takes its order from one row to the next as the broker's answer demands. -/
structure Mirrors (v : Visit orderQty) (w : World) (order order' : Order) : Prop where
  allowed : ¬ Terminal order.status → ∃ answer snapshot, queried v.env w order = .ok answer ∧
    extractOrderTrackingSnapshot order answer false = .ok snapshot ∧
    canTransition order.status snapshot.result.nextStatus = true
  grows : order.filledQty ≤ order'.filledQty
  filled : ∀ l, v.found = some l → order'.filledQty = l.filled
  ended : ∀ l, v.found = some l → (Terminal order'.status ↔ l.rest = 0)
  whole : ∀ l, v.found = some l →
    (order'.status = .filled ↔ l.rest = 0 ∧ l.cancelled = 0 ∧ l.rejected = 0)
  unseen : v.found = none → order'.filledQty = order.filledQty ∧
    (Terminal order'.status ↔ Terminal order.status) ∧
    (order'.status = .filled ↔ order.status = .filled)

/-- Tracking follows the broker. Whatever rows the cycles of a NEW order without children
are shown, as long as no part of them shrinks, each cycle derives a status the machine
allows, stores the filled part of its row, and stores an end exactly when nothing is left:
FILLED when all of it was filled, and another end otherwise. -/
theorem tracking_follows_life {id : OrderId} {w w' : World}
    {seen : List (Option (Life orderQty))} (hstart : Starts orderQty id w)
    (hrun : Trail id w seen w') (v : Visit orderQty) (hv : v.Answered id w')
    (hmono : (seen ++ [v.found]).reduceOption.Pairwise (· ≤ ·)) :
    ∃ order order', w'.orders.get? id = some order ∧
      (v.after id w').orders.get? id = some order' ∧ Mirrors v w' order order' := by
  obtain ⟨hqty, -⟩ := hstart.reflects
  have hbefore : seen.reduceOption.Pairwise (· ≤ ·) := by
    rw [List.reduceOption_append] at hmono
    exact (List.pairwise_append.mp hmono).1
  obtain ⟨hchildless, order, hr, hreflects⟩ := reflects_run hqty hstart hrun hbefore
  have hle : ∀ l, v.found = some l → lastSeen hqty seen ≤ l := by
    intro l hl
    rw [hl] at hmono
    exact lastSeen_le hqty hmono
  obtain ⟨hallowed, -, order', hr', hreflects'⟩ := hreflects.visit hqty hr hchildless hv hle
  refine ⟨order, order', hr, hr', hallowed, ?_, ?_, ?_, ?_, ?_⟩
  · rw [hreflects.filled, hreflects'.filled]
    cases hfound : v.found with
    | none => exact le_refl _
    | some l => exact (hle l hfound).1
  · intro l hl
    rw [hreflects'.filled, hl, Option.getD_some]
  · intro l hl
    have hended := hreflects'.shows.ended
    rwa [hl, Option.getD_some] at hended
  · intro l hl
    have hwhole := hreflects'.shows.whole
    rwa [hl, Option.getD_some, filled_iff] at hwhole
  · intro hnone
    rw [hnone, Option.getD_none] at hreflects'
    exact ⟨by rw [hreflects'.filled, hreflects.filled],
      hreflects'.shows.ended.trans hreflects.shows.ended.symm,
      hreflects'.shows.whole.trans hreflects.shows.whole.symm⟩

/-- Four of ten shares are filled, and the rest is then cancelled. -/
def Life.partly : Life 10 := ⟨4, 0, 0, by decide, by decide, by decide, by decide⟩

def Life.cutShort : Life 10 := ⟨4, 6, 0, by decide, by decide, by decide, by decide⟩

/-- A first cycle for order 1 in surroundings in which the broker reports this row. -/
def Visit.showing (rmnQty cnclCfrmQty : String) (l : Life 10) : Visit 10 where
  env := { Env.quiet with
    get := fun _ _ => ExecutionAnswer.ofRows [⟨"91252", "7", "10", rmnQty, cnclCfrmQty, "0", "100", "4"⟩] }
  attempt := 0
  first := none
  found := some l

/-- The row of order 1 in these surroundings, and the answer that holds it. -/
def rowShowing (rmnQty cnclCfrmQty : String) : DailyOrderExecutionItem :=
  ⟨"91252", "7", "10", rmnQty, cnclCfrmQty, "0", "100", "4"⟩

def answerShowing (rmnQty cnclCfrmQty : String) : DailyOrderExecutionResponse :=
  ⟨"0", "OK", "", some [rowShowing rmnQty cnclCfrmQty]⟩

theorem answered_showing {w : World} {order : Order} {rmnQty cnclCfrmQty : String} {l : Life 10}
    (hr : w.orders.get? 1 = some order)
    (hanswer : queried (Visit.showing rmnQty cnclCfrmQty l).env w order =
      .ok (answerShowing rmnQty cnclCfrmQty))
    (hrow : matchedRow order.brokerOrderNo [rowShowing rmnQty cnclCfrmQty] =
      some (rowShowing rmnQty cnclCfrmQty))
    (hquantities : rowQuantities (rowShowing rmnQty cnclCfrmQty) = .ok l.quantities) :
    (Visit.showing rmnQty cnclCfrmQty l).Answered 1 w where
  available := by
    intro n o _
    rfl
  window := by
    show max ((0 : ℤ) - 0) 0 < 1800 * 1000000
    decide
  answered := by
    intro order' hr' _
    rw [hr] at hr'
    obtain rfl := Option.some.inj hr'
    refine ⟨_, hanswer, ⟨?_, ?_, ?_⟩, _, rfl, _, hrow, hquantities⟩
    · show Order.fitsText 8 "0" = true
      decide
    · show Order.fitsText 32 "OK" = true
      decide
    · intro rows hrows row hmem
      obtain rfl := Option.some.inj hrows
      obtain rfl := List.mem_singleton.mp hmem
      show Order.fitsText 16 "91252" = true ∧ Order.fitsText 32 "7" = true ∧
        (Python.toDecimal (some "100")).all Order.fitsNumeric = true
      decide +kernel

theorem tracking_follows_life_sample :
    ∃ order order',
      ((Visit.showing "6" "0" .partly).after 1 (.holding [Order.sample 1 .requested] [])).orders.get? 1 =
        some order ∧
      ((Visit.showing "0" "6" .cutShort).after 1 ((Visit.showing "6" "0" .partly).after 1
        (.holding [Order.sample 1 .requested] []))).orders.get? 1 = some order' ∧
      Mirrors (Visit.showing "0" "6" .cutShort) ((Visit.showing "6" "0" .partly).after 1
        (.holding [Order.sample 1 .requested] [])) order order' := by
  have hstart : Starts 10 1 (.holding [Order.sample 1 .requested] []) := by
    refine ⟨?_, Order.sample 1 .requested, by decide +kernel, rfl, rfl, by decide, by decide, rfl,
      "7", rfl, by decide⟩
    unfold Childless
    decide +kernel
  have hrow : (World.holding [Order.sample 1 .requested] []).orders.get? 1 =
      some (Order.sample 1 .requested) := by decide +kernel
  have hfirst : (Visit.showing "6" "0" .partly).Answered 1 (.holding [Order.sample 1 .requested] []) :=
    answered_showing hrow (by decide +kernel) (by decide +kernel) (by decide +kernel)
  have hrow' : ((Visit.showing "6" "0" .partly).after 1
      (.holding [Order.sample 1 .requested] [])).orders.get? 1 =
      some { Order.sample 1 .partialFilled with
        rtCd := some "0", msgCd := some "OK", msg1 := some "", filledQty := 4, remainingQty := 6
        avgFillPrice := some (.finite 100) } := by decide +kernel
  have hsecond : (Visit.showing "0" "6" .cutShort).Answered 1
      ((Visit.showing "6" "0" .partly).after 1 (.holding [Order.sample 1 .requested] [])) :=
    answered_showing hrow' (by decide +kernel) (by decide +kernel) (by decide +kernel)
  have htrail : Trail 1 (.holding [Order.sample 1 .requested] []) [some .partly]
      ((Visit.showing "6" "0" .partly).after 1 (.holding [Order.sample 1 .requested] [])) :=
    .visit .start _ hfirst
  refine tracking_follows_life hstart htrail _ hsecond ?_
  simp [Visit.showing, List.reduceOption, Life.le_def, Life.partly, Life.cutShort]

end Visits

end Autotrading.ProcessOrderStatus
