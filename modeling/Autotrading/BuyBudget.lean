import Autotrading.SystemRules
import Mathlib.Algebra.BigOperators.Ring.Finset
import Mathlib.Algebra.Order.BigOperators.Group.List
import Mathlib.Tactic.Linarith

/-!
# The budget of the buys

A run looks at its cash twice: for the plan, and again after its sells. The buys it then
stores cost, at the prices of the plan, no more than the second look reported. New buy
orders are what the quantities of the second look allow; no other call of the run costs
anything.
-/
namespace Autotrading

open Machine Prog
open Machine.Sys (start)

variable {settings : Settings} {h h' : Calls} {prices : String → ℤ}

/-! ## What a call costs -/

/-- `quantity * price_map[code]` of a new buy order. -/
def orderCost (prices : String → ℤ) (o : Order) : ℤ :=
  if o.orderPos = .buy ∧ o.orderKind = .new then o.orderQty * prices o.stockCode else 0

/-- What the buy orders of a call cost, stored or refused. -/
def cost (prices : String → ℤ) : Op → ℤ
  | .insertOrders os => (os.map (orderCost prices)).sum
  | _ => 0

def spent (prices : String → ℤ) (h : Calls) : ℤ := (h.map fun x => cost prices x.2.1).sum

/-- What a look at the cash comes to: a failed one counts as none. -/
def looked : Except PyExc ℤ → ℤ
  | .ok cash => cash
  | .error _ => 0

def cashAnswer : Entry → Option ℤ
  | (_, ⟨.availableBuy, r⟩) => some (looked r)
  | _ => none

def cashAnswers (h : Calls) : List ℤ := h.filterMap cashAnswer

/-- The cash that the account service reported after the sells, at the second look of the
run. -/
def cashAfterSells (h : Calls) : ℤ := (cashAnswers h)[1]?.getD 0

/-- The buys so far are paid for. -/
def WithinCash (prices : String → ℤ) (h : Calls) : Prop := spent prices h ≤ max (cashAfterSells h) 0

@[simp] theorem spent_append (n : ℕ) (o : Op) (r : Except PyExc (Ans o)) :
    spent prices (h ++ [(n, ⟨o, r⟩)]) = spent prices h + cost prices o := by
  simp [spent]

/-- A call that stores no buy and does not look at the cash. -/
def Free (prices : String → ℤ) (o : Op) : Prop := cost prices o = 0 ∧ o ≠ .availableBuy

/-- The looks at the cash so far, and what was spent. -/
structure Books (prices : String → ℤ) (looks : List ℤ) (total : ℤ) (h : Calls) : Prop where
  answers : cashAnswers h = looks
  total : spent prices h = total

theorem cashAnswers_append_of_ne {n : ℕ} {o : Op} {r : Except PyExc (Ans o)}
    (ho : o ≠ .availableBuy) : cashAnswers (h ++ [(n, ⟨o, r⟩)]) = cashAnswers h := by
  have hnone : cashAnswer (n, ⟨o, r⟩) = none := by
    cases o
    case availableBuy => exact absurd rfl ho
    all_goals rfl
  simp [cashAnswers, hnone]

theorem Books.free {looks : List ℤ} {total : ℤ} (hb : Books prices looks total h) {n : ℕ} {o : Op}
    {r : Except PyExc (Ans o)} (ho : Free prices o) :
    Books prices looks total (h ++ [(n, ⟨o, r⟩)]) where
  answers := (cashAnswers_append_of_ne ho.2).trans hb.answers
  total := by rw [spent_append, ho.1, add_zero, hb.total]

theorem WithinCash.free (hw : WithinCash prices h) {n : ℕ} {o : Op} {r : Except PyExc (Ans o)}
    (ho : Free prices o) : WithinCash prices (h ++ [(n, ⟨o, r⟩)]) := by
  unfold WithinCash cashAfterSells at *
  rw [cashAnswers_append_of_ne ho.2, spent_append, ho.1, add_zero]
  exact hw

/-- Nothing spent is within any cash. -/
theorem withinCash_of_nothing (hspent : spent prices h = 0) : WithinCash prices h := by
  unfold WithinCash
  rw [hspent]
  exact le_max_right _ _

/-- A call after which the buys so far are paid for. -/
def Affordable (prices : String → ℤ) (h : Calls) (o : Op) : Prop :=
  ∀ n r, WithinCash prices (h ++ [(n, ⟨o, r⟩)])

section Rules
variable {α : Type} {p : Program α} {post : Calls → Except PyExc α → Prop}

/-- Free calls keep the books, and with nothing spent so far are affordable. -/
theorem along_books {looks : List ℤ} (hp : Along (fun _ o => Free prices o) post h p)
    (hb : Books prices looks 0 h) :
    Along (Affordable prices) (fun h' r => Books prices looks 0 h' ∧ post h' r) h p := by
  refine (hp.keeping (fun _ _ _ _ hb ho => hb.free ho) hb).mono ?_ fun _ _ hr => hr
  rintro h₁ o ⟨hb₁, ho⟩ n r
  exact withinCash_of_nothing (hb₁.free ho).total

/-- Free calls are affordable whenever what was spent is. -/
theorem along_free (hp : Along (fun _ o => Free prices o) post h p) (hw : WithinCash prices h) :
    Along (Affordable prices) (fun h' r => WithinCash prices h' ∧ post h' r) h p := by
  refine (hp.keeping (fun _ _ _ _ hw ho => hw.free ho) hw).mono ?_ fun _ _ hr => hr
  rintro h₁ o ⟨hw₁, ho⟩ n r
  exact hw₁.free ho

/-- When every call is affordable, the buys are paid for at the end. -/
theorem along_withinCash (hp : Along (Affordable prices) post h p) (hw : WithinCash prices h) :
    Along (Affordable prices) (fun h' r => WithinCash prices h' ∧ post h' r) h p :=
  (hp.keeping (fun _ _ n r _ ho => ho n r) hw).mono (fun _ _ hq => hq.2) fun _ _ hr => hr

end Rules

/-- A wait costs nothing: it stores cancel orders only. -/
theorem allowsWait_free (g : OrderGenerator) : g.AllowsWait fun _ o => Free prices o where
  plain := by
    intro h o ho
    cases o
    all_goals first | exact False.elim ho | exact ⟨rfl, nofun⟩
  cancel := by
    intro h os _ hos
    refine ⟨List.sum_eq_zero fun c hc => ?_, nofun⟩
    obtain ⟨o, ho, rfl⟩ := List.mem_map.mp hc
    obtain ⟨-, order, remaining, -, heq⟩ := hos o ho
    rw [heq]
    exact if_neg fun hnew => OrderKind.noConfusion hnew.2
  queue := fun _ _ _ _ _ => ⟨rfl, nofun⟩

theorem free_of_plain (_ : Calls) (o : Op) (ho : RebalanceRun.Plain o) : Free prices o := by
  cases o
  all_goals first | exact False.elim ho | exact ⟨rfl, nofun⟩

/-! ## The recalculated buys -/

/-- `price_map.get(code, 0)`. -/
def RebalancePlan.price (plan : RebalancePlan) (code : String) : ℤ :=
  (plan.priceMap.lookup code).getD 0

section Recalculated
open OrderGenerator
variable {g : OrderGenerator} {plan : RebalancePlan}

theorem orderCost_orderRow {r : OrderRequest} (haction : r.action = .buy)
    (hkind : r.orderKind = .new) :
    orderCost prices (orderRow g r) = r.quantity * prices r.stockCode := if_pos ⟨haction, hkind⟩

/-- A recalculated buy costs at most what is allotted to its stock. -/
theorem along_recalculateBuyOrder_cost {alloc : ℚ} {code : String} :
    Along (fun _ _ => True) (fun _ r => ∀ y, r = .ok (some y) →
        0 ≤ orderCost plan.price (orderRow g y) ∧
          (orderCost plan.price (orderRow g y) : ℚ) ≤ max alloc 0) h
      (recalculateBuyOrder g plan alloc code) := by
  have hnone : Along (fun _ _ => True) (fun _ r => ∀ y, r = .ok (some y) →
      0 ≤ orderCost plan.price (orderRow g y) ∧
        (orderCost plan.price (orderRow g y) : ℚ) ≤ max alloc 0) h
      (pure none : Program (Option OrderRequest)) := by
    rw [along_pure]
    rintro y ⟨⟩
  unfold recalculateBuyOrder
  simp only
  split
  · exact hnone
  · next hprice =>
    split
    · exact hnone
    · next hqty =>
      rw [Int.not_le] at hprice hqty
      refine (along_true _).bind ?_ (by rintro _ _ _ _ _ ⟨⟩)
      intro h₁ orderId _ _
      rw [along_pure]
      rintro y ⟨⟩
      have hpos : (0 : ℚ) < plan.price code := Int.cast_pos.mpr hprice
      have hfloor : (⌊alloc / plan.price code⌋ : ℚ) * plan.price code ≤ alloc :=
        (le_div_iff₀ hpos).mp (Int.floor_le _)
      constructor
      · rw [orderCost_orderRow rfl rfl]
        exact (mul_pos hqty hprice).le
      · rw [orderCost_orderRow rfl rfl, Int.cast_mul]
        exact hfloor.trans (le_max_left _ _)

/-- Together they cost at most the cash. -/
theorem along_recalculateBuyOrders_cost {cash : ℤ} :
    Along (fun _ _ => True) (fun _ r => ∀ ys, r = .ok ys →
        (∀ y ∈ ys, 0 ≤ orderCost plan.price (orderRow g y)) ∧
          (ys.map fun y => orderCost plan.price (orderRow g y)).sum ≤ max cash 0) h
      (recalculateBuyOrders g plan cash) := by
  unfold recalculateBuyOrders
  extract_lets holdValue totalPortfolioValue targetPerStock holdingCodes newBuyCodes actualBudget
  split
  · rw [along_pure]
    rintro ys ⟨⟩
    simp
  · next hsome =>
    rw [not_or, not_or] at hsome
    have hcodes : (0 : ℚ) < newBuyCodes.length := by
      exact_mod_cast List.length_pos_iff.mpr hsome.2.2
    have hround : Along (fun _ _ => True) (fun _ r => ∀ ys, r = .ok ys → ∀ y ∈ ys,
        0 ≤ orderCost plan.price (orderRow g y) ∧ (orderCost plan.price (orderRow g y) : ℚ) ≤
          max (actualBudget / newBuyCodes.length) 0) h
        (collect (recalculateBuyOrder g plan (actualBudget / newBuyCodes.length)) newBuyCodes) :=
      along_collect (fun _ _ _ _ hy => hy) fun _ _ _ _ => along_recalculateBuyOrder_cost
    refine (hround.and_post (along_collect_length newBuyCodes)).mono (fun _ _ hq => hq) ?_
    rintro h₁ r ⟨hall, hlength⟩ ys rfl
    refine ⟨fun y hy => (hall ys rfl y hy).1, ?_⟩
    have hbudget : newBuyCodes.length * max (actualBudget / newBuyCodes.length) 0 ≤
        max (cash : ℚ) 0 := by
      rw [mul_max_of_nonneg _ _ hcodes.le, mul_div_cancel₀ _ hcodes.ne', mul_zero]
      exact max_le_max_right 0 (min_le_right _ _)
    have hys : (ys.length : ℚ) ≤ newBuyCodes.length := by exact_mod_cast hlength ys rfl
    have hsum : ((ys.map fun y => orderCost plan.price (orderRow g y)).sum : ℚ) ≤ max (cash : ℚ) 0 := by
      calc ((ys.map fun y => orderCost plan.price (orderRow g y)).sum : ℚ)
          = (ys.map fun y => (orderCost plan.price (orderRow g y) : ℚ)).sum := by
            rw [Int.cast_list_sum, List.map_map]
            rfl
        _ ≤ ys.length • max (actualBudget / newBuyCodes.length) 0 := by
            refine (List.sum_le_card_nsmul _ _ ?_).trans_eq (by rw [List.length_map])
            intro c hc
            obtain ⟨y, hy, rfl⟩ := List.mem_map.mp hc
            exact (hall ys rfl y hy).2
        _ ≤ newBuyCodes.length * max (actualBudget / newBuyCodes.length) 0 := by
            rw [nsmul_eq_mul]
            exact mul_le_mul_of_nonneg_right hys (le_max_right _ _)
        _ ≤ max (cash : ℚ) 0 := hbudget
    exact_mod_cast hsum

/-! ## The buys, one by one -/

/-- In the loop over the buys: what was spent and what the rest will cost. -/
structure Paying (g : OrderGenerator) (plan : RebalancePlan) (looks : List ℤ)
    (rest : List OrderRequest) (h : Calls) : Prop where
  made : ∀ y ∈ rest, Made plan.rebalanceId h y
  nonneg : ∀ y ∈ rest, 0 ≤ orderCost plan.price (orderRow g y)
  answers : cashAnswers h = looks
  within : spent plan.price h + (rest.map fun y => orderCost plan.price (orderRow g y)).sum ≤
    max (looks[1]?.getD 0) 0

theorem Paying.withinCash {looks : List ℤ} {rest : List OrderRequest}
    (hp : Paying g plan looks rest h) : WithinCash plan.price h := by
  have hrest : 0 ≤ (rest.map fun y => orderCost plan.price (orderRow g y)).sum := by
    refine List.sum_nonneg fun c hc => ?_
    obtain ⟨y, hy, rfl⟩ := List.mem_map.mp hc
    exact hp.nonneg y hy
  have hwithin := hp.within
  unfold WithinCash cashAfterSells
  rw [hp.answers]
  omega

/-- The cost of a buy moves from what is left to what was spent. -/
theorem Paying.insert {looks : List ℤ} {y : OrderRequest} {rest : List OrderRequest}
    (hp : Paying g plan looks (y :: rest) h) (n : ℕ)
    (r : Except PyExc (Ans (.insertOrders [orderRow g y]))) :
    Paying g plan looks rest (h ++ [(n, ⟨.insertOrders [orderRow g y], r⟩)]) where
  made := fun z hz => (hp.made z (List.mem_cons_of_mem _ hz)).mono (List.prefix_append _ _)
  nonneg := fun z hz => hp.nonneg z (List.mem_cons_of_mem _ hz)
  answers := (cashAnswers_append_of_ne (o := .insertOrders _) nofun).trans hp.answers
  within := by
    have hwithin := hp.within
    simp only [List.map_cons, List.sum_cons] at hwithin
    simp only [spent_append, cost, List.map_cons, List.map_nil, List.sum_cons, List.sum_nil]
    omega

theorem Paying.free {looks : List ℤ} {rest : List OrderRequest} (hp : Paying g plan looks rest h)
    {n : ℕ} {o : Op} {r : Except PyExc (Ans o)} (ho : Free plan.price o) :
    Paying g plan looks rest (h ++ [(n, ⟨o, r⟩)]) where
  made := fun z hz => (hp.made z hz).mono (List.prefix_append _ _)
  nonneg := hp.nonneg
  answers := (cashAnswers_append_of_ne ho.2).trans hp.answers
  within := by
    rw [spent_append, ho.1, add_zero]
    exact hp.within

theorem along_insertAndQueue {looks : List ℤ} {y : OrderRequest} {rest : List OrderRequest}
    (hp : Paying g plan looks (y :: rest) h) :
    Along (Affordable plan.price) (fun h' r => r = .ok () → Paying g plan looks rest h') h
      (insertAndQueue g y) := by
  have hinsert : Along (Affordable plan.price) (fun h' _ => Paying g plan looks rest h') h
      (OrderRepository.createOrder (orderRow g y)) :=
    .perform (fun n r => (hp.insert n r).withinCash) fun n r => hp.insert n r
  refine hinsert.bind ?_ (by rintro _ _ _ _ ⟨⟩)
  intro h₁ _ _ hp₁
  have hqueue : Free plan.price (.enqueue (.processOrder y.orderId) 0) := ⟨rfl, nofun⟩
  split
  · refine Along.perform (o := Op.enqueue (.processOrder y.orderId) 0) ?_
      fun n r _ => hp₁.free hqueue
    exact fun n r => (hp₁.free hqueue).withinCash
  · exact (along_pure _).mpr fun _ => hp₁

/-- The buys that the second look allows are affordable, and so is the wait for them. -/
theorem along_submitPhase_buys {looks : List ℤ} {ys : List OrderRequest} {polls : ℕ}
    (hp : Paying g plan looks ys h) :
    Along (Affordable plan.price) (fun h' _ => WithinCash plan.price h') h
      (submitPhase g ys polls) := by
  have hloop : Along (Affordable plan.price) (fun h' r => r = .ok () → Paying g plan looks [] h') h
      (forEach (insertAndQueue g) ys) :=
    along_forEach (I := Paying g plan looks) (fun y rest h' hp' => along_insertAndQueue hp') hp
  unfold submitPhase
  refine (along_withinCash hloop hp.withinCash).bind (fun h₁ _ _ hp₁ => ?_) fun _ _ _ hp₁ => hp₁.1
  split
  · next hwait =>
    have hfree : Safe (fun _ o => Free plan.price o) h₁
        (waitForFills g (ys.map (·.orderId)) polls) :=
      safe_waitForFills (allowsWait_free g) hwait.2
    refine (along_free hfree hp₁.1).bind (fun h₂ _ _ hp₂ => ?_) fun _ _ _ hp₂ => hp₂.1
    exact (along_pure _).mpr hp₂.1
  · exact (along_pure _).mpr hp₁.1

end Recalculated

/-! ## The sells -/

section Sells
open OrderGenerator
variable {g : OrderGenerator} {plan : RebalancePlan}

theorem along_createOrderRequest_action {rid : RebalanceId} {action : OrderAction}
    {item : PositionDiffItem} :
    Along (fun _ _ => True) (fun _ r => ∀ y, r = .ok (some y) → y.action = action) h
      (createOrderRequest g rid action item) := by
  unfold createOrderRequest
  split
  · rw [along_pure]
    rintro y ⟨⟩
  · refine (along_true _).bind ?_ (by rintro _ _ _ _ _ ⟨⟩)
    intro h₁ orderId _ _
    rw [along_pure]
    rintro y ⟨⟩
    rfl

/-- The sell list becomes sell orders, and an empty buy list no orders. -/
theorem along_generateOrders_actions :
    Along (fun _ _ => True) (fun _ r => ∀ s b, r = .ok (s, b) →
        (∀ y ∈ s, y.action = .sell) ∧ (plan.diff.buyList = [] → b = [])) h
      (generateOrders g plan) := by
  have hsells : Along (fun _ _ => True) (fun _ r => ∀ ys, r = .ok ys → ∀ y ∈ ys, y.action = .sell) h
      (collect (createOrderRequest g plan.rebalanceId .sell) plan.diff.sellList) :=
    along_collect (fun _ _ _ _ hy => hy) fun _ _ _ _ => along_createOrderRequest_action
  unfold generateOrders
  refine hsells.bind ?_ (by rintro _ _ _ _ _ _ ⟨⟩)
  intro h₁ sells _ hs
  refine (along_collect_length plan.diff.buyList).bind ?_ (by rintro _ _ _ _ _ _ ⟨⟩)
  intro h₂ buys _ hlength
  rw [along_pure]
  rintro s b ⟨⟩
  refine ⟨hs _ rfl, fun hnone => ?_⟩
  have hzero := hlength _ rfl
  rw [hnone, List.length_nil, Nat.le_zero] at hzero
  exact List.length_eq_zero_iff.mp hzero

/-- Sells cost nothing. -/
theorem free_submitPhase_sells {sells : List OrderRequest} {polls : ℕ}
    (hmade : ∀ r ∈ sells, Made plan.rebalanceId h r) (hsell : ∀ r ∈ sells, r.action = .sell) :
    Safe (fun _ o => Free prices o) h (submitPhase g sells polls) := by
  have hwait : g.AllowsWait fun _ o => Free prices o := allowsWait_free g
  unfold submitPhase
  refine Safe.bind ?_ fun h₁ _ _ => ?_
  · refine safe_forEach fun r hr h₁ hh₁ => ?_
    refine safe_insertAndQueue hwait ((hmade r hr).mono hh₁) ⟨?_, nofun⟩
    have hcost : orderCost prices (orderRow g r) = 0 := by
      refine if_neg fun hbuy => ?_
      have hpos : r.action = .buy := hbuy.1
      rw [hsell r hr] at hpos
      cases hpos
    simp [cost, hcost]
  · split
    · next hlive => exact Safe.bind (safe_waitForFills hwait hlive.2) fun _ _ _ => safe_pure _
    · exact safe_pure _

end Sells

/-! ## The run -/

namespace RebalanceRun

variable {x : RebalanceRun}

/-- `price_map.get(code, 0)` of the run. -/
def price (x : RebalanceRun) (code : String) : ℤ :=
  ((RebalanceExecutor.priceMap x.strategyResult).get? code).getD 0

/-- The plan of a position diff of the run. -/
def Planned (x : RebalanceRun) (d : DiffResult) : Prop :=
  ∃ holdings cash, d = x.executor.diffCalculator.calculate
    (RebalanceExecutor.buyCodes x.strategyResult) x.strategyResult.orders holdings cash
    (RebalanceExecutor.priceMap x.strategyResult) (RebalanceExecutor.nameMap x.strategyResult)

/-- Without a code to buy or a price the diff buys nothing. -/
theorem Planned.buyList_eq_nil {d : DiffResult} (hd : x.Planned d)
    (hnone : (x.plan d).buyCodes = [] ∨ (x.plan d).priceMap = []) :
    (x.plan d).diff.buyList = [] := by
  obtain ⟨holdings, cash, rfl⟩ := hd
  show List.map _ _ = []
  rw [List.map_eq_nil_iff, List.eq_nil_iff_forall_not_mem]
  intro item hitem
  obtain ⟨alloc, code, hcode, hbuy⟩ := PositionDiffCalculator.exists_of_mem_buyList _ _ _ _ _ _ _ hitem
  rcases hnone with hnil | hnil
  · have hcodes : RebalanceExecutor.buyCodes x.strategyResult = [] := hnil
    rw [hcodes] at hcode
    cases hcode
  · have hprices : (RebalanceExecutor.priceMap x.strategyResult).entries = [] := hnil
    have hprice := PositionDiffCalculator.price_of_buyItem _ _ _ hbuy
    rw [Dict.get?, hprices, List.lookup_nil] at hprice
    exact absurd hprice (lt_irrefl 0)

/-- A look at the cash before any buy. -/
theorem along_look {looks : List ℤ} (hb : Books x.price looks 0 h) :
    Along (Affordable x.price) (fun h' r => Books x.price (looks ++ [looked r]) 0 h') h
      (Op.perform .availableBuy) := by
  have hlook : ∀ n r, Books x.price (looks ++ [looked r]) 0 (h ++ [(n, ⟨.availableBuy, r⟩)]) := by
    intro n r
    refine ⟨?_, ?_⟩
    · have hbefore : List.filterMap cashAnswer h = looks := hb.answers
      simp [cashAnswers, cashAnswer, hbefore]
    · rw [spent_append, hb.total]
      rfl
  exact Along.perform (o := Op.availableBuy) (fun n r => withinCash_of_nothing (hlook n r).total) hlook

/-- The first look is for the plan. -/
theorem along_positionDiff (hb : Books x.price [] 0 h) :
    Along (Affordable x.price) (fun h' r => WithinCash x.price h' ∧
      ∀ d, r = .ok d → x.Planned d ∧ ∃ cash, Books x.price [cash] 0 h') h x.positionDiff := by
  have hfailed : ∀ {h₁ : Calls} {looks : List ℤ} (e : PyExc), Books x.price looks 0 h₁ →
      WithinCash x.price h₁ ∧ ∀ d, Except.error e = Except.ok d →
        x.Planned d ∧ ∃ cash, Books x.price [cash] 0 h₁ := by
    intro h₁ looks e hb₁
    refine ⟨withinCash_of_nothing hb₁.total, ?_⟩
    rintro d ⟨⟩
  have hholdings : Along (fun _ o => Free x.price o) (fun _ _ => True) h (Op.perform .holdingList) :=
    safe_perform (free_of_plain h _ trivial)
  unfold positionDiff
  refine (along_books hholdings hb).bind (fun h₁ holdingsRaw _ hb₁ => ?_)
    fun h₁ e _ hb₁ => hfailed e hb₁.1
  refine Along.ofExcept_bind (fun currentHoldings _ => ?_) fun e _ => hfailed e hb₁.1
  refine (along_look hb₁.1).bind (fun h₂ cash _ hb₂ => ?_) fun h₂ e _ hb₂ => hfailed e hb₂
  refine (along_pure _).mpr ⟨withinCash_of_nothing hb₂.total, ?_⟩
  rintro d ⟨⟩
  exact ⟨⟨currentHoldings, cash, rfl⟩, cash, hb₂⟩

/-- The second look is what the buys are recalculated from. -/
theorem along_getActualCash {cash : ℤ} (hb : Books x.price [cash] 0 h) :
    Along (Affordable x.price) (fun h' r => WithinCash x.price h' ∧
      ∀ c, r = .ok c → Books x.price [cash, c] 0 h') h OrderGenerator.getActualCash := by
  have hanswer : ∀ {h₁ : Calls} (c : ℤ), Books x.price [cash, c] 0 h₁ →
      WithinCash x.price h₁ ∧ ∀ c', (.ok c : Except PyExc ℤ) = .ok c' →
        Books x.price [cash, c'] 0 h₁ := by
    intro h₁ c hb₁
    refine ⟨withinCash_of_nothing hb₁.total, ?_⟩
    rintro c' ⟨⟩
    exact hb₁
  unfold OrderGenerator.getActualCash
  refine (along_look hb).tryExcept (fun h₁ c _ hb₁ => hanswer c hb₁) fun h₁ e _ hb₁ => ?_
  exact (along_pure _).mpr (hanswer 0 hb₁)

/-- The orders of a run are paid for. -/
theorem along_submitOrders {d : DiffResult} {cash : ℤ} {sells buys : List OrderRequest}
    (hb : Books x.price [cash] 0 h) (hd : x.Planned d)
    (hmade : ∀ y ∈ sells, OrderGenerator.Made x.rebalanceId h y)
    (hsell : ∀ y ∈ sells, y.action = .sell) (hbuys : (x.plan d).diff.buyList = [] → buys = []) :
    Along (Affordable x.price) (fun h' _ => WithinCash x.price h') h
      (x.executor.orderGenerator.submitOrders (x.plan d) sells buys) := by
  have hplan : ∀ y ∈ sells, OrderGenerator.Made (x.plan d).rebalanceId h y := hmade
  have hsells : Safe (fun _ o => Free x.price o) h
      (OrderGenerator.submitPhase x.executor.orderGenerator sells (x.plan d).polls) :=
    free_submitPhase_sells hplan hsell
  unfold OrderGenerator.submitOrders
  refine (along_books hsells hb).bind ?_ fun h₁ _ _ hb₁ => withinCash_of_nothing hb₁.1.total
  rintro h₁ - - ⟨hb₁, -⟩
  split
  · refine (along_getActualCash hb₁).bind ?_ fun h₂ _ _ hw₂ => hw₂.1
    rintro h₂ c - ⟨-, hb₂⟩
    have hfree : Along (fun _ o => Free x.price o)
        (fun h' r => ∀ ys, r = .ok ys → ∀ y ∈ ys,
          OrderGenerator.Made (x.plan d).rebalanceId h' y) h₂
        (OrderGenerator.recalculateBuyOrders x.executor.orderGenerator (x.plan d) c) :=
      OrderGenerator.along_recalculateBuyOrders (allowsWait_free _)
    refine (along_books (hfree.and_post along_recalculateBuyOrders_cost) (hb₂ c rfl)).bind ?_
      fun h₃ _ _ hb₃ => withinCash_of_nothing hb₃.1.total
    rintro h₃ ys - ⟨hb₃, hmade₃, hcost⟩
    obtain ⟨hnonneg, hsum⟩ := hcost ys rfl
    have hpaying : Paying x.executor.orderGenerator (x.plan d) [cash, c] ys h₃ := by
      refine ⟨hmade₃ ys rfl, hnonneg, hb₃.answers, ?_⟩
      have htotal : spent (x.plan d).price h₃ = 0 := hb₃.total
      rw [htotal, zero_add]
      exact hsum
    have hphase : Along (Affordable (x.plan d).price) (fun h' _ => WithinCash (x.plan d).price h') h₃
        (OrderGenerator.submitPhase x.executor.orderGenerator ys (x.plan d).polls) :=
      along_submitPhase_buys hpaying
    exact hphase
  · next hnot =>
    have hnone : (x.plan d).buyCodes = [] ∨ (x.plan d).priceMap = [] := by
      by_contra hsome
      rw [not_or] at hsome
      exact hnot ⟨x.live, rfl, hsome.1, hsome.2⟩
    rw [hbuys (hd.buyList_eq_nil hnone)]
    exact (along_pure _).mpr (withinCash_of_nothing hb₁.total)

/-- The orders that a run goes on with: nothing is spent on them so far. -/
structure Generated (x : RebalanceRun) (d : DiffResult) (h : Calls)
    (sells buys : List OrderRequest) : Prop where
  made : ∀ y ∈ sells, OrderGenerator.Made x.rebalanceId h y
  sell : ∀ y ∈ sells, y.action = .sell
  buys : (x.plan d).diff.buyList = [] → buys = []

theorem along_generated {d : DiffResult} {looks : List ℤ} (hb : Books x.price looks 0 h) :
    Along (Affordable x.price) (fun h' r => Books x.price looks 0 h' ∧
      ∀ s b, r = .ok (s, b) → x.Generated d h' s b) h (x.generate d) := by
  have hactions : Along (fun _ _ => True) (fun _ r => ∀ s b, r = .ok (s, b) →
      (∀ y ∈ s, y.action = .sell) ∧ ((x.plan d).diff.buyList = [] → b = [])) h (x.generate d) :=
    Along.bind (along_true _) (fun _ _ _ _ => along_generateOrders_actions)
      (by rintro _ _ _ _ _ _ ⟨⟩)
  have hfree : Along (fun _ o => Free x.price o) (fun h' r => ∀ s b, r = .ok (s, b) →
      (∀ y ∈ s, OrderGenerator.Made x.rebalanceId h' y) ∧
        ∀ y ∈ b, OrderGenerator.Made x.rebalanceId h' y) h (x.generate d) :=
    along_generate (free_of_plain h _ trivial) (allowsWait_free _)
  refine (along_books (hfree.and_post hactions) hb).mono (fun _ _ hq => hq) ?_
  rintro h' r ⟨hb', hmade, hact⟩
  refine ⟨hb', fun s b hr => ⟨(hmade s b hr).1, (hact s b hr).1, (hact s b hr).2⟩⟩

theorem along_submitAndComplete {d : DiffResult} {cash : ℤ} {sells buys : List OrderRequest}
    (hb : Books x.price [cash] 0 h) (hd : x.Planned d) (hg : x.Generated d h sells buys) :
    Along (Affordable x.price) (fun h' _ => WithinCash x.price h') h
      (x.submitAndComplete d sells buys) := by
  refine (along_submitOrders hb hd hg.made hg.sell hg.buys).bind (fun h₁ _ _ hw₁ => ?_)
    fun _ _ _ hw₁ => hw₁
  have hfree : Along (fun _ o => Free x.price o) (fun _ _ => True) h₁
      (Op.perform (.completeRebalance x.rebalanceId)) := safe_perform (free_of_plain h₁ _ trivial)
  exact (along_free hfree hw₁).mono (fun _ _ hq => hq) fun _ _ hr => hr.1

theorem affordable_fail {broken : Bool} {soFar : RebalanceResult} {e : PyExc}
    (hw : WithinCash x.price h) : Safe (Affordable x.price) h (x.fail soFar broken e) :=
  (along_free (safe_fail (fun h _ => free_of_plain h _ trivial)
    fun h _ => free_of_plain h _ trivial) hw).safe

theorem affordable_submit {aborts : PyExc → Bool} (hb : Books x.price [] 0 h) :
    Safe (Affordable x.price) h (x.submit aborts) := by
  unfold submit
  refine Along.watch_bind (along_positionDiff hb) fun h₁ broken outcome _ hdiff => ?_
  cases outcome with
  | error e => exact affordable_fail hdiff.1
  | ok d =>
    obtain ⟨hplanned, cash, hb₁⟩ := hdiff.2 d rfl
    cases hdry : x.dryRun with
    | true => exact safe_pure _
    | false =>
      refine Along.watch_bind (along_generated hb₁) fun h₂ broken outcome _ hmade => ?_
      cases outcome with
      | error e => exact affordable_fail (withinCash_of_nothing hmade.1.total)
      | ok orders =>
        have hsubmit := along_submitAndComplete hmade.1 hplanned (hmade.2 _ _ rfl)
        refine Along.watch_bind hsubmit fun h₃ broken outcome _ hw₃ => ?_
        cases outcome with
        | error e => exact affordable_fail hw₃
        | ok _ => exact (along_free (safe_succeed (free_of_plain h₃ _ trivial)) hw₃).safe

theorem affordable_run {aborts : PyExc → Bool} (hb : Books x.price [] 0 h) :
    Safe (Affordable x.price) h (x.run aborts) := by
  have hstrategy : Along (fun _ o => Free x.price o) (fun _ _ => True) h
      (Op.perform .executeStrategy) := safe_perform ⟨rfl, nofun⟩
  exact (along_books hstrategy hb).bind_safe fun h₁ _ _ hb₁ => affordable_submit hb₁.1

/-- The gates look at no cash. -/
theorem books_of_gated {force : Bool} (hg : Gated settings force h) : Books x.price [] 0 h := by
  have hdue : ∀ {h₀ : Calls}, Due settings h₀ → Books x.price [] 0 h₀ := by
    rintro h₀ ⟨⟩
    exact ⟨rfl, rfl⟩
  have hclock : Free x.price .now := ⟨rfl, nofun⟩
  have hmonth : ∀ month, Free x.price (.rebalanceInMonth month) := fun month => ⟨rfl, nofun⟩
  cases hg with
  | forced due => exact hdue due
  | checked due => exact ((hdue due).free hclock).free (hmonth _)

end RebalanceRun

/-! ## Every run -/

/-- The calls of a task that makes a run of a rebalance are affordable. -/
def Budgeted (l : Label) (h : Calls) (o : Op) : Prop :=
  ∀ x, l.rebalanceRun = some x → WithinCash x.price h → Affordable x.price h o

theorem budgeted_of_affordable {α : Type} {l : Label} {x : RebalanceRun} {p : Program α}
    (hl : l.rebalanceRun = some x) (hp : Safe (Affordable x.price) h p) : Safe (Budgeted l) h p := by
  refine hp.mono (fun h₁ o ho x' hx' _ => ?_) fun _ _ hr => hr
  obtain rfl := Option.some.inj (hl.symm.trans hx')
  exact ho

theorem budgeted_executeRebalance {x : RebalanceRun} {force : Bool} :
    Safe (Budgeted (.executeRebalance x force)) [] (x.executeRebalance settings force) := by
  refine RebalanceRun.safe_executeRebalance ?_ (fun h hg =>
    budgeted_of_affordable rfl (RebalanceRun.affordable_run (RebalanceRun.books_of_gated hg))) ?_
  rotate_left
  · rintro h - x' ⟨⟩ hw n r
    exact hw.free ⟨rfl, nofun⟩
  rintro h o ho x' ⟨⟩ hw n r
  have hfree : Free x.price o := by
    cases o
    all_goals first | exact False.elim ho | exact ⟨rfl, nofun⟩
  exact hw.free hfree

theorem program_budgeted (l : Label) : Safe (Budgeted l) [] (l.program settings) := by
  cases l with
  | runRebalance x =>
    refine RebalanceRun.safe_runRebalance (budgeted_of_affordable rfl ?_)
    exact RebalanceRun.affordable_run ⟨rfl, rfl⟩
  | executeRebalance x force => exact budgeted_executeRebalance
  | _ => exact (along_true _).mono (fun _ _ _ x hx => by cases hx) fun _ _ hr => hr

/-- In every run of the system, at every moment: the buys that a run of a rebalance has
stored cost at most the cash that the account service reported after its sells, and nothing
where that is negative or the look failed. -/
theorem buys_within_cash (settings : Settings) (env : Env) (w : World) (es : List Event)
    {t : Task} (ht : t ∈ ((autotrading settings env).run (start w) es).tasks) {x : RebalanceRun}
    (hx : t.label.rebalanceRun = some x) :
    spent x.price t.history ≤ max (cashAfterSells t.history) 0 := by
  have hkept := (kept_run (m := autotrading settings env) program_budgeted w es).recorded t ht
  have hwithin : ∀ h, h <+: t.history → WithinCash x.price h := by
    intro h
    induction h using List.reverseRecOn with
    | nil => exact fun _ => withinCash_of_nothing rfl
    | append_singleton h y ih =>
      rintro ⟨h₂, hh⟩
      rw [List.append_assoc, List.singleton_append] at hh
      have hbefore : h <+: t.history := ⟨y :: h₂, hh⟩
      obtain ⟨n, o, r⟩ := y
      exact hkept h (n, ⟨o, r⟩) h₂ hh.symm x hx (ih hbefore) n r
  exact hwithin t.history (List.prefix_refl _)

/-- With 1000 in cash, three shares at 300. -/
def buyingThree : System :=
  (autotrading .sample { Env.quiet with availableBuy := fun _ => 1000 }).run
    (start (.holding [] [])) (.launch (.runRebalance (.sample 1 [("005930", 300)])) ::
      List.replicate 9 (.step 0))

theorem buys_within_cash_sample : ∃ t ∈ buyingThree.tasks, ∃ x, t.label.rebalanceRun = some x ∧
    spent x.price t.history = 900 ∧ cashAfterSells t.history = 1000 ∧
      spent x.price t.history ≤ max (cashAfterSells t.history) 0 := by
  have hspent : (buyingThree.tasks[0]?.any fun t => t.label.rebalanceRun.any fun x =>
      spent x.price t.history = 900 ∧ cashAfterSells t.history = 1000) = true := by decide +kernel
  obtain ⟨t, ht, htask⟩ := (Option.any_eq_true _ _).mp hspent
  obtain ⟨x, hx, hvalues⟩ := (Option.any_eq_true _ _).mp htask
  rw [decide_eq_true_iff] at hvalues
  have hmem := List.mem_of_getElem? ht
  exact ⟨t, hmem, x, hx, hvalues.1, hvalues.2, buys_within_cash _ _ _ _ hmem hx⟩

end Autotrading
