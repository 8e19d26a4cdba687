import Autotrading.BuyBudget
import Autotrading.PositionPlan
import Autotrading.Screening

/-!
# The orders of a rebalance

What a run of a rebalance stores, at every moment of every run of the system: new orders only,
one for a code at most, to buy what the strategy returned and to sell what is held beside it.
Together with the selection this says of every order why it is there.
-/
namespace Autotrading

open Machine Prog
open Machine.Sys (start)

variable {settings : Settings} {h h' : Calls}

/-! ## New orders -/

/-- The new orders of a call, stored or refused. -/
def newRows : Op → List Order
  | .insertOrders os => os.filter fun o => o.orderKind = .new
  | _ => []

def newOrders (h : Calls) : List Order := h.flatMap fun x => newRows x.2.1

@[simp] theorem newOrders_append (n : ℕ) (o : Op) (r : Except PyExc (Ans o)) :
    newOrders (h ++ [(n, ⟨o, r⟩)]) = newOrders h ++ newRows o := by
  simp [newOrders]

/-- The account service reported a row with this code and this quantity. -/
def Reported (h : Calls) (code : String) (qty : ℤ) : Prop :=
  ∃ holdings, Answered h .holdingList holdings ∧ ∃ row ∈ holdings,
    row.stockCode = code ∧ Python.int? row.holdingQty = some qty

theorem Reported.mono {code : String} {qty : ℤ} (hreported : Reported h code qty) (hh : h <+: h') :
    Reported h' code qty := by
  obtain ⟨holdings, hanswer, hrow⟩ := hreported
  exact ⟨holdings, hanswer.mono hh, hrow⟩

/-- Orders for codes of the strategy to buy, and for held codes beside them to sell, all of them
different codes when those of the strategy are. -/
structure Legal (buyCodes : List String) (h : Calls) (os : List Order) : Prop where
  orders : ∀ o ∈ os, o.orderPos = .buy ∧ o.stockCode ∈ buyCodes ∨
    o.orderPos = .sell ∧ o.stockCode ∉ buyCodes ∧ Reported h o.stockCode o.orderQty
  once : buyCodes.Nodup → (os.map Order.stockCode).Nodup

section Rules
variable {buyCodes : List String} {os : List Order}

theorem legal_nil : Legal buyCodes h [] where
  orders := by simp
  once := by simp

theorem Legal.mono (hl : Legal buyCodes h os) (hh : h <+: h') : Legal buyCodes h' os where
  orders := by
    intro o ho
    obtain hbuy | ⟨hsell, hnot, hreported⟩ := hl.orders o ho
    · exact .inl hbuy
    · exact .inr ⟨hsell, hnot, hreported.mono hh⟩
  once := hl.once

theorem Legal.sublist {os' : List Order} (hl : Legal buyCodes h os) (hsub : os'.Sublist os) :
    Legal buyCodes h os' where
  orders := fun o ho => hl.orders o (hsub.subset ho)
  once := fun hnodup => (hl.once hnodup).sublist (hsub.map Order.stockCode)

/-- A call after which the orders so far are legal. -/
def Conforms (buyCodes : List String) (h : Calls) (o : Op) : Prop :=
  ∀ n r, Legal buyCodes (h ++ [(n, ⟨o, r⟩)]) (newOrders (h ++ [(n, ⟨o, r⟩)]))

variable {α : Type} {p : Program α} {post : Calls → Except PyExc α → Prop}

/-- Calls without a new order leave the orders as they are. -/
theorem along_silent (hp : Along (fun _ o => newRows o = []) post h p)
    (hl : Legal buyCodes h (newOrders h)) :
    Along (Conforms buyCodes) (fun h' r => newOrders h' = newOrders h ∧
      Legal buyCodes h' (newOrders h') ∧ post h' r) h p := by
  have hkeep := hp.keeping
    (P := fun h' => newOrders h' = newOrders h ∧ Legal buyCodes h' (newOrders h'))
    (by
      intro h₁ o n r hh ho
      rw [newOrders_append, ho, List.append_nil]
      exact ⟨hh.1, hh.2.mono (List.prefix_append _ _)⟩)
    ⟨rfl, hl⟩
  refine hkeep.mono ?_ fun _ _ hr => ⟨hr.1.1, hr.1.2, hr.2⟩
  intro h₁ o hq n r
  rw [newOrders_append, hq.2, List.append_nil]
  exact hq.1.2.mono (List.prefix_append _ _)

/-- When every call conforms, the orders are legal at the end. -/
theorem along_legal (hp : Along (Conforms buyCodes) post h p)
    (hl : Legal buyCodes h (newOrders h)) :
    Along (Conforms buyCodes) (fun h' r => Legal buyCodes h' (newOrders h') ∧ post h' r) h p :=
  (hp.keeping (fun _ _ n r _ ho => ho n r) hl).mono (fun _ _ hq => hq.2) fun _ _ hr => hr

end Rules

/-- A wait stores cancel orders only. -/
theorem allowsWait_silent (g : OrderGenerator) : g.AllowsWait fun _ o => newRows o = [] where
  plain := by
    intro h o ho
    cases o
    all_goals first | exact False.elim ho | rfl
  cancel := by
    intro h os _ hos
    rw [newRows, List.filter_eq_nil_iff]
    intro o ho
    obtain ⟨-, order, remaining, -, heq⟩ := hos o ho
    rw [heq]
    simp [OrderGenerator.cancelOrderOf]
  queue := fun _ _ _ _ _ => rfl

theorem silent_of_plain (_ : Calls) (o : Op) (ho : RebalanceRun.Plain o) : newRows o = [] := by
  cases o
  all_goals first | exact False.elim ho | rfl

/-! ## A phase of orders -/

namespace OrderGenerator
variable {g : OrderGenerator} {buyCodes : List String} {os : List Order}

/-- In the loop over the orders of a phase: what was inserted, and what is left of it, is `os`. -/
structure Listed (g : OrderGenerator) (buyCodes : List String) (os : List Order)
    (rest : List OrderRequest) (h : Calls) : Prop where
  new : ∀ y ∈ rest, y.orderKind = .new
  all : newOrders h ++ rest.map (orderRow g) = os
  legal : Legal buyCodes h os

theorem Listed.now {rest : List OrderRequest} (hl : Listed g buyCodes os rest h) :
    Legal buyCodes h (newOrders h) := by
  refine hl.legal.sublist ?_
  rw [← hl.all]
  exact List.sublist_append_left _ _

/-- An order moves from what is left to what was inserted. -/
theorem Listed.insert {y : OrderRequest} {rest : List OrderRequest}
    (hl : Listed g buyCodes os (y :: rest) h) (n : ℕ)
    (r : Except PyExc (Ans (.insertOrders [orderRow g y]))) :
    Listed g buyCodes os rest (h ++ [(n, ⟨.insertOrders [orderRow g y], r⟩)]) where
  new := fun z hz => hl.new z (List.mem_cons_of_mem _ hz)
  all := by
    have hkind : (orderRow g y).orderKind = .new := hl.new y List.mem_cons_self
    have hrow : newRows (.insertOrders [orderRow g y]) = [orderRow g y] := by
      simp [newRows, hkind]
    rw [newOrders_append, hrow, List.append_assoc, ← hl.all, List.map_cons]
    rfl
  legal := hl.legal.mono (List.prefix_append _ _)

theorem Listed.silent {rest : List OrderRequest} (hl : Listed g buyCodes os rest h) {n : ℕ}
    {o : Op} {r : Except PyExc (Ans o)} (ho : newRows o = []) :
    Listed g buyCodes os rest (h ++ [(n, ⟨o, r⟩)]) where
  new := hl.new
  all := by rw [newOrders_append, ho, List.append_nil, hl.all]
  legal := hl.legal.mono (List.prefix_append _ _)

theorem along_insertAndQueue_listed {y : OrderRequest} {rest : List OrderRequest}
    (hl : Listed g buyCodes os (y :: rest) h) :
    Along (Conforms buyCodes) (fun h' r => r = .ok () → Listed g buyCodes os rest h') h
      (insertAndQueue g y) := by
  have hinsert : Along (Conforms buyCodes) (fun h' _ => Listed g buyCodes os rest h') h
      (OrderRepository.createOrder (orderRow g y)) :=
    .perform (fun n r => (hl.insert n r).now) fun n r => hl.insert n r
  refine hinsert.bind ?_ (by rintro _ _ _ _ ⟨⟩)
  intro h₁ _ _ hl₁
  have hqueue : newRows (.enqueue (.processOrder y.orderId) 0) = [] := rfl
  split
  · refine Along.perform (o := Op.enqueue (.processOrder y.orderId) 0) ?_
      fun n r _ => hl₁.silent hqueue
    exact fun n r => (hl₁.silent hqueue).now
  · exact (along_pure _).mpr fun _ => hl₁

/-- After a phase all its orders are there, and nothing else. -/
theorem along_submitPhase_listed {ys : List OrderRequest} {polls : ℕ}
    (hl : Listed g buyCodes os ys h) :
    Along (Conforms buyCodes) (fun h' r => Legal buyCodes h' (newOrders h') ∧
      (r = .ok () → newOrders h' = os)) h (submitPhase g ys polls) := by
  have hloop : Along (Conforms buyCodes)
      (fun h' r => r = .ok () → Listed g buyCodes os [] h') h (forEach (insertAndQueue g) ys) :=
    along_forEach (I := Listed g buyCodes os)
      (fun y rest h' hl' => along_insertAndQueue_listed hl') hl
  unfold submitPhase
  refine (along_legal hloop hl.now).bind ?_ ?_
  · intro h₁ _ _ hmid
    have hl₁ := hmid.2 rfl
    have hall : newOrders h₁ = os := by
      have hrest := hl₁.all
      rwa [List.map_nil, List.append_nil] at hrest
    split
    · next hwait =>
      have hsilent : Safe (fun _ o => newRows o = []) h₁
          (waitForFills g (ys.map (·.orderId)) polls) :=
        safe_waitForFills (allowsWait_silent g) hwait.2
      refine (along_silent hsilent hmid.1).bind ?_ ?_
      · intro h₂ _ _ hend
        exact (along_pure _).mpr ⟨hend.2.1, fun _ => hend.1.trans hall⟩
      · intro h₂ e _ hend
        exact ⟨hend.2.1, by rintro ⟨⟩⟩
    · exact (along_pure _).mpr ⟨hmid.1, fun _ => hall⟩
  · intro h₁ e _ hmid
    exact ⟨hmid.1, by rintro ⟨⟩⟩

/-! ## The requests of a rebalance -/

/-- A request that `_create_order_request` makes of an item. -/
structure MadeOf (action : OrderAction) (item : PositionDiffItem) (y : OrderRequest) : Prop where
  action : y.action = action
  code : y.stockCode = item.stockCode
  quantity : y.quantity = item.orderQty
  kind : y.orderKind = .new

theorem along_createOrderRequest_made {rid : RebalanceId} {action : OrderAction}
    {item : PositionDiffItem} :
    Along (fun _ _ => True) (fun _ r => ∀ y, r = .ok (some y) → MadeOf action item y) h
      (createOrderRequest g rid action item) := by
  unfold createOrderRequest
  split
  · rw [along_pure]
    rintro y ⟨⟩
  · refine (along_true _).bind ?_ (by rintro _ _ _ _ _ ⟨⟩)
    intro h₁ orderId _ _
    rw [along_pure]
    rintro y ⟨⟩
    exact ⟨rfl, rfl, rfl, rfl⟩

/-- A request that the second look at the cash makes for a code. -/
structure BoughtFor (code : String) (y : OrderRequest) : Prop where
  action : y.action = .buy
  code : y.stockCode = code
  kind : y.orderKind = .new

theorem along_recalculateBuyOrder_made {plan : RebalancePlan} {alloc : ℚ} {code : String} :
    Along (fun _ _ => True) (fun _ r => ∀ y, r = .ok (some y) → BoughtFor code y) h
      (recalculateBuyOrder g plan alloc code) := by
  have hnone : Along (fun _ _ => True) (fun _ r => ∀ y, r = .ok (some y) → BoughtFor code y) h
      (pure none : Program (Option OrderRequest)) := by
    rw [along_pure]
    rintro y ⟨⟩
  unfold recalculateBuyOrder
  simp only
  split
  · exact hnone
  · split
    · exact hnone
    · refine (along_true _).bind ?_ (by rintro _ _ _ _ _ ⟨⟩)
      intro h₁ orderId _ _
      rw [along_pure]
      rintro y ⟨⟩
      exact ⟨rfl, rfl, rfl⟩

/-- The recalculated buys are for codes to buy, in their order. -/
theorem along_recalculateBuyOrders_made {plan : RebalancePlan} {cash : ℤ} :
    Along (fun _ _ => True) (fun _ r => ∀ ys, r = .ok ys →
        (ys.map OrderRequest.stockCode).Sublist plan.buyCodes ∧
          ∀ y ∈ ys, y.action = .buy ∧ y.orderKind = .new) h
      (recalculateBuyOrders g plan cash) := by
  unfold recalculateBuyOrders
  extract_lets holdValue totalPortfolioValue targetPerStock holdingCodes newBuyCodes actualBudget
  split
  · rw [along_pure]
    rintro ys ⟨⟩
    simp
  · have hcollect := along_collect_from (h := h)
      (f := recalculateBuyOrder g plan (actualBudget / newBuyCodes.length)) (R := BoughtFor) (k := id)
      (g := OrderRequest.stockCode) (fun _ _ hr => hr.code)
      fun code (_ : code ∈ newBuyCodes) _ => along_recalculateBuyOrder_made
    refine hcollect.mono (fun _ _ hq => hq) ?_
    intro h₁ r hr ys hys
    obtain ⟨hcodes, hmade⟩ := hr ys hys
    rw [List.map_id] at hcodes
    refine ⟨hcodes.trans List.filter_sublist, fun y hy => ?_⟩
    obtain ⟨code, -, hbought⟩ := hmade y hy
    exact ⟨hbought.action, hbought.kind⟩

end OrderGenerator

/-! ## The run -/

namespace RebalanceRun
variable {x : RebalanceRun} {d : DiffResult}

/-- The codes that the strategy returned to buy. -/
def buyCodes (x : RebalanceRun) : List String := RebalanceExecutor.buyCodes x.strategyResult

/-- The position diff of the holdings that the account service reported. -/
def PlannedFrom (x : RebalanceRun) (h : Calls) (d : DiffResult) : Prop :=
  ∃ raw holdings cash, Answered h .holdingList raw ∧
    raw.mapM RebalanceExecutor.currentHolding = .ok holdings ∧
      d = x.executor.diffCalculator.calculate x.buyCodes x.strategyResult.orders holdings cash
        (RebalanceExecutor.priceMap x.strategyResult) (RebalanceExecutor.nameMap x.strategyResult)

theorem PlannedFrom.mono (hd : x.PlannedFrom h d) (hh : h <+: h') : x.PlannedFrom h' d := by
  obtain ⟨raw, holdings, cash, hraw, hholdings, hdiff⟩ := hd
  exact ⟨raw, holdings, cash, hraw.mono hh, hholdings, hdiff⟩

theorem PlannedFrom.planned (hd : x.PlannedFrom h d) : x.Planned d := by
  obtain ⟨raw, holdings, cash, -, -, hdiff⟩ := hd
  exact ⟨holdings, cash, hdiff⟩

theorem along_positionDiff_planned :
    Along (fun _ o => newRows o = []) (fun h' r => ∀ d, r = .ok d → x.PlannedFrom h' d) h
      x.positionDiff := by
  have hholdings : Along (fun _ o => newRows o = [])
      (fun h' r => ∀ raw, r = .ok raw → Answered h' .holdingList raw) h
      (Op.perform .holdingList) := along_answered rfl
  unfold positionDiff
  refine hholdings.bind ?_ (by rintro _ _ _ _ _ ⟨⟩)
  intro h₁ raw _ hraw
  refine Along.ofExcept_bind (fun holdings hmap => ?_) (by rintro _ _ _ ⟨⟩)
  have hcash : Safe (fun _ o => newRows o = []) h₁ (Op.perform .availableBuy) := safe_perform rfl
  refine Along.bind hcash ?_ (by rintro _ _ _ _ _ ⟨⟩)
  intro h₂ cash hh₂ _
  rw [along_pure]
  intro d hd
  obtain rfl := Except.ok.inj hd
  exact ⟨raw, holdings, cash, (hraw raw rfl).mono hh₂, hmap, rfl⟩

/-- An item to sell is a held code beside those to buy, with the quantity that was reported. -/
theorem PlannedFrom.sellItem (hd : x.PlannedFrom h d) {item : DiffItem} (hitem : item ∈ d.sellList) :
    item.stockCode ∉ x.buyCodes ∧ Reported h item.stockCode item.orderQty := by
  obtain ⟨raw, holdings, cash, hraw, hholdings, rfl⟩ := hd
  rw [PositionDiffCalculator.calculate_sellList, List.mem_map] at hitem
  obtain ⟨e, he, rfl⟩ := hitem
  rw [List.mem_filter, decide_eq_true_iff] at he
  obtain ⟨hmem, hcode⟩ := PositionDiffCalculator.mem_of_holdingMap holdings he.1
  obtain ⟨row, hrow, hread⟩ := mem_of_mapM_ok hholdings hmem
  refine ⟨he.2, raw, hraw, row, hrow, ?_⟩
  rw [RebalanceExecutor.currentHolding] at hread
  obtain ⟨quantity, hquantity, hread⟩ := of_bind_ok hread
  obtain ⟨price, -, hread⟩ := of_bind_ok hread
  obtain ⟨amount, -, hread⟩ := of_bind_ok hread
  have hholding := Except.ok.inj hread
  have hqty : Python.int? row.holdingQty = some quantity := by
    rw [RebalanceExecutor.int] at hquantity
    cases hint : Python.int? row.holdingQty with
    | none => simp [hint] at hquantity
    | some n =>
      rw [hint] at hquantity
      rw [Except.ok.inj hquantity]
  rw [← hholding] at hcode
  refine ⟨hcode, ?_⟩
  rw [hqty, PositionDiffCalculator.sellItem, ← hholding]

/-- No code is to be sold twice. -/
theorem PlannedFrom.nodup_sellList (hd : x.PlannedFrom h d) :
    (d.sellList.map (·.stockCode)).Nodup := by
  obtain ⟨raw, holdings, cash, -, -, rfl⟩ := hd
  rw [PositionDiffCalculator.calculate_sellList, List.map_map]
  exact (Dict.nodup _).sublist (List.filter_sublist.map Prod.fst)

/-- What the generated requests come from. -/
structure GeneratedFrom (x : RebalanceRun) (d : DiffResult) (sells buys : List OrderRequest) :
    Prop where
  codes : (sells.map OrderRequest.stockCode).Sublist (d.sellList.map (·.stockCode))
  made : ∀ y ∈ sells, ∃ item ∈ d.sellList,
    OrderGenerator.MadeOf .sell item.toPositionDiffItem y
  buys : (x.plan d).diff.buyList = [] → buys = []

theorem along_generate_made : Along (fun _ o => newRows o = [])
    (fun _ r => ∀ s b, r = .ok (s, b) → x.GeneratedFrom d s b) h (x.generate d) := by
  have hmade : Along (fun _ _ => True) (fun _ r => ∀ s b, r = .ok (s, b) → x.GeneratedFrom d s b) h
      (x.generate d) := by
    unfold generate OrderGenerator.generateOrders
    refine Along.bind (along_true _) ?_ (by rintro _ _ _ _ _ _ ⟨⟩)
    intro h₁ _ _ _
    have hsells := along_collect_from (h := h₁)
      (f := OrderGenerator.createOrderRequest x.executor.orderGenerator (x.plan d).rebalanceId .sell)
      (R := OrderGenerator.MadeOf .sell) (k := PositionDiffItem.stockCode)
      (g := OrderRequest.stockCode) (fun _ _ hr => hr.code)
      fun item (_ : item ∈ (x.plan d).diff.sellList) _ =>
        OrderGenerator.along_createOrderRequest_made
    refine hsells.bind ?_ (by rintro _ _ _ _ _ _ ⟨⟩)
    intro h₂ sells _ hs
    refine (along_collect_length (x.plan d).diff.buyList).bind ?_ (by rintro _ _ _ _ _ _ ⟨⟩)
    intro h₃ buys _ hlength
    rw [along_pure]
    rintro s b ⟨⟩
    obtain ⟨hcodes, hfrom⟩ := hs _ rfl
    have hlist : (x.plan d).diff.sellList = d.sellList.map (·.toPositionDiffItem) := rfl
    rw [hlist] at hcodes hfrom
    constructor
    · rwa [List.map_map] at hcodes
    · intro y hy
      obtain ⟨item, hitem, hr⟩ := hfrom y hy
      obtain ⟨full, hfull, rfl⟩ := List.mem_map.mp hitem
      exact ⟨full, hfull, hr⟩
    · intro hnone
      have hzero := hlength _ rfl
      rw [hnone, List.length_nil, Nat.le_zero] at hzero
      exact List.length_eq_zero_iff.mp hzero
  have hsilent := along_generate (x := x) (d := d) (h := h) (Q := fun _ o => newRows o = []) rfl
    (allowsWait_silent _)
  exact (hsilent.and_post hmade).mono (fun _ _ hq => hq) fun _ _ hr => hr.2

/-- The sells of a plan, followed by buys for different codes of the strategy, are legal. -/
theorem GeneratedFrom.legal {sells buys ys : List OrderRequest} (hg : x.GeneratedFrom d sells buys)
    (hd : x.PlannedFrom h d) (hcodes : (ys.map OrderRequest.stockCode).Sublist x.buyCodes)
    (hbuy : ∀ y ∈ ys, y.action = .buy) :
    Legal x.buyCodes h ((sells ++ ys).map
      (OrderGenerator.orderRow x.executor.orderGenerator)) := by
  have hsell : ∀ y ∈ sells, y.action = .sell ∧ y.stockCode ∉ x.buyCodes ∧
      Reported h y.stockCode y.quantity := by
    intro y hy
    obtain ⟨item, hitem, hmade⟩ := hg.made y hy
    rw [hmade.code, hmade.quantity]
    exact ⟨hmade.action, hd.sellItem hitem⟩
  have hmem : ∀ y ∈ ys, y.stockCode ∈ x.buyCodes := fun y hy =>
    hcodes.subset (List.mem_map_of_mem hy)
  constructor
  · intro o ho
    obtain ⟨y, hy, rfl⟩ := List.mem_map.mp ho
    obtain hy | hy := List.mem_append.mp hy
    · exact .inr (hsell y hy)
    · exact .inl ⟨hbuy y hy, hmem y hy⟩
  · intro hnodup
    have hmap : ((sells ++ ys).map (OrderGenerator.orderRow x.executor.orderGenerator)).map
        Order.stockCode = sells.map OrderRequest.stockCode ++ ys.map OrderRequest.stockCode := by
      rw [List.map_map, List.map_append]
      rfl
    rw [hmap, List.nodup_append]
    refine ⟨hd.nodup_sellList.sublist hg.codes, hnodup.sublist hcodes, ?_⟩
    intro code hcode code' hcode' heq
    obtain ⟨y, hy, rfl⟩ := List.mem_map.mp hcode
    obtain ⟨y', hy', rfl⟩ := List.mem_map.mp hcode'
    exact (hsell y hy).2.1 (heq ▸ hmem y' hy')

/-- The orders of a run are legal: the sells of the plan, then buys of the second look. -/
theorem along_submitOrders_legal {sells buys : List OrderRequest} (hnone : newOrders h = [])
    (hd : x.PlannedFrom h d) (hg : x.GeneratedFrom d sells buys) :
    Along (Conforms x.buyCodes) (fun h' _ => Legal x.buyCodes h' (newOrders h')) h
      (x.executor.orderGenerator.submitOrders (x.plan d) sells buys) := by
  obtain ⟨g, hgen⟩ : ∃ g, g = x.executor.orderGenerator := ⟨_, rfl⟩
  have hnew : ∀ y ∈ sells, y.orderKind = .new := by
    intro y hy
    obtain ⟨item, -, hmade⟩ := hg.made y hy
    exact hmade.kind
  have hfirst : OrderGenerator.Listed g x.buyCodes (sells.map (OrderGenerator.orderRow g)) sells h := by
    have hlegal : Legal x.buyCodes h
        ((sells ++ []).map (OrderGenerator.orderRow x.executor.orderGenerator)) :=
      hg.legal hd (List.nil_sublist _) (by simp)
    rw [List.append_nil, ← hgen] at hlegal
    exact ⟨hnew, by rw [hnone, List.nil_append], hlegal⟩
  rw [← hgen]
  unfold OrderGenerator.submitOrders
  refine (OrderGenerator.along_submitPhase_listed hfirst).bind ?_ fun _ _ _ hmid => hmid.1
  intro h₁ _ hh₁ hmid
  split
  · have hcash : Safe (fun _ o => newRows o = []) h₁ OrderGenerator.getActualCash :=
      Safe.tryExcept (safe_perform rfl) fun _ _ _ => safe_pure _
    refine (along_silent hcash hmid.1).bind ?_ fun _ _ _ hend => hend.2.1
    intro h₂ cash hh₂ hlooked
    have hsilent : Along (fun _ o => newRows o = []) (fun h' r => ∀ ys, r = .ok ys → ∀ y ∈ ys,
        OrderGenerator.Made (x.plan d).rebalanceId h' y) h₂
        (OrderGenerator.recalculateBuyOrders g (x.plan d) cash) :=
      OrderGenerator.along_recalculateBuyOrders (allowsWait_silent g)
    have hmade := hsilent.and_post OrderGenerator.along_recalculateBuyOrders_made
    refine (along_silent hmade hlooked.2.1).bind ?_ fun _ _ _ hend => hend.2.1
    intro h₃ ys hh₃ hbuys
    obtain ⟨hkept, -, -, hfrom⟩ := hbuys
    obtain ⟨hcodes, hbuy⟩ := hfrom ys rfl
    have hsecond : OrderGenerator.Listed g x.buyCodes
        ((sells ++ ys).map (OrderGenerator.orderRow g)) ys h₃ := by
      refine ⟨fun y hy => (hbuy y hy).2, ?_, ?_⟩
      · rw [hkept, hlooked.1, hmid.2 rfl, List.map_append]
      · rw [hgen]
        exact hg.legal (hd.mono ((hh₁.trans hh₂).trans hh₃)) hcodes fun y hy => (hbuy y hy).1
    exact (OrderGenerator.along_submitPhase_listed hsecond).mono (fun _ _ hq => hq) fun _ _ hr => hr.1
  · next hnot =>
    have hempty : (x.plan d).buyCodes = [] ∨ (x.plan d).priceMap = [] := by
      by_contra hsome
      rw [not_or] at hsome
      exact hnot ⟨hgen ▸ x.live, rfl, hsome.1, hsome.2⟩
    rw [hg.buys (hd.planned.buyList_eq_nil hempty)]
    exact (along_pure _).mpr hmid.1

theorem legal_fail {broken : Bool} {soFar : RebalanceResult} {e : PyExc}
    (hl : Legal x.buyCodes h (newOrders h)) : Safe (Conforms x.buyCodes) h (x.fail soFar broken e) :=
  (along_silent (safe_fail (fun h _ => silent_of_plain h _ trivial)
    fun h _ => silent_of_plain h _ trivial) hl).safe

theorem legal_submit {aborts : PyExc → Bool} (hnone : newOrders h = []) :
    Safe (Conforms x.buyCodes) h (x.submit aborts) := by
  have hstart : Legal x.buyCodes h (newOrders h) := by
    rw [hnone]
    exact legal_nil
  unfold submit
  refine Along.watch_bind (along_silent along_positionDiff_planned hstart) ?_
  intro h₁ broken outcome _ hplan
  obtain ⟨hkept₁, hlegal₁, hplan⟩ := hplan
  cases outcome with
  | error e => exact legal_fail hlegal₁
  | ok d =>
    cases hdry : x.dryRun with
    | true => exact safe_pure _
    | false =>
      refine Along.watch_bind (along_silent along_generate_made hlegal₁) ?_
      intro h₂ broken outcome hh₂ hgenerate
      obtain ⟨hkept₂, hlegal₂, hgenerate⟩ := hgenerate
      cases outcome with
      | error e => exact legal_fail hlegal₂
      | ok orders =>
        have hbefore : newOrders h₂ = [] := by rw [hkept₂, hkept₁, hnone]
        have horders := along_submitOrders_legal hbefore ((hplan d rfl).mono hh₂)
          (hgenerate _ _ rfl)
        have hcomplete : Along (Conforms x.buyCodes)
            (fun h' _ => Legal x.buyCodes h' (newOrders h')) h₂
            (x.submitAndComplete d orders.1 orders.2) := by
          refine horders.bind ?_ fun _ _ _ hr => hr
          intro h₃ _ _ hlegal₃
          have hsilent : Safe (fun _ o => newRows o = []) h₃
              (Op.perform (.completeRebalance x.rebalanceId)) := safe_perform rfl
          exact (along_silent hsilent hlegal₃).mono (fun _ _ hq => hq) fun _ _ hr => hr.2.1
        refine Along.watch_bind hcomplete ?_
        intro h₃ broken outcome _ hlegal₃
        cases outcome with
        | error e => exact legal_fail hlegal₃
        | ok _ => exact (along_silent (safe_succeed (silent_of_plain h₃ _ trivial)) hlegal₃).safe

theorem legal_run {aborts : PyExc → Bool} (hnone : newOrders h = []) :
    Safe (Conforms x.buyCodes) h (x.run aborts) := by
  have hstart : Legal x.buyCodes h (newOrders h) := by
    rw [hnone]
    exact legal_nil
  have hstrategy : Safe (fun _ o => newRows o = []) h (Op.perform .executeStrategy) :=
    safe_perform rfl
  refine (along_silent hstrategy hstart).bind_safe fun h₁ _ _ hkept => ?_
  exact legal_submit (hkept.1.trans hnone)

theorem newOrders_of_gated {force : Bool} (hg : Gated settings force h) : newOrders h = [] := by
  cases hg with
  | forced due =>
    cases due
    rfl
  | checked due =>
    cases due
    rfl

end RebalanceRun

/-! ## Every run -/

/-- The calls of a task that makes a run of a rebalance conform. -/
def Conforming (l : Label) (h : Calls) (o : Op) : Prop :=
  ∀ x, l.rebalanceRun = some x → Legal x.buyCodes h (newOrders h) → Conforms x.buyCodes h o

theorem conforming_of_safe {α : Type} {l : Label} {x : RebalanceRun} {p : Program α}
    (hl : l.rebalanceRun = some x) (hp : Safe (Conforms x.buyCodes) h p) :
    Safe (Conforming l) h p := by
  refine hp.mono ?_ fun _ _ hr => hr
  intro h₁ o ho x' hx' _
  obtain rfl := Option.some.inj (hl.symm.trans hx')
  exact ho

theorem conforming_of_silent {l : Label} {o : Op} (ho : newRows o = []) : Conforming l h o := by
  intro x _ hl n r
  rw [newOrders_append, ho, List.append_nil]
  exact hl.mono (List.prefix_append _ _)

theorem program_conforming (l : Label) : Safe (Conforming l) [] (l.program settings) := by
  cases l with
  | runRebalance x =>
    exact RebalanceRun.safe_runRebalance (conforming_of_safe rfl (RebalanceRun.legal_run rfl))
  | executeRebalance x force =>
    refine RebalanceRun.safe_executeRebalance ?_ ?_ fun _ _ => conforming_of_silent rfl
    · intro h o ho
      refine conforming_of_silent ?_
      cases o
      all_goals first | exact False.elim ho | rfl
    · intro h hg
      exact conforming_of_safe rfl (RebalanceRun.legal_run (RebalanceRun.newOrders_of_gated hg))
  | _ => exact (along_true _).mono (fun _ _ _ x hx => by cases hx) fun _ _ hr => hr

/-- At every moment of every run of the system the orders of a rebalance are legal. -/
theorem legal_orders (settings : Settings) (env : Env) (w : World) (es : List Event) {t : Task}
    (ht : t ∈ ((autotrading settings env).run (start w) es).tasks) {x : RebalanceRun}
    (hx : t.label.rebalanceRun = some x) : Legal x.buyCodes t.history (newOrders t.history) := by
  have hkept := (kept_run (m := autotrading settings env) program_conforming w es).recorded t ht
  have hlegal : ∀ h, h <+: t.history → Legal x.buyCodes h (newOrders h) := by
    intro h
    induction h using List.reverseRecOn with
    | nil => exact fun _ => legal_nil
    | append_singleton h y ih =>
      intro hh
      obtain ⟨h₂, hh⟩ := hh
      rw [List.append_assoc, List.singleton_append] at hh
      have hbefore : h <+: t.history := ⟨y :: h₂, hh⟩
      obtain ⟨n, o, r⟩ := y
      exact hkept h (n, ⟨o, r⟩) h₂ hh.symm x hx (ih hbefore) n r
  exact hlegal t.history (List.prefix_refl _)

/-! ## Why an order is there -/

section Selection
variable {run : StrategyRun} {df : List UniverseStock} {rows : List ScreenedRow} {year : Option ℤ}
  {x : RebalanceRun}

/-- The codes of a run after a selection are those that it selected. -/
theorem buyCodes_of_selection (hdf : run.universeBuilder = .ok df)
    (hrows : run.screened (run.fiscalYear year) = .ok rows)
    (hresult : run.execute year = .ok x.strategyResult) :
    x.buyCodes.Nodup ∧ ∀ code, code ∈ x.buyCodes ↔ run.Selected df year rows code := by
  have hcodes : x.buyCodes = x.strategyResult.orders.map TradeIntent.stockCode := by
    have hall : (x.strategyResult.orders.filter fun t => t.side = .buy) = x.strategyResult.orders := by
      rw [List.filter_eq_self]
      intro t ht
      simpa using StrategyRun.side_orders hrows hresult t ht
    rw [RebalanceRun.buyCodes, RebalanceExecutor.buyCodes, RebalanceExecutor.buyIntents, hall]
  rw [hcodes]
  exact StrategyRun.codes_orders hdf hrows hresult

/-- In every run of the system, at every moment: the new orders of a rebalance on a selection are
for different codes, and each buys a code that is selected, or sells one that is not, in the
quantity that the account service reported. -/
theorem orders_explained (settings : Settings) (env : Env) (w : World) (es : List Event) {t : Task}
    (ht : t ∈ ((autotrading settings env).run (start w) es).tasks)
    (hx : t.label.rebalanceRun = some x) (hdf : run.universeBuilder = .ok df)
    (hrows : run.screened (run.fiscalYear year) = .ok rows)
    (hresult : run.execute year = .ok x.strategyResult) :
    ((newOrders t.history).map Order.stockCode).Nodup ∧ ∀ o ∈ newOrders t.history,
      o.orderPos = .buy ∧ run.Selected df year rows o.stockCode ∨
        o.orderPos = .sell ∧ ¬ run.Selected df year rows o.stockCode ∧
          Reported t.history o.stockCode o.orderQty := by
  have hlegal := legal_orders settings env w es ht hx
  obtain ⟨hnodup, hcodes⟩ := buyCodes_of_selection (x := x) hdf hrows hresult
  refine ⟨hlegal.once hnodup, fun o ho => ?_⟩
  rw [← hcodes]
  exact hlegal.orders o ho

end Selection

/-- A rebalance on the selection of one stock, with ten shares of another one held. -/
def commonRebalance : RebalanceRun := { RebalanceRun.sample 1 [] with
  strategyResult := (StrategyRun.commonSample.execute none).toOption.getD { metadata := {} } }

/-- What the account and the clock answer it. -/
def replacingEnv : Env := { Env.quiet with
  holdingList := fun _ => [⟨"000660", "SK하이닉스", "10", "200", "2000"⟩]
  availableBuy := fun _ => 1000
  now := fun n => n * 1000000000 }

/-- A sell of the held stock, the wait for it, and a buy of the selected one. -/
theorem orders_explained_common : ∃ es, ∃ t ∈ ((autotrading .sample replacingEnv).run
      (start (.holding [] [])) es).tasks, ∃ rows,
    (newOrders t.history).map Order.stockCode = ["000660", "005930"] ∧
      ∀ o ∈ newOrders t.history,
        o.orderPos = .buy ∧ StrategyRun.commonSample.Selected StrategyRun.threeStocks none rows
            o.stockCode ∨
          o.orderPos = .sell ∧ ¬ StrategyRun.commonSample.Selected StrategyRun.threeStocks none rows
            o.stockCode ∧ Reported t.history o.stockCode o.orderQty := by
  obtain ⟨es, hes⟩ : ∃ es : List Event, es = .launch (.runRebalance commonRebalance) ::
      List.replicate 20 (.step 0) := ⟨_, rfl⟩
  have horders : ∀ t ∈ ((autotrading .sample replacingEnv).run (start (.holding [] [])) es).tasks,
      (newOrders t.history).map Order.stockCode = ["000660", "005930"] := by
    rw [hes]
    decide +kernel
  obtain ⟨t, ht, hlabel, -⟩ := task_after_run (autotrading .sample replacingEnv)
    (s := (autotrading .sample replacingEnv).run (start (.holding [] []))
      [.launch (.runRebalance commonRebalance)]) (List.replicate 20 (.step 0))
    (t := ⟨.runRebalance commonRebalance, [], (Label.runRebalance commonRebalance).program .sample⟩)
    List.mem_cons_self
  rw [← run_append, List.singleton_append, ← hes] at ht
  obtain ⟨rows, result, hrows, hresult, -⟩ := StrategyRun.commonSample_ends
  have hstrategy : StrategyRun.commonSample.execute none = .ok commonRebalance.strategyResult := by
    rw [commonRebalance, hresult]
    rfl
  exact ⟨es, t, ht, rows, horders t ht, (orders_explained _ _ _ _ ht (by rw [hlabel]; rfl) rfl hrows
    hstrategy).2⟩

end Autotrading
