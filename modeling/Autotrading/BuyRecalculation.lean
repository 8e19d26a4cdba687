import Autotrading.PositionPlan
import Autotrading.Pipeline
import Mathlib.Tactic.Ring

/-!
# The recalculation of the buys

After the sells the order generator divides the reported cash by the method of the diff, but
keeps no buffer. The two agree when the buffer would not have bought a share more.
-/
namespace Autotrading

open PositionDiffCalculator (share newBuyCodes soldValue holdValue)
open Python.Decimal (truncate truncate_of_nonneg)

/-! ## The shares of a code -/

/-- The code and the number of shares that an allocation buys, if it buys any. -/
def affordable (priceMap : Dict String ℤ) (alloc : ℚ) (code : String) : Option (String × ℤ) :=
  let price := (priceMap.get? code).getD 0
  if price ≤ 0 then none
  else if ⌊alloc / price⌋ ≤ 0 then none else some (code, ⌊alloc / price⌋)

section Affordable
variable {priceMap : Dict String ℤ} {code : String} {alloc : ℚ}

theorem code_of_affordable {x : String × ℤ} (h : affordable priceMap alloc code = some x) :
    x.1 = code := by
  simp only [affordable] at h
  split at h
  · cases h
  · split at h
    · cases h
    · cases h
      rfl

theorem buyItem_affordable (tradeIntents : List TradeIntent) (nameMap : Dict String String) :
    (PositionDiffCalculator.buyItem tradeIntents priceMap nameMap alloc code).map
      (fun i => (i.stockCode, i.orderQty)) = affordable priceMap alloc code := by
  simp only [PositionDiffCalculator.buyItem, affordable]
  split
  · rfl
  · split
    · rfl
    · rfl

/-- Nothing buys nothing. -/
theorem affordable_of_nonpos (halloc : alloc ≤ 0) (code : String) :
    affordable priceMap alloc code = none := by
  rw [← buyItem_affordable [] Dict.empty,
    PositionDiffCalculator.buyItem_of_nonpos [] priceMap Dict.empty halloc code, Option.map_none]

/-- A multiple of the price is affordable. -/
theorem mul_le_iff {price : ℤ} (hprice : 0 < price) (m : ℤ) :
    ((m * price : ℤ) : ℚ) ≤ alloc ↔ m ≤ ⌊alloc / price⌋ := by
  have hpos : (0 : ℚ) < price := by exact_mod_cast hprice
  rw [Int.le_floor, le_div_iff₀ hpos, Int.cast_mul]

/-- A smaller allocation buys as much exactly when it pays for as many shares. -/
theorem affordable_eq_iff {less more : ℚ} (hle : less ≤ max more 0) :
    affordable priceMap less code = affordable priceMap more code ↔
      (0 < (priceMap.get? code).getD 0 → ∀ m : ℤ, 0 < m →
        ((m * (priceMap.get? code).getD 0 : ℤ) : ℚ) ≤ more →
          ((m * (priceMap.get? code).getD 0 : ℤ) : ℚ) ≤ less) := by
  simp only [affordable]
  generalize (priceMap.get? code).getD 0 = price
  by_cases hprice : price ≤ 0
  · simp [hprice, not_lt.mpr hprice]
  · rw [if_neg hprice, if_neg hprice]
    rw [not_le] at hprice
    have hmore (m : ℤ) : ((m * price : ℤ) : ℚ) ≤ more ↔ m ≤ ⌊more / price⌋ := mul_le_iff hprice m
    have hless (m : ℤ) : ((m * price : ℤ) : ℚ) ≤ less ↔ m ≤ ⌊less / price⌋ := mul_le_iff hprice m
    have hfloor : ⌊less / price⌋ ≤ max ⌊more / price⌋ 0 := by
      have hdiv : less / price ≤ max (more / price) 0 := by
        have hpos : (0 : ℚ) < price := by exact_mod_cast hprice
        rw [div_le_iff₀ hpos, max_mul_of_nonneg _ _ hpos.le, div_mul_cancel₀ _ hpos.ne', zero_mul]
        exact hle
      rcases le_max_iff.mp hdiv with h | h
      · exact le_max_of_le_left (Int.floor_le_floor h)
      · exact le_max_of_le_right (Int.floor_nonpos h)
    simp only [hprice, forall_const, hmore, hless]
    constructor
    · intro heq m hm hle
      rw [if_neg (by omega : ¬⌊more / price⌋ ≤ 0)] at heq
      split at heq
      · cases heq
      · rw [Option.some.injEq, Prod.mk.injEq] at heq
        omega
    · intro h
      by_cases hzero : ⌊more / price⌋ ≤ 0
      · rw [if_pos hzero, if_pos (by omega)]
      · have hge := h ⌊more / price⌋ (by omega) le_rfl
        have heq : ⌊less / price⌋ = ⌊more / price⌋ := by omega
        rw [heq]

/-- Two rounds buy the same exactly when each code is bought alike. -/
theorem round_eq_iff {less more : ℚ} {codes : List String} :
    codes.filterMap (affordable priceMap less) = codes.filterMap (affordable priceMap more) ↔
      ∀ code ∈ codes, affordable priceMap less code = affordable priceMap more code := by
  constructor
  · intro heq code hcode
    have hmem (a b : ℚ) (hab : codes.filterMap (affordable priceMap a) =
        codes.filterMap (affordable priceMap b)) (x) (hx : affordable priceMap a code = some x) :
        affordable priceMap b code = some x := by
      have hin : x ∈ codes.filterMap (affordable priceMap b) := by
        rw [← hab, List.mem_filterMap]
        exact ⟨code, hcode, hx⟩
      obtain ⟨code', -, hx'⟩ := List.mem_filterMap.mp hin
      have hsame : code' = code := (code_of_affordable hx').symm.trans (code_of_affordable hx)
      rwa [hsame] at hx'
    refine Option.ext fun x => ⟨?_, ?_⟩
    · exact hmem less more heq x
    · exact hmem more less heq.symm x
  · intro h
    exact List.filterMap_congr h

end Affordable

/-! ## The two allocations -/

namespace PositionDiffCalculator

variable (c : PositionDiffCalculator) (buyCodes : List String)

/-- Nothing to invest is nothing to share. -/
theorem share_nonpos {investable holdValue : ℤ} (h : investable ≤ 0) (count : ℕ) :
    share buyCodes investable holdValue count ≤ 0 := by
  have hcash : (investable : ℚ) ≤ 0 := by exact_mod_cast h
  exact div_nonpos_of_nonpos_of_nonneg ((min_le_right _ _).trans hcash) (Nat.cast_nonneg _)

theorem share_mono {less more holdValue : ℤ} (h : less ≤ more) (count : ℕ) :
    share buyCodes less holdValue count ≤ share buyCodes more holdValue count := by
  have hsum : ((less + holdValue : ℤ) : ℚ) ≤ (more + holdValue : ℤ) := by
    exact_mod_cast add_le_add_left h holdValue
  have hcash : (less : ℚ) ≤ more := by exact_mod_cast h
  unfold share
  gcongr

/-- A buffer of a part of the cash leaves no more than the cash, and nothing of a debt. -/
theorem sub_cashBuffer_le (hratio : 0 ≤ c.cashBufferRatio) (hone : c.cashBufferRatio ≤ 1)
    (totalInvestable : ℤ) :
    totalInvestable - c.cashBuffer totalInvestable ≤ max totalInvestable 0 := by
  by_cases htotal : 0 ≤ totalInvestable
  · obtain ⟨-, hbuffer, -⟩ := cashBuffer_bounds c htotal hratio hone
    omega
  · have hneg : (totalInvestable : ℚ) ≤ 0 := by exact_mod_cast (not_le.mp htotal).le
    have hpos : 0 ≤ -(totalInvestable * c.cashBufferRatio) := by
      rw [neg_nonneg]
      exact mul_nonpos_of_nonpos_of_nonneg hneg hratio
    have hfloor := Int.floor_le (-(totalInvestable * c.cashBufferRatio))
    have htrunc : truncate (-(totalInvestable * c.cashBufferRatio)) =
        -c.cashBuffer totalInvestable := by
      rw [truncate, Rat.neg_num, Rat.neg_den, Int.neg_tdiv]
      rfl
    rw [← truncate_of_nonneg hpos, htrunc, Int.cast_neg, neg_le_neg_iff] at hfloor
    have hpart : (totalInvestable : ℚ) * 1 ≤ totalInvestable * c.cashBufferRatio :=
      mul_le_mul_of_nonpos_left hone hneg
    have hceil : totalInvestable ≤ c.cashBuffer totalInvestable := by
      rw [mul_one] at hpart
      exact_mod_cast hpart.trans hfloor
    omega

theorem share_net_le (hratio : 0 ≤ c.cashBufferRatio) (hone : c.cashBufferRatio ≤ 1)
    (totalInvestable holdValue : ℤ) (count : ℕ) :
    share buyCodes (totalInvestable - c.cashBuffer totalInvestable) holdValue count ≤
      max (share buyCodes totalInvestable holdValue count) 0 := by
  have hnet := sub_cashBuffer_le c hratio hone totalInvestable
  by_cases htotal : 0 ≤ totalInvestable
  · rw [max_eq_left htotal] at hnet
    exact (share_mono buyCodes hnet count).trans (le_max_left _ _)
  · rw [max_eq_right (not_le.mp htotal).le] at hnet
    exact (share_nonpos buyCodes hnet count).trans (le_max_right _ _)

end PositionDiffCalculator

/-! ## The recalculated orders -/

namespace OrderGenerator

open Prog (run collect)

variable {env : Env} (g : OrderGenerator) (plan : RebalancePlan) (priceMap : Dict String ℤ)

theorem run_recalculateBuyOrder (huuid : ∀ n, env.fault n .uuid4 = none)
    (hprices : plan.priceMap = priceMap.entries) (alloc : ℚ) (code : String) (w : World) :
    ∃ r w', run (World.handle env) (recalculateBuyOrder g plan alloc code) w = (.ok r, w') ∧
      r.map (fun o => (o.stockCode, o.quantity)) = affordable priceMap alloc code ∧
      ∀ o ∈ r, o.action = .buy := by
  have hget : plan.priceMap.lookup code = priceMap.get? code := by rw [hprices, Dict.get?]
  simp only [recalculateBuyOrder, affordable, hget]
  split
  · exact ⟨none, w, rfl, rfl, by simp⟩
  · split
    · exact ⟨none, w, rfl, rfl, by simp⟩
    · have hdraw : World.handle env .uuid4 w = (.ok (env.uuid4 w.tick), w.next) := by
        simp [World.handle, huuid, World.effect]
      rw [Prog.run_bind, Prog.run_perform, hdraw]
      exact ⟨_, w.next, rfl, rfl, by simp⟩

/-- One round over the codes makes the orders that the allocation affords. -/
theorem run_collect_recalculateBuyOrder (huuid : ∀ n, env.fault n .uuid4 = none)
    (hprices : plan.priceMap = priceMap.entries) (alloc : ℚ) (codes : List String) (w : World) :
    ∃ rs w', run (World.handle env) (collect (recalculateBuyOrder g plan alloc) codes) w =
        (.ok rs, w') ∧
      rs.map (fun o => (o.stockCode, o.quantity)) = codes.filterMap (affordable priceMap alloc) ∧
      ∀ o ∈ rs, o.action = .buy := by
  induction codes generalizing w with
  | nil => exact ⟨[], w, rfl, rfl, by simp⟩
  | cons code codes ih =>
    obtain ⟨r, w₁, hrun, hr, hbuy⟩ := run_recalculateBuyOrder g plan priceMap huuid hprices alloc
      code w
    obtain ⟨rs, w₂, hrun', hrs, hbuys⟩ := ih w₁
    refine ⟨r.toList ++ rs, w₂, ?_, ?_, ?_⟩
    · simp only [collect, Prog.run_bind, hrun, hrun', Prog.run_pure]
    · rw [List.filterMap_cons, ← hr, List.map_append, hrs]
      cases r <;> rfl
    · intro o ho
      rcases List.mem_append.mp ho with h | h
      · exact hbuy o (Option.mem_toList.mp h)
      · exact hbuys o h

/-- The recalculation is a round over the new codes, each with its share of the cash. -/
theorem run_recalculateBuyOrders (huuid : ∀ n, env.fault n .uuid4 = none)
    (c : PositionDiffCalculator) (buyCodes : List String) (tradeIntents : List TradeIntent)
    (currentHoldings : List CurrentHolding) (availableCash : ℤ) (nameMap : Dict String String)
    (rebalanceId : RebalanceId) (hasAccountService : Bool) (polls : ℕ) (cash : ℤ) (w : World) :
    let d := c.calculate buyCodes tradeIntents currentHoldings availableCash priceMap nameMap
    ∃ orders w', run (World.handle env) (recalculateBuyOrders g
        { rebalanceId, diff := d.lists, hasAccountService, buyCodes, priceMap := priceMap.entries
          polls } cash) w = (.ok orders, w') ∧
      orders.map (fun o => (o.stockCode, o.quantity)) =
        (newBuyCodes buyCodes currentHoldings).filterMap (affordable priceMap
          (share buyCodes cash (holdValue buyCodes currentHoldings)
            (newBuyCodes buyCodes currentHoldings).length)) ∧
      ∀ o ∈ orders, o.action = .buy := by
  intro d
  have hvalue : ((d.lists.holdList.map (·.currentValue)).sum) = holdValue buyCodes currentHoldings := by
    rw [← PositionDiffCalculator.calculate_holdValue c buyCodes tradeIntents currentHoldings
      availableCash priceMap nameMap, DiffResult.lists, List.map_map]
    rfl
  have hnew : (buyCodes.filter fun code => code ∉ d.lists.holdList.map (·.stockCode)) =
      newBuyCodes buyCodes currentHoldings := by
    refine List.filter_congr fun code hcode => ?_
    have hheld : code ∈ d.lists.holdList.map (·.stockCode) ↔
        code ∈ (PositionDiffCalculator.holdingMap currentHoldings).keys := by
      have hcodes : code ∈ d.holdList.map (·.stockCode) ↔
          code ∈ currentHoldings.map (·.stockCode) ∧ code ∈ buyCodes :=
        PositionDiffCalculator.mem_holdList_codes c buyCodes tradeIntents currentHoldings
          availableCash priceMap nameMap
      rw [PositionDiffCalculator.mem_keys_holdingMap, Ne, PositionDiffCalculator.rowsOf_eq_nil,
        not_not, DiffResult.lists, List.map_map]
      exact hcodes.trans (and_iff_left hcode)
    simp only [hheld]
  simp only [recalculateBuyOrders, hvalue, hnew]
  by_cases hnothing : cash ≤ 0 ∨ buyCodes = [] ∨ newBuyCodes buyCodes currentHoldings = []
  · rw [if_pos hnothing]
    refine ⟨[], w, rfl, ?_, by simp⟩
    rw [List.map_nil, eq_comm, List.filterMap_eq_nil_iff]
    intro code hcode
    have hcash : cash ≤ 0 := by
      rcases hnothing with h | h | h
      · exact h
      · simp [newBuyCodes, h] at hcode
      · simp [h] at hcode
    exact affordable_of_nonpos (PositionDiffCalculator.share_nonpos buyCodes hcash _) code
  · rw [if_neg hnothing]
    simp only [share, Int.cast_add]
    exact run_collect_recalculateBuyOrder g _ priceMap huuid rfl _ _ w

end OrderGenerator

/-! ## Agreement with the plan -/

section Agreement
variable (c : PositionDiffCalculator) (buyCodes : List String) (tradeIntents : List TradeIntent)
  (currentHoldings : List CurrentHolding) (availableCash : ℤ) (priceMap : Dict String ℤ)
  (nameMap : Dict String String)

theorem map_buyList :
    ((c.calculate buyCodes tradeIntents currentHoldings availableCash priceMap nameMap).buyList.map
        fun i => (i.stockCode, i.orderQty)) =
      (newBuyCodes buyCodes currentHoldings).filterMap (affordable priceMap
        (c.allocPerStock buyCodes currentHoldings availableCash)) := by
  rw [PositionDiffCalculator.calculate_buyList, List.map_filterMap]
  refine List.filterMap_congr fun code _ => ?_
  exact buyItem_affordable tradeIntents nameMap

/-- The cash held back pays for no further share: whatever number of shares a new code gets
from the whole cash, it gets without the buffer. -/
def BufferBuysNothing : Prop :=
  ∀ code ∈ newBuyCodes buyCodes currentHoldings, 0 < (priceMap.get? code).getD 0 →
    ∀ m : ℤ, 0 < m →
      ((m * (priceMap.get? code).getD 0 : ℤ) : ℚ) ≤
          share buyCodes (availableCash + soldValue buyCodes currentHoldings)
            (holdValue buyCodes currentHoldings) (newBuyCodes buyCodes currentHoldings).length →
        ((m * (priceMap.get? code).getD 0 : ℤ) : ℚ) ≤
          c.allocPerStock buyCodes currentHoldings availableCash

end Agreement

/-- With the cash that the plan expected, the recalculation makes the buys of the plan exactly
when the buffer would have paid for no further share. -/
theorem recalculation_agrees_iff {env : Env} (huuid : ∀ n, env.fault n .uuid4 = none)
    (g : OrderGenerator) (buyCodes : List String) (tradeIntents : List TradeIntent)
    (currentHoldings : List CurrentHolding) (availableCash : ℤ) (priceMap : Dict String ℤ)
    (nameMap : Dict String String) (rebalanceId : RebalanceId) (hasAccountService : Bool)
    (polls : ℕ) (w : World) :
    let d := ({} : PositionDiffCalculator).calculate buyCodes tradeIntents currentHoldings
      availableCash priceMap nameMap
    ∃ orders w', Prog.run (World.handle env) (g.recalculateBuyOrders
        { rebalanceId, diff := d.lists, hasAccountService, buyCodes, priceMap := priceMap.entries
          polls } (availableCash + d.totalSellValue)) w = (.ok orders, w') ∧
      (∀ o ∈ orders, o.action = .buy) ∧
      (orders.map (fun o => (o.stockCode, o.quantity)) =
          d.buyList.map (fun i => (i.stockCode, i.orderQty)) ↔
        BufferBuysNothing {} buyCodes currentHoldings availableCash priceMap) := by
  intro d
  obtain ⟨orders, w', hrun, horders, hbuy⟩ := g.run_recalculateBuyOrders priceMap huuid {} buyCodes
    tradeIntents currentHoldings availableCash nameMap rebalanceId hasAccountService polls
    (availableCash + d.totalSellValue) w
  have hsold : d.totalSellValue = soldValue buyCodes currentHoldings :=
    PositionDiffCalculator.calculate_totalSellValue {} buyCodes tradeIntents currentHoldings
      availableCash priceMap nameMap
  refine ⟨orders, w', hrun, hbuy, ?_⟩
  rw [horders, map_buyList, eq_comm, round_eq_iff, hsold]
  refine forall₂_congr fun code hcode => ?_
  refine affordable_eq_iff ?_
  exact PositionDiffCalculator.share_net_le {} buyCodes (by norm_num) (by norm_num) _ _ _

/-- A stock of 300,000 won each for 1,000,000 won: three shares in the plan and again after
the sells. -/
theorem recalculation_agrees_iff_sample :
    let d := ({} : PositionDiffCalculator).calculate ["005930"] [] [] 1000000
      (Dict.ofList [("005930", 300000)]) Dict.empty
    ∃ orders w', Prog.run (World.handle Env.quiet) (OrderGenerator.recalculateBuyOrders
        ⟨.market, "", "", false, 0⟩
        { rebalanceId := 0, diff := d.lists, hasAccountService := true, buyCodes := ["005930"]
          priceMap := [("005930", 300000)], polls := 0 } (1000000 + d.totalSellValue))
        (World.holding [] []) = (.ok orders, w') ∧
      (∀ o ∈ orders, o.action = .buy) ∧
      (orders.map (fun o => (o.stockCode, o.quantity)) =
          d.buyList.map (fun i => (i.stockCode, i.orderQty)) ↔
        BufferBuysNothing {} ["005930"] [] 1000000 (Dict.ofList [("005930", 300000)])) :=
  recalculation_agrees_iff (fun _ => rfl) ⟨.market, "", "", false, 0⟩ ["005930"] [] [] 1000000
    (Dict.ofList [("005930", 300000)]) Dict.empty 0 true 0 (World.holding [] [])

/-- A stock that costs all the cash is not in the plan, but is bought after the sells. -/
theorem buffer_spent :
    let d := ({} : PositionDiffCalculator).calculate ["005930"] [] [] 1000000
      (Dict.ofList [("005930", 1000000)]) Dict.empty
    ¬∃ orders w', Prog.run (World.handle Env.quiet) (OrderGenerator.recalculateBuyOrders
        ⟨.market, "", "", false, 0⟩
        { rebalanceId := 0, diff := d.lists, hasAccountService := true, buyCodes := ["005930"]
          priceMap := [("005930", 1000000)], polls := 0 } (1000000 + d.totalSellValue))
        (World.holding [] []) = (.ok orders, w') ∧
      orders.map (fun o => (o.stockCode, o.quantity)) =
        d.buyList.map (fun i => (i.stockCode, i.orderQty)) := by
  intro d
  rintro ⟨orders, w', hrun, hsame⟩
  have huuid (n : ℕ) : Env.quiet.fault n .uuid4 = none := rfl
  obtain ⟨orders', w'', hrun', horders, -⟩ :=
    OrderGenerator.run_recalculateBuyOrders ⟨.market, "", "", false, 0⟩
      (Dict.ofList [("005930", 1000000)]) huuid {} ["005930"] [] [] 1000000 Dict.empty 0 true 0
      (1000000 + d.totalSellValue) (World.holding [] [])
  obtain rfl : orders = orders' := Except.ok.inj (congrArg Prod.fst (hrun.symm.trans hrun'))
  rw [horders] at hsame
  revert hsame
  decide +kernel

end Autotrading
