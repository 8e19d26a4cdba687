import Autotrading.OrderGenerator
import Autotrading.PiotroskiMomentum

/-!
# The position diff

`app/strategy/runtime/position_diff.py`. Money is exact here where the source divides
floats.
-/
namespace Autotrading

open Python (Number)

inductive DiffAction
  | sell
  | buy
  | hold
  | rebalance
  deriving DecidableEq

/-- A `PositionDiffItem` with the fields that only the plan and its summary show. -/
structure DiffItem extends PositionDiffItem where
  stockName : String
  action : DiffAction
  currentQty : ℤ := 0
  targetQty : ℤ := 0
  targetValue : ℤ := 0
  orderValue : ℤ := 0
  momentumReturn : Number := .finite 0
  momentumRank : ℤ := 0

/-- A `PositionDiffResult` with its totals. -/
structure DiffResult where
  sellList : List DiffItem
  buyList : List DiffItem
  holdList : List DiffItem
  totalSellValue : ℤ
  totalBuyValue : ℤ
  availableCash : ℤ
  estimatedCashAfter : ℤ
  targetCount : ℕ
  currentCount : ℕ

/-- What `OrderGenerator` reads of the result. -/
def DiffResult.lists (d : DiffResult) : PositionDiffResult where
  sellList := d.sellList.map (·.toPositionDiffItem)
  buyList := d.buyList.map (·.toPositionDiffItem)
  holdList := d.holdList.map (·.toPositionDiffItem)

structure CurrentHolding where
  stockCode : String
  stockName : String
  quantity : ℤ
  currentPrice : ℤ
  evalAmount : ℤ

/-- A `PositionDiffCalculator`. -/
structure PositionDiffCalculator where
  cashBufferRatio : ℚ := 1 / 50

namespace PositionDiffCalculator

def holdItem (code : String) (holding : CurrentHolding) : DiffItem where
  stockCode := code
  stockName := holding.stockName
  action := .hold
  currentQty := holding.quantity
  currentPrice := holding.currentPrice
  currentValue := holding.evalAmount
  orderQty := 0

def sellItem (code : String) (holding : CurrentHolding) : DiffItem where
  stockCode := code
  stockName := holding.stockName
  action := .sell
  currentQty := holding.quantity
  currentPrice := holding.currentPrice
  currentValue := holding.evalAmount
  orderQty := holding.quantity
  orderValue := holding.quantity * holding.currentPrice

/-- One round over the new buy codes: nothing for a code without a price or a share. -/
def buyItem (tradeIntents : List TradeIntent) (priceMap : Dict String ℤ)
    (nameMap : Dict String String) (allocPerStock : ℚ) (code : String) : Option DiffItem :=
  let price := (priceMap.get? code).getD 0
  if price ≤ 0 then none
  else
    let qty := ⌊allocPerStock / price⌋
    if qty ≤ 0 then none
    else
      let intent := (Dict.ofList (tradeIntents.map fun i => (i.stockCode, i))).get? code
      some {
        stockCode := code
        stockName := (nameMap.get? code).getD code
        action := .buy
        currentPrice := price
        currentValue := 0
        targetQty := qty
        targetValue := Python.Decimal.truncate allocPerStock
        orderQty := qty
        orderValue := qty * price
        momentumReturn := (intent.bind (·.momentumReturn)).getD (.finite 0)
        momentumRank := (intent.bind (·.momentumRank)).getD 0 }

/-- `calculate`. -/
def calculate (c : PositionDiffCalculator) (buyCodes : List String)
    (tradeIntents : List TradeIntent) (currentHoldings : List CurrentHolding)
    (availableCash : ℤ) (priceMap : Dict String ℤ) (nameMap : Dict String String) : DiffResult :=
  let holdingMap := Dict.ofList (currentHoldings.map fun h => (h.stockCode, h))
  let held := holdingMap.entries.filter fun e => e.1 ∈ buyCodes
  let sold := holdingMap.entries.filter fun e => e.1 ∉ buyCodes
  let holdList := held.map fun e => holdItem e.1 e.2
  let sellList := sold.map fun e => sellItem e.1 e.2
  let totalSellValue := (sellList.map (·.orderValue)).sum
  let newBuyCodes := buyCodes.filter fun code => code ∉ holdingMap.keys
  let totalInvestable := availableCash + totalSellValue
  let cashBuffer := Python.Decimal.truncate (totalInvestable * c.cashBufferRatio)
  let netInvestable := totalInvestable - cashBuffer
  let holdValue := (holdList.map (·.currentValue)).sum
  let totalPortfolioValue := netInvestable + holdValue
  let targetValuePerStock : ℚ :=
    if 0 < buyCodes.length then (totalPortfolioValue : ℚ) / buyCodes.length else 0
  let totalNewBuyTarget := targetValuePerStock * newBuyCodes.length
  let actualBuyBudget := min totalNewBuyTarget (netInvestable : ℚ)
  let buyList :=
    if newBuyCodes ≠ [] ∧ 0 < actualBuyBudget then
      newBuyCodes.filterMap
        (buyItem tradeIntents priceMap nameMap (actualBuyBudget / newBuyCodes.length))
    else []
  let totalBuyValue := (buyList.map (·.orderValue)).sum
  { sellList, buyList, holdList, totalSellValue, totalBuyValue, availableCash
    estimatedCashAfter := availableCash + totalSellValue - totalBuyValue
    targetCount := buyCodes.length
    currentCount := currentHoldings.length }

section Calculate
variable (c : PositionDiffCalculator) (buyCodes : List String) (tradeIntents : List TradeIntent)
  (currentHoldings : List CurrentHolding) (availableCash : ℤ) (priceMap : Dict String ℤ)
  (nameMap : Dict String String)

/-- Every holding that is not to be bought is sold, all of it. -/
theorem calculate_sellList :
    (c.calculate buyCodes tradeIntents currentHoldings availableCash priceMap nameMap).sellList =
      ((Dict.ofList (currentHoldings.map fun h => (h.stockCode, h))).entries.filter
        fun e => e.1 ∉ buyCodes).map fun e => sellItem e.1 e.2 := rfl

theorem mem_sellList_codes {code : String} :
    code ∈ (c.calculate buyCodes tradeIntents currentHoldings availableCash priceMap
        nameMap).sellList.map (·.stockCode) ↔
      code ∈ currentHoldings.map (·.stockCode) ∧ code ∉ buyCodes := by
  have hkeys : code ∈ (Dict.ofList (currentHoldings.map fun h => (h.stockCode, h))).keys ↔
      code ∈ currentHoldings.map (·.stockCode) := by simp
  rw [calculate_sellList, List.map_map, ← hkeys, Dict.keys, List.mem_map, List.mem_map]
  constructor
  · rintro ⟨e, he, rfl⟩
    rw [List.mem_filter, decide_eq_true_iff] at he
    exact ⟨⟨e, he.1, rfl⟩, he.2⟩
  · rintro ⟨⟨e, he, rfl⟩, hnot⟩
    exact ⟨e, List.mem_filter.mpr ⟨he, decide_eq_true hnot⟩, rfl⟩

/-- With nothing to buy each code is sold by its last row. -/
theorem mem_sellList_nil {item : DiffItem} :
    item ∈ (c.calculate [] tradeIntents currentHoldings availableCash priceMap nameMap).sellList ↔
      ∃ before h after, currentHoldings = before ++ h :: after ∧
        (∀ h' ∈ after, h'.stockCode ≠ h.stockCode) ∧ item = sellItem h.stockCode h := by
  rw [calculate_sellList, List.mem_map]
  constructor
  · rintro ⟨⟨code, h⟩, he, rfl⟩
    have hget := Dict.mem_entries.mp (List.mem_filter.mp he).1
    obtain ⟨before, after, heq, hafter⟩ := Dict.get?_ofList_eq_some.mp hget
    rw [List.map_eq_append_iff] at heq
    obtain ⟨before', rest, rfl, rfl, hrest⟩ := heq
    rw [List.map_eq_cons_iff] at hrest
    obtain ⟨h', after', rfl, heq, rfl⟩ := hrest
    obtain ⟨rfl, rfl⟩ := Prod.mk.inj heq
    refine ⟨before', h', after', rfl, ?_, rfl⟩
    intro x hx
    exact hafter (x.stockCode, x) (List.mem_map.mpr ⟨x, hx, rfl⟩)
  · rintro ⟨before, h, after, rfl, hafter, rfl⟩
    refine ⟨(h.stockCode, h), List.mem_filter.mpr ⟨?_, by simp⟩, rfl⟩
    rw [Dict.mem_entries, Dict.get?_ofList_eq_some]
    refine ⟨before.map fun h => (h.stockCode, h), after.map fun h => (h.stockCode, h), ?_, ?_⟩
    · rw [List.map_append, List.map_cons]
    · intro e he
      obtain ⟨x, hx, rfl⟩ := List.mem_map.mp he
      exact hafter x hx

/-- Every buy is for a code to buy, at its price. -/
theorem exists_of_mem_buyList {item : DiffItem} (h : item ∈ (c.calculate buyCodes tradeIntents
    currentHoldings availableCash priceMap nameMap).buyList) :
    ∃ alloc, ∃ code ∈ buyCodes, buyItem tradeIntents priceMap nameMap alloc code = some item := by
  simp only [calculate, List.mem_ite_nil_right] at h
  obtain ⟨code, hcode, hitem⟩ := List.mem_filterMap.mp h.2
  exact ⟨_, code, (List.mem_filter.mp hcode).1, hitem⟩

/-- A code without a price is not bought. -/
theorem price_of_buyItem {alloc : ℚ} {code : String} {item : DiffItem}
    (h : buyItem tradeIntents priceMap nameMap alloc code = some item) :
    0 < (priceMap.get? code).getD 0 := by
  simp only [buyItem] at h
  split at h
  · cases h
  · next hprice => exact Int.not_le.mp hprice

end Calculate

end PositionDiffCalculator

end Autotrading
