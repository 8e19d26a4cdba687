import Autotrading.DecimalText
import Autotrading.PositionDiff
import Mathlib.Algebra.BigOperators.Group.List.Lemmas
import Mathlib.Algebra.Order.BigOperators.Group.List
import Mathlib.Tactic.FieldSimp
import Mathlib.Tactic.Linarith

/-!
# What the diff plans

The buys of a diff stay within its budget. They are a round over the codes without a
holding, each with the same share of the budget. The diff knows a stock by the last of its
rows.
-/
namespace Autotrading

namespace PositionDiffCalculator

open Python.Decimal (truncate truncate_of_nonneg)

/-! ## The quantities of a plan -/

/-- `holding_map`: the last row of each code. -/
def holdingMap (currentHoldings : List CurrentHolding) : Dict String CurrentHolding :=
  Dict.ofList (currentHoldings.map fun h => (h.stockCode, h))

def newBuyCodes (buyCodes : List String) (currentHoldings : List CurrentHolding) : List String :=
  buyCodes.filter fun code => code ∉ (holdingMap currentHoldings).keys

def soldValue (buyCodes : List String) (currentHoldings : List CurrentHolding) : ℤ :=
  (((holdingMap currentHoldings).entries.filter fun e => e.1 ∉ buyCodes).map
    fun e => e.2.quantity * e.2.currentPrice).sum

def holdValue (buyCodes : List String) (currentHoldings : List CurrentHolding) : ℤ :=
  (((holdingMap currentHoldings).entries.filter fun e => e.1 ∈ buyCodes).map
    fun e => e.2.evalAmount).sum

def cashBuffer (c : PositionDiffCalculator) (totalInvestable : ℤ) : ℤ :=
  truncate (totalInvestable * c.cashBufferRatio)

/-- An equal share of `investable` for each of `count` new codes, but no more than an equal
weight of the portfolio for each code. -/
def share (buyCodes : List String) (investable holdValue : ℤ) (count : ℕ) : ℚ :=
  min (((investable + holdValue : ℤ) : ℚ) / buyCodes.length * count) investable / count

section Calculate
variable (c : PositionDiffCalculator) (buyCodes : List String) (tradeIntents : List TradeIntent)
  (currentHoldings : List CurrentHolding) (availableCash : ℤ) (priceMap : Dict String ℤ)
  (nameMap : Dict String String)

def netInvestable : ℤ :=
  availableCash + soldValue buyCodes currentHoldings -
    c.cashBuffer (availableCash + soldValue buyCodes currentHoldings)

/-- `alloc_per_stock`. -/
def allocPerStock : ℚ :=
  share buyCodes (c.netInvestable buyCodes currentHoldings availableCash)
    (holdValue buyCodes currentHoldings) (newBuyCodes buyCodes currentHoldings).length

/-- The budget of all the new codes, and the share of each. -/
theorem share_eq {investable holdValue : ℤ} {count : ℕ} :
    share buyCodes investable holdValue count =
      min ((if 0 < buyCodes.length then ((investable + holdValue : ℤ) : ℚ) / buyCodes.length else 0) *
        count) investable / count := by
  by_cases hcodes : 0 < buyCodes.length
  · rw [share, if_pos hcodes]
  · have hzero : buyCodes.length = 0 := Nat.eq_zero_of_not_pos hcodes
    rw [share, if_neg hcodes, hzero, Nat.cast_zero, div_zero]

theorem calculate_totalSellValue :
    (c.calculate buyCodes tradeIntents currentHoldings availableCash priceMap
      nameMap).totalSellValue = soldValue buyCodes currentHoldings := by
  simp only [calculate, soldValue, holdingMap, List.map_map]
  rfl

theorem calculate_holdValue :
    ((c.calculate buyCodes tradeIntents currentHoldings availableCash priceMap
      nameMap).holdList.map (·.currentValue)).sum = holdValue buyCodes currentHoldings := by
  simp only [calculate, holdValue, holdingMap, List.map_map]
  rfl

theorem buyItem_of_nonpos {alloc : ℚ} (halloc : alloc ≤ 0) (code : String) :
    buyItem tradeIntents priceMap nameMap alloc code = none := by
  simp only [buyItem]
  split
  · rfl
  · next hprice =>
    have hpos : (0 : ℚ) < ((priceMap.get? code).getD 0 : ℤ) := by
      rw [Int.not_le] at hprice
      exact_mod_cast hprice
    have hfloor : ⌊alloc / ((priceMap.get? code).getD 0 : ℤ)⌋ ≤ 0 := by
      rw [← Int.floor_zero (R := ℚ)]
      exact Int.floor_le_floor (div_nonpos_of_nonpos_of_nonneg halloc hpos.le)
    rw [if_pos hfloor]

/-- Without a budget the round buys nothing, so the diff always makes it. -/
theorem round_eq {budget : ℚ} (codes : List String) :
    (if codes ≠ [] ∧ 0 < budget then
      codes.filterMap (buyItem tradeIntents priceMap nameMap (budget / codes.length)) else []) =
      codes.filterMap (buyItem tradeIntents priceMap nameMap (budget / codes.length)) := by
  by_cases hbudget : 0 < budget
  · by_cases hcodes : codes = []
    · simp [hcodes]
    · rw [if_pos ⟨hcodes, hbudget⟩]
  · have halloc : budget / codes.length ≤ 0 :=
      div_nonpos_of_nonpos_of_nonneg (not_lt.mp hbudget) (Nat.cast_nonneg _)
    rw [if_neg fun h => hbudget h.2, eq_comm, List.filterMap_eq_nil_iff]
    intro code _
    exact buyItem_of_nonpos tradeIntents priceMap nameMap halloc code

/-- The buys: one round over the new codes. -/
theorem calculate_buyList :
    (c.calculate buyCodes tradeIntents currentHoldings availableCash priceMap nameMap).buyList =
      (newBuyCodes buyCodes currentHoldings).filterMap (buyItem tradeIntents priceMap nameMap
        (c.allocPerStock buyCodes currentHoldings availableCash)) := by
  rw [allocPerStock, share_eq, ← round_eq]
  simp only [calculate, List.map_map]
  rfl

/-! ## The budget -/

/-- A buy has at least one share, and costs no more than the share of its code. -/
theorem buyItem_bounds {alloc : ℚ} {code : String} {item : DiffItem}
    (h : buyItem tradeIntents priceMap nameMap alloc code = some item) :
    item.stockCode = code ∧ 1 ≤ item.orderQty ∧ (item.orderValue : ℚ) ≤ alloc := by
  have hprice := price_of_buyItem tradeIntents priceMap nameMap h
  have hpos : (0 : ℚ) < ((priceMap.get? code).getD 0 : ℤ) := by exact_mod_cast hprice
  simp only [buyItem, if_neg (not_le.mpr hprice)] at h
  split at h
  · cases h
  · next hqty =>
    cases h
    have hfloor := (le_div_iff₀ hpos).mp (Int.floor_le (alloc / ((priceMap.get? code).getD 0 : ℤ)))
    refine ⟨rfl, ?_, by rw [Int.cast_mul]; exact hfloor⟩
    show 1 ≤ ⌊alloc / ((priceMap.get? code).getD 0 : ℤ)⌋
    omega

/-- A buy is made exactly when the share affords one share of the stock. -/
theorem buyItem_isSome_iff {alloc : ℚ} {code : String} :
    (buyItem tradeIntents priceMap nameMap alloc code).isSome ↔
      0 < (priceMap.get? code).getD 0 ∧ (((priceMap.get? code).getD 0 : ℤ) : ℚ) ≤ alloc := by
  simp only [buyItem]
  split
  · next hprice => simp [not_lt.mpr hprice]
  · next hprice =>
    rw [not_le] at hprice
    have hpos : (0 : ℚ) < ((priceMap.get? code).getD 0 : ℤ) := by exact_mod_cast hprice
    have hfloor : ⌊alloc / ((priceMap.get? code).getD 0 : ℤ)⌋ ≤ 0 ↔
        ¬(((priceMap.get? code).getD 0 : ℤ) : ℚ) ≤ alloc := by
      rw [← not_lt, not_iff_not, ← Int.add_one_le_iff, zero_add, Int.le_floor, Int.cast_one,
        le_div_iff₀ hpos, one_mul]
    split
    · next hqty => simp [hfloor.mp hqty]
    · next hqty => simp [hprice, not_not.mp (mt hfloor.mpr hqty)]

/-- A round costs no more than the shares of its codes together. -/
theorem round_cost {alloc : ℚ} (halloc : 0 ≤ alloc) (codes : List String) :
    ((((codes.filterMap (buyItem tradeIntents priceMap nameMap alloc)).map
      (·.orderValue)).sum : ℤ) : ℚ) ≤ codes.length * alloc := by
  induction codes with
  | nil => simp
  | cons code codes ih =>
    rw [List.filterMap_cons, List.length_cons, Nat.cast_succ]
    cases hitem : buyItem tradeIntents priceMap nameMap alloc code with
    | none =>
      simp only
      linarith
    | some item =>
      have hcost := (buyItem_bounds tradeIntents priceMap nameMap hitem).2.2
      rw [List.map_cons, List.sum_cons, Int.cast_add]
      linarith

theorem share_nonneg {investable holdValue : ℤ} (hinvestable : 0 ≤ investable)
    (hhold : 0 ≤ holdValue) (count : ℕ) : 0 ≤ share buyCodes investable holdValue count := by
  have hsum : (0 : ℚ) ≤ (investable + holdValue : ℤ) := by exact_mod_cast add_nonneg hinvestable hhold
  have hcash : (0 : ℚ) ≤ investable := by exact_mod_cast hinvestable
  unfold share
  positivity

/-- The shares of the new codes together are within the cash. -/
theorem share_mul_le {investable holdValue : ℤ} (hinvestable : 0 ≤ investable) (count : ℕ) :
    count * share buyCodes investable holdValue count ≤ investable := by
  by_cases hcount : count = 0
  · have hcash : (0 : ℚ) ≤ investable := by exact_mod_cast hinvestable
    simpa [hcount] using hcash
  · have hne : (count : ℚ) ≠ 0 := by exact_mod_cast hcount
    rw [share, mul_div_cancel₀ _ hne]
    exact min_le_right _ _

/-- No share is more than an equal weight. -/
theorem share_le {investable holdValue : ℤ} (hinvestable : 0 ≤ investable)
    (hhold : 0 ≤ holdValue) (count : ℕ) :
    share buyCodes investable holdValue count ≤
      ((investable + holdValue : ℤ) : ℚ) / buyCodes.length := by
  have hsum : (0 : ℚ) ≤ (investable + holdValue : ℤ) := by exact_mod_cast add_nonneg hinvestable hhold
  by_cases hcount : count = 0
  · rw [share, hcount, Nat.cast_zero, div_zero]
    positivity
  · have hpos : (0 : ℚ) < count := by exact_mod_cast Nat.pos_of_ne_zero hcount
    rw [share, div_le_iff₀ hpos]
    exact min_le_left _ _

/-- An entry of the map is a row of its code. -/
theorem mem_of_holdingMap {e : String × CurrentHolding}
    (h : e ∈ (holdingMap currentHoldings).entries) :
    e.2 ∈ currentHoldings ∧ e.2.stockCode = e.1 := by
  have hget := Dict.mem_entries.mp h
  obtain ⟨before, after, heq, -⟩ := Dict.get?_ofList_eq_some.mp hget
  have hmem : (e.1, e.2) ∈ currentHoldings.map fun h => (h.stockCode, h) := by simp [heq]
  obtain ⟨row, hrow, hpair⟩ := List.mem_map.mp hmem
  obtain ⟨hcode, rfl⟩ := Prod.mk.inj hpair
  exact ⟨hrow, hcode⟩

/-- Rows without a negative number. -/
def NonNegative (currentHoldings : List CurrentHolding) : Prop :=
  ∀ row ∈ currentHoldings, 0 ≤ row.quantity ∧ 0 ≤ row.currentPrice ∧ 0 ≤ row.evalAmount

instance : Decidable (NonNegative currentHoldings) :=
  inferInstanceAs (Decidable (∀ row ∈ currentHoldings, _))

variable {currentHoldings} in
theorem NonNegative.soldValue_nonneg (h : NonNegative currentHoldings) :
    0 ≤ soldValue buyCodes currentHoldings := by
  refine List.sum_nonneg fun v hv => ?_
  obtain ⟨e, he, rfl⟩ := List.mem_map.mp hv
  have hrow := h e.2 (mem_of_holdingMap currentHoldings (List.mem_filter.mp he).1).1
  exact mul_nonneg hrow.1 hrow.2.1

variable {currentHoldings} in
theorem NonNegative.holdValue_nonneg (h : NonNegative currentHoldings) :
    0 ≤ holdValue buyCodes currentHoldings := by
  refine List.sum_nonneg fun v hv => ?_
  obtain ⟨e, he, rfl⟩ := List.mem_map.mp hv
  exact (h e.2 (mem_of_holdingMap currentHoldings (List.mem_filter.mp he).1).1).2.2

/-- The buffer is a part of what there is to invest. -/
theorem cashBuffer_bounds {totalInvestable : ℤ} (htotal : 0 ≤ totalInvestable)
    (hratio : 0 ≤ c.cashBufferRatio) (hone : c.cashBufferRatio ≤ 1) :
    c.cashBuffer totalInvestable = ⌊totalInvestable * c.cashBufferRatio⌋ ∧
      0 ≤ c.cashBuffer totalInvestable ∧ c.cashBuffer totalInvestable ≤ totalInvestable := by
  have hcash : (0 : ℚ) ≤ totalInvestable := by exact_mod_cast htotal
  have hbuffer : c.cashBuffer totalInvestable = ⌊totalInvestable * c.cashBufferRatio⌋ :=
    truncate_of_nonneg (mul_nonneg hcash hratio)
  have hfloor : (⌊totalInvestable * c.cashBufferRatio⌋ : ℚ) ≤ totalInvestable :=
    (Int.floor_le _).trans (mul_le_of_le_one_right hcash hone)
  rw [hbuffer]
  exact ⟨rfl, Int.floor_nonneg.mpr (mul_nonneg hcash hratio), by exact_mod_cast hfloor⟩

/-- The buys of a diff stay within its budget, whatever the codes and the prices. -/
theorem calculate_within_budget (hrows : NonNegative currentHoldings) (hcash : 0 ≤ availableCash)
    (hratio : 0 ≤ c.cashBufferRatio ∧ c.cashBufferRatio ≤ 1) :
    let d := c.calculate buyCodes tradeIntents currentHoldings availableCash priceMap nameMap
    let buffer := ⌊((availableCash + d.totalSellValue : ℤ) : ℚ) * c.cashBufferRatio⌋
    let net := availableCash + d.totalSellValue - buffer
    let held := (d.holdList.map (·.currentValue)).sum
    d.totalBuyValue ≤ net ∧
      (∀ item ∈ d.buyList, 1 ≤ item.orderQty ∧
        (item.orderValue : ℚ) ≤ ((net + held : ℤ) : ℚ) / buyCodes.length) ∧
      buffer ≤ d.estimatedCashAfter ∧ 0 ≤ buffer := by
  intro d buffer net held
  have hsold : d.totalSellValue = soldValue buyCodes currentHoldings :=
    calculate_totalSellValue c buyCodes tradeIntents currentHoldings availableCash priceMap nameMap
  have hheld : held = holdValue buyCodes currentHoldings :=
    calculate_holdValue c buyCodes tradeIntents currentHoldings availableCash priceMap nameMap
  have htotal : 0 ≤ availableCash + soldValue buyCodes currentHoldings :=
    add_nonneg hcash (hrows.soldValue_nonneg buyCodes)
  obtain ⟨hfloor, hbuffer, hle⟩ := cashBuffer_bounds c htotal hratio.1 hratio.2
  have hbufferEq : c.cashBuffer (availableCash + soldValue buyCodes currentHoldings) = buffer := by
    rw [hfloor, ← hsold]
  have hnet : c.netInvestable buyCodes currentHoldings availableCash = net := by
    rw [netInvestable, hbufferEq, ← hsold]
  have hinvestable : 0 ≤ net := by
    rw [← hnet, netInvestable]
    omega
  have hholdNonneg := hrows.holdValue_nonneg buyCodes
  have hbuys := calculate_buyList c buyCodes tradeIntents currentHoldings availableCash priceMap
    nameMap
  rw [allocPerStock, hnet, ← hheld] at hbuys
  rw [← hheld] at hholdNonneg
  have hcost : d.totalBuyValue ≤ net := by
    have hround := round_cost tradeIntents priceMap nameMap
      (share_nonneg buyCodes hinvestable hholdNonneg (newBuyCodes buyCodes currentHoldings).length)
      (newBuyCodes buyCodes currentHoldings)
    rw [← hbuys] at hround
    exact_mod_cast hround.trans (share_mul_le buyCodes hinvestable _)
  refine ⟨hcost, ?_, ?_, hbufferEq ▸ hbuffer⟩
  · intro item hitem
    have hmem : item ∈ d.buyList := hitem
    rw [show d.buyList = _ from hbuys, List.mem_filterMap] at hmem
    obtain ⟨code, -, hcode⟩ := hmem
    obtain ⟨-, hqty, hvalue⟩ := buyItem_bounds tradeIntents priceMap nameMap hcode
    exact ⟨hqty, hvalue.trans (share_le buyCodes hinvestable hholdNonneg _)⟩
  · show buffer ≤ availableCash + d.totalSellValue - d.totalBuyValue
    omega

/-- One stock to sell, one to keep, and a new one that is named twice. -/
theorem calculate_within_budget_sample :
    let row (code : String) : CurrentHolding := ⟨code, code, 10, 70000, 700000⟩
    let d := ({} : PositionDiffCalculator).calculate ["005930", "000660", "005930"] []
      [row "000660", row "035720"] 1000000 (Dict.ofList [("005930", 60000)]) Dict.empty
    let buffer := ⌊((1000000 + d.totalSellValue : ℤ) : ℚ) * ({} : PositionDiffCalculator).cashBufferRatio⌋
    let net := 1000000 + d.totalSellValue - buffer
    let held := (d.holdList.map (·.currentValue)).sum
    d.totalBuyValue ≤ net ∧
      (∀ item ∈ d.buyList, 1 ≤ item.orderQty ∧
        (item.orderValue : ℚ) ≤ ((net + held : ℤ) : ℚ) / ["005930", "000660", "005930"].length) ∧
      buffer ≤ d.estimatedCashAfter ∧ 0 ≤ buffer :=
  calculate_within_budget {} ["005930", "000660", "005930"] []
    [⟨"000660", "000660", 10, 70000, 700000⟩, ⟨"035720", "035720", 10, 70000, 700000⟩] 1000000
    (Dict.ofList [("005930", 60000)]) Dict.empty (by decide) (by decide) (by norm_num)

/-! ## The rows of a stock -/

/-- The rows of a code, one for each loan date. -/
def rowsOf (currentHoldings : List CurrentHolding) (code : String) : List CurrentHolding :=
  currentHoldings.filter fun row => row.stockCode = code

def totalQuantity (currentHoldings : List CurrentHolding) (code : String) : ℤ :=
  ((rowsOf currentHoldings code).map (·.quantity)).sum

def totalValue (currentHoldings : List CurrentHolding) (code : String) : ℤ :=
  ((rowsOf currentHoldings code).map (·.evalAmount)).sum

/-- The rows of a code that `holding_map` forgets. -/
def earlierRows (currentHoldings : List CurrentHolding) (code : String) : List CurrentHolding :=
  (rowsOf currentHoldings code).dropLast

theorem rowsOf_eq_nil {code : String} :
    rowsOf currentHoldings code = [] ↔ code ∉ currentHoldings.map (·.stockCode) := by
  simp [rowsOf, List.filter_eq_nil_iff]

/-- What is known of a code is its last row. -/
theorem get?_holdingMap (code : String) :
    (holdingMap currentHoldings).get? code = (rowsOf currentHoldings code).getLast? := by
  rw [holdingMap, Dict.get?_ofList, ← List.map_reverse, rowsOf, List.getLast?_eq_head?_reverse,
    ← List.filter_reverse]
  generalize currentHoldings.reverse = rows
  induction rows with
  | nil => rfl
  | cons row rows ih =>
    rw [List.map_cons, Dict.lookup_cons_if, ih]
    by_cases hcode : code = row.stockCode
    · simp [hcode]
    · rw [if_neg hcode, List.filter_cons_of_neg]
      simpa using Ne.symm hcode

theorem mem_keys_holdingMap {code : String} :
    code ∈ (holdingMap currentHoldings).keys ↔ rowsOf currentHoldings code ≠ [] := by
  rw [Ne, rowsOf_eq_nil, not_not, holdingMap, Dict.mem_keys_ofList, List.map_map]
  rfl

/-- A total is its last row exactly when the earlier rows come to nothing. -/
theorem sum_eq_last_iff {f : CurrentHolding → ℤ} {rows : List CurrentHolding} {last : CurrentHolding}
    (hlast : rows.getLast? = some last) :
    f last = (rows.map f).sum ↔ (rows.dropLast.map f).sum = 0 := by
  obtain ⟨before, rfl⟩ := List.getLast?_eq_some_iff.mp hlast
  rw [List.dropLast_concat, List.map_append, List.sum_append, List.map_singleton,
    List.sum_singleton]
  omega

/-! ## What becomes of a code -/

theorem filter_holdingMap {code : String} {last : CurrentHolding}
    (hlast : (rowsOf currentHoldings code).getLast? = some last) :
    (holdingMap currentHoldings).entries.filter (fun e => e.1 = code) = [(code, last)] := by
  rw [Dict.filter_key, get?_holdingMap, hlast]
  rfl

section Lists

/-- A code without a BUY is sold once, by its last row. -/
theorem filter_sellList {code : String} {last : CurrentHolding} (hcode : code ∉ buyCodes)
    (hlast : (rowsOf currentHoldings code).getLast? = some last) :
    (c.calculate buyCodes tradeIntents currentHoldings availableCash priceMap
      nameMap).sellList.filter (fun i => i.stockCode = code) = [sellItem code last] := by
  have hrows := filter_holdingMap currentHoldings hlast
  have hsold : ((holdingMap currentHoldings).entries.filter fun e => e.1 ∉ buyCodes).filter
      (fun e => e.1 = code) = [(code, last)] := by
    rw [List.filter_filter, ← hrows]
    refine List.filter_congr fun e _ => ?_
    by_cases he : e.1 = code
    · simp [he, hcode]
    · simp [he]
  rw [calculate_sellList, List.filter_map]
  exact congrArg (List.map fun e => sellItem e.1 e.2) hsold

/-- A code with a BUY that has a row is kept once, at the value of its last row. -/
theorem filter_holdList {code : String} {last : CurrentHolding} (hcode : code ∈ buyCodes)
    (hlast : (rowsOf currentHoldings code).getLast? = some last) :
    (c.calculate buyCodes tradeIntents currentHoldings availableCash priceMap
      nameMap).holdList.filter (fun i => i.stockCode = code) = [holdItem code last] := by
  have hrows := filter_holdingMap currentHoldings hlast
  have hkept : ((holdingMap currentHoldings).entries.filter fun e => e.1 ∈ buyCodes).filter
      (fun e => e.1 = code) = [(code, last)] := by
    rw [List.filter_filter, ← hrows]
    refine List.filter_congr fun e _ => ?_
    by_cases he : e.1 = code
    · simp [he, hcode]
    · simp [he]
  simp only [calculate]
  rw [List.filter_map]
  exact congrArg (List.map fun e => holdItem e.1 e.2) hkept

theorem mem_holdList_codes {code : String} :
    code ∈ (c.calculate buyCodes tradeIntents currentHoldings availableCash priceMap
        nameMap).holdList.map (·.stockCode) ↔
      code ∈ currentHoldings.map (·.stockCode) ∧ code ∈ buyCodes := by
  have hkeys : code ∈ (Dict.ofList (currentHoldings.map fun h => (h.stockCode, h))).keys ↔
      code ∈ currentHoldings.map (·.stockCode) := by simp
  simp only [calculate]
  rw [List.map_map, ← hkeys, Dict.keys, List.mem_map, List.mem_map]
  constructor
  · rintro ⟨e, he, rfl⟩
    rw [List.mem_filter, decide_eq_true_iff] at he
    exact ⟨⟨e, he.1, rfl⟩, he.2⟩
  · rintro ⟨⟨e, he, rfl⟩, hbuy⟩
    exact ⟨e, List.mem_filter.mpr ⟨he, decide_eq_true hbuy⟩, rfl⟩

/-- A code is bought when it has no row and its share buys one. -/
theorem mem_buyList_codes {code : String} :
    code ∈ (c.calculate buyCodes tradeIntents currentHoldings availableCash priceMap
        nameMap).buyList.map (·.stockCode) ↔
      code ∈ buyCodes ∧ code ∉ currentHoldings.map (·.stockCode) ∧
        0 < (priceMap.get? code).getD 0 ∧
        (((priceMap.get? code).getD 0 : ℤ) : ℚ) ≤
          c.allocPerStock buyCodes currentHoldings availableCash := by
  have hnew : code ∈ newBuyCodes buyCodes currentHoldings ↔
      code ∈ buyCodes ∧ code ∉ currentHoldings.map (·.stockCode) := by
    rw [newBuyCodes, List.mem_filter, decide_eq_true_iff, mem_keys_holdingMap, Ne, rowsOf_eq_nil,
      not_not]
  rw [calculate_buyList, ← and_assoc, ← hnew, List.mem_map]
  constructor
  · rintro ⟨item, hitem, rfl⟩
    obtain ⟨code', hcode, hbuy⟩ := List.mem_filterMap.mp hitem
    obtain ⟨hname, hqty, hvalue⟩ := buyItem_bounds tradeIntents priceMap nameMap hbuy
    rw [hname]
    exact ⟨hcode, (buyItem_isSome_iff tradeIntents priceMap nameMap).mp (by simp [hbuy])⟩
  · rintro ⟨hcode, hafford⟩
    obtain ⟨item, hitem⟩ := Option.isSome_iff_exists.mp
      ((buyItem_isSome_iff tradeIntents priceMap nameMap).mpr hafford)
    exact ⟨item, List.mem_filterMap.mpr ⟨code, hcode, hitem⟩,
      (buyItem_bounds tradeIntents priceMap nameMap hitem).1⟩

end Lists


/-! ## The target -/

/-- What falls to each code that is not held, when a code whose rows come to nothing is not
held either. -/
def allotment : ℚ :=
  share buyCodes (c.netInvestable buyCodes currentHoldings availableCash)
    (holdValue buyCodes currentHoldings)
    (buyCodes.filter fun code => totalQuantity currentHoldings code = 0).length

/-- The diff takes the account to its target. -/
structure RealizesTarget (d : DiffResult) (allotment : ℚ) : Prop where
  sold : ∀ row ∈ currentHoldings, row.stockCode ∉ buyCodes →
    (d.sellList.filter fun i => i.stockCode = row.stockCode).map (·.orderQty) =
      [totalQuantity currentHoldings row.stockCode]
  bought : ∀ code ∈ buyCodes, totalQuantity currentHoldings code = 0 →
    0 < (priceMap.get? code).getD 0 → (((priceMap.get? code).getD 0 : ℤ) : ℚ) ≤ allotment →
    code ∈ d.buyList.map (·.stockCode)
  kept : ∀ code ∈ buyCodes, 0 < totalQuantity currentHoldings code →
    (d.holdList.filter fun i => i.stockCode = code).map (·.currentValue) =
        [totalValue currentHoldings code] ∧
      code ∉ d.sellList.map (·.stockCode) ∧ code ∉ d.buyList.map (·.stockCode)
  apart : (d.sellList.map (·.stockCode)).Disjoint (d.buyList.map (·.stockCode)) ∧
    (d.sellList.map (·.stockCode)).Disjoint (d.holdList.map (·.stockCode)) ∧
    (d.buyList.map (·.stockCode)).Disjoint (d.holdList.map (·.stockCode))

/-- The last row of each code tells what the code comes to. -/
structure LastRowTells : Prop where
  sold : ∀ row ∈ currentHoldings, row.stockCode ∉ buyCodes →
    ((earlierRows currentHoldings row.stockCode).map (·.quantity)).sum = 0
  bought : ∀ row ∈ currentHoldings, row.stockCode ∈ buyCodes →
    totalQuantity currentHoldings row.stockCode = 0 → 0 < (priceMap.get? row.stockCode).getD 0 →
    c.allotment buyCodes currentHoldings availableCash < ((priceMap.get? row.stockCode).getD 0 : ℤ)
  kept : ∀ code ∈ buyCodes, 0 < totalQuantity currentHoldings code →
    ((earlierRows currentHoldings code).map (·.evalAmount)).sum = 0

/-- A share is no smaller when it falls to fewer codes. -/
theorem share_anti {investable holdValue : ℤ} {price : ℤ} {few many : ℕ} (hfew : 0 < few)
    (hle : few ≤ many) (hprice : 0 < price)
    (h : (price : ℚ) ≤ share buyCodes investable holdValue many) :
    (price : ℚ) ≤ share buyCodes investable holdValue few := by
  have hpos : (0 : ℚ) < few := by exact_mod_cast hfew
  have hmany : (0 : ℚ) < many := by exact_mod_cast hfew.trans_le hle
  have hcount : (few : ℚ) ≤ many := by exact_mod_cast hle
  have hprice' : (0 : ℚ) < price := by exact_mod_cast hprice
  rw [share, le_div_iff₀ hmany, le_min_iff] at h
  rw [share, le_div_iff₀ hpos, le_min_iff]
  constructor
  · exact mul_le_mul_of_nonneg_right (le_of_mul_le_mul_right h.1 hmany) hpos.le
  · exact (mul_le_mul_of_nonneg_left hcount hprice'.le).trans h.2

theorem allotment_le {price : ℤ} {code : String} (hcode : code ∈ buyCodes)
    (hnone : code ∉ currentHoldings.map (·.stockCode)) (hprice : 0 < price)
    (h : (price : ℚ) ≤ c.allotment buyCodes currentHoldings availableCash) :
    (price : ℚ) ≤ c.allocPerStock buyCodes currentHoldings availableCash := by
  have hnew : code ∈ newBuyCodes buyCodes currentHoldings := by
    rw [newBuyCodes, List.mem_filter, decide_eq_true_iff, mem_keys_holdingMap, Ne, rowsOf_eq_nil,
      not_not]
    exact ⟨hcode, hnone⟩
  have hcount : (newBuyCodes buyCodes currentHoldings).length ≤
      (buyCodes.filter fun code => totalQuantity currentHoldings code = 0).length := by
    rw [newBuyCodes, ← List.countP_eq_length_filter, ← List.countP_eq_length_filter]
    refine List.countP_mono_left fun x _ hx => ?_
    rw [decide_eq_true_iff, mem_keys_holdingMap, Ne, not_not] at hx
    simp [totalQuantity, hx]
  exact share_anti buyCodes (List.length_pos_of_mem hnew) hcount hprice h

/-- The diff realizes its target exactly when the last row of each code tells what the code
comes to. -/
theorem realizesTarget_iff :
    RealizesTarget buyCodes currentHoldings priceMap
        (c.calculate buyCodes tradeIntents currentHoldings availableCash priceMap nameMap)
        (c.allotment buyCodes currentHoldings availableCash) ↔
      c.LastRowTells buyCodes currentHoldings availableCash priceMap := by
  have hlast (row) (hrow : row ∈ currentHoldings) :
      ∃ last, (rowsOf currentHoldings row.stockCode).getLast? = some last := by
    have hne : rowsOf currentHoldings row.stockCode ≠ [] :=
      List.ne_nil_of_mem (List.mem_filter.mpr ⟨hrow, by simp⟩)
    exact ⟨_, List.getLast?_eq_some_getLast hne⟩
  have hheld (code) (hqty : 0 < totalQuantity currentHoldings code) :
      ∃ last, (rowsOf currentHoldings code).getLast? = some last := by
    have hne : rowsOf currentHoldings code ≠ [] := by
      intro hnil
      simp [totalQuantity, hnil] at hqty
    exact ⟨_, List.getLast?_eq_some_getLast hne⟩
  constructor
  · intro h
    constructor
    · intro row hrow hcode
      obtain ⟨last, heq⟩ := hlast row hrow
      have hsold := h.sold row hrow hcode
      rw [filter_sellList c buyCodes tradeIntents currentHoldings availableCash priceMap nameMap
        hcode heq] at hsold
      exact (sum_eq_last_iff heq).mp (List.singleton_inj.mp hsold)
    · intro row hrow hcode hqty hprice
      by_contra hle
      have hbought := h.bought row.stockCode hcode hqty hprice (not_lt.mp hle)
      rw [mem_buyList_codes] at hbought
      exact hbought.2.1 (List.mem_map.mpr ⟨row, hrow, rfl⟩)
    · intro code hcode hqty
      obtain ⟨last, heq⟩ := hheld code hqty
      have hkept := (h.kept code hcode hqty).1
      rw [filter_holdList c buyCodes tradeIntents currentHoldings availableCash priceMap nameMap
        hcode heq] at hkept
      exact (sum_eq_last_iff heq).mp (List.singleton_inj.mp hkept)
  · intro h
    constructor
    · intro row hrow hcode
      obtain ⟨last, heq⟩ := hlast row hrow
      rw [filter_sellList c buyCodes tradeIntents currentHoldings availableCash priceMap nameMap
        hcode heq]
      exact List.singleton_inj.mpr ((sum_eq_last_iff heq).mpr (h.sold row hrow hcode))
    · intro code hcode hqty hprice hle
      by_cases hlisted : code ∈ currentHoldings.map (·.stockCode)
      · obtain ⟨row, hrow, rfl⟩ := List.mem_map.mp hlisted
        exact absurd hle (not_le.mpr (h.bought row hrow hcode hqty hprice))
      · rw [mem_buyList_codes]
        exact ⟨hcode, hlisted, hprice,
          allotment_le c buyCodes currentHoldings availableCash hcode hlisted hprice hle⟩
    · intro code hcode hqty
      obtain ⟨last, heq⟩ := hheld code hqty
      rw [filter_holdList c buyCodes tradeIntents currentHoldings availableCash priceMap nameMap
        hcode heq]
      refine ⟨List.singleton_inj.mpr ((sum_eq_last_iff heq).mpr (h.kept code hcode hqty)), ?_, ?_⟩
      · rw [mem_sellList_codes]
        exact fun hsell => hsell.2 hcode
      · rw [mem_buyList_codes]
        rintro ⟨-, hnone, -⟩
        rw [← rowsOf_eq_nil] at hnone
        simp [hnone] at heq
    · refine ⟨?_, ?_, ?_⟩
      · intro code hsell hbuy
        rw [mem_sellList_codes] at hsell
        rw [mem_buyList_codes] at hbuy
        exact hsell.2 hbuy.1
      · intro code hsell hhold
        rw [mem_sellList_codes] at hsell
        rw [mem_holdList_codes] at hhold
        exact hsell.2 hhold.2
      · intro code hbuy hhold
        rw [mem_buyList_codes] at hbuy
        rw [mem_holdList_codes] at hhold
        exact hbuy.2.1 hhold.1

/-- A stock bought on two dates: only the shares of the later one are sold. -/
theorem part_of_position_sold :
    ¬RealizesTarget [] [⟨"005930", "005930", 3, 70000, 210000⟩, ⟨"005930", "005930", 5, 70000, 350000⟩]
      Dict.empty
      (({} : PositionDiffCalculator).calculate [] []
        [⟨"005930", "005930", 3, 70000, 210000⟩, ⟨"005930", "005930", 5, 70000, 350000⟩] 0 Dict.empty
        Dict.empty)
      (({} : PositionDiffCalculator).allotment []
        [⟨"005930", "005930", 3, 70000, 210000⟩, ⟨"005930", "005930", 5, 70000, 350000⟩] 0) := by
  intro h
  have hsold := h.sold ⟨"005930", "005930", 3, 70000, 210000⟩ List.mem_cons_self List.not_mem_nil
  revert hsold
  decide

end Calculate
end PositionDiffCalculator

end Autotrading
