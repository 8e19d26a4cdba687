import Autotrading.DartStatements

/-!
# The F-Score

`_get_amount` and `_calculate_fscore` of `app/strategy/screener/fscore.py`. Amounts and
ratios are exact where numpy computes with floats.
-/
namespace Autotrading

namespace Python.Number

/-- `x / y` of two numpy numbers. -/
def quot : Number → Number → Number
  | finite a, finite b => div a b
  | nan, _ => nan
  | _, nan => nan
  | finite _, _ => finite 0
  | posInf, finite b => if 0 ≤ b then posInf else negInf
  | negInf, finite b => if 0 ≤ b then negInf else posInf
  | _, _ => nan

/-- `x <= y`, false of NaN. -/
def le (x y : Number) : Bool := x.lt y || (x = y && x ≠ nan)

end Python.Number

open Python (Number)

inductive Metric
  | fRoa
  | fCfo
  | fDeltaRoa
  | fAccrual
  | fDeltaLever
  | fDeltaLiquid
  | fEqOffer
  | fDeltaMargin
  | fDeltaTurnover
  deriving DecidableEq

namespace Metric

/-- The metrics in the order of `raw_scores`. -/
def all : List Metric :=
  [fRoa, fCfo, fDeltaRoa, fAccrual, fDeltaLever, fDeltaLiquid, fEqOffer, fDeltaMargin,
    fDeltaTurnover]

def name : Metric → String
  | fRoa => "f_roa"
  | fCfo => "f_cfo"
  | fDeltaRoa => "f_delta_roa"
  | fAccrual => "f_accrual"
  | fDeltaLever => "f_delta_lever"
  | fDeltaLiquid => "f_delta_liquid"
  | fEqOffer => "f_eq_offer"
  | fDeltaMargin => "f_delta_margin"
  | fDeltaTurnover => "f_delta_turnover"

/-- The categories of `DEFAULT_METRICS`. -/
def category : Metric → String
  | fRoa | fCfo | fDeltaRoa | fAccrual => "P"
  | fDeltaLever | fDeltaLiquid | fEqOffer => "F"
  | fDeltaMargin | fDeltaTurnover => "O"

end Metric

/-- An `FScore`. A metric without a weight of its own has the weight 1. -/
structure FScore where
  enabledCategories : List String
  metricWeights : Dict String ℚ

/-- The dictionary that `_calculate_fscore` returns. -/
structure FScoreResult where
  code : String
  fscore : ℚ
  equity : Option Number
  rawScores : Metric → ℕ
  weightedScores : Metric → ℚ

/-- The amounts that the score is computed from. -/
structure Amounts where
  totalAssetsCur : Option Number
  totalAssetsPrev : Option Number
  totalLiabCur : Option Number
  totalLiabPrev : Option Number
  currentAssetsCur : Option Number
  currentAssetsPrev : Option Number
  currentLiabCur : Option Number
  currentLiabPrev : Option Number
  equityCur : Option Number
  equityPrev : Option Number
  capitalStockCur : Option Number
  capitalStockPrev : Option Number
  netIncomeCur : Option Number
  netIncomePrev : Option Number
  revenueCur : Option Number
  revenuePrev : Option Number
  grossProfitCur : Option Number
  grossProfitPrev : Option Number
  cfoCur : Option Number

namespace FScore

/-- `FScore()`. -/
def standard : FScore := ⟨["P", "F", "O"], .empty⟩

def totalAssets := "ifrs-full_Assets"
def currentAssets := "ifrs-full_CurrentAssets"
def currentLiab := "ifrs-full_CurrentLiabilities"
def totalLiab := "ifrs-full_Liabilities"
def equity := "ifrs-full_Equity"
def capitalStock := "ifrs-full_IssuedCapital"
def revenue := "ifrs-full_Revenue"
def grossProfit := "ifrs-full_GrossProfit"
def netIncome := "ifrs-full_ProfitLoss"
def cfo := "ifrs-full_CashFlowsFromUsedInOperatingActivities"

/-- The row of an account: the first one, for `IS` from `CIS` where `IS` has none. -/
def findRow {ρ : Type} (sj account : ρ → String) (df : List ρ) (sjDiv accountId : String) :
    Option ρ :=
  let row := df.filter fun r => sj r = sjDiv ∧ account r = accountId
  let row :=
    if row.isEmpty ∧ sjDiv = "IS" then df.filter fun r => sj r = "CIS" ∧ account r = accountId
    else row
  row.head?

/-- `_get_amount`. -/
def getAmount (df : List FrameRow) (sjDiv accountId : String) (term : Term) : Option Number :=
  (findRow FrameRow.sjDiv FrameRow.accountId df sjDiv accountId).bind fun r => r.amount term

def amounts (df : List FrameRow) : Amounts where
  totalAssetsCur := getAmount df "BS" totalAssets .thstrm
  totalAssetsPrev := getAmount df "BS" totalAssets .frmtrm
  totalLiabCur := getAmount df "BS" totalLiab .thstrm
  totalLiabPrev := getAmount df "BS" totalLiab .frmtrm
  currentAssetsCur := getAmount df "BS" currentAssets .thstrm
  currentAssetsPrev := getAmount df "BS" currentAssets .frmtrm
  currentLiabCur := getAmount df "BS" currentLiab .thstrm
  currentLiabPrev := getAmount df "BS" currentLiab .frmtrm
  equityCur := getAmount df "BS" equity .thstrm
  equityPrev := getAmount df "BS" equity .frmtrm
  capitalStockCur := getAmount df "BS" capitalStock .thstrm
  capitalStockPrev := getAmount df "BS" capitalStock .frmtrm
  netIncomeCur := getAmount df "IS" netIncome .thstrm
  netIncomePrev := getAmount df "IS" netIncome .frmtrm
  revenueCur := getAmount df "IS" revenue .thstrm
  revenuePrev := getAmount df "IS" revenue .frmtrm
  grossProfitCur := getAmount df "IS" grossProfit .thstrm
  grossProfitPrev := getAmount df "IS" grossProfit .frmtrm
  cfoCur := getAmount df "CF" cfo .thstrm

/-- The amounts that must be there. -/
def required (a : Amounts) : List (String × Option Number) :=
  [("total_assets_cur", a.totalAssetsCur), ("total_assets_prev", a.totalAssetsPrev),
    ("equity_cur", a.equityCur), ("equity_prev", a.equityPrev),
    ("net_income_cur", a.netIncomeCur), ("net_income_prev", a.netIncomePrev),
    ("cfo_cur", a.cfoCur)]

/-- The check of the required amounts. -/
def checkRequired (a : Amounts) : Except PyExc Unit :=
  let missing := (required a).filterMap fun kv => if kv.2 = none then some kv.1 else none
  if missing.isEmpty then .ok ()
  else
    let names := ", ".intercalate (missing.map fun k => s!"'{k}'")
    .error (.other "ValueError" s!"필수 계정 누락: [{names}]")

/-- An operator applied to `None`. -/
def typeError {α : Type} : Except PyExc α :=
  .error (.other "TypeError" "unsupported operand type(s)")

/-- `x / y`. -/
def divide : Option Number → Option Number → Except PyExc Number
  | some x, some y => .ok (x.quot y)
  | _, _ => typeError

/-- `bool(x)`. -/
def isTrue : Option Number → Bool
  | some x => x ≠ .finite 0
  | none => false

/-- `x / y if y else 0`. -/
def ratioOrZero (x y : Option Number) : Except PyExc Number :=
  if isTrue y then divide x y else .ok (.finite 0)

/-- The gross margin, 0 where an amount is missing or the revenue is 0. -/
def grossMargin : Option Number → Option Number → Number
  | some profit, some revenue => if revenue ≠ .finite 0 then profit.quot revenue else .finite 0
  | _, _ => .finite 0

/-- The asset turnover, 0 where the revenue is missing or the assets are 0. -/
def turnover : Option Number → Option Number → Number
  | some revenue, some assets => if assets ≠ .finite 0 then revenue.quot assets else .finite 0
  | _, _ => .finite 0

/-- `1 if c else 0`. -/
def point (c : Bool) : ℕ := if c then 1 else 0

/-- `1 if x <= y else 0`. -/
def pointAtMost : Option Number → Option Number → Except PyExc ℕ
  | some x, some y => .ok (point (x.le y))
  | _, _ => typeError

/-- `1 if x > 0 else 0`. -/
def pointPositive : Option Number → Except PyExc ℕ
  | some x => .ok (point ((Number.finite 0).lt x))
  | none => typeError

/-- The nine scores. -/
def rawScores (a : Amounts) : Except PyExc (Metric → ℕ) := do
  let roaCur ← divide a.netIncomeCur a.totalAssetsCur
  let roaPrev ← divide a.netIncomePrev a.totalAssetsPrev
  let cfoRatio ← divide a.cfoCur a.totalAssetsCur
  let leverageCur ← ratioOrZero a.totalLiabCur a.equityCur
  let leveragePrev ← ratioOrZero a.totalLiabPrev a.equityPrev
  let currentRatioCur ← ratioOrZero a.currentAssetsCur a.currentLiabCur
  let currentRatioPrev ← ratioOrZero a.currentAssetsPrev a.currentLiabPrev
  let grossMarginCur := grossMargin a.grossProfitCur a.revenueCur
  let grossMarginPrev := grossMargin a.grossProfitPrev a.revenuePrev
  let turnoverCur := turnover a.revenueCur a.totalAssetsCur
  let turnoverPrev := turnover a.revenuePrev a.totalAssetsPrev
  let fCfo ← pointPositive a.cfoCur
  let fEqOffer ← pointAtMost a.capitalStockCur a.capitalStockPrev
  pure fun
    | .fRoa => point ((Number.finite 0).lt roaCur)
    | .fCfo => fCfo
    | .fDeltaRoa => point (roaPrev.lt roaCur)
    | .fAccrual => point (roaCur.lt cfoRatio)
    | .fDeltaLever => point (leverageCur.lt leveragePrev)
    | .fDeltaLiquid => point (currentRatioPrev.lt currentRatioCur)
    | .fEqOffer => fEqOffer
    | .fDeltaMargin => point (grossMarginPrev.lt grossMarginCur)
    | .fDeltaTurnover => point (turnoverPrev.lt turnoverCur)

/-- `_is_metric_enabled`. -/
def isMetricEnabled (f : FScore) (m : Metric) : Bool := m.category ∈ f.enabledCategories

/-- `_get_metric_weight`. -/
def getMetricWeight (f : FScore) (m : Metric) : ℚ := (f.metricWeights.get? m.name).getD 1

/-- The score from the amounts. -/
def scoreOf (f : FScore) (code : String) (a : Amounts) : Except PyExc FScoreResult := do
  checkRequired a
  let raw ← rawScores a
  let weighted := fun m => if f.isMetricEnabled m then raw m * f.getMetricWeight m else 0
  pure {
    code := code, fscore := (Metric.all.map weighted).sum, equity := a.equityCur
    rawScores := raw, weightedScores := weighted }

/-- `_calculate_fscore`. -/
def calculateFscore (f : FScore) (code : String) (df : List FrameRow) :
    Except PyExc FScoreResult :=
  f.scoreOf code (amounts df)

variable {a : Amounts} {x y : Option Number}

theorem findRow_map {ρ σ : Type} {sj account : ρ → String} {sj' account' : σ → String} {g : ρ → σ}
    (hsj : ∀ r, sj' (g r) = sj r) (haccount : ∀ r, account' (g r) = account r) (xs : List ρ)
    (sjDiv accountId : String) :
    findRow sj' account' (xs.map g) sjDiv accountId = (findRow sj account xs sjDiv accountId).map g := by
  have hfilter : ∀ div, (xs.map g).filter (fun r => sj' r = div ∧ account' r = accountId) =
      (xs.filter fun r => sj r = div ∧ account r = accountId).map g := by
    intro div
    rw [List.filter_map]
    simp [Function.comp_def, hsj, haccount]
  simp only [findRow, hfilter, List.isEmpty_map]
  split
  · rw [List.head?_map]
  · rw [List.head?_map]

/-- A found row is of the account, and of the statement or of the one standing in for it. -/
theorem findRow_spec {ρ : Type} {sj account : ρ → String} {xs : List ρ} {sjDiv accountId : String}
    {r : ρ} (h : findRow sj account xs sjDiv accountId = some r) :
    r ∈ xs ∧ account r = accountId ∧ (sj r = sjDiv ∨ sjDiv = "IS" ∧ sj r = "CIS") := by
  unfold findRow at h
  dsimp only at h
  split at h
  · next hnone =>
    have hmem := List.mem_of_head? h
    rw [List.mem_filter, decide_eq_true_iff] at hmem
    exact ⟨hmem.1, hmem.2.2, .inr ⟨hnone.2, hmem.2.1⟩⟩
  · have hmem := List.mem_of_head? h
    rw [List.mem_filter, decide_eq_true_iff] at hmem
    exact ⟨hmem.1, hmem.2.2, .inl hmem.2.1⟩

theorem succeeds_checkRequired : Succeeds (checkRequired a) ↔ ∀ kv ∈ required a, kv.2 ≠ none := by
  unfold checkRequired
  by_cases h : ∀ kv ∈ required a, kv.2 ≠ none
  · have hmissing : (required a).filterMap
        (fun kv => if kv.2 = none then some kv.1 else none) = [] := by
      rw [List.filterMap_eq_nil_iff]
      intro kv hkv
      rw [if_neg (h kv hkv)]
    exact iff_of_true (by simp [hmissing]) h
  · have hmissing : (required a).filterMap
        (fun kv => if kv.2 = none then some kv.1 else none) ≠ [] := by
      rw [Ne, List.filterMap_eq_nil_iff]
      intro hall
      refine h fun kv hkv hnone => ?_
      have hkey := hall kv hkv
      simp [hnone] at hkey
    exact iff_of_false (by simp [hmissing]) h

theorem succeeds_divide : Succeeds (divide x y) ↔ x ≠ none ∧ y ≠ none := by
  cases x <;> cases y <;> simp [divide, typeError]

theorem succeeds_ratioOrZero : Succeeds (ratioOrZero x y) ↔ (isTrue y = true → x ≠ none) := by
  unfold ratioOrZero
  by_cases h : isTrue y = true
  · have hy : y ≠ none := by
      rintro rfl
      simp [isTrue] at h
    rw [if_pos h, succeeds_divide]
    simp [h, hy]
  · rw [if_neg h]
    simp [h]

theorem succeeds_pointPositive : Succeeds (pointPositive x) ↔ x ≠ none := by
  cases x <;> simp [pointPositive, typeError]

theorem succeeds_pointAtMost : Succeeds (pointAtMost x y) ↔ x ≠ none ∧ y ≠ none := by
  cases x <;> cases y <;> simp [pointAtMost, typeError]

/-- The optional amounts that the nine scores need. -/
structure Usable (a : Amounts) : Prop where
  leverageCur : isTrue a.equityCur = true → a.totalLiabCur ≠ none
  leveragePrev : isTrue a.equityPrev = true → a.totalLiabPrev ≠ none
  currentRatioCur : isTrue a.currentLiabCur = true → a.currentAssetsCur ≠ none
  currentRatioPrev : isTrue a.currentLiabPrev = true → a.currentAssetsPrev ≠ none
  eqOffer : a.capitalStockCur ≠ none ∧ a.capitalStockPrev ≠ none

/-- The scores raise where a required amount is `None` or an optional one that they need. -/
theorem succeeds_scoreOf (f : FScore) (code : String) :
    Succeeds (f.scoreOf code a) ↔ (∀ kv ∈ required a, kv.2 ≠ none) ∧ Usable a := by
  have hraw : Succeeds (rawScores a) ↔
      (a.netIncomeCur ≠ none ∧ a.totalAssetsCur ≠ none) ∧
      (a.netIncomePrev ≠ none ∧ a.totalAssetsPrev ≠ none) ∧
      (a.cfoCur ≠ none ∧ a.totalAssetsCur ≠ none) ∧
      (isTrue a.equityCur = true → a.totalLiabCur ≠ none) ∧
      (isTrue a.equityPrev = true → a.totalLiabPrev ≠ none) ∧
      (isTrue a.currentLiabCur = true → a.currentAssetsCur ≠ none) ∧
      (isTrue a.currentLiabPrev = true → a.currentAssetsPrev ≠ none) ∧
      a.cfoCur ≠ none ∧ (a.capitalStockCur ≠ none ∧ a.capitalStockPrev ≠ none) := by
    rw [← succeeds_divide, ← succeeds_divide, ← succeeds_divide, ← succeeds_ratioOrZero,
      ← succeeds_ratioOrZero, ← succeeds_ratioOrZero, ← succeeds_ratioOrZero,
      ← succeeds_pointPositive, ← succeeds_pointAtMost]
    unfold rawScores
    iterate 8 refine succeeds_bind fun _ _ => ?_
    exact succeeds_bind_pure
  rw [scoreOf, succeeds_bind fun _ _ => succeeds_bind_pure, succeeds_checkRequired]
  refine and_congr_right fun hreq => ?_
  have hthere : ∀ v ∈ (required a).map Prod.snd, v ≠ none := by
    intro v hv
    obtain ⟨kv, hkv, rfl⟩ := List.mem_map.mp hv
    exact hreq kv hkv
  rw [hraw]
  constructor
  · rintro ⟨-, -, -, hcur, hprev, hratio, hratio', -, hstock⟩
    exact ⟨hcur, hprev, hratio, hratio', hstock⟩
  · intro h
    simp only [required, List.map_cons, List.map_nil, List.forall_mem_cons] at hthere
    obtain ⟨hassets, hassets', -, -, hincome, hincome', hcash, -⟩ := hthere
    exact ⟨⟨hincome, hassets⟩, ⟨hincome', hassets'⟩, ⟨hcash, hassets⟩, h.leverageCur,
      h.leveragePrev, h.currentRatioCur, h.currentRatioPrev, hcash, h.eqOffer⟩

end FScore

end Autotrading
