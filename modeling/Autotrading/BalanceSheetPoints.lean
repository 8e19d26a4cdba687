import Autotrading.FScore

/-!
# The balance-sheet points of the F-Score

`f_delta_lever` and `f_delta_liquid` compare a ratio with the one of the year before, and a
ratio by zero counts as 0. What one changed amount does to the two points follows from
the sign of the denominator.
-/
namespace Autotrading

open Python (Number)

namespace Python.Number

theorem finite_lt_of_le {a b : ℚ} {p : Number} (hab : a ≤ b) (h : (finite b).lt p = true) :
    (finite a).lt p = true := by
  cases p with
  | finite q =>
    rw [lt, decide_eq_true_iff] at h ⊢
    exact hab.trans_lt h
  | posInf => simp [lt]
  | nan => simp [lt] at h
  | negInf => simp [lt] at h

theorem lt_finite_of_le {a b : ℚ} {p : Number} (hab : a ≤ b) (h : p.lt (finite a) = true) :
    p.lt (finite b) = true := by
  cases p with
  | finite q =>
    rw [lt, decide_eq_true_iff] at h ⊢
    exact h.trans_le hab
  | negInf => simp [lt]
  | nan => simp [lt] at h
  | posInf => simp [lt] at h

theorem quot_finite {a b : ℚ} (hb : b ≠ 0) : (finite a).quot (finite b) = finite (a / b) := by
  rw [quot, div, if_pos hb]

end Python.Number

namespace FScore

/-- Two frames agree but for one amount of this term, which goes from `x` to `y`. -/
structure Changed (df df' : List FrameRow) (sjDiv accountId : String) (x y : ℚ) : Prop where
  before : getAmount df sjDiv accountId .thstrm = some (.finite x)
  after : getAmount df' sjDiv accountId .thstrm = some (.finite y)
  others : ∀ sj account term, (sj, account, term) ≠ (sjDiv, accountId, Term.thstrm) →
    getAmount df' sj account term = getAmount df sj account term

variable {f : FScore} {code : String} {a : Amounts} {df df' : List FrameRow}
  {r r' : FScoreResult} {l l' e e' c c' x y : ℚ} {v v' p : Number} {n : Option Number}

theorem rawScores_of_scoreOf (h : f.scoreOf code a = .ok r) : rawScores a = .ok r.rawScores := by
  obtain ⟨_, -, h⟩ := of_bind_ok h
  obtain ⟨raw, hraw, h⟩ := of_bind_ok h
  obtain rfl := Except.ok.inj h
  exact hraw

/-- Where the two points come from. -/
theorem points_of_rawScores {raw : Metric → ℕ} (h : rawScores a = .ok raw) :
    (∃ v p, ratioOrZero a.totalLiabCur a.equityCur = .ok v ∧
      ratioOrZero a.totalLiabPrev a.equityPrev = .ok p ∧ raw .fDeltaLever = point (v.lt p)) ∧
    (∃ v p, ratioOrZero a.currentAssetsCur a.currentLiabCur = .ok v ∧
      ratioOrZero a.currentAssetsPrev a.currentLiabPrev = .ok p ∧
        raw .fDeltaLiquid = point (p.lt v)) := by
  obtain ⟨_, -, h⟩ := of_bind_ok h
  obtain ⟨_, -, h⟩ := of_bind_ok h
  obtain ⟨_, -, h⟩ := of_bind_ok h
  obtain ⟨leverageCur, hlev, h⟩ := of_bind_ok h
  obtain ⟨leveragePrev, hlev', h⟩ := of_bind_ok h
  obtain ⟨currentRatioCur, hratio, h⟩ := of_bind_ok h
  obtain ⟨currentRatioPrev, hratio', h⟩ := of_bind_ok h
  obtain ⟨_, -, h⟩ := of_bind_ok h
  obtain ⟨_, -, h⟩ := of_bind_ok h
  obtain rfl := Except.ok.inj h
  exact ⟨⟨_, _, hlev, hlev', rfl⟩, _, _, hratio, hratio', rfl⟩

theorem point_eq_one {b : Bool} : point b = 1 ↔ b = true := by
  cases b <;> simp [point]

theorem point_eq_zero {b : Bool} : point b = 0 ↔ b = false := by
  cases b <;> simp [point]

/-- Over a denominator that is not negative, more is not less. -/
theorem lt_of_raised_numerator (hle : l ≤ l') (hn : ∀ e, n = some (.finite e) → 0 ≤ e)
    (h : ratioOrZero (some (.finite l)) n = .ok v) (h' : ratioOrZero (some (.finite l')) n = .ok v')
    (hlt : v'.lt p = true) : v.lt p = true := by
  unfold ratioOrZero at h h'
  split at h
  · next htrue =>
    rw [if_pos htrue] at h'
    cases n with
    | none => cases h
    | some d =>
      obtain rfl := Except.ok.inj h
      obtain rfl := Except.ok.inj h'
      cases d with
      | finite e =>
        have hpos : 0 ≤ e := hn e rfl
        have hne : e ≠ 0 := by
          rintro rfl
          simp [isTrue] at htrue
        rw [Number.quot_finite hne] at hlt ⊢
        exact Number.finite_lt_of_le (div_le_div_of_nonneg_right hle hpos) hlt
      | nan => exact hlt
      | posInf => exact hlt
      | negInf => exact hlt
  · next hfalse =>
    rw [if_neg hfalse] at h'
    obtain rfl := Except.ok.inj h
    obtain rfl := Except.ok.inj h'
    exact hlt

theorem ratioOrZero_nonzero (he : e ≠ 0) (h : ratioOrZero n (some (.finite e)) = .ok v) :
    ∃ z, n = some z ∧ v = z.quot (.finite e) := by
  have htrue : isTrue (some (Number.finite e)) = true := by simp [isTrue, he]
  rw [ratioOrZero, if_pos htrue] at h
  cases n with
  | none => cases h
  | some z => exact ⟨z, rfl, (Except.ok.inj h).symm⟩

theorem div_le_div_of_side {l e e' : ℚ} (hl : 0 ≤ l) (hle : e' ≤ e) (hside : 0 < e' ∨ e < 0) :
    l / e ≤ l / e' := by
  obtain hpos | hneg := hside
  · exact div_le_div_of_nonneg_left hl hpos hle
  · have hflip : l / -e' ≤ l / -e :=
      div_le_div_of_nonneg_left hl (neg_pos.mpr hneg) (neg_le_neg hle)
    rw [div_neg, div_neg] at hflip
    exact neg_le_neg_iff.mp hflip

/-- Under an amount that is not negative, a lower denominator on the same side of 0 gives no
less. -/
theorem le_of_lowered_denominator (hle : e' ≤ e) (hside : 0 < e' ∨ e < 0)
    (hn : ∀ l, n = some (.finite l) → 0 ≤ l)
    (h : ratioOrZero n (some (.finite e)) = .ok v)
    (h' : ratioOrZero n (some (.finite e')) = .ok v') :
    (v'.lt p = true → v.lt p = true) ∧ (p.lt v = true → p.lt v' = true) := by
  have hne : e ≠ 0 := by
    obtain hpos | hneg := hside
    · linarith
    · linarith
  have hne' : e' ≠ 0 := by
    obtain hpos | hneg := hside
    · linarith
    · linarith
  obtain ⟨z, rfl, rfl⟩ := ratioOrZero_nonzero hne h
  obtain ⟨z', hz, rfl⟩ := ratioOrZero_nonzero hne' h'
  obtain rfl := Option.some.inj hz
  have hsign : (0 ≤ e) = (0 ≤ e') := by
    obtain hpos | hneg := hside
    · exact propext ⟨fun _ => hpos.le, fun _ => by linarith⟩
    · exact propext ⟨fun _ => by linarith, fun _ => by linarith⟩
  cases z with
  | finite l =>
    have hquot := div_le_div_of_side (hn l rfl) hle hside
    rw [Number.quot_finite hne, Number.quot_finite hne']
    exact ⟨Number.finite_lt_of_le hquot, Number.lt_finite_of_le hquot⟩
  | nan => exact ⟨id, id⟩
  | posInf =>
    simp only [Number.quot, hsign]
    exact ⟨id, id⟩
  | negInf =>
    simp only [Number.quot, hsign]
    exact ⟨id, id⟩

/-- The two points where one amount of a balance sheet changes: more liabilities never bring
`f_delta_lever` unless the equity is negative, less equity never does unless it comes from 0
or above to 0 or below, and less current liabilities never take `f_delta_liquid` unless
nothing is left of them. -/
theorem balance_sheet_points (h : f.calculateFscore code df = .ok r)
    (h' : f.calculateFscore code df' = .ok r') :
    (Changed df df' "BS" totalLiab x y → x ≤ y →
      (∀ e, getAmount df "BS" equity .thstrm = some (.finite e) → 0 ≤ e) →
        ¬ (r.rawScores .fDeltaLever = 0 ∧ r'.rawScores .fDeltaLever = 1)) ∧
    (Changed df df' "BS" equity x y → y ≤ x → (0 < y ∨ x < 0) →
      (∀ l, getAmount df "BS" totalLiab .thstrm = some (.finite l) → 0 ≤ l) →
        ¬ (r.rawScores .fDeltaLever = 0 ∧ r'.rawScores .fDeltaLever = 1)) ∧
    (Changed df df' "BS" currentLiab x y → y ≤ x → 0 < y →
      (∀ l, getAmount df "BS" currentAssets .thstrm = some (.finite l) → 0 ≤ l) →
        ¬ (r.rawScores .fDeltaLiquid = 1 ∧ r'.rawScores .fDeltaLiquid = 0)) := by
  obtain ⟨⟨v, p, hv, hp, hlever⟩, w, q, hw, hq, hliquid⟩ :=
    points_of_rawScores (rawScores_of_scoreOf h)
  obtain ⟨⟨v', p', hv', hp', hlever'⟩, w', q', hw', hq', hliquid'⟩ :=
    points_of_rawScores (rawScores_of_scoreOf h')
  rw [hlever, hlever', hliquid, hliquid']
  simp only [point_eq_one, point_eq_zero]
  simp only [amounts] at hv hp hw hq hv' hp' hw' hq'
  refine ⟨fun hchange hle hequity hpoints => ?_, fun hchange hle hside hliab hpoints => ?_,
    fun hchange hle hpos hassets hpoints => ?_⟩
  · rw [hchange.after, hchange.others _ _ _ (by decide)] at hv'
    rw [hchange.others _ _ _ (by decide), hchange.others _ _ _ (by decide), hp] at hp'
    obtain rfl := Except.ok.inj hp'
    rw [hchange.before] at hv
    have hlt := lt_of_raised_numerator hle hequity hv hv' hpoints.2
    simp [hlt] at hpoints
  · rw [hchange.after, hchange.others _ _ _ (by decide)] at hv'
    rw [hchange.others _ _ _ (by decide), hchange.others _ _ _ (by decide), hp] at hp'
    obtain rfl := Except.ok.inj hp'
    rw [hchange.before] at hv
    have hlt := (le_of_lowered_denominator hle hside hliab hv hv').1 hpoints.2
    simp [hlt] at hpoints
  · rw [hchange.after, hchange.others _ _ _ (by decide)] at hw'
    rw [hchange.others _ _ _ (by decide), hchange.others _ _ _ (by decide), hq] at hq'
    obtain rfl := Except.ok.inj hq'
    rw [hchange.before] at hw
    have hlt := (le_of_lowered_denominator hle (.inl hpos) hassets hw hw').2 hpoints.1
    simp [hlt] at hpoints

/-- The frame with another amount of an account of the balance sheet. -/
def setBalance (df : List FrameRow) (accountId : String) (y : ℚ) : List FrameRow :=
  df.map fun r =>
    if r.sjDiv = "BS" ∧ r.accountId = accountId then
      { r with amount := Function.update r.amount .thstrm (some (.finite y)) }
    else r

theorem changed_setBalance {accountId : String}
    (hx : getAmount df "BS" accountId .thstrm = some (.finite x)) :
    Changed df (setBalance df accountId y) "BS" accountId x y := by
  have hget : ∀ sj account term, getAmount (setBalance df accountId y) sj account term =
      (findRow FrameRow.sjDiv FrameRow.accountId df sj account).bind fun r =>
        if r.sjDiv = "BS" ∧ r.accountId = accountId then
          Function.update r.amount .thstrm (some (.finite y)) term
        else r.amount term := by
    intro sj account term
    have hrow : findRow FrameRow.sjDiv FrameRow.accountId (setBalance df accountId y) sj account =
        (findRow FrameRow.sjDiv FrameRow.accountId df sj account).map fun r =>
          if r.sjDiv = "BS" ∧ r.accountId = accountId then
            { r with amount := Function.update r.amount .thstrm (some (.finite y)) }
          else r := by
      refine findRow_map (fun r => ?_) (fun r => ?_) df sj account
      · split <;> rfl
      · split <;> rfl
    rw [getAmount, hrow, Option.bind_map]
    congr 1
    funext r
    rw [Function.comp_apply]
    split <;> rfl
  constructor
  · exact hx
  · rw [hget]
    cases hrow : findRow FrameRow.sjDiv FrameRow.accountId df "BS" accountId with
    | none => simp [getAmount, hrow] at hx
    | some r =>
      obtain ⟨-, haccount, hsj | hsj⟩ := findRow_spec hrow
      · simp [haccount, hsj]
      · simp at hsj
  · intro sj account term hother
    rw [hget, getAmount]
    cases hrow : findRow FrameRow.sjDiv FrameRow.accountId df sj account with
    | none => rfl
    | some r =>
      obtain ⟨-, haccount, hsj⟩ := findRow_spec hrow
      rw [Option.bind_some, Option.bind_some]
      split
      · next hsame =>
        have hterm : term ≠ .thstrm := by
          rintro rfl
          obtain heq | ⟨-, hcis⟩ := hsj
          · exact hother (by rw [← heq, ← haccount, hsame.1, hsame.2])
          · rw [hsame.1] at hcis
            exact absurd hcis (by decide)
        rw [Function.update_of_ne hterm]
      · rfl

/-- A statement with the liabilities, the equity and the current liabilities of both years. -/
def statement (liab equityCur currentLiabCur liabPrev equityPrev : ℚ) : List FrameRow :=
  [("BS", totalAssets, 1000, 1000), ("BS", totalLiab, liab, liabPrev),
    ("BS", currentAssets, 300, 200), ("BS", currentLiab, currentLiabCur, 100),
    ("BS", equity, equityCur, equityPrev), ("BS", capitalStock, 50, 50),
    ("IS", netIncome, 90, 60), ("CF", cfo, 70, 80)].map
  fun (sjDiv, accountId, thstrm, frmtrm) =>
    { sjDiv := sjDiv, accountId := accountId, stockCode := "005930"
      amount := fun
        | .thstrm => some (.finite thstrm)
        | .frmtrm => some (.finite frmtrm)
        | .bfefrmtrm => none }

/-- The point of a metric goes from `i` to `j`. -/
def Turns (f : FScore) (code : String) (df df' : List FrameRow) (m : Metric) (i j : ℕ) : Prop :=
  ∃ r r', f.calculateFscore code df = .ok r ∧ f.calculateFscore code df' = .ok r' ∧
    r.rawScores m = i ∧ r'.rawScores m = j

theorem turns_of_rawScores {m : Metric} {i j : ℕ}
    (h : ((f.calculateFscore code df).map fun r => r.rawScores m) = .ok i)
    (h' : ((f.calculateFscore code df').map fun r => r.rawScores m) = .ok j) :
    Turns f code df df' m i j := by
  cases hr : f.calculateFscore code df with
  | error e => simp [hr, Except.map] at h
  | ok r =>
    cases hr' : f.calculateFscore code df' with
    | error e => simp [hr', Except.map] at h'
    | ok r' =>
      rw [hr] at h
      rw [hr'] at h'
      exact ⟨r, r', hr, hr', Except.ok.inj h, Except.ok.inj h'⟩

/-- An equity that is not negative, and current liabilities. -/
def solvent : List FrameRow := statement 100 100 10 50 100

/-- A negative equity in both years. -/
def insolvent : List FrameRow := statement 100 (-100) 100 150 (-100)

/-- More liabilities over a negative equity, an equity that is used up, and the last of the
current liabilities paid: each moves its point the wrong way. -/
theorem balance_sheet_points_fail :
    (Changed insolvent (setBalance insolvent totalLiab 200) "BS" totalLiab 100 200 ∧
      Turns standard "005930" insolvent (setBalance insolvent totalLiab 200) .fDeltaLever 0 1) ∧
    (Changed solvent (setBalance solvent equity 0) "BS" equity 100 0 ∧
      Turns standard "005930" solvent (setBalance solvent equity 0) .fDeltaLever 0 1) ∧
    Changed solvent (setBalance solvent currentLiab 0) "BS" currentLiab 10 0 ∧
      Turns standard "005930" solvent (setBalance solvent currentLiab 0) .fDeltaLiquid 1 0 := by
  constructor
  · exact ⟨changed_setBalance (by decide +kernel),
      turns_of_rawScores (by decide +kernel) (by decide +kernel)⟩
  · constructor
    · exact ⟨changed_setBalance (by decide +kernel),
        turns_of_rawScores (by decide +kernel) (by decide +kernel)⟩
    · exact ⟨changed_setBalance (by decide +kernel),
        turns_of_rawScores (by decide +kernel) (by decide +kernel)⟩

/-- More liabilities, less equity and less current liabilities of a solvent company. -/
theorem balance_sheet_points_solvent :
    (∃ r r', standard.calculateFscore "005930" solvent = .ok r ∧
      standard.calculateFscore "005930" (setBalance solvent totalLiab 200) = .ok r' ∧
      ¬ (r.rawScores .fDeltaLever = 0 ∧ r'.rawScores .fDeltaLever = 1)) ∧
    (∃ r r', standard.calculateFscore "005930" solvent = .ok r ∧
      standard.calculateFscore "005930" (setBalance solvent equity 50) = .ok r' ∧
      ¬ (r.rawScores .fDeltaLever = 0 ∧ r'.rawScores .fDeltaLever = 1)) ∧
    ∃ r r', standard.calculateFscore "005930" solvent = .ok r ∧
      standard.calculateFscore "005930" (setBalance solvent currentLiab 5) = .ok r' ∧
      ¬ (r.rawScores .fDeltaLiquid = 1 ∧ r'.rawScores .fDeltaLiquid = 0) := by
  have hequity : getAmount solvent "BS" equity .thstrm = some (.finite 100) := by decide +kernel
  have hliab : getAmount solvent "BS" totalLiab .thstrm = some (.finite 100) := by decide +kernel
  have hassets : getAmount solvent "BS" currentAssets .thstrm = some (.finite 300) := by
    decide +kernel
  constructor
  · have hturn : Turns standard "005930" solvent (setBalance solvent totalLiab 200) .fDeltaLever 0 0 :=
      turns_of_rawScores (by decide +kernel) (by decide +kernel)
    obtain ⟨r, r', hr, hr', -⟩ := hturn
    refine ⟨r, r', hr, hr', (balance_sheet_points hr hr').1 (changed_setBalance hliab)
      (by norm_num) fun e he => ?_⟩
    rw [hequity] at he
    obtain rfl := Number.finite.inj (Option.some.inj he)
    norm_num
  · constructor
    · have hturn : Turns standard "005930" solvent (setBalance solvent equity 50) .fDeltaLever 0 0 :=
        turns_of_rawScores (by decide +kernel) (by decide +kernel)
      obtain ⟨r, r', hr, hr', -⟩ := hturn
      refine ⟨r, r', hr, hr', (balance_sheet_points hr hr').2.1 (changed_setBalance hequity)
        (by norm_num) (by norm_num) fun l hl => ?_⟩
      rw [hliab] at hl
      obtain rfl := Number.finite.inj (Option.some.inj hl)
      norm_num
    · have hturn : Turns standard "005930" solvent (setBalance solvent currentLiab 5)
          .fDeltaLiquid 1 1 := turns_of_rawScores (by decide +kernel) (by decide +kernel)
      have hchange : Changed solvent (setBalance solvent currentLiab 5) "BS" currentLiab 10 5 :=
        changed_setBalance (by decide +kernel)
      obtain ⟨r, r', hr, hr', -⟩ := hturn
      refine ⟨r, r', hr, hr', (balance_sheet_points hr hr').2.2 hchange
        (by norm_num) (by norm_num) fun l hl => ?_⟩
      rw [hassets] at hl
      obtain rfl := Number.finite.inj (Option.some.inj hl)
      norm_num

end FScore

end Autotrading
