import Autotrading.FScore

/-!
# Missing amounts

What the check of the required amounts in `_calculate_fscore` sees of a stored statement. It
looks for `None`, and a NULL is one only in a frame that has no amount of that term at all.
-/
namespace Autotrading

open Python (Number)

namespace FScore

/-- The first row of an account in a stored statement, `CIS` standing in for `IS`. -/
def accountRow (own : List StatementRow) (sjDiv accountId : String) : Option StatementRow :=
  findRow StatementRow.sjDiv StatementRow.accountId own sjDiv accountId

/-- The amount of an account, `none` where it is absent or NULL. -/
def storedAmount (own : List StatementRow) (sjDiv accountId : String) (term : Term) : Option ℤ :=
  (accountRow own sjDiv accountId).bind fun r => r.amount term

/-- The total assets, equity and net income of both years and the operating cash flow. -/
def requiredAccounts : List (String × String × Term) :=
  [("BS", totalAssets, .thstrm), ("BS", totalAssets, .frmtrm), ("BS", equity, .thstrm),
    ("BS", equity, .frmtrm), ("IS", netIncome, .thstrm), ("IS", netIncome, .frmtrm),
    ("CF", cfo, .thstrm)]

/-- Every required amount is stored. -/
def Complete (own : List StatementRow) : Prop :=
  ∀ k ∈ requiredAccounts, storedAmount own k.1 k.2.1 k.2.2 ≠ none

instance (own : List StatementRow) : Decidable (Complete own) :=
  inferInstanceAs (Decidable (∀ k ∈ requiredAccounts, _))

/-- A required account has no row, or no row of the frame has an amount of that term. -/
def Noticed (rows own : List StatementRow) : Prop :=
  ∃ k ∈ requiredAccounts, accountRow own k.1 k.2.1 = none ∨ ∀ r ∈ rows, r.amount k.2.2 = none

instance (rows own : List StatementRow) : Decidable (Noticed rows own) :=
  inferInstanceAs (Decidable (∃ k ∈ requiredAccounts, _))

/-- No row for the liabilities beside an equity that is not 0 in both years, none for the
current assets beside current liabilities that are not, or none for the capital stock. -/
def Unusable (own : List StatementRow) : Prop :=
  (accountRow own "BS" totalLiab = none ∧
    ∃ term ∈ [Term.thstrm, .frmtrm], storedAmount own "BS" equity term ≠ some 0) ∨
  (accountRow own "BS" currentAssets = none ∧ ∃ r ∈ accountRow own "BS" currentLiab,
    ∃ term ∈ [Term.thstrm, .frmtrm], r.amount term ≠ some 0) ∨
  accountRow own "BS" capitalStock = none

variable {rows own : List StatementRow} {f : FScore} {code : String}

theorem getAmount_frame (sjDiv accountId : String) (term : Term) :
    getAmount (own.map (frameRow rows)) sjDiv accountId term =
      (accountRow own sjDiv accountId).bind fun r =>
        frameCell (rows.map fun r' => r'.amount term) (r.amount term) := by
  have hrow : findRow FrameRow.sjDiv FrameRow.accountId (own.map (frameRow rows)) sjDiv accountId =
      (accountRow own sjDiv accountId).map (frameRow rows) :=
    findRow_map (fun _ => rfl) (fun _ => rfl) own sjDiv accountId
  rw [getAmount, hrow, Option.bind_map]
  rfl

/-- An amount is `None` for want of a row or of any amount of its term. -/
theorem getAmount_frame_eq_none_iff (hsub : ∀ r ∈ own, r ∈ rows) (sjDiv accountId : String)
    (term : Term) :
    getAmount (own.map (frameRow rows)) sjDiv accountId term = none ↔
      accountRow own sjDiv accountId = none ∨ ∀ r ∈ rows, r.amount term = none := by
  rw [getAmount_frame]
  cases hrow : accountRow own sjDiv accountId with
  | none => simp
  | some r =>
    have hcell : r.amount term ∈ rows.map fun r' => r'.amount term :=
      List.mem_map.mpr ⟨r, hsub r (findRow_spec hrow).1, rfl⟩
    rw [Option.bind_some, frameCell_eq_none_iff hcell, List.forall_mem_map]
    simp

/-- The rows of the frame have an amount of each of the two terms. -/
def Mixed (rows : List StatementRow) : Prop :=
  ∀ term ∈ [Term.thstrm, .frmtrm], ∃ r ∈ rows, r.amount term ≠ none

theorem getAmount_eq_none_iff (hsub : ∀ r ∈ own, r ∈ rows) (hmixed : Mixed rows)
    {sjDiv accountId : String} {term : Term} (hterm : term ∈ [Term.thstrm, .frmtrm]) :
    getAmount (own.map (frameRow rows)) sjDiv accountId term = none ↔
      accountRow own sjDiv accountId = none := by
  obtain ⟨r, hr, hne⟩ := hmixed term hterm
  rw [getAmount_frame_eq_none_iff hsub, or_iff_left]
  intro hall
  exact hne (hall r hr)

theorem isTrue_getAmount_iff (hsub : ∀ r ∈ own, r ∈ rows) (hmixed : Mixed rows)
    {sjDiv accountId : String} {term : Term} (hterm : term ∈ [Term.thstrm, .frmtrm]) :
    isTrue (getAmount (own.map (frameRow rows)) sjDiv accountId term) = true ↔
      ∃ r, accountRow own sjDiv accountId = some r ∧ r.amount term ≠ some 0 := by
  cases hrow : accountRow own sjDiv accountId with
  | none =>
    rw [(getAmount_eq_none_iff hsub hmixed hterm).mpr hrow]
    simp [isTrue]
  | some r =>
    obtain ⟨r', hr', hne⟩ := hmixed term hterm
    rw [getAmount_frame, hrow, Option.bind_some]
    cases hamount : r.amount term with
    | some n => simp [frameCell, isTrue, hamount]
    | none =>
      have hnull : (rows.map fun r' => r'.amount term).all Option.isNone = false := by
        rw [List.all_eq_false]
        exact ⟨_, List.mem_map.mpr ⟨r', hr', rfl⟩, by simpa using hne⟩
      simp [frameCell, isTrue, hamount, hnull]

theorem mixed_of_not_noticed (hnot : ¬ Noticed rows own) : Mixed rows := by
  intro term hterm
  have hkey : ∃ k ∈ requiredAccounts, k.2.2 = term := by
    revert term
    decide
  obtain ⟨k, hk, rfl⟩ := hkey
  by_contra hnone
  push Not at hnone
  exact hnot ⟨k, hk, .inr hnone⟩

theorem accountRow_of_not_noticed (hnot : ¬ Noticed rows own) {k : String × String × Term}
    (hk : k ∈ requiredAccounts) : ∃ r, accountRow own k.1 k.2.1 = some r := by
  rw [← Option.ne_none_iff_exists']
  intro hnone
  exact hnot ⟨k, hk, .inl hnone⟩

/-- Where the check notices nothing, the optional rows decide. -/
theorem usable_iff (hsub : ∀ r ∈ own, r ∈ rows) (hnot : ¬ Noticed rows own) :
    Usable (amounts (own.map (frameRow rows))) ↔ ¬ Unusable own := by
  have hmixed := mixed_of_not_noticed hnot
  have hcur : Term.thstrm ∈ [Term.thstrm, .frmtrm] := by simp
  have hprev : Term.frmtrm ∈ [Term.thstrm, .frmtrm] := by simp
  have hequity : ("BS", equity, Term.thstrm) ∈ requiredAccounts := by decide
  obtain ⟨e, he⟩ := accountRow_of_not_noticed hnot hequity
  constructor
  · rintro ⟨hlev, hlev', hratio, hratio', hstock, -⟩ hbad
    simp only [amounts, Ne, isTrue_getAmount_iff hsub hmixed hcur,
      isTrue_getAmount_iff hsub hmixed hprev, getAmount_eq_none_iff hsub hmixed hcur,
      getAmount_eq_none_iff hsub hmixed hprev] at hlev hlev' hratio hratio' hstock
    obtain ⟨hnone, term, hterm, hne⟩ | ⟨hnone, r, hr, term, hterm, hne⟩ | hnone := hbad
    · rw [storedAmount, he, Option.bind_some] at hne
      have hterms : term = .thstrm ∨ term = .frmtrm := by simpa using hterm
      obtain rfl | rfl := hterms
      · exact hlev ⟨e, he, hne⟩ hnone
      · exact hlev' ⟨e, he, hne⟩ hnone
    · have hterms : term = .thstrm ∨ term = .frmtrm := by simpa using hterm
      obtain rfl | rfl := hterms
      · exact hratio ⟨r, hr, hne⟩ hnone
      · exact hratio' ⟨r, hr, hne⟩ hnone
    · exact hstock hnone
  · intro hgood
    have hlever : ∀ term ∈ [Term.thstrm, .frmtrm],
        (∃ r, accountRow own "BS" equity = some r ∧ r.amount term ≠ some 0) →
          accountRow own "BS" totalLiab ≠ none := by
      rintro term hterm ⟨r, hr, hne⟩ hnone
      exact hgood (.inl ⟨hnone, term, hterm, by rwa [storedAmount, hr, Option.bind_some]⟩)
    have hliquid : ∀ term ∈ [Term.thstrm, .frmtrm],
        (∃ r, accountRow own "BS" currentLiab = some r ∧ r.amount term ≠ some 0) →
          accountRow own "BS" currentAssets ≠ none := by
      rintro term hterm ⟨r, hr, hne⟩ hnone
      exact hgood (.inr (.inl ⟨hnone, r, hr, term, hterm, hne⟩))
    have hstock : accountRow own "BS" capitalStock ≠ none := fun hnone => hgood (.inr (.inr hnone))
    constructor <;>
      simp only [amounts, Ne, isTrue_getAmount_iff hsub hmixed hcur,
        isTrue_getAmount_iff hsub hmixed hprev, getAmount_eq_none_iff hsub hmixed hcur,
        getAmount_eq_none_iff hsub hmixed hprev]
    · exact hlever _ hcur
    · exact hlever _ hprev
    · exact hliquid _ hcur
    · exact hliquid _ hprev
    · exact ⟨hstock, hstock⟩

/-- The check of the required amounts passes exactly when it notices nothing. -/
theorem required_amounts_iff (hsub : ∀ r ∈ own, r ∈ rows) :
    (∀ kv ∈ required (amounts (own.map (frameRow rows))), kv.2 ≠ none) ↔ ¬ Noticed rows own := by
  have hkeys : (∀ kv ∈ required (amounts (own.map (frameRow rows))), kv.2 ≠ none) ↔
      ∀ k ∈ requiredAccounts, getAmount (own.map (frameRow rows)) k.1 k.2.1 k.2.2 ≠ none := by
    simp [required, amounts, requiredAccounts]
  rw [hkeys, Noticed]
  push Not
  refine forall₂_congr fun k _ => ?_
  rw [Ne, getAmount_frame_eq_none_iff hsub]
  push Not
  exact Iff.rfl

theorem succeeds_calculateFscore (hsub : ∀ r ∈ own, r ∈ rows) :
    Succeeds (f.calculateFscore code (own.map (frameRow rows))) ↔
      ¬ Noticed rows own ∧ ¬ Unusable own := by
  rw [calculateFscore, succeeds_scoreOf, required_amounts_iff hsub]
  exact and_congr_right fun hnot => usable_iff hsub hnot

/-- What the check notices is missing. -/
theorem not_complete_of_noticed (hsub : ∀ r ∈ own, r ∈ rows) (h : Noticed rows own) :
    ¬ Complete own := by
  obtain ⟨k, hk, hnone | hnull⟩ := h
  · intro hall
    exact hall k hk (by rw [storedAmount, hnone, Option.bind_none])
  · intro hall
    refine hall k hk ?_
    cases hrow : accountRow own k.1 k.2.1 with
    | none => rw [storedAmount, hrow, Option.bind_none]
    | some r =>
      rw [storedAmount, hrow, Option.bind_some]
      exact hnull r (hsub r (findRow_spec hrow).1)

variable {table : List StatementRow} {stockCodes : List String} {year : ℤ} {reportCode : String}
  {df : List FrameRow}

/-- `_calculate_fscore` returns a score exactly for the complete statements under one
condition: it notices what is missing, or the optional rows are unusable just when a required
amount is missing. -/
theorem calculateFscore_refuses_missing_iff
    (hdf : (getBulkFinancialStatements table stockCodes year reportCode).get? code = some df) :
    ((∃ result, f.calculateFscore code df = .ok result) ↔
      Complete (statementOf table stockCodes year reportCode code)) ↔
    (Noticed (findByStockCodes table stockCodes (toString year) reportCode)
        (statementOf table stockCodes year reportCode code) ∨
      (Unusable (statementOf table stockCodes year reportCode code) ↔
        ¬ Complete (statementOf table stockCodes year reportCode code))) := by
  have hsub : ∀ r ∈ statementOf table stockCodes year reportCode code,
      r ∈ findByStockCodes table stockCodes (toString year) reportCode := by
    intro r hr
    exact List.mem_of_mem_filter hr
  obtain rfl := getBulk_eq_some hdf
  have hscore : (∃ result, f.calculateFscore code _ = .ok result) ↔ _ :=
    @succeeds_calculateFscore _ _ f code hsub
  have hmissing := not_complete_of_noticed hsub
  rw [hscore]
  generalize Noticed _ _ = noticed at hmissing ⊢
  generalize Unusable _ = unusable
  generalize Complete _ = complete at hmissing ⊢
  by_cases hnoticed : noticed
  · simp [hnoticed, hmissing hnoticed]
  · by_cases hcomplete : complete
    · simp [hnoticed, hcomplete]
    · simp [hnoticed, hcomplete]

/-- The statement of a company: every account that the score reads, and the operating cash
flow of the year NULL. -/
def cashless : List StatementRow :=
  [("BS", totalAssets, some 1000, some 900), ("BS", totalLiab, some 400, some 500),
    ("BS", currentAssets, some 300, some 200), ("BS", currentLiab, some 100, some 100),
    ("BS", equity, some 600, some 400), ("BS", capitalStock, some 50, some 50),
    ("IS", netIncome, some 90, some 60), ("IS", revenue, some 800, some 700),
    ("IS", grossProfit, some 400, some 300), ("CF", cfo, none, some 80)].map
  fun (sjDiv, accountId, thstrm, frmtrm) =>
    { rceptNo := "20250312000736", sjDiv := sjDiv, accountId := accountId, reprtCode := "11011"
      bsnsYear := "2024", stockCode := "005930", thstrmAmount := thstrm
      frmtrmAmount := frmtrm, bfefrmtrmAmount := none }

theorem rows_cashless : findByStockCodes cashless ["005930"] (toString (2024 : ℤ)) "11011" = cashless := by
  decide +kernel

theorem statementOf_cashless : statementOf cashless ["005930"] 2024 "11011" "005930" = cashless := by
  rw [statementOf, rows_cashless]
  decide +kernel

theorem not_unusable_cashless : ¬ Unusable cashless := by
  have hliab : accountRow cashless "BS" totalLiab ≠ none := by decide +kernel
  have hassets : accountRow cashless "BS" currentAssets ≠ none := by decide +kernel
  have hstock : accountRow cashless "BS" capitalStock ≠ none := by decide +kernel
  simp [Unusable, hliab, hassets, hstock]

/-- It is scored although a required amount is NULL. -/
theorem cashless_scored :
    ¬ Complete (statementOf cashless ["005930"] 2024 "11011" "005930") ∧
      ∃ df, (getBulkFinancialStatements cashless ["005930"] 2024 "11011").get? "005930" = some df ∧
        ∃ result, standard.calculateFscore "005930" df = .ok result := by
  have hne : statementOf cashless ["005930"] 2024 "11011" "005930" ≠ [] := by
    rw [statementOf_cashless]
    decide
  obtain ⟨df, hdf⟩ := getBulk_of_mem hne
  refine ⟨by rw [statementOf_cashless]; decide +kernel, df, hdf, ?_⟩
  rw [getBulk_eq_some hdf, statementOf_cashless, rows_cashless]
  exact (succeeds_calculateFscore fun r hr => hr).mpr
    ⟨by decide +kernel, not_unusable_cashless⟩

theorem calculateFscore_refuses_missing_iff_cashless :
    ∃ df, (getBulkFinancialStatements cashless ["005930"] 2024 "11011").get? "005930" = some df ∧
      (((∃ result, standard.calculateFscore "005930" df = .ok result) ↔
          Complete (statementOf cashless ["005930"] 2024 "11011" "005930")) ↔
        (Noticed (findByStockCodes cashless ["005930"] (toString (2024 : ℤ)) "11011")
            (statementOf cashless ["005930"] 2024 "11011" "005930") ∨
          (Unusable (statementOf cashless ["005930"] 2024 "11011" "005930") ↔
            ¬ Complete (statementOf cashless ["005930"] 2024 "11011" "005930")))) := by
  have hne : statementOf cashless ["005930"] 2024 "11011" "005930" ≠ [] := by
    rw [statementOf_cashless]
    decide
  obtain ⟨df, hdf⟩ := getBulk_of_mem hne
  exact ⟨df, hdf, calculateFscore_refuses_missing_iff hdf⟩

end FScore

end Autotrading
