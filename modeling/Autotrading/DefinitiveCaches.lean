import Autotrading.DartCaches

/-!
# Definitive answers

When both caches of the statements rest on answers of DART that are definitive: the code
meets an error status in a body and gets through all the same.
-/
namespace Autotrading

namespace DartProvider

/-- The code has a row of the report. -/
def Stored (store : DartStore) (code : String) (year : ℤ) (reprtCode : String) : Prop :=
  ∃ r ∈ store.statements, r.stockCode = code ∧ r.IsOf (toString year) reprtCode

/-- The code is in the negative cache. -/
def Unavailable (store : DartStore) (code : String) (year : ℤ) (reprtCode : String) : Prop :=
  (code, toString year, reprtCode) ∈ store.unavailable

/-- The caches after a call that made the requests `made`. -/
structure Definitive (d : Dart) (made : List DartRequest) (store : DartStore) (year : ℤ)
    (reprtCode : String) : Prop where
  /-- DART had no data for any request for a code of the negative cache. -/
  negative : ∀ code, Unavailable store code year reprtCode →
    ∀ req ∈ made, req.stockCode = code → (replyTo d req).IsNoData
  /-- Every answer for the kind of statement that brought a stored code was definitive. -/
  stored : ∀ code, Stored store code year reprtCode → ∀ fsDiv,
    (∃ req ∈ made, req.stockCode = code ∧ req.fsDiv = fsDiv ∧ (replyTo d req).IsData) →
      ∀ req ∈ made, req.stockCode = code → req.fsDiv = fsDiv → ¬ (replyTo d req).Transient
  /-- A code that met a transient error is requested by the next call. -/
  retried : ∀ req ∈ made, (replyTo d req).Transient → ∀ codes, req.stockCode ∈ codes →
    req.stockCode ∈ missingCodes store codes year reprtCode

/-- A code that met a transient error does not get through: a request raises, or there are
rows and none of the report is taken, or there is nothing and the mark is not taken. -/
def Held (d : Dart) (missing : List String) (year : ℤ) (reprtCode code : String) : Prop :=
  (∃ req ∈ asked d code, (replyTo d req).Raises) ∨
  ((∃ req ∈ asked d code, (replyTo d req).IsData) ∧
    ∀ k, missing[k]? = some code → d.takes k = true →
      ∀ r ∈ inserted d code, ¬ r.IsOf (toString year) reprtCode) ∨
  ((∀ req ∈ asked d code, ¬ (replyTo d req).IsData) ∧ d.marks = false)

variable {d : Dart} {store : DartStore} {codes : List String} {year : ℤ} {reprtCode code : String}

theorem mem_missingCodes :
    code ∈ missingCodes store codes year reprtCode ↔
      code ∈ codes ∧ ¬ Stored store code year reprtCode ∧ ¬ Unavailable store code year reprtCode := by
  rw [missingCodes, List.mem_filter, decide_eq_true_iff]
  refine and_congr_right fun hcode => and_congr (not_congr ?_) (not_congr ?_)
  · rw [findExistingStockCodes, List.mem_map, Stored]
    constructor
    · rintro ⟨r, hr, rfl⟩
      rw [findByStockCodes, List.mem_filter, decide_eq_true_iff] at hr
      exact ⟨r, hr.1, rfl, hr.2.2⟩
    · rintro ⟨r, hr, rfl, hof⟩
      exact ⟨r, List.mem_filter.mpr ⟨hr, decide_eq_true ⟨hcode, hof⟩⟩, rfl⟩
  · rw [findUnavailableCodes, List.mem_filter, decide_eq_true_iff, Unavailable]
    exact and_iff_right hcode

section Call
variable (d store codes year reprtCode)

theorem made_bulk :
    (fetchAndStoreBulk d store codes year reprtCode).1 =
      (fetchMissing d year 0 (missingCodes store codes year reprtCode) store.statements).1 := by
  simp only [fetchAndStoreBulk]
  split
  · rfl
  · split <;> rfl

theorem statements_bulk :
    (fetchAndStoreBulk d store codes year reprtCode).2.1.statements =
      (fetchMissing d year 0 (missingCodes store codes year reprtCode) store.statements).2.1 := by
  simp only [fetchAndStoreBulk]
  split
  · rfl
  · split <;> rfl

theorem mem_unavailable_bulk {key : String × String × String} :
    key ∈ (fetchAndStoreBulk d store codes year reprtCode).2.1.unavailable ↔
      key ∈ store.unavailable ∨ d.marks = true ∧ ∃ c ∈
        (fetchMissing d year 0 (missingCodes store codes year reprtCode) store.statements).2.2,
          (c, toString year, reprtCode) = key := by
  simp only [fetchAndStoreBulk]
  split
  · next hnil =>
    rw [List.isEmpty_iff] at hnil
    simp [hnil]
  · split
    · next hmarks =>
      rw [List.mem_append, List.mem_map, and_iff_right hmarks]
    · next hmarks => simp [hmarks]

end Call

/-- A code that was requested is stored by an attempt that brings a row of the report. -/
theorem stored_bulk_iff (hmissing : code ∈ missingCodes store codes year reprtCode) :
    Stored (fetchAndStoreBulk d store codes year reprtCode).2.1 code year reprtCode ↔
      ∃ k r, (missingCodes store codes year reprtCode)[k]? = some code ∧ Brings d k code r ∧
        r.IsOf (toString year) reprtCode := by
  have hbefore := (mem_missingCodes.mp hmissing).2.1
  rw [Stored, statements_bulk]
  constructor
  · rintro ⟨r, hr, hcode, hof⟩
    obtain hold | ⟨k, c, hk, hbrings⟩ := (mem_table_fetchMissing d year).mp hr
    · exact absurd ⟨r, hold, hcode, hof⟩ hbefore
    · have hc : code = c := by rw [← hcode, stockCode_of_inserted d hbrings.2.2]
      subst hc
      rw [Nat.zero_add] at hbrings
      exact ⟨k, r, hk, hbrings, hof⟩
  · rintro ⟨k, r, hk, hbrings, hof⟩
    refine ⟨r, (mem_table_fetchMissing d year).mpr (.inr ⟨k, code, hk, ?_⟩),
      stockCode_of_inserted d hbrings.2.2, hof⟩
    rwa [Nat.zero_add]

/-- It is marked where its requests found nothing and raised nothing. -/
theorem unavailable_bulk_iff (hmissing : code ∈ missingCodes store codes year reprtCode) :
    Unavailable (fetchAndStoreBulk d store codes year reprtCode).2.1 code year reprtCode ↔
      d.marks = true ∧ asked d code ≠ [] ∧
        ∀ req ∈ asked d code, ¬ (replyTo d req).Raises ∧ ¬ (replyTo d req).IsData := by
  have hbefore : (code, toString year, reprtCode) ∉ store.unavailable :=
    (mem_missingCodes.mp hmissing).2.2
  rw [Unavailable, mem_unavailable_bulk, or_iff_right hbefore]
  refine and_congr_right fun _ => ?_
  constructor
  · rintro ⟨c, hc, hkey⟩
    obtain ⟨rfl, -⟩ := Prod.mk.inj hkey
    exact ((mem_unavailable_fetchMissing d year).mp hc).2
  · intro hnone
    exact ⟨code, (mem_unavailable_fetchMissing d year).mpr ⟨hmissing, hnone⟩, rfl⟩

theorem mem_made_bulk {req : DartRequest} :
    req ∈ (fetchAndStoreBulk d store codes year reprtCode).1 ↔
      req.stockCode ∈ missingCodes store codes year reprtCode ∧ req ∈ asked d req.stockCode := by
  rw [made_bulk, mem_made_fetchMissing]
  constructor
  · rintro ⟨c, hc, hreq⟩
    obtain rfl := stockCode_of_asked d hreq
    exact ⟨hc, hreq⟩
  · rintro ⟨hc, hreq⟩
    exact ⟨req.stockCode, hc, hreq⟩

/-- A code that met a transient error is in neither cache exactly when it is held. -/
theorem held_iff (hmissing : code ∈ missingCodes store codes year reprtCode)
    (hasked : asked d code ≠ []) :
    Held d (missingCodes store codes year reprtCode) year reprtCode code ↔
      ¬ Stored (fetchAndStoreBulk d store codes year reprtCode).2.1 code year reprtCode ∧
        ¬ Unavailable (fetchAndStoreBulk d store codes year reprtCode).2.1 code year reprtCode := by
  rw [stored_bulk_iff hmissing, unavailable_bulk_iff hmissing]
  constructor
  · rintro (⟨req, hreq, hraises⟩ | ⟨⟨req, hreq, hdata⟩, hrefused⟩ | ⟨hnodata, hmarks⟩)
    · exact ⟨fun ⟨k, r, hk, hbrings, hof⟩ => hbrings.2.1 req hreq hraises,
        fun hmark => (hmark.2.2 req hreq).1 hraises⟩
    · exact ⟨fun ⟨k, r, hk, hbrings, hof⟩ => hrefused k hk hbrings.1 r hbrings.2.2 hof,
        fun hmark => (hmark.2.2 req hreq).2 hdata⟩
    · refine ⟨fun ⟨k, r, hk, hbrings, hof⟩ => ?_, fun hmark => ?_⟩
      · have hr := hbrings.2.2
        rw [inserted_eq_nil d hnodata] at hr
        simp at hr
      · simp [hmarks] at hmark
  · rintro ⟨hnot, hunmarked⟩
    by_cases hraises : ∃ req ∈ asked d code, (replyTo d req).Raises
    · exact .inl hraises
    · push Not at hraises
      by_cases hdata : ∃ req ∈ asked d code, (replyTo d req).IsData
      · refine .inr (.inl ⟨hdata, fun k hk htakes r hr hof => ?_⟩)
        exact hnot ⟨k, r, hk, ⟨htakes, hraises, hr⟩, hof⟩
      · push Not at hdata
        refine .inr (.inr ⟨hdata, ?_⟩)
        by_contra hmarks
        exact hunmarked ⟨by simpa using hmarks, hasked,
          fun req hreq => ⟨hraises req hreq, hdata req hreq⟩⟩

/-- After a call the caches rest on definitive answers exactly when every requested code
that met a transient error was held. -/
theorem fetchAndStoreBulk_definitive_iff :
    Definitive d (fetchAndStoreBulk d store codes year reprtCode).1
      (fetchAndStoreBulk d store codes year reprtCode).2.1 year reprtCode ↔
    ∀ code ∈ missingCodes store codes year reprtCode,
      (∃ req ∈ asked d code, (replyTo d req).Transient) →
        Held d (missingCodes store codes year reprtCode) year reprtCode code := by
  constructor
  · rintro hdefinitive code hmissing ⟨req, hreq, htransient⟩
    obtain rfl := stockCode_of_asked d hreq
    have hnext := hdefinitive.retried req (mem_made_bulk.mpr ⟨hmissing, hreq⟩) htransient
      [req.stockCode] (by simp)
    exact (held_iff hmissing (List.ne_nil_of_mem hreq)).mpr (mem_missingCodes.mp hnext).2
  · intro hheld
    have hclear : ∀ req ∈ (fetchAndStoreBulk d store codes year reprtCode).1,
        (replyTo d req).Transient →
          ¬ Stored (fetchAndStoreBulk d store codes year reprtCode).2.1 req.stockCode year reprtCode ∧
          ¬ Unavailable (fetchAndStoreBulk d store codes year reprtCode).2.1 req.stockCode year
            reprtCode := by
      intro req hmade htransient
      obtain ⟨hmissing, hreq⟩ := mem_made_bulk.mp hmade
      exact (held_iff hmissing (List.ne_nil_of_mem hreq)).mp
        (hheld _ hmissing ⟨req, hreq, htransient⟩)
    constructor
    · rintro code hmarked req hmade rfl
      obtain ⟨hmissing, hreq⟩ := mem_made_bulk.mp hmade
      have hnodata := (((unavailable_bulk_iff hmissing).mp hmarked).2.2 req hreq).2
      by_contra hnot
      exact (hclear req hmade ⟨hnodata, hnot⟩).2 hmarked
    · rintro code hstored fsDiv - req hmade rfl - htransient
      exact (hclear req hmade htransient).1 hstored
    · intro req hmade htransient codes' hcode
      exact mem_missingCodes.mpr ⟨hcode, hclear req hmade htransient⟩

/-- DART over its request limit for every request. -/
def limited : Dart where
  corpCodes := .ok [("005930", "00126380")]
  answer _ _ _ := .body (some "020") none
  takes _ := true
  marks := true

/-- After a call under the limit the code is in the negative cache. -/
theorem limited_not_definitive :
    ¬ Definitive limited (fetchAndStoreBulk limited ⟨[], []⟩ ["005930"] 2024 "11011").1
      (fetchAndStoreBulk limited ⟨[], []⟩ ["005930"] 2024 "11011").2.1 2024 "11011" := by
  intro hdefinitive
  have hmissing : "005930" ∈ missingCodes ⟨[], []⟩ ["005930"] 2024 "11011" :=
    mem_missingCodes.mpr ⟨by simp, by simp [Stored], by simp [Unavailable]⟩
  have hreq : (⟨"005930", .cfs, .bs⟩ : DartRequest) ∈ asked limited "005930" := by decide
  have hmarked := (unavailable_bulk_iff (d := limited) hmissing).mpr
    ⟨rfl, List.ne_nil_of_mem hreq, by decide⟩
  have hnodata := hdefinitive.negative _ hmarked _ (mem_made_bulk.mpr ⟨hmissing, hreq⟩) rfl
  revert hnodata
  decide

end DartProvider

end Autotrading
