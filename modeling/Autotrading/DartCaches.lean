import Autotrading.DartProvider

/-!
# What the DART caches hold

A code is stored or marked as unavailable for good, so both should rest on answers that
are. A body whose status is neither `000` nor `013` is passed over as if DART had no data,
and what is left of the answers decides.
-/
namespace Autotrading

namespace DartReply

/-- The frame of an answer with data. -/
def frame? : DartReply → Option (List DartRow)
  | .body (some "000") (some rows) => some rows
  | _ => none

/-- DART sent data. -/
def IsData (r : DartReply) : Prop := r.frame?.isSome = true

/-- DART said that there is no data. -/
def IsNoData : DartReply → Prop
  | .body status _ => status = some "013"
  | .failure _ => False

/-- The client raises. -/
def Raises : DartReply → Prop
  | .failure _ => True
  | .body status list => status = some "000" ∧ list = none

/-- Neither data nor 'no data'. -/
def Transient (r : DartReply) : Prop := ¬ r.IsData ∧ ¬ r.IsNoData

instance : DecidablePred IsData := fun _ => inferInstanceAs (Decidable (_ = _))

instance : DecidablePred IsNoData
  | .body _ _ => inferInstanceAs (Decidable (_ = _))
  | .failure _ => inferInstanceAs (Decidable False)

instance : DecidablePred Raises
  | .body _ _ => inferInstanceAs (Decidable (_ ∧ _))
  | .failure _ => inferInstanceAs (Decidable True)

instance : DecidablePred Transient := fun _ => inferInstanceAs (Decidable (_ ∧ _))

end DartReply

namespace DartProvider

theorem readReply_of_not_raises {r : DartReply} (h : ¬ r.Raises) : readReply r = .ok r.frame? := by
  cases r with
  | failure f => exact absurd trivial h
  | body status list =>
    by_cases hstatus : status = some "000"
    · cases list with
      | none => exact absurd ⟨hstatus, rfl⟩ h
      | some rows => simp [readReply, hstatus, DartReply.frame?]
    · have hframe : DartReply.frame? (.body status list) = none := by
        unfold DartReply.frame?
        split
        · next heq => simp_all
        · rfl
      simp [readReply, hstatus, hframe]

theorem readReply_of_raises {r : DartReply} (h : r.Raises) :
    ∃ e, readReply r = .error e ∧ isRuntimeError e = false := by
  cases r with
  | failure f => cases f <;> exact ⟨_, rfl, rfl⟩
  | body status list =>
    obtain ⟨rfl, rfl⟩ := h
    exact ⟨_, rfl, rfl⟩

section Requests
variable (answer : SjDiv → DartReply)

/-- The requests up to the first whose answer raises. -/
def upToFailure : List SjDiv → List SjDiv
  | [] => []
  | sj :: rest => if (answer sj).Raises then [sj] else sj :: upToFailure rest

theorem mem_of_mem_upToFailure {sjs : List SjDiv} {sj : SjDiv} (h : sj ∈ upToFailure answer sjs) :
    sj ∈ sjs := by
  induction sjs with
  | nil => exact h
  | cons sj' rest ih =>
    rw [upToFailure] at h
    split at h
    · exact List.mem_cons.mpr (.inl (List.mem_singleton.mp h))
    · obtain heq | hmem := List.mem_cons.mp h
      · exact List.mem_cons.mpr (.inl heq)
      · exact List.mem_cons_of_mem _ (ih hmem)

theorem requestAll_made (sjs : List SjDiv) : (requestAll answer sjs).1 = upToFailure answer sjs := by
  induction sjs with
  | nil => rfl
  | cons sj rest ih =>
    by_cases hraises : (answer sj).Raises
    · obtain ⟨e, he, -⟩ := readReply_of_raises hraises
      simp [requestAll, he, upToFailure, hraises]
    · simp [requestAll, readReply_of_not_raises hraises, upToFailure, hraises, ih]

theorem requestAll_error {sjs : List SjDiv} (h : ∃ sj ∈ upToFailure answer sjs, (answer sj).Raises) :
    ∃ e, (requestAll answer sjs).2 = .error e ∧ isRuntimeError e = false := by
  induction sjs with
  | nil => simp [upToFailure] at h
  | cons sj rest ih =>
    by_cases hraises : (answer sj).Raises
    · obtain ⟨e, he, hnot⟩ := readReply_of_raises hraises
      exact ⟨e, by simp [requestAll, he], hnot⟩
    · rw [upToFailure, if_neg hraises] at h
      obtain ⟨sj', hmem, hfail⟩ := h
      obtain rfl | hrest := List.mem_cons.mp hmem
      · exact absurd hfail hraises
      · obtain ⟨e, he, hnot⟩ := ih ⟨sj', hrest, hfail⟩
        exact ⟨e, by simp [requestAll, readReply_of_not_raises hraises, he, Except.map], hnot⟩

theorem requestAll_ok {sjs : List SjDiv} (h : ∀ sj ∈ upToFailure answer sjs, ¬ (answer sj).Raises) :
    upToFailure answer sjs = sjs ∧
      (requestAll answer sjs).2 = .ok (sjs.filterMap fun sj => (answer sj).frame?) := by
  induction sjs with
  | nil => exact ⟨rfl, rfl⟩
  | cons sj rest ih =>
    by_cases hraises : (answer sj).Raises
    · rw [upToFailure, if_pos hraises] at h
      exact absurd hraises (h sj List.mem_cons_self)
    · rw [upToFailure, if_neg hraises] at h ⊢
      obtain ⟨hall, hframes⟩ := ih fun sj' hmem => h sj' (List.mem_cons_of_mem _ hmem)
      refine ⟨by rw [hall], ?_⟩
      simp only [requestAll, readReply_of_not_raises hraises, hframes, Except.map]
      cases hframe : (answer sj).frame? with
      | none => simp [hframe]
      | some rows => simp [hframe]

end Requests

section Fetch
variable (d : Dart) {code : String} {year : ℤ} {req : DartRequest}

/-- The answer to a request. -/
def replyTo (req : DartRequest) : DartReply := d.answer req.stockCode req.fsDiv req.sjDiv

/-- The requests for one kind of statement. -/
def askedFor (code : String) (fsDiv : FsDiv) : List DartRequest :=
  (upToFailure (d.answer code fsDiv) sjDivs).map fun sj => ⟨code, fsDiv, sj⟩

/-- The requests made for a code: `OFS` after a `CFS` without data and without a failure. -/
def asked (code : String) : List DartRequest :=
  match getCorpCode d code with
  | .error _ => []
  | .ok _ =>
    if ∃ sj ∈ sjDivs, (d.answer code .cfs sj).Raises ∨ (d.answer code .cfs sj).IsData then
      askedFor d code .cfs
    else askedFor d code .cfs ++ askedFor d code .ofs

theorem askedFor_ne_nil (fsDiv : FsDiv) : askedFor d code fsDiv ≠ [] := by
  simp only [askedFor, sjDivs, upToFailure]
  split <;> simp

/-- What a fetch comes to: it was not tried or failed, found nothing, or found rows. -/
inductive Fetched (made : List DartRequest) : Except PyExc (List DartRow) → Prop
  | failed {e : PyExc} : isRuntimeError e = false →
      (made ≠ [] → ∃ req ∈ made, (replyTo d req).Raises) → Fetched made (.error e)
  | nothing {e : PyExc} : isRuntimeError e = true → made ≠ [] →
      (∀ req ∈ made, ¬ (replyTo d req).Raises ∧ ¬ (replyTo d req).IsData) → Fetched made (.error e)
  | found : (∀ req ∈ made, ¬ (replyTo d req).Raises) →
      (∃ req ∈ made, (replyTo d req).IsData) →
      Fetched made (.ok (made.filterMap fun req => (replyTo d req).frame?).flatten)

theorem getFinancialStatements_spec {corpCode : String} (hcorp : getCorpCode d code = .ok corpCode)
    (year : ℤ) (fsDiv : FsDiv) :
    (getFinancialStatements d code year fsDiv).1 = askedFor d code fsDiv ∧
      Fetched d (askedFor d code fsDiv) (getFinancialStatements d code year fsDiv).2 := by
  rw [getFinancialStatements, hcorp, askedFor]
  dsimp only
  rw [requestAll_made]
  refine ⟨rfl, ?_⟩
  by_cases hfail : ∃ sj ∈ upToFailure (d.answer code fsDiv) sjDivs, (d.answer code fsDiv sj).Raises
  · obtain ⟨e, he, hnot⟩ := requestAll_error _ hfail
    obtain ⟨sj, hmem, hraises⟩ := hfail
    rw [he]
    exact .failed hnot fun _ => ⟨⟨code, fsDiv, sj⟩, List.mem_map.mpr ⟨sj, hmem, rfl⟩, hraises⟩
  · push Not at hfail
    obtain ⟨hall, hframes⟩ := requestAll_ok _ hfail
    have hquiet : ∀ req ∈ (upToFailure (d.answer code fsDiv) sjDivs).map
        (fun sj => (⟨code, fsDiv, sj⟩ : DartRequest)), ¬ (replyTo d req).Raises := by
      intro req hreq
      obtain ⟨sj, hmem, rfl⟩ := List.mem_map.mp hreq
      exact hfail sj hmem
    rw [hframes]
    cases hnone : sjDivs.filterMap fun sj => (d.answer code fsDiv sj).frame? with
    | nil =>
      refine .nothing rfl (askedFor_ne_nil d fsDiv) fun req hreq => ⟨hquiet req hreq, ?_⟩
      obtain ⟨sj, hmem, rfl⟩ := List.mem_map.mp hreq
      rw [hall] at hmem
      have hframe := List.filterMap_eq_nil_iff.mp hnone sj hmem
      simp [DartReply.IsData, replyTo, hframe]
    | cons frame frames =>
      have hmem : frame ∈ sjDivs.filterMap fun sj => (d.answer code fsDiv sj).frame? := by
        rw [hnone]
        exact List.mem_cons_self
      obtain ⟨sj, hsj, hframe⟩ := List.mem_filterMap.mp hmem
      have hrows : frame :: frames = ((upToFailure (d.answer code fsDiv) sjDivs).map
          (fun sj => (⟨code, fsDiv, sj⟩ : DartRequest))).filterMap
            fun req => (replyTo d req).frame? := by
        rw [← hnone, hall, List.filterMap_map]
        rfl
      show Fetched d _ (.ok (frame :: frames).flatten)
      rw [hrows]
      refine .found hquiet ⟨⟨code, fsDiv, sj⟩, ?_, by simp [DartReply.IsData, replyTo, hframe]⟩
      rw [hall]
      exact List.mem_map.mpr ⟨sj, hsj, rfl⟩

theorem getCorpCode_error {e : PyExc} (h : getCorpCode d code = .error e) :
    isRuntimeError e = false := by
  unfold getCorpCode at h
  split at h
  · next f _ =>
    obtain rfl := Except.error.inj h
    cases f <;> rfl
  · split at h
    · cases h
    · obtain rfl := Except.error.inj h
      rfl

/-- An answer of a kind of statement that decides is among those that were awaited. -/
theorem decided_iff (fsDiv : FsDiv) :
    (∃ sj ∈ sjDivs, (d.answer code fsDiv sj).Raises ∨ (d.answer code fsDiv sj).IsData) ↔
      ∃ req ∈ askedFor d code fsDiv, (replyTo d req).Raises ∨ (replyTo d req).IsData := by
  constructor
  · rintro ⟨sj, hsj, hdecides⟩
    by_cases hfail : ∃ sj ∈ upToFailure (d.answer code fsDiv) sjDivs,
        (d.answer code fsDiv sj).Raises
    · obtain ⟨sj', hmem, hraises⟩ := hfail
      exact ⟨⟨code, fsDiv, sj'⟩, List.mem_map.mpr ⟨sj', hmem, rfl⟩, .inl hraises⟩
    · push Not at hfail
      have hall := (requestAll_ok _ hfail).1
      exact ⟨⟨code, fsDiv, sj⟩, List.mem_map.mpr ⟨sj, by rwa [hall], rfl⟩, hdecides⟩
  · rintro ⟨req, hreq, hdecides⟩
    obtain ⟨sj, hmem, rfl⟩ := List.mem_map.mp hreq
    exact ⟨sj, mem_of_mem_upToFailure _ hmem, hdecides⟩

/-- Answers without data before a fetch do not change what it comes to. -/
theorem Fetched.append {made made' : List DartRequest} {df : Except PyExc (List DartRow)}
    (hempty : ∀ req ∈ made, ¬ (replyTo d req).Raises ∧ ¬ (replyTo d req).IsData)
    (hne : made' ≠ []) (h : Fetched d made' df) : Fetched d (made ++ made') df := by
  cases h with
  | failed hnot hfail =>
    obtain ⟨req, hreq, hraises⟩ := hfail hne
    exact .failed hnot fun _ => ⟨req, List.mem_append_right _ hreq, hraises⟩
  | nothing hruntime _ hrest =>
    refine .nothing hruntime (by simp [hne]) fun req hreq => ?_
    obtain hreq | hreq := List.mem_append.mp hreq
    · exact hempty req hreq
    · exact hrest req hreq
  | found hquiet hdata =>
    have hnone : made.filterMap (fun req => (replyTo d req).frame?) = [] := by
      rw [List.filterMap_eq_nil_iff]
      intro req hreq
      have hnot := (hempty req hreq).2
      simpa [DartReply.IsData] using hnot
    have hrows : made'.filterMap (fun req => (replyTo d req).frame?) =
        (made ++ made').filterMap fun req => (replyTo d req).frame? := by
      rw [List.filterMap_append, hnone, List.nil_append]
    rw [hrows]
    refine .found (fun req hreq => ?_) ?_
    · obtain hreq | hreq := List.mem_append.mp hreq
      · exact (hempty req hreq).1
      · exact hquiet req hreq
    · obtain ⟨req, hreq, hmem⟩ := hdata
      exact ⟨req, List.mem_append_right _ hreq, hmem⟩

theorem fetch_spec (code : String) (year : ℤ) :
    (fetch d code year).1 = asked d code ∧ Fetched d (asked d code) (fetch d code year).2 := by
  cases hcorp : getCorpCode d code with
  | error e =>
    have hnot := getCorpCode_error d hcorp
    have hasked : asked d code = [] := by simp [asked, hcorp]
    have hfetch : fetch d code year = ([], .error e) := by
      simp [fetch, getFinancialStatements, hcorp, hnot]
    rw [hasked, hfetch]
    exact ⟨rfl, .failed hnot fun hne => absurd rfl hne⟩
  | ok corpCode =>
    obtain ⟨hmade, hcfs⟩ := getFinancialStatements_spec d hcorp year .cfs
    obtain ⟨hmade', hofs⟩ := getFinancialStatements_spec d hcorp year .ofs
    have hasked : asked d code =
        if ∃ req ∈ askedFor d code .cfs, (replyTo d req).Raises ∨ (replyTo d req).IsData then
          askedFor d code .cfs
        else askedFor d code .cfs ++ askedFor d code .ofs := by
      rw [asked, hcorp]
      exact if_congr (decided_iff d .cfs) rfl rfl
    rw [fetch, hasked]
    generalize getFinancialStatements d code year .cfs = cfs at hmade hcfs
    generalize getFinancialStatements d code year .ofs = ofs at hmade' hofs
    obtain ⟨made, df⟩ := cfs
    obtain ⟨made', df'⟩ := ofs
    obtain rfl := hmade
    obtain rfl := hmade'
    cases hcfs with
    | @failed e hnot hfail =>
      obtain ⟨req, hreq, hraises⟩ := hfail (askedFor_ne_nil d .cfs)
      rw [if_pos ⟨req, hreq, .inl hraises⟩]
      simp only [hnot]
      exact ⟨rfl, .failed hnot hfail⟩
    | @nothing e hruntime _ hempty =>
      have hundecided : ¬ ∃ req ∈ askedFor d code .cfs,
          (replyTo d req).Raises ∨ (replyTo d req).IsData := by
        rintro ⟨req, hreq, hraises | hdata⟩
        · exact (hempty req hreq).1 hraises
        · exact (hempty req hreq).2 hdata
      rw [if_neg hundecided]
      simp only [hruntime]
      exact ⟨rfl, hofs.append d hempty (askedFor_ne_nil d .ofs)⟩
    | found hquiet hdata =>
      obtain ⟨req, hreq, hmem⟩ := hdata
      rw [if_pos ⟨req, hreq, .inr hmem⟩]
      exact ⟨rfl, .found hquiet ⟨req, hreq, hmem⟩⟩

theorem stockCode_of_asked (h : req ∈ asked d code) : req.stockCode = code := by
  have hfor : ∀ fsDiv, req ∈ askedFor d code fsDiv → req.stockCode = code := by
    intro fsDiv hreq
    obtain ⟨sj, -, rfl⟩ := List.mem_map.mp hreq
    rfl
  unfold asked at h
  split at h
  · simp at h
  · split at h
    · exact hfor _ h
    · obtain h | h := List.mem_append.mp h
      · exact hfor _ h
      · exact hfor _ h

/-- The rows that an insert brings for a code. -/
def inserted (code : String) : List StatementRow :=
  dropDuplicates
    (((asked d code).filterMap fun req => (replyTo d req).frame?).flatten.map (statementRow code))

theorem mem_of_mem_dropDuplicates {rs : List StatementRow} {r : StatementRow}
    (h : r ∈ dropDuplicates rs) : r ∈ rs := by
  induction rs with
  | nil => exact h
  | cons r' rs ih =>
    rw [dropDuplicates] at h
    split at h
    · exact List.mem_cons_of_mem _ (ih h)
    · obtain heq | hmem := List.mem_cons.mp h
      · exact List.mem_cons.mpr (.inl heq)
      · exact List.mem_cons_of_mem _ (ih hmem)

theorem stockCode_of_inserted {r : StatementRow} (h : r ∈ inserted d code) : r.stockCode = code := by
  obtain ⟨row, -, rfl⟩ := List.mem_map.mp (mem_of_mem_dropDuplicates h)
  rfl

/-- What a fetch leaves: the rows, a mark, or neither. -/
inductive Left (i : ℕ) (code : String) (table : List StatementRow) :
    Except PyExc (List StatementRow) → Prop
  | rows : (∀ req ∈ asked d code, ¬ (replyTo d req).Raises) →
      (∃ req ∈ asked d code, (replyTo d req).IsData) → d.takes i = true →
      Left i code table (.ok (table ++ inserted d code))
  | mark {e : PyExc} : isRuntimeError e = true → asked d code ≠ [] →
      (∀ req ∈ asked d code, ¬ (replyTo d req).Raises ∧ ¬ (replyTo d req).IsData) →
      Left i code table (.error e)
  | neither {e : PyExc} : isRuntimeError e = false →
      ((asked d code ≠ [] → ∃ req ∈ asked d code, (replyTo d req).Raises) ∨
        (∃ req ∈ asked d code, (replyTo d req).IsData) ∧
          (d.takes i = true → inserted d code = [])) →
      Left i code table (.error e)

theorem fetchAndStore_spec (i : ℕ) (code : String) (year : ℤ) (table : List StatementRow) :
    (fetchAndStore d i code year table).1 = asked d code ∧
      Left d i code table (fetchAndStore d i code year table).2 := by
  obtain ⟨hmade, hfetched⟩ := fetch_spec d code year
  unfold fetchAndStore
  generalize fetch d code year = out at hmade hfetched ⊢
  obtain ⟨made, df⟩ := out
  refine ⟨hmade, ?_⟩
  cases hfetched with
  | failed hnot hfail => exact .neither hnot (.inl hfail)
  | nothing hruntime hne hempty => exact .mark hruntime hne hempty
  | found hquiet hdata =>
    show Left d i code table (bulkInsert _ _ _ _)
    unfold bulkInsert
    split
    · next hnil =>
      refine .neither rfl (.inr ⟨hdata, fun _ => ?_⟩)
      rw [List.isEmpty_iff] at hnil
      simp [inserted, hnil, dropDuplicates]
    · split
      · next htaken => exact .rows hquiet hdata htaken
      · next htaken => exact .neither rfl (.inr ⟨hdata, fun h => absurd h htaken⟩)

end Fetch

section Loop
variable (d : Dart) (year : ℤ)

theorem mem_made_fetchMissing {req : DartRequest} {i : ℕ} {codes : List String}
    {table : List StatementRow} :
    req ∈ (fetchMissing d year i codes table).1 ↔ ∃ code ∈ codes, req ∈ asked d code := by
  induction codes generalizing i table with
  | nil => simp [fetchMissing]
  | cons code codes ih =>
    have hmade := (fetchAndStore_spec d i code year table).1
    rw [fetchMissing]
    generalize fetchAndStore d i code year table = out at hmade
    obtain ⟨made, df⟩ := out
    obtain rfl := hmade
    cases df with
    | ok table' => simp [ih]
    | error e => simp [ih]

theorem exists_attempt_cons {p : ℕ → String → Prop} {i : ℕ} {code : String} {codes : List String} :
    (∃ k c, (code :: codes)[k]? = some c ∧ p (i + k) c) ↔
      p i code ∨ ∃ k c, codes[k]? = some c ∧ p (i + 1 + k) c := by
  constructor
  · rintro ⟨k, c, hk, hp⟩
    cases k with
    | zero =>
      obtain rfl := Option.some.inj hk
      exact .inl hp
    | succ k => exact .inr ⟨k, c, hk, by rwa [← Nat.add_assoc, Nat.add_right_comm] at hp⟩
  · rintro (hp | ⟨k, c, hk, hp⟩)
    · exact ⟨0, code, rfl, hp⟩
    · exact ⟨k + 1, c, hk, by rwa [Nat.add_right_comm, Nat.add_assoc] at hp⟩

/-- The attempt on a code brings the row. -/
def Brings (i : ℕ) (code : String) (r : StatementRow) : Prop :=
  d.takes i = true ∧ (∀ req ∈ asked d code, ¬ (replyTo d req).Raises) ∧ r ∈ inserted d code

theorem inserted_eq_nil {code : String} (h : ∀ req ∈ asked d code, ¬ (replyTo d req).IsData) :
    inserted d code = [] := by
  have hnone : (asked d code).filterMap (fun req => (replyTo d req).frame?) = [] := by
    rw [List.filterMap_eq_nil_iff]
    intro req hreq
    simpa [DartReply.IsData] using h req hreq
  simp [inserted, hnone, dropDuplicates]

/-- An attempt that ends with an exception brings nothing. -/
theorem not_brings_of_error {i : ℕ} {code : String} {table : List StatementRow} {e : PyExc}
    (h : Left d i code table (.error e)) (r : StatementRow) : ¬ Brings d i code r := by
  rintro ⟨htakes, hquiet, hr⟩
  cases h with
  | mark hruntime hne hempty =>
    rw [inserted_eq_nil d fun req hreq => (hempty req hreq).2] at hr
    simp at hr
  | neither hnot hwhy =>
    obtain hfail | ⟨-, hnil⟩ := hwhy
    · by_cases hne : asked d code = []
      · rw [inserted_eq_nil d (by simp [hne])] at hr
        simp at hr
      · obtain ⟨req, hreq, hraises⟩ := hfail hne
        exact hquiet req hreq hraises
    · simp [hnil htakes] at hr

theorem mem_table_fetchMissing {r : StatementRow} {i : ℕ} {codes : List String}
    {table : List StatementRow} :
    r ∈ (fetchMissing d year i codes table).2.1 ↔
      r ∈ table ∨ ∃ k code, codes[k]? = some code ∧ Brings d (i + k) code r := by
  induction codes generalizing i table with
  | nil => simp [fetchMissing]
  | cons code codes ih =>
    have hleft := (fetchAndStore_spec d i code year table).2
    rw [exists_attempt_cons (p := fun k c => Brings d k c r), fetchMissing]
    generalize fetchAndStore d i code year table = out at hleft
    obtain ⟨made, df⟩ := out
    cases df with
    | ok table' =>
      have hbrings : r ∈ table' ↔ r ∈ table ∨ Brings d i code r := by
        cases hleft with
        | rows hquiet hdata htakes =>
          rw [List.mem_append, Brings, and_iff_right htakes, and_iff_right hquiet]
      simp only [ih, hbrings, or_assoc]
    | error e =>
      have hnot := not_brings_of_error d hleft r
      simp [ih, hnot]

theorem mem_unavailable_fetchMissing {c : String} {i : ℕ} {codes : List String}
    {table : List StatementRow} :
    c ∈ (fetchMissing d year i codes table).2.2 ↔
      c ∈ codes ∧ asked d c ≠ [] ∧
        ∀ req ∈ asked d c, ¬ (replyTo d req).Raises ∧ ¬ (replyTo d req).IsData := by
  induction codes generalizing i table with
  | nil => simp [fetchMissing]
  | cons code codes ih =>
    have hleft := (fetchAndStore_spec d i code year table).2
    rw [fetchMissing]
    generalize fetchAndStore d i code year table = out at hleft
    obtain ⟨made, df⟩ := out
    cases hleft with
    | rows hquiet hdata htakes =>
      have hdataful : ¬ ∀ req ∈ asked d code, ¬ (replyTo d req).Raises ∧ ¬ (replyTo d req).IsData := by
        intro hempty
        obtain ⟨req, hreq, hmem⟩ := hdata
        exact (hempty req hreq).2 hmem
      rw [ih, List.mem_cons]
      constructor
      · rintro ⟨hc, hnone⟩
        exact ⟨.inr hc, hnone⟩
      · rintro ⟨rfl | hc, hne, hempty⟩
        · exact absurd hempty hdataful
        · exact ⟨hc, hne, hempty⟩
    | mark hruntime hne hempty =>
      simp only [hruntime, if_true, List.mem_cons, ih]
      constructor
      · rintro (rfl | ⟨hc, hnone⟩)
        · exact ⟨.inl rfl, hne, hempty⟩
        · exact ⟨.inr hc, hnone⟩
      · rintro ⟨rfl | hc, hnone⟩
        · exact .inl rfl
        · exact .inr ⟨hc, hnone⟩
    | neither hnot hwhy =>
      have hnone : ¬ (asked d code ≠ [] ∧
          ∀ req ∈ asked d code, ¬ (replyTo d req).Raises ∧ ¬ (replyTo d req).IsData) := by
        rintro ⟨hne, hempty⟩
        obtain hfail | ⟨⟨req, hreq, hmem⟩, -⟩ := hwhy
        · obtain ⟨req, hreq, hraises⟩ := hfail hne
          exact (hempty req hreq).1 hraises
        · exact (hempty req hreq).2 hmem
      simp only [hnot, Bool.false_eq_true, if_false, List.mem_cons, ih]
      constructor
      · rintro ⟨hc, hrest⟩
        exact ⟨.inr hc, hrest⟩
      · rintro ⟨rfl | hc, hrest⟩
        · exact absurd hrest hnone
        · exact ⟨hc, hrest⟩

end Loop

end DartProvider

end Autotrading
