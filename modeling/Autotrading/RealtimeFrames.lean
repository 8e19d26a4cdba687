import Autotrading.RealtimeMessages
import Mathlib.Data.List.Forall2

/-!
# What a frame decodes to

A frame has no mark between its records: `_handle_realtime_data` cuts the fields into runs of 46.
The records that were written come back one by one, each text under the name of its field, as long
as `int` takes the count, and a record that was cut short is left out.
-/
namespace Autotrading.KISRealtimeClient

/-- A record as it is sent: a text for each field, none with a `^`. -/
structure PriceRecord where
  fields : List String
  length_fields : fields.length = kisRealtimePriceFields.length
  noCaret : ∀ field ∈ fields, '^' ∉ field.toList

/-- The frame with this count and these fields. -/
def frame (trId count : String) (fields : List String) : String :=
  "0|" ++ trId ++ "|" ++ count ++ "|" ++ "^".intercalate fields

/-- The count is a number in decimal digits; zeros may stand in front. -/
structure Writes (count : String) (n : ℕ) : Prop where
  nonempty : count.toList ≠ []
  isDigit : ∀ c ∈ count.toList, c.isDigit = true
  value : Python.digitsValue count.toList = n

/-- The name of a field in `KisRealtimePrice`. -/
def fieldName (name : String) : String := String.ofList (name.toList.map Char.toLower)

/-- The price has each text of the record under the name of its field. -/
def Shows (price : KisRealtimePrice) (record : PriceRecord) : Prop :=
  ∀ field ∈ kisRealtimePriceFields.zip record.fields,
    price.values.lookup (fieldName field.1) = some field.2

theorem writes_repr (n : ℕ) : Writes n.repr n where
  nonempty := by simp
  isDigit := by
    intro c hc
    rw [Nat.toList_repr] at hc
    exact Python.isDigit_of_mem_toDigits hc
  value := by rw [Nat.toList_repr, Python.digitsValue_toDigits]

/-- `int` reads a count of at most 4300 digits. -/
theorem Writes.parseInt? {count : String} {n : ℕ} (h : Writes count n) :
    Python.parseInt? count.toList =
      if count.toList.length ≤ Python.maxStrDigits then some (n : ℤ) else none := by
  rw [Python.parseInt?_digits h.nonempty h.isDigit, h.value]

/-! ## The parts of a frame -/

theorem splitMax_append {sep : Char} {part : List Char} (h : sep ∉ part) (n : ℕ)
    (rest : List Char) :
    splitMax sep (n + 1) (part ++ sep :: rest) = part :: splitMax sep n rest := by
  have hpart : ∀ c ∈ part, decide (c ≠ sep) = true := by
    intro c hc
    have hne : c ≠ sep := by
      rintro rfl
      exact h hc
    simpa using hne
  have hspan : (part ++ sep :: rest).span (· ≠ sep) = (part, sep :: rest) := by
    rw [List.span_eq_takeWhile_dropWhile, List.takeWhile_append_of_pos hpart,
      List.dropWhile_append_of_pos hpart]
    simp
  rw [splitMax, hspan]

theorem digit_ne_bar {c : Char} (h : c.isDigit = true) : c ≠ '|' := by
  rintro rfl
  exact absurd h (by decide)

/-- The text behind the third bar is one part, whatever bars it has. -/
theorem splitMax_frame {trId count : String} {n : ℕ} (htr : '|' ∉ trId.toList)
    (hcount : Writes count n) (fields : List String) :
    splitMax '|' 3 (frame trId count fields).toList =
      [['0'], trId.toList, count.toList, ['^'].intercalate (fields.map String.toList)] := by
  have hbar : '|' ∉ count.toList := fun hmem => digit_ne_bar (hcount.isDigit _ hmem) rfl
  have htext : (frame trId count fields).toList = ['0'] ++ '|' :: (trId.toList ++ '|' ::
      (count.toList ++ '|' :: ['^'].intercalate (fields.map String.toList))) := by
    simp [frame, String.toList_append]
  rw [htext, splitMax_append (by decide), splitMax_append htr, splitMax_append hbar, splitMax]

/-- The carets give the fields back; no field at all reads as one that is empty. -/
theorem splitOn_fields {fields : List String} (h : ∀ field ∈ fields, '^' ∉ field.toList) :
    (['^'].intercalate (fields.map String.toList)).splitOn '^' =
      if fields = [] then [[]] else fields.map String.toList := by
  by_cases hnil : fields = []
  · rw [if_pos hnil, hnil]
    rfl
  · rw [if_neg hnil]
    refine List.splitOn_intercalate '^' ?_ (by simpa using hnil)
    intro part hpart
    obtain ⟨field, hfield, rfl⟩ := List.mem_map.mp hpart
    exact h field hfield

/-! ## Records -/

theorem map_fieldName : kisRealtimePriceFields.map fieldName = KisRealtimePrice.modelFields := by
  decide +kernel

/-- A price that is built of the texts in order has each under its name. -/
theorem shows_of_values {price : KisRealtimePrice} {record : PriceRecord}
    (h : price.values = KisRealtimePrice.modelFields.zip record.fields) : Shows price record := by
  have hnodup : (price.values.map Prod.fst).Nodup := by
    rw [price.keys]
    decide +kernel
  let values : Dict String String := ⟨price.values, hnodup⟩
  intro field hfield
  have hmem : (fieldName field.1, field.2) ∈ values.entries := by
    show (fieldName field.1, field.2) ∈ price.values
    rw [h, ← map_fieldName, List.zip_map_left]
    exact List.mem_map.mpr ⟨field, hfield, rfl⟩
  exact Dict.mem_entries.mp hmem

/-- The fields between two records are those of the record. -/
theorem slice_record {done more : List (List Char)} {record : PriceRecord} {start : ℕ}
    (hdone : done.length = start) :
    (((done ++ (record.fields.map String.toList ++ more)).take
      (start + kisRealtimePriceFields.length)).drop start).map String.ofList = record.fields := by
  have hlength : (record.fields.map String.toList).length = kisRealtimePriceFields.length := by
    rw [List.length_map, record.length_fields]
  rw [← hdone, ← hlength, List.take_length_add_append, List.take_left, List.drop_left,
    List.map_map]
  simp

/-- The loop builds the records that are left, and stops at a record that is cut short. -/
theorem priceRecords_records {rest : List (List Char)}
    (hrest : rest.length < kisRealtimePriceFields.length) (records : List PriceRecord) :
    ∀ {done : List (List Char)} {count i : ℕ}, done.length = i * kisRealtimePriceFields.length →
      records.length ≤ count →
        ∃ prices, priceRecords
            (done ++ ((records.flatMap PriceRecord.fields).map String.toList ++ rest)) count i =
              .ok prices ∧ List.Forall₂ Shows prices records := by
  induction records with
  | nil =>
    intro done count i hdone _
    refine ⟨[], ?_, .nil⟩
    cases count with
    | zero => rfl
    | succ count =>
      have hshort : (done ++ rest).length <
          i * kisRealtimePriceFields.length + kisRealtimePriceFields.length := by
        rw [List.length_append]
        omega
      rw [priceRecords]
      exact if_pos hshort
  | cons record records ih =>
    intro done count i hdone hcount
    cases count with
    | zero => simp at hcount
    | succ count =>
      have hlength : record.fields.length = kisRealtimePriceFields.length := record.length_fields
      have hnext : (done ++ record.fields.map String.toList).length =
          (i + 1) * kisRealtimePriceFields.length := by
        rw [List.length_append, List.length_map, hlength, hdone, Nat.succ_mul]
      obtain ⟨prices, hprices, hshows⟩ := ih hnext (Nat.le_of_succ_le_succ hcount)
      obtain ⟨price, hprice, hvalues⟩ := KisRealtimePrice.exists_fromFields
        (le_of_eq (hlength.symm : KisRealtimePrice.modelFields.length = _))
      refine ⟨price :: prices, ?_, .cons (shows_of_values hvalues) hshows⟩
      have hfields : ((record :: records).flatMap PriceRecord.fields).map String.toList ++ rest =
          record.fields.map String.toList ++
            ((records.flatMap PriceRecord.fields).map String.toList ++ rest) := by
        simp
      have hlong : ¬ (done ++ (record.fields.map String.toList ++
          ((records.flatMap PriceRecord.fields).map String.toList ++ rest))).length <
            i * kisRealtimePriceFields.length + kisRealtimePriceFields.length := by
        simp only [List.length_append, List.length_map, hlength, hdone]
        omega
      rw [List.append_assoc] at hprices
      rw [hfields, priceRecords]
      simp only [if_neg hlong, slice_record hdone, hprice, hprices]
      rfl

/-- A frame gives the records that it holds whole, if its count is no smaller and not too long. -/
theorem handleRealtimeData_frame {trId count : String} {n : ℕ} (htr : '|' ∉ trId.toList)
    (hcount : Writes count n) (hdigits : count.toList.length ≤ Python.maxStrDigits)
    (records : List PriceRecord) {rest : List String}
    (hrest : rest.length < kisRealtimePriceFields.length)
    (hcaret : ∀ field ∈ rest, '^' ∉ field.toList) (hn : records.length ≤ n) :
    ∃ prices, handleRealtimeData
        (frame trId count (records.flatMap PriceRecord.fields ++ rest)).toList = .ok prices ∧
      List.Forall₂ Shows prices records := by
  have hfields : ∀ field ∈ records.flatMap PriceRecord.fields ++ rest, '^' ∉ field.toList := by
    intro field hfield
    rcases List.mem_append.mp hfield with hmem | hmem
    · obtain ⟨record, -, hrecord⟩ := List.mem_flatMap.mp hmem
      exact record.noCaret field hrecord
    · exact hcaret field hmem
  -- the text behind the bars is split into the records and a rest that is none
  obtain ⟨short, hshort, hsplit⟩ : ∃ short : List (List Char),
      short.length < kisRealtimePriceFields.length ∧
        (['^'].intercalate ((records.flatMap PriceRecord.fields ++ rest).map String.toList)).splitOn
          '^' = (records.flatMap PriceRecord.fields).map String.toList ++ short := by
    rw [splitOn_fields hfields]
    by_cases hnil : records.flatMap PriceRecord.fields ++ rest = []
    · have hnone := (List.append_eq_nil_iff.mp hnil).1
      exact ⟨[[]], by decide, by rw [if_pos hnil, hnone]; rfl⟩
    · exact ⟨rest.map String.toList, by simpa using hrest, by rw [if_neg hnil, List.map_append]⟩
  obtain ⟨prices, hprices, hshows⟩ := priceRecords_records hshort records
    (show ([] : List (List Char)).length = 0 * kisRealtimePriceFields.length by simp)
    (show records.length ≤ (n : ℤ).toNat by simpa using hn)
  refine ⟨prices, ?_, hshows⟩
  have hplain : ['0'] ≠ ['1'] := by decide
  rw [handleRealtimeData, splitMax_frame htr hcount]
  simp only [hcount.parseInt?, if_pos hdigits, if_neg hplain, hsplit]
  exact hprices

theorem length_flatMap_fields (records : List PriceRecord) :
    (records.flatMap PriceRecord.fields).length =
      records.length * kisRealtimePriceFields.length := by
  induction records with
  | nil => simp
  | cons record records ih =>
    rw [List.flatMap_cons, List.length_append, ih, record.length_fields, List.length_cons,
      Nat.succ_mul, Nat.add_comm]

/-- All fields are those of whole records and of a rest that is none. -/
theorem exists_records {fields : List String} (h : ∀ field ∈ fields, '^' ∉ field.toList) :
    ∃ (records : List PriceRecord) (rest : List String),
      fields = records.flatMap PriceRecord.fields ++ rest ∧
        rest.length < kisRealtimePriceFields.length := by
  induction hlength : fields.length using Nat.strong_induction_on generalizing fields with
  | _ n ih =>
    by_cases hshort : fields.length < kisRealtimePriceFields.length
    · exact ⟨[], fields, rfl, hshort⟩
    · have hpos : 0 < kisRealtimePriceFields.length := by decide
      let record : PriceRecord :=
        { fields := fields.take kisRealtimePriceFields.length
          length_fields := List.length_take_of_le (not_lt.mp hshort)
          noCaret := fun field hfield => h field (List.mem_of_mem_take hfield) }
      have hdrop : (fields.drop kisRealtimePriceFields.length).length < n := by
        rw [List.length_drop]
        omega
      obtain ⟨records, rest, hmore, hrest⟩ :=
        ih _ hdrop (fun field hfield => h field (List.mem_of_mem_drop hfield)) rfl
      refine ⟨record :: records, rest, ?_, hrest⟩
      rw [List.flatMap_cons, List.append_assoc, ← hmore]
      exact (List.take_append_drop _ _).symm

/-- What was written is what is built, every record in order with each text under the name of its
field; and of a frame whose count is more than it holds, the records that are whole. The count has
at most as many digits as `int` takes. -/
theorem frames_decode {trId count : String} {n : ℕ} (htr : '|' ∉ trId.toList)
    (hcount : Writes count n) (hdigits : count.toList.length ≤ Python.maxStrDigits) :
    (∀ records : List PriceRecord, records.length = n →
      ∃ prices, handleRealtimeData
          (frame trId count (records.flatMap PriceRecord.fields)).toList = .ok prices ∧
        List.Forall₂ Shows prices records) ∧
      ∀ fields : List String, (∀ field ∈ fields, '^' ∉ field.toList) →
        fields.length < n * kisRealtimePriceFields.length →
          ∃ (records : List PriceRecord) (rest : List String) (prices : List KisRealtimePrice),
            fields = records.flatMap PriceRecord.fields ++ rest ∧
              rest.length < kisRealtimePriceFields.length ∧
                handleRealtimeData (frame trId count fields).toList = .ok prices ∧
                  List.Forall₂ Shows prices records := by
  constructor
  · intro records hlength
    have hempty : ([] : List String).length < kisRealtimePriceFields.length := by decide
    have hframe := handleRealtimeData_frame htr hcount hdigits records hempty (by simp) hlength.le
    simpa using hframe
  · intro fields hcaret hshort
    obtain ⟨records, rest, hfields, hrest⟩ := exists_records hcaret
    have hn : records.length ≤ n := by
      rw [hfields, List.length_append, length_flatMap_fields] at hshort
      have hlt : records.length * kisRealtimePriceFields.length <
          n * kisRealtimePriceFields.length := by omega
      exact (Nat.lt_of_mul_lt_mul_right hlt).le
    have hcaret' : ∀ field ∈ rest, '^' ∉ field.toList := by
      intro field hfield
      rw [hfields] at hcaret
      exact hcaret field (List.mem_append_right _ hfield)
    obtain ⟨prices, hprices, hshows⟩ :=
      handleRealtimeData_frame htr hcount hdigits records hrest hcaret' hn
    rw [← hfields] at hprices
    exact ⟨records, rest, prices, hfields, hrest, hprices, hshows⟩

/-- A record whose texts are the names of the fields. -/
def PriceRecord.sample : PriceRecord where
  fields := kisRealtimePriceFields
  length_fields := rfl
  noCaret := by decide +kernel

theorem writes_two : Writes "002" 2 where
  nonempty := by simp
  isDigit := by simp
  value := rfl

theorem frames_decode_sample :
    ∃ prices, handleRealtimeData
        (frame "H0STCNT0" "002" ([PriceRecord.sample, .sample].flatMap PriceRecord.fields)).toList =
          .ok prices ∧
      List.Forall₂ Shows prices [PriceRecord.sample, .sample] :=
  (frames_decode (by decide) writes_two (by decide)).1 [PriceRecord.sample, .sample] rfl

/-- A count with a digit too many ends the receive loop. -/
theorem not_succeeds_of_digits {trId count : String} {n : ℕ} (htr : '|' ∉ trId.toList)
    (hcount : Writes count n) (hdigits : Python.maxStrDigits < count.toList.length)
    (fields : List String) :
    ¬ Succeeds (handleRealtimeData (frame trId count fields).toList) := by
  rw [succeeds_handleRealtimeData_iff, HarmlessFrame, countField, splitMax_frame htr hcount]
  intro hharmless
  have hread := hharmless count.toList rfl
  rw [hcount.parseInt?, if_neg (not_le.mpr hdigits)] at hread
  cases hread

/-- A one with zeros behind it. -/
def tenPow (zeros : ℕ) : String := String.ofList ('1' :: List.replicate zeros '0')

theorem writes_tenPow (zeros : ℕ) : Writes (tenPow zeros) (10 ^ zeros) := by
  constructor
  · simp [tenPow]
  · intro c hc
    simp only [tenPow, String.toList_ofList, List.mem_cons, List.mem_replicate] at hc
    rcases hc with rfl | ⟨-, rfl⟩ <;> decide
  · rw [tenPow, String.toList_ofList, Python.digitsValue_eq, Nat.ofDigitChars_cons,
      Nat.ofDigitChars_replicate_zero]
    exact Nat.mul_one _

theorem length_tenPow (zeros : ℕ) : (tenPow zeros).toList.length = zeros + 1 := by
  simp [tenPow]

/-- The count is more than the one record of the frame, but it has a digit too many for `int`. -/
theorem longCount_raises :
    Writes (tenPow Python.maxStrDigits) (10 ^ Python.maxStrDigits) ∧
      PriceRecord.sample.fields.length <
        10 ^ Python.maxStrDigits * kisRealtimePriceFields.length ∧
        ¬ Succeeds (handleRealtimeData
          (frame "H0STCNT0" (tenPow Python.maxStrDigits) PriceRecord.sample.fields).toList) := by
  have hshort : ∀ n : ℕ, 1 < n →
      PriceRecord.sample.fields.length < n * kisRealtimePriceFields.length := by
    intro n hn
    exact (Nat.lt_mul_iff_one_lt_left (by decide)).mpr hn
  have hpow : 1 < 10 ^ Python.maxStrDigits := Nat.one_lt_pow (by decide) (by decide)
  have hdigits : Python.maxStrDigits < (tenPow Python.maxStrDigits).toList.length := by
    rw [length_tenPow]
    exact Nat.lt_succ_self _
  exact ⟨writes_tenPow _, hshort _ hpow,
    not_succeeds_of_digits (by decide) (writes_tenPow _) hdigits _⟩

end Autotrading.KISRealtimeClient
