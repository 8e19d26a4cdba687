import Autotrading.Python
import Mathlib.Data.List.TakeDrop
import Mathlib.Tactic.FieldSimp
import Mathlib.Tactic.Linarith
import Mathlib.Tactic.NormNum
import Mathlib.Tactic.Ring

/-!
# Decimal numerals as text

What `Decimal` reads in the text of a natural number and in the text of a number with four
decimals, as `str` writes them.
-/
namespace Autotrading.Python

theorem Decimal.truncate_of_nonneg {q : ℚ} (h : 0 ≤ q) : truncate q = ⌊q⌋ := by
  rw [truncate, Int.tdiv_eq_ediv_of_nonneg (Rat.num_nonneg.mpr h), Rat.floor_def']

/-! ## Digits -/

theorem digitsValue_eq (ds : List Char) : digitsValue ds = Nat.ofDigitChars 10 ds 0 := rfl

@[simp] theorem digitsValue_toDigits (n : ℕ) : digitsValue (Nat.toDigits 10 n) = n := by
  rw [digitsValue_eq, Nat.ofDigitChars_ten_toDigits]

theorem digitsValue_append (ds es : List Char) :
    digitsValue (ds ++ es) = digitsValue ds * 10 ^ es.length + digitsValue es := by
  simp only [digitsValue_eq, Nat.ofDigitChars_append]
  rw [Nat.ofDigitChars_eq_ofDigitChars_zero]
  ring

theorem isDigit_of_mem_toDigits {n : ℕ} {c : Char} (h : c ∈ Nat.toDigits 10 n) : c.isDigit = true :=
  Nat.isDigit_of_mem_toDigits (by decide) (by decide) h

theorem toNat_of_isDigit {c : Char} (h : c.isDigit = true) : 48 ≤ c.toNat ∧ c.toNat ≤ 57 := by
  have hbounds := Char.isDigit_iff_toNat.mp h
  simpa using hbounds

/-! ## The text of a numeral -/

/-- A digit or the point. -/
def isNumberChar (c : Char) : Bool := c.isDigit || c = '.'

theorem toNat_of_isNumberChar {c : Char} (h : isNumberChar c = true) :
    c.toNat = 46 ∨ (48 ≤ c.toNat ∧ c.toNat ≤ 57) := by
  simp only [isNumberChar, Bool.or_eq_true, decide_eq_true_eq] at h
  rcases h with h | rfl
  · exact .inr (toNat_of_isDigit h)
  · exact .inl rfl

theorem not_isSpace {c : Char} (h : isNumberChar c = true) : isSpace c = false := by
  have hrange := toNat_of_isNumberChar h
  simp only [isSpace, Bool.or_eq_false_iff, Bool.and_eq_false_iff, decide_eq_false_iff_not]
  omega

theorem toLower_of_isNumberChar {c : Char} (h : isNumberChar c = true) : c.toLower = c := by
  have hrange := toNat_of_isNumberChar h
  have hlow : ¬ (c.val ≥ 'A'.val ∧ c.val ≤ 'Z'.val) := by
    intro h
    have hupper : 65 ≤ c.toNat := UInt32.le_iff_toNat_le.mp h.1
    omega
  exact dif_neg hlow

theorem ne_of_isNumberChar {c d : Char} (h : isNumberChar c = true) (hd : isNumberChar d = false) :
    c ≠ d := by
  intro heq
  rw [heq, hd] at h
  cases h

/-- Blanks, underscores and letters do not stand in a numeral. -/
theorem strip_of_isNumberChar {s : String} (h : ∀ c ∈ s.toList, isNumberChar c = true) :
    strip s = s.toList := by
  have hdrop : ∀ cs : List Char, (∀ c ∈ cs, isNumberChar c = true) → cs.dropWhile isSpace = cs := by
    intro cs hcs
    cases cs with
    | nil => rfl
    | cons c cs => rw [List.dropWhile_cons_of_neg (by simp [not_isSpace (hcs c (by simp))])]
  have hreverse : ∀ c ∈ s.toList.reverse, isNumberChar c = true := fun c hc =>
    h c (List.mem_reverse.mp hc)
  rw [strip, hdrop _ h, hdrop _ hreverse, List.reverse_reverse]

/-- `Decimal` reads a text of digits and points that starts with a digit as a numeral. -/
theorem Decimal.parse?_of_isNumberChar {s : String} {c : Char} {cs : List Char}
    (hs : s.toList = c :: cs) (hc : c.isDigit = true) (h : ∀ x ∈ s.toList, isNumberChar x = true) :
    parse? s = (numeral? s.toList).map finite := by
  have hfirst := toNat_of_isDigit hc
  have hkept : (strip s).filter (· ≠ '_') = s.toList := by
    rw [strip_of_isNumberChar h]
    exact List.filter_eq_self.mpr fun x hx =>
      decide_eq_true (ne_of_isNumberChar (h x hx) (by decide))
  have hsign : sign s.toList = (1, s.toList) := by
    rw [hs]
    unfold sign
    split
    · next heq =>
      rw [(List.cons.inj heq).1] at hc
      exact absurd hc (by decide)
    · next heq =>
      rw [(List.cons.inj heq).1] at hc
      exact absurd hc (by decide)
    · rfl
  have hlower : s.toList.map Char.toLower = c :: cs := by
    have hid : s.toList.map Char.toLower = s.toList.map id :=
      List.map_congr_left fun x hx => toLower_of_isNumberChar (h x hx)
    rw [hid, List.map_id, hs]
  have hletter : ∀ d : Char, d.isDigit = false → c ≠ d := by
    intro d hd heq
    rw [heq, hd] at hc
    cases hc
  have hdrop : (c :: cs).dropWhile (· = 's') = c :: cs :=
    List.dropWhile_cons_of_neg (by simpa using hletter 's' (by decide))
  have hwords : ¬(c :: cs = "inf".toList ∨ c :: cs = "infinity".toList) := by
    rintro (heq | heq)
    · exact hletter 'i' (by decide) (List.cons.inj heq).1
    · exact hletter 'i' (by decide) (List.cons.inj heq).1
  have hnan : ¬(c :: cs).take 3 = "nan".toList := fun heq =>
    hletter 'n' (by decide) (List.cons.inj heq).1
  unfold parse?
  rw [hkept, hsign]
  simp only [hlower, hdrop, Bool.or_eq_true, decide_eq_true_eq]
  rw [if_neg hwords, if_neg hnan]
  congr 1
  funext q
  simp

/-! ## The numerals that `str` writes -/

theorem span_isDigit {ds r : List Char} (hds : ∀ c ∈ ds, c.isDigit = true)
    (hr : ∀ c ∈ r.head?, c.isDigit = false) : (ds ++ r).span Char.isDigit = (ds, r) := by
  have hnone : r.takeWhile Char.isDigit = [] ∧ r.dropWhile Char.isDigit = r := by
    cases r with
    | nil => exact ⟨rfl, rfl⟩
    | cons c r =>
      have hc : c.isDigit = false := hr c rfl
      simp [hc]
  rw [List.span_eq_takeWhile_dropWhile, List.takeWhile_append_of_pos hds,
    List.dropWhile_append_of_pos hds, hnone.1, hnone.2, List.append_nil]

theorem span_digits {ds : List Char} (hds : ∀ c ∈ ds, c.isDigit = true) :
    ds.span Char.isDigit = (ds, []) := by
  have hspan := span_isDigit (r := []) hds (by simp)
  rwa [List.append_nil] at hspan

theorem Decimal.numeral?_digits {ds : List Char} (hne : ds ≠ []) (hds : ∀ c ∈ ds, c.isDigit = true) :
    numeral? ds = some (digitsValue ds : ℚ) := by
  unfold numeral?
  simp only [span_digits hds]
  simp [hne, scale]

theorem Decimal.numeral?_fraction {ds es : List Char} (hne : ds ≠ [])
    (hds : ∀ c ∈ ds, c.isDigit = true) (hes : ∀ c ∈ es, c.isDigit = true) :
    numeral? (ds ++ '.' :: es) = some ((digitsValue (ds ++ es) : ℚ) / 10 ^ es.length) := by
  have hpoint : ∀ c ∈ ('.' :: es).head?, c.isDigit = false := by
    intro c hc
    obtain rfl := Option.some.inj hc
    decide
  unfold numeral?
  simp only [span_isDigit hds hpoint, span_digits hes]
  have hscale : scale (digitsValue (ds ++ es)) (-es.length) =
      (digitsValue (ds ++ es) : ℚ) / 10 ^ es.length := by
    unfold scale
    by_cases hempty : es.length = 0
    · simp [hempty]
    · rw [if_neg (by omega), neg_neg, Int.toNat_natCast]
  simp [hne, hscale]

theorem toList_toString_nat (n : ℕ) : (toString n).toList = Nat.toDigits 10 n := by
  rw [Nat.toString_eq_repr, Nat.toList_repr]

theorem exists_toDigits_cons (n : ℕ) :
    ∃ c cs, Nat.toDigits 10 n = c :: cs ∧ c.isDigit = true := by
  cases hds : Nat.toDigits 10 n with
  | nil => exact absurd hds Nat.toDigits_ne_nil
  | cons c cs => exact ⟨c, cs, rfl, isDigit_of_mem_toDigits (hds ▸ List.mem_cons_self)⟩

/-- `Decimal(str(n))` is `n`. -/
theorem Decimal.parse?_toString (n : ℕ) : parse? (toString n) = some (finite n) := by
  obtain ⟨c, cs, hcs, hc⟩ := exists_toDigits_cons n
  have hdigits : ∀ x ∈ (toString n).toList, x.isDigit = true := by
    intro x hx
    rw [toList_toString_nat] at hx
    exact isDigit_of_mem_toDigits hx
  have hnumber : ∀ x ∈ (toString n).toList, isNumberChar x = true := by
    intro x hx
    simp [isNumberChar, hdigits x hx]
  rw [parse?_of_isNumberChar (by rw [toList_toString_nat, hcs]) hc hnumber, toList_toString_nat,
    numeral?_digits Nat.toDigits_ne_nil fun x hx => isDigit_of_mem_toDigits hx, digitsValue_toDigits]
  rfl

theorem toList_pushn (s : String) (c : Char) (n : ℕ) :
    (s.pushn c n).toList = s.toList ++ List.replicate n c := by
  rw [String.pushn_eq_repeat_push]
  induction n with
  | zero => simp [Nat.repeat]
  | succ n ih => simp [Nat.repeat, ih, List.replicate_succ', List.append_assoc]

/-- `str` of a column value of `n` ten-thousandths. -/
theorem toList_numericText {q : ℚ} {n : ℕ} (hq : ⌊q * 10000⌋ = n) :
    ∃ pad, (numericText (some q)).toList =
        Nat.toDigits 10 (n / 10000) ++ '.' :: (List.replicate pad '0' ++ Nat.toDigits 10 (n % 10000)) ∧
      pad + (Nat.toDigits 10 (n % 10000)).length = 4 := by
  have hlength : (Nat.toDigits 10 (n % 10000)).length ≤ 4 := by
    rw [Nat.length_toDigits_le_iff (by decide) (by decide)]
    omega
  refine ⟨4 - (Nat.toDigits 10 (n % 10000)).length, ?_, by omega⟩
  have hsign : ¬(n : ℤ) < 0 := by omega
  have hpad : (toString (n % 10000)).length = (Nat.toDigits 10 (n % 10000)).length := by
    rw [← String.length_toList, toList_toString_nat]
  have htext (t : String) : toString t = t := rfl
  unfold numericText
  simp only [hq, if_neg hsign, Int.natAbs_natCast, hpad, htext]
  simp only [String.toList_append, toList_pushn, toList_toString_nat]
  simp

/-- `Decimal` reads the text of a column value as the value, to four decimals. -/
theorem Decimal.parse?_numericText {q : ℚ} {n : ℕ} (hq : ⌊q * 10000⌋ = n) :
    parse? (numericText (some q)) = some (finite (n / 10000)) := by
  obtain ⟨pad, htext, hlength⟩ := toList_numericText hq
  obtain ⟨c, cs, hcs, hc⟩ := exists_toDigits_cons (n / 10000)
  have hint : ∀ x ∈ Nat.toDigits 10 (n / 10000), x.isDigit = true := fun x hx =>
    isDigit_of_mem_toDigits hx
  have hfrac : ∀ x ∈ List.replicate pad '0' ++ Nat.toDigits 10 (n % 10000), x.isDigit = true := by
    intro x hx
    rcases List.mem_append.mp hx with hx | hx
    · rw [List.eq_of_mem_replicate hx]
      decide
    · exact isDigit_of_mem_toDigits hx
  have hnumber : ∀ x ∈ (numericText (some q)).toList, isNumberChar x = true := by
    intro x hx
    rw [htext, List.mem_append, List.mem_cons] at hx
    rcases hx with hx | rfl | hx
    · simp [isNumberChar, hint x hx]
    · rfl
    · simp [isNumberChar, hfrac x hx]
  have hvalue : digitsValue (Nat.toDigits 10 (n / 10000) ++
      (List.replicate pad '0' ++ Nat.toDigits 10 (n % 10000))) = n := by
    have hzeros : digitsValue (List.replicate pad '0') = 0 := by
      rw [digitsValue_eq, Nat.ofDigitChars_replicate_zero]
      simp
    rw [digitsValue_append, digitsValue_append, hzeros, digitsValue_toDigits, digitsValue_toDigits,
      List.length_append, List.length_replicate, hlength]
    omega
  have hcons : (numericText (some q)).toList = c :: (cs ++ '.' :: (List.replicate pad '0' ++
      Nat.toDigits 10 (n % 10000))) := by
    rw [htext, hcs, List.cons_append]
  rw [parse?_of_isNumberChar hcons hc hnumber, htext,
    numeral?_fraction Nat.toDigits_ne_nil hint hfrac, hvalue, List.length_append,
    List.length_replicate, hlength]
  norm_num

end Autotrading.Python
