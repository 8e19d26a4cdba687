import Autotrading.DecimalText

/-!
# `int` of a text in any script

`int(s)` takes the decimal digits of every script of Unicode 15, with single
underscores between them, and at most 4300 of them.
-/
namespace Autotrading.Python

/-- The zeros of the scripts that have decimal digits; the other nine follow each. -/
def decimalZeros : List ℕ :=
  [0x30, 0x660, 0x6f0, 0x7c0, 0x966, 0x9e6, 0xa66, 0xae6, 0xb66, 0xbe6, 0xc66, 0xce6, 0xd66, 0xde6,
    0xe50, 0xed0, 0xf20, 0x1040, 0x1090, 0x17e0, 0x1810, 0x1946, 0x19d0, 0x1a80, 0x1a90, 0x1b50,
    0x1bb0, 0x1c40, 0x1c50, 0xa620, 0xa8d0, 0xa900, 0xa9d0, 0xa9f0, 0xaa50, 0xabf0, 0xff10,
    0x104a0, 0x10d30, 0x11066, 0x110f0, 0x11136, 0x111d0, 0x112f0, 0x11450, 0x114d0, 0x11650,
    0x116c0, 0x11730, 0x118e0, 0x11950, 0x11c50, 0x11d50, 0x11da0, 0x11f50, 0x16a60, 0x16ac0,
    0x16b50, 0x1d7ce, 0x1d7d8, 0x1d7e2, 0x1d7ec, 0x1d7f6, 0x1e140, 0x1e2f0, 0x1e4f0, 0x1e950,
    0x1fbf0]

/-- The value of a decimal digit. -/
def decimalDigit? (c : Char) : Option ℕ :=
  (decimalZeros.find? fun first => first ≤ c.toNat && c.toNat < first + 10).map (c.toNat - ·)

/-- The white space that `int` leaves out: that of `strip` without the four ASCII separators. -/
def isIntSpace (c : Char) : Bool := isSpace c && !(28 ≤ c.toNat && c.toNat ≤ 31)

/-- Digits with single underscores between them. -/
def groupedDigits? : List Char → Option (List ℕ)
  | [] => none
  | [c] => (decimalDigit? c).map ([·])
  | c :: '_' :: cs => do
    let digit ← decimalDigit? c
    let digits ← groupedDigits? cs
    pure (digit :: digits)
  | c :: cs => do
    let digit ← decimalDigit? c
    let digits ← groupedDigits? cs
    pure (digit :: digits)

/-- `sys.int_info.default_max_str_digits`. -/
def maxStrDigits : ℕ := 4300

/-- `int(s)`; `none` is a `ValueError`. -/
def parseInt? (s : List Char) : Option ℤ := do
  let text := ((s.dropWhile isIntSpace).reverse.dropWhile isIntSpace).reverse
  let (sgn, cs) := sign text
  let digits ← groupedDigits? cs
  if digits.length ≤ maxStrDigits then
    pure (sgn * (digits.foldl (fun n digit => 10 * n + digit) 0 : ℕ))
  else none

example : ["003", " -5\n", "１_２", "1__0", "+ 5", ""].map (parseInt? ·.toList) =
    [some 3, some (-5), some 12, none, none, none] := by
  decide +kernel

/-! ## Plain digits -/

theorem decimalDigit?_of_isDigit {c : Char} (h : c.isDigit = true) :
    decimalDigit? c = some (c.toNat - 48) := by
  have hrange := toNat_of_isDigit h
  have hzeros : decimalZeros = 48 :: decimalZeros.tail := rfl
  have hfirst : (48 ≤ c.toNat && c.toNat < 48 + 10) = true := by
    simp only [Bool.and_eq_true, decide_eq_true_eq]
    omega
  rw [decimalDigit?, hzeros, List.find?_cons, hfirst, Option.map_some]

theorem groupedDigits?_digits {text : List Char} (hne : text ≠ [])
    (h : ∀ c ∈ text, c.isDigit = true) :
    groupedDigits? text = some (text.map fun c => c.toNat - 48) := by
  induction text with
  | nil => exact absurd rfl hne
  | cons c rest ih =>
    have hc := decimalDigit?_of_isDigit (h c List.mem_cons_self)
    have hrest : ∀ d ∈ rest, d.isDigit = true := fun d hd => h d (List.mem_cons_of_mem c hd)
    cases rest with
    | nil => simp [groupedDigits?, hc]
    | cons d more =>
      have hd : d ≠ '_' := by
        rintro rfl
        exact absurd (hrest '_' List.mem_cons_self) (by decide)
      have hmore := ih (List.cons_ne_nil d more) hrest
      have hstep := groupedDigits?.eq_4 c (d :: more) (List.cons_ne_nil d more)
        fun rest heq => hd (List.cons.inj heq).1
      rw [hstep, hc, hmore]
      rfl

theorem dropWhile_isIntSpace {text : List Char} (h : ∀ c ∈ text, c.isDigit = true) :
    text.dropWhile isIntSpace = text := by
  cases text with
  | nil => rfl
  | cons c rest =>
    have hc : isSpace c = false := not_isSpace (by simp [isNumberChar, h c List.mem_cons_self])
    rw [List.dropWhile_cons_of_neg]
    simp [isIntSpace, hc]

/-- `int` reads plain digits as their number, unless there are too many. -/
theorem parseInt?_digits {text : List Char} (hne : text ≠ []) (h : ∀ c ∈ text, c.isDigit = true) :
    parseInt? text = if text.length ≤ maxStrDigits then some (digitsValue text : ℤ) else none := by
  have hrev : ∀ c ∈ text.reverse, c.isDigit = true := fun c hc => h c (List.mem_reverse.mp hc)
  have hsign : sign text = (1, text) := by
    cases text with
    | nil => rfl
    | cons c rest =>
      have hc := toNat_of_isDigit (h c List.mem_cons_self)
      unfold sign
      split
      · next heq => simp [(List.cons.inj heq).1] at hc
      · next heq => simp [(List.cons.inj heq).1] at hc
      · rfl
  have hfold : (text.map fun c => c.toNat - 48).foldl (fun n digit => 10 * n + digit) 0 =
      digitsValue text := by
    rw [List.foldl_map, digitsValue]
  have hdigits := groupedDigits?_digits hne h
  rw [parseInt?, dropWhile_isIntSpace h, dropWhile_isIntSpace hrev, List.reverse_reverse, hsign]
  simp [hdigits, hfold]

end Autotrading.Python
