import Mathlib.Data.Rat.Floor
import Mathlib.Tactic.Common

/-!
# Python values the workers compute with

Truth values of optional text, substring tests, stripping, `int` and `Decimal` of
text, and the binding of keyword arguments to the parameters of a function.
Digits are ASCII digits throughout: the broker and the database send no others.
-/
namespace Autotrading.Python

/-- The truth value of `str | None`. -/
def truthy : Option String → Bool
  | some s => s ≠ ""
  | none => false

/-- `a or b` on optional text. -/
def orElse (a b : Option String) : Option String := if truthy a then a else b

/-- `str(x)` of optional text. -/
def str : Option String → String
  | some s => s
  | none => "None"

def isSub (sub : List Char) : List Char → Bool
  | [] => sub.isEmpty
  | c :: cs => sub.isPrefixOf (c :: cs) || isSub sub cs

/-- `sub in s`. -/
def inText (sub s : String) : Bool := isSub sub.toList s.toList

/-- `sub in s.lower()` for an ASCII `sub`. No other letter lowers to a run that
holds one of the words searched for, so lowering ASCII letters is enough. -/
def inLower (sub s : String) : Bool := isSub sub.toList (s.toList.map Char.toLower)

/-- `str.isspace` on one character. -/
def isSpace (c : Char) : Bool :=
  let n := c.toNat
  (9 ≤ n && n ≤ 13) || (28 ≤ n && n ≤ 32) || n = 0x85 || n = 0xa0 || n = 0x1680 ||
    (0x2000 ≤ n && n ≤ 0x200a) || n = 0x2028 || n = 0x2029 || n = 0x202f || n = 0x205f ||
    n = 0x3000

/-- `s.strip()`. -/
def strip (s : String) : List Char :=
  ((s.toList.dropWhile isSpace).reverse.dropWhile isSpace).reverse

def digitsValue (ds : List Char) : ℕ := ds.foldl (fun n c => 10 * n + (c.toNat - 48)) 0

/-- `s.isdigit()`. -/
def isDigits (s : List Char) : Bool := !s.isEmpty && s.all Char.isDigit

/-- A sign in front of what is left. -/
def sign : List Char → ℤ × List Char
  | '-' :: cs => (-1, cs)
  | '+' :: cs => (1, cs)
  | cs => (1, cs)

/-- Digits with single underscores between them. -/
def isNumeral : List Char → Bool
  | [] => false
  | [c] => c.isDigit
  | c :: '_' :: cs => c.isDigit && isNumeral cs
  | c :: cs => c.isDigit && isNumeral cs

/-- `int(s)` of text; `none` is a `ValueError`. -/
def int? (s : String) : Option ℤ :=
  let (sgn, cs) := sign (strip s)
  if isNumeral cs then some (sgn * digitsValue (cs.filter Char.isDigit)) else none

/-- A value of `decimal.Decimal`; numerals are exact. -/
inductive Decimal
  | finite (q : ℚ)
  | nan
  | infinity
  deriving DecidableEq

namespace Decimal

/-- `bool(d)`. -/
def isTrue : Decimal → Bool
  | finite q => q ≠ 0
  | _ => true

/-- `int(d)` of a numeral: truncation towards zero. -/
def truncate (q : ℚ) : ℤ := q.num.tdiv q.den

/-- `m * 10 ** e`. -/
def scale (m : ℕ) (e : ℤ) : ℚ :=
  if 0 ≤ e then m * 10 ^ e.toNat else m / 10 ^ (-e).toNat

/-- Digits with an optional fraction and an optional exponent. -/
def numeral? (cs : List Char) : Option ℚ :=
  let (int, rest) := cs.span Char.isDigit
  let (frac, rest) :=
    match rest with
    | '.' :: r => r.span Char.isDigit
    | _ => ([], rest)
  if int.isEmpty && frac.isEmpty then none
  else
    let m := digitsValue (int ++ frac)
    match rest with
    | [] => some (scale m (-frac.length))
    | e :: r =>
      let (sgn, ds) := sign r
      if e.toLower = 'e' && isDigits ds then some (scale m (sgn * digitsValue ds - frac.length))
      else none

/-- `Decimal(s)` of text; `none` is an `InvalidOperation`. -/
def parse? (s : String) : Option Decimal :=
  let (sgn, cs) := sign ((strip s).filter (· ≠ '_'))
  let word := cs.map Char.toLower
  if word = "inf".toList || word = "infinity".toList then some infinity
  else if word.dropWhile (· = 's') |>.take 3 |> (· = "nan".toList) then
    let diagnostic := (word.dropWhile (· = 's')).drop 3
    if (word.takeWhile (· = 's')).length ≤ 1 && diagnostic.all Char.isDigit then some nan else none
  else (numeral? cs).map fun q => finite (sgn * q)

end Decimal

/-- `to_decimal` of `app/utils/utils.py`. -/
def toDecimal : Option String → Option Decimal
  | some s => if s = "" || s = "None" then none else Decimal.parse? s
  | none => none

/-- `int(d)`. -/
def Decimal.toInt : Decimal → Except (String × String) ℤ
  | .finite q => .ok (Decimal.truncate q)
  | .nan => .error ("ValueError", "cannot convert NaN to integer")
  | .infinity => .error ("OverflowError", "cannot convert Infinity to integer")

/-- `str(d)` of a value read from a `Numeric(18, 4)` column. -/
def numericText : Option ℚ → String
  | some q =>
    let k := ⌊q * 10000⌋
    let frac := toString (k.natAbs % 10000)
    let pad := "".pushn '0' (4 - frac.length)
    let sgn := if k < 0 then "-" else ""
    let int := k.natAbs / 10000
    s!"{sgn}{int}.{pad}{frac}"
  | none => "None"

/-- `f"{seconds:.0f}"` of a count of microseconds: half seconds round to even. -/
def roundSeconds (us : ℤ) : String :=
  let q := us / 1000000
  let r := us % 1000000
  toString (if r < 500000 || (r = 500000 && q % 2 = 0) then q else q + 1)

/-- `str(uuid)`. -/
def uuidText (n : ℕ) : String :=
  let hex := (Nat.toDigits 16 n).leftpad 32 '0'
  let part (i k : ℕ) : String := String.ofList ((hex.drop i).take k)
  "-".intercalate [part 0 8, part 8 4, part 12 4, part 16 4, part 20 12]

/-- The parameters of a Python function that a call must give or may give. -/
structure Signature where
  name : String
  required : List String
  optional : List String

/-- Bind a call's keyword arguments. The error is the text of the `TypeError`. -/
def Signature.bind (f : Signature) (given : List String) : Except String Unit :=
  match given.find? (fun a => a ∉ f.required ++ f.optional) with
  | some a => .error s!"{f.name}() got an unexpected keyword argument '{a}'"
  | none =>
    match f.required.filter (fun a => a ∉ given) with
    | [] => .ok ()
    | [a] => .error s!"{f.name}() missing 1 required positional argument: '{a}'"
    | as =>
      let names := ", ".intercalate as
      .error s!"{f.name}() missing {as.length} required positional arguments: {names}"

/-- A call binds exactly when it gives every required argument and no unknown one. -/
theorem Signature.bind_ok_iff (f : Signature) (given : List String) :
    f.bind given = .ok () ↔
      (∀ a ∈ given, a ∈ f.required ++ f.optional) ∧ ∀ a ∈ f.required, a ∈ given := by
  unfold Signature.bind
  split
  · next a ha =>
    have hbad := List.find?_some ha
    have hmem := List.mem_of_find?_eq_some ha
    simp only [reduceCtorEq, false_iff, not_and]
    intro hall
    simp [hall a hmem] at hbad
  · next hnone =>
    have hall : ∀ a ∈ given, a ∈ f.required ++ f.optional := by
      intro a ha
      by_contra hbad
      exact List.find?_eq_none.mp hnone a ha (by simpa using hbad)
    have hmissing : f.required.filter (fun a => a ∉ given) = [] ↔ ∀ a ∈ f.required, a ∈ given := by
      simp [List.filter_eq_nil_iff]
    split
    · next h => exact iff_of_true rfl ⟨hall, hmissing.mp h⟩
    · next h => simp only [reduceCtorEq, false_iff, not_and, ← hmissing, h]; simp
    · next h₁ h₂ =>
      simp only [reduceCtorEq, false_iff, not_and, ← hmissing]
      intro _ h
      exact h₁ h

end Autotrading.Python
