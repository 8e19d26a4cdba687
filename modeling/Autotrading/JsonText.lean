import Mathlib.Data.Int.Notation
import Mathlib.Data.List.TakeDrop
import Mathlib.Data.Nat.Notation
import Mathlib.Tactic.Common

/-!
# JSON texts

`json.loads` with its default arguments. A text is read from the left; the first
fault ends it. Texts inside a value are lists of code points, as an escape may
give half of a surrogate pair.
-/
namespace JsonText

/-- What a JSON text can hold. A number with a fraction or an exponent keeps its numeral. -/
inductive Json
  | null
  | bool (b : Bool)
  | int (n : ℤ)
  | float (numeral : List Char)
  | str (codes : List ℕ)
  | arr (items : List Json)
  | obj (members : List (List ℕ × Json))

/-- Why no value is read: the text is no JSON, an integer has too many digits, or the nesting is
too deep. -/
inductive Fault
  | decode
  | tooManyDigits
  | tooDeep
  deriving DecidableEq

/-- A value in front of the rest of a text. -/
abbrev Scanner (α : Type) := List Char → Except Fault (α × List Char)

def isWhitespace (c : Char) : Bool := c = ' ' || c = '\t' || c = '\n' || c = '\r'

def skipWhitespace (text : List Char) : List Char := text.dropWhile isWhitespace

/-! ## Texts -/

def hexDigit? (c : Char) : Option ℕ :=
  if c.isDigit then some (c.toNat - 48)
  else if 'a' ≤ c ∧ c ≤ 'f' then some (c.toNat - 87)
  else if 'A' ≤ c ∧ c ≤ 'F' then some (c.toNat - 55)
  else none

def hexValue? (digits : List Char) : Option ℕ :=
  (digits.mapM hexDigit?).map fun values => values.foldl (fun n digit => 16 * n + digit) 0

/-- The character behind a backslash. -/
def escape? : Char → Option ℕ
  | '"' => some 34
  | '\\' => some 92
  | '/' => some 47
  | 'b' => some 8
  | 'f' => some 12
  | 'n' => some 10
  | 'r' => some 13
  | 't' => some 9
  | _ => none

/-- A text up to the quote that ends it, a surrogate as it was escaped. -/
def scanUnits : Scanner (List ℕ)
  | [] => .error .decode
  | '"' :: rest => .ok ([], rest)
  | '\\' :: 'u' :: a :: b :: c :: d :: rest =>
    match hexValue? [a, b, c, d], scanUnits rest with
    | some unit, .ok (units, rest') => .ok (unit :: units, rest')
    | _, _ => .error .decode
  | '\\' :: c :: rest =>
    match escape? c, scanUnits rest with
    | some unit, .ok (units, rest') => .ok (unit :: units, rest')
    | _, _ => .error .decode
  | c :: rest =>
    match scanUnits rest with
    | .ok (units, rest') => if c.toNat < 32 then .error .decode else .ok (c.toNat :: units, rest')
    | .error fault => .error fault

/-- A high surrogate and a low one behind it are one code point. -/
def joinSurrogates : List ℕ → List ℕ
  | high :: low :: rest =>
    if 0xd800 ≤ high ∧ high < 0xdc00 ∧ 0xdc00 ≤ low ∧ low < 0xe000 then
      (0x10000 + (high - 0xd800) * 0x400 + (low - 0xdc00)) :: joinSurrogates rest
    else high :: joinSurrogates (low :: rest)
  | units => units

/-- A text behind its first quote. -/
def scanString (text : List Char) : Except Fault (List ℕ × List Char) :=
  (scanUnits text).map fun (units, rest) => (joinSurrogates units, rest)

/-! ## Numbers -/

/-- `(0|[1-9][0-9]*)`. -/
def scanInteger : List Char → Option (List Char × List Char)
  | '0' :: rest => some (['0'], rest)
  | c :: rest => if c.isDigit then some ((c :: rest).span Char.isDigit) else none
  | [] => none

/-- `(\.[0-9]+)?`. -/
def scanFraction : List Char → List Char × List Char
  | '.' :: c :: rest =>
    if c.isDigit then
      let (digits, rest) := (c :: rest).span Char.isDigit
      ('.' :: digits, rest)
    else ([], '.' :: c :: rest)
  | text => ([], text)

/-- The sign of an exponent. -/
def scanExponentSign : List Char → List Char × List Char
  | '+' :: rest => (['+'], rest)
  | '-' :: rest => (['-'], rest)
  | rest => ([], rest)

/-- `([eE][-+]?[0-9]+)?`. -/
def scanExponent : List Char → List Char × List Char
  | e :: text =>
    let (sign, rest) := scanExponentSign text
    let (digits, rest) := rest.span Char.isDigit
    if (e = 'e' ∨ e = 'E') ∧ digits ≠ [] then (e :: sign ++ digits, rest) else ([], e :: text)
  | [] => ([], [])

/-- `sys.int_info.default_max_str_digits`. -/
def maxStrDigits : ℕ := 4300

/-- A number without its sign. -/
def scanNumber (negative : Bool) (text : List Char) : Except Fault (Json × List Char) :=
  match scanInteger text with
  | none => .error .decode
  | some (integer, rest) =>
    let (fraction, rest) := scanFraction rest
    let (exponent, rest) := scanExponent rest
    if fraction = [] ∧ exponent = [] then
      if maxStrDigits < integer.length then .error .tooManyDigits
      else
        let value : ℕ := integer.foldl (fun n c => 10 * n + (c.toNat - 48)) 0
        .ok (.int (if negative then -value else value), rest)
    else .ok (.float ((if negative then ['-'] else []) ++ integer ++ fraction ++ exponent), rest)

/-- `null`, `true`, `false`, a number, and the three constants that are no JSON. -/
def scanScalar : Scanner Json
  | 'n' :: 'u' :: 'l' :: 'l' :: rest => .ok (.null, rest)
  | 't' :: 'r' :: 'u' :: 'e' :: rest => .ok (.bool true, rest)
  | 'f' :: 'a' :: 'l' :: 's' :: 'e' :: rest => .ok (.bool false, rest)
  | 'N' :: 'a' :: 'N' :: rest => .ok (.float "NaN".toList, rest)
  | 'I' :: 'n' :: 'f' :: 'i' :: 'n' :: 'i' :: 't' :: 'y' :: rest =>
    .ok (.float "Infinity".toList, rest)
  | '-' :: 'I' :: 'n' :: 'f' :: 'i' :: 'n' :: 'i' :: 't' :: 'y' :: rest =>
    .ok (.float "-Infinity".toList, rest)
  | '-' :: rest => scanNumber true rest
  | text => scanNumber false text

/-! ## Arrays and objects -/

section Containers
variable {α : Type}

/-- The items of a container up to `close`, with commas between them. Every item takes a character,
so `fuel` may be the number of characters. -/
def scanItems (scan : Scanner α) (close : Char) : ℕ → Scanner (List α)
  | 0, _ => .error .decode
  | fuel + 1, text => do
    let (item, rest) ← scan text
    match skipWhitespace rest with
    | c :: rest =>
      if c = close then pure ([item], rest)
      else if c = ',' then do
        let (items, rest) ← scanItems scan close fuel (skipWhitespace rest)
        pure (item :: items, rest)
      else throw .decode
    | [] => throw .decode

/-- A container behind the character that opens it. -/
def scanContainer (scan : Scanner α) (close : Char) (text : List Char) :
    Except Fault (List α × List Char) :=
  match skipWhitespace text with
  | c :: rest =>
    if c = close then .ok ([], rest) else scanItems scan close (c :: rest).length (c :: rest)
  | [] => .error .decode

/-- A member of an object. -/
def scanMember (scan : Scanner α) : Scanner (List ℕ × α)
  | '"' :: text => do
    let (key, rest) ← scanString text
    match skipWhitespace rest with
    | ':' :: rest => do
      let (value, rest) ← scan (skipWhitespace rest)
      pure ((key, value), rest)
    | _ => throw .decode
  | _ => .error .decode

end Containers

/-- A value, of which `depth` arrays and objects may lie in one another. -/
def scanOnce : ℕ → Scanner Json
  | _, '"' :: rest => (scanString rest).map fun (codes, rest) => (.str codes, rest)
  | 0, '[' :: _ => .error .tooDeep
  | 0, '{' :: _ => .error .tooDeep
  | depth + 1, '[' :: rest =>
    (scanContainer (scanOnce depth) ']' rest).map fun (items, rest) => (.arr items, rest)
  | depth + 1, '{' :: rest =>
    (scanContainer (scanMember (scanOnce depth)) '}' rest).map fun (members, rest) =>
      (.obj members, rest)
  | _, text => scanScalar text

/-- `json.loads(text)`, where `depth` is what the interpreter can nest. -/
def loads (depth : ℕ) (text : List Char) : Except Fault Json :=
  match text with
  | '\ufeff' :: _ => .error .decode
  | text => do
    let (value, rest) ← scanOnce depth (skipWhitespace text)
    if skipWhitespace rest = [] then pure value else throw .decode

example : loads 1 "[1, \"\\u00e9\"]".toList = .ok (.arr [.int 1, .str [233]]) := by
  rfl

/-! ## Every scanner takes a character -/

/-- What a scanner leaves is shorter than what it was given. -/
def Shortens {α : Type} (scan : Scanner α) : Prop :=
  ∀ {text value rest}, scan text = .ok (value, rest) → rest.length < text.length

theorem length_skipWhitespace_le (text : List Char) :
    (skipWhitespace text).length ≤ text.length :=
  (List.dropWhile_suffix _).length_le

/-- A text ends behind the quote. -/
theorem shortens_scanUnits : Shortens scanUnits := by
  intro text
  fun_induction scanUnits text with
  | case2 tail =>
    intro value rest h
    obtain ⟨-, rfl⟩ := Prod.mk.inj (Except.ok.inj h)
    simp
  | case3 a b c d tail unit units tail' hscan _ ih =>
    intro value rest h
    obtain ⟨-, rfl⟩ := Prod.mk.inj (Except.ok.inj h)
    have hlt := ih hscan
    simp only [List.length_cons]
    omega
  | case5 c tail _ unit units tail' hscan _ ih =>
    intro value rest h
    obtain ⟨-, rfl⟩ := Prod.mk.inj (Except.ok.inj h)
    have hlt := ih hscan
    simp only [List.length_cons]
    omega
  | case8 c tail _ _ _ units tail' hscan _ ih =>
    intro value rest h
    obtain ⟨-, rfl⟩ := Prod.mk.inj (Except.ok.inj h)
    have hlt := ih hscan
    simp only [List.length_cons]
    omega
  | case1 | case4 | case6 | case7 | case9 => simp

theorem shortens_scanString : Shortens scanString := by
  intro text codes rest h
  unfold scanString at h
  cases hunits : scanUnits text with
  | error fault => simp [hunits, Except.map] at h
  | ok scanned =>
    simp only [hunits, Except.map, Except.ok.injEq, Prod.mk.injEq] at h
    rw [← h.2]
    exact shortens_scanUnits hunits

theorem length_scanInteger_lt {text digits rest : List Char}
    (h : scanInteger text = some (digits, rest)) : rest.length < text.length := by
  unfold scanInteger at h
  split at h
  · next tail =>
    obtain ⟨rfl, rfl⟩ := Prod.mk.injEq .. ▸ Option.some.injEq .. ▸ h
    simp
  · next c tail _ =>
    by_cases hdigit : c.isDigit = true
    · simp only [hdigit, if_true, Option.some.injEq, List.span_eq_takeWhile_dropWhile,
        Prod.mk.injEq] at h
      have hle := (List.dropWhile_suffix (l := tail) Char.isDigit).length_le
      rw [← h.2, List.dropWhile_cons_of_pos hdigit, List.length_cons]
      omega
    · simp [hdigit] at h
  · cases h

theorem length_scanFraction_le (text : List Char) :
    (scanFraction text).2.length ≤ text.length := by
  unfold scanFraction
  split
  · next c tail =>
    split
    · have hle := (List.dropWhile_suffix (l := c :: tail) Char.isDigit).length_le
      simp only [List.span_eq_takeWhile_dropWhile, List.length_cons] at hle ⊢
      omega
    · exact Nat.le_refl _
  · exact Nat.le_refl _

theorem length_scanExponent_le (text : List Char) :
    (scanExponent text).2.length ≤ text.length := by
  cases text with
  | nil => exact Nat.le_refl _
  | cons e tail =>
    have hsign : (scanExponentSign tail).2.length ≤ tail.length := by
      unfold scanExponentSign
      split <;> simp
    have hdigits := (List.dropWhile_suffix (l := (scanExponentSign tail).2) Char.isDigit).length_le
    rw [scanExponent]
    simp only [List.span_eq_takeWhile_dropWhile]
    split
    · simp only [List.length_cons]
      omega
    · exact Nat.le_refl _

theorem shortens_scanNumber (negative : Bool) : Shortens (scanNumber negative) := by
  intro text value rest h
  unfold scanNumber at h
  split at h
  · cases h
  · next integer tail hinteger =>
    have hlt := length_scanInteger_lt hinteger
    have hfraction := length_scanFraction_le tail
    have hexponent := length_scanExponent_le (scanFraction tail).2
    have hrest : rest = (scanExponent (scanFraction tail).2).2 := by
      dsimp only at h
      split at h
      · split at h
        · cases h
        · exact (Prod.mk.inj (Except.ok.inj h)).2.symm
      · exact (Prod.mk.inj (Except.ok.inj h)).2.symm
    rw [hrest]
    omega

theorem shortens_scanScalar : Shortens scanScalar := by
  intro text value rest h
  unfold scanScalar at h
  split at h
  case h_7 => 
    have := shortens_scanNumber _ h
    simp only [List.length_cons]
    omega
  case h_8 => exact shortens_scanNumber _ h
  all_goals
    obtain ⟨-, rfl⟩ := Prod.mk.inj (Except.ok.inj h)
    simp only [List.length_cons]
    omega
section Containers
variable {α : Type} {scan : Scanner α} {close : Char} {fuel : ℕ} {text : List Char}

theorem shortens_scanItems (hscan : Shortens scan) : Shortens (scanItems scan close fuel) := by
  intro text items rest h
  induction fuel generalizing text items rest with
  | zero => cases h
  | succ fuel ih =>
    rw [scanItems] at h
    cases hitem : scan text with
    | error fault => simp [hitem, bind, Except.bind] at h
    | ok scanned =>
      obtain ⟨item, tail⟩ := scanned
      have hlt := hscan hitem
      have hspace := length_skipWhitespace_le tail
      simp only [hitem, bind, Except.bind] at h
      cases htail : skipWhitespace tail with
      | nil => simp [htail, throw, throwThe, MonadExceptOf.throw] at h
      | cons c tail' =>
        rw [htail, List.length_cons] at hspace
        simp only [htail] at h
        split at h
        · obtain ⟨-, rfl⟩ := Prod.mk.inj (Except.ok.inj h)
          omega
        · split at h
          · cases hrest : scanItems scan close fuel (skipWhitespace tail') with
            | error fault => simp [hrest] at h
            | ok scanned =>
              have hlt' := ih hrest
              have hspace' := length_skipWhitespace_le tail'
              simp only [hrest] at h
              obtain ⟨-, rfl⟩ := Prod.mk.inj (Except.ok.inj h)
              omega
          · cases h

theorem scanItems_fuel (hscan : Shortens scan) (hnil : scan [] = .error .decode)
    (h : text.length ≤ fuel) :
    scanItems scan close (fuel + 1) text = scanItems scan close fuel text := by
  induction fuel generalizing text with
  | zero =>
    obtain rfl := List.length_eq_zero_iff.mp (Nat.le_zero.mp h)
    simp [scanItems, hnil, bind, Except.bind]
  | succ fuel ih =>
    rw [scanItems, scanItems.eq_2]
    cases hitem : scan text with
    | error fault => rfl
    | ok scanned =>
      have hlt := hscan hitem
      have hspace := length_skipWhitespace_le scanned.2
      simp only [bind, Except.bind]
      cases htail : skipWhitespace scanned.2 with
      | nil => rfl
      | cons c tail =>
        have hspace' := length_skipWhitespace_le tail
        rw [htail, List.length_cons] at hspace
        have hih : scanItems scan close (fuel + 1) (skipWhitespace tail) =
            scanItems scan close fuel (skipWhitespace tail) := ih (by omega)
        simp only [hih]

/-- The number of characters is no limit for the items. -/
theorem scanItems_of_le (hscan : Shortens scan) (hnil : scan [] = .error .decode)
    (h : text.length ≤ fuel) :
    scanItems scan close fuel text = scanItems scan close text.length text := by
  induction h with
  | refl => rfl
  | step hle ih => rw [scanItems_fuel hscan hnil hle, ih]

theorem shortens_scanContainer (hscan : Shortens scan) : Shortens (scanContainer scan close) := by
  intro text items rest h
  have hspace := length_skipWhitespace_le text
  unfold scanContainer at h
  cases htext : skipWhitespace text with
  | nil => simp [htext] at h
  | cons c tail =>
    rw [htext, List.length_cons] at hspace
    simp only [htext] at h
    split at h
    · obtain ⟨-, rfl⟩ := Prod.mk.inj (Except.ok.inj h)
      omega
    · have hlt := shortens_scanItems hscan h
      rw [List.length_cons] at hlt
      omega

theorem shortens_scanMember (hscan : Shortens scan) : Shortens (scanMember scan) := by
  intro text entry rest h
  unfold scanMember at h
  split at h
  · next tail =>
    cases hkey : scanString tail with
    | error fault => simp [hkey, bind, Except.bind] at h
    | ok scanned =>
      have hlt := shortens_scanString hkey
      have hspace := length_skipWhitespace_le scanned.2
      simp only [hkey, bind, Except.bind] at h
      split at h
      · next tail' htail =>
        have hspace' := length_skipWhitespace_le tail'
        rw [htail, List.length_cons] at hspace
        cases hvalue : scan (skipWhitespace tail') with
        | error fault => simp [hvalue] at h
        | ok scanned' =>
          have hlt' := hscan hvalue
          simp only [hvalue] at h
          obtain ⟨-, rfl⟩ := Prod.mk.inj (Except.ok.inj h)
          rw [List.length_cons]
          omega
      · cases h
  · cases h

end Containers

theorem exists_of_map_eq_ok {α β : Type} {x : Except Fault α} {g : α → β} {b : β}
    (h : x.map g = .ok b) : ∃ a, x = .ok a ∧ g a = b := by
  cases x with
  | error fault => cases h
  | ok a => exact ⟨a, rfl, Except.ok.inj h⟩

/-- Every value takes a character. -/
theorem shortens_scanOnce (depth : ℕ) : Shortens (scanOnce depth) := by
  induction depth with
  | zero =>
    intro text value rest h
    unfold scanOnce at h
    split at h
    · next tail =>
      obtain ⟨scanned, hscan, hvalue⟩ := exists_of_map_eq_ok h
      have hlt := shortens_scanString hscan
      rw [← (Prod.mk.inj hvalue).2, List.length_cons]
      omega
    · cases h
    · cases h
    · next hdepth => cases hdepth
    · next hdepth => cases hdepth
    · exact shortens_scanScalar h
  | succ depth ih =>
    intro text value rest h
    unfold scanOnce at h
    split at h
    · next tail =>
      obtain ⟨scanned, hscan, hvalue⟩ := exists_of_map_eq_ok h
      have hlt := shortens_scanString hscan
      rw [← (Prod.mk.inj hvalue).2, List.length_cons]
      omega
    · next hdepth => cases hdepth
    · next hdepth => cases hdepth
    · next d tail hdepth =>
      obtain rfl := Nat.succ.inj hdepth
      obtain ⟨scanned, hscan, hvalue⟩ := exists_of_map_eq_ok h
      have hlt := shortens_scanContainer ih hscan
      rw [← (Prod.mk.inj hvalue).2, List.length_cons]
      omega
    · next d tail hdepth =>
      obtain rfl := Nat.succ.inj hdepth
      obtain ⟨scanned, hscan, hvalue⟩ := exists_of_map_eq_ok h
      have hlt := shortens_scanContainer (shortens_scanMember ih) hscan
      rw [← (Prod.mk.inj hvalue).2, List.length_cons]
      omega
    · exact shortens_scanScalar h

/-- So is the number of characters of an array or an object. -/
theorem scanItems_scanOnce (depth fuel : ℕ) {text : List Char} (h : text.length ≤ fuel) :
    scanItems (scanOnce depth) ']' fuel text = scanItems (scanOnce depth) ']' text.length text ∧
      scanItems (scanMember (scanOnce depth)) '}' fuel text =
        scanItems (scanMember (scanOnce depth)) '}' text.length text :=
  ⟨scanItems_of_le (shortens_scanOnce depth) (by cases depth <;> rfl) h,
    scanItems_of_le (shortens_scanMember (shortens_scanOnce depth)) rfl h⟩

end JsonText
