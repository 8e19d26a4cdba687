import Autotrading.JsonText
import Mathlib.Tactic.IntervalCases

/-!
# Writing JSON texts

`json.dumps` with `ensure_ascii=False`: control characters, quotes and backslashes are escaped and
every other character is written as it is. `json.loads` reads back what was written.
-/
namespace JsonText

/-- The characters that stand for one character of a text. -/
def dumpChar (c : Char) : List Char :=
  match c with
  | '"' => ['\\', '"']
  | '\\' => ['\\', '\\']
  | '\n' => ['\\', 'n']
  | '\r' => ['\\', 'r']
  | '\t' => ['\\', 't']
  | '\x0c' => ['\\', 'f']
  | '\x08' => ['\\', 'b']
  | c =>
    if c.toNat < 32 then
      ['\\', 'u', '0', '0', Nat.digitChar (c.toNat / 16), Nat.digitChar (c.toNat % 16)]
    else [c]

def dumpText (codes : List ℕ) : List Char :=
  '"' :: codes.flatMap (fun n => dumpChar (Char.ofNat n)) ++ ['"']

/-- `int.__repr__`. -/
def dumpInt : ℤ → List Char
  | .ofNat n => Nat.toDigits 10 n
  | .negSucc n => '-' :: Nat.toDigits 10 (n + 1)

mutual

/-- `json.dumps(value, ensure_ascii=False)`. -/
def dump : Json → List Char
  | .null => ['n', 'u', 'l', 'l']
  | .bool true => ['t', 'r', 'u', 'e']
  | .bool false => ['f', 'a', 'l', 's', 'e']
  | .int n => dumpInt n
  | .float numeral => numeral
  | .str codes => dumpText codes
  | .arr [] => ['[', ']']
  | .arr (item :: items) => '[' :: dump item ++ dumpItems items ++ [']']
  | .obj [] => ['{', '}']
  | .obj ((key, value) :: members) =>
    '{' :: dumpText key ++ [':', ' '] ++ dump value ++ dumpMembers members ++ ['}']

/-- The items behind the first. -/
def dumpItems : List Json → List Char
  | [] => []
  | item :: items => [',', ' '] ++ dump item ++ dumpItems items

/-- The members behind the first. -/
def dumpMembers : List (List ℕ × Json) → List Char
  | [] => []
  | (key, value) :: members =>
    [',', ' '] ++ dumpText key ++ [':', ' '] ++ dump value ++ dumpMembers members

end

/-- A text of characters, without halves of surrogate pairs. -/
def IsText (codes : List ℕ) : Prop := ∀ n ∈ codes, n.isValidChar

/-- A value without fractions that `json.loads` can take in again, where `depth` arrays and objects
may lie in one another. -/
inductive Plain : ℕ → Json → Prop
  | null (depth : ℕ) : Plain depth .null
  | bool (depth : ℕ) (b : Bool) : Plain depth (.bool b)
  | int (depth : ℕ) {n : ℤ} (hn : (Nat.toDigits 10 n.natAbs).length ≤ maxStrDigits) :
      Plain depth (.int n)
  | str (depth : ℕ) {codes : List ℕ} (hcodes : IsText codes) : Plain depth (.str codes)
  | arr {depth : ℕ} {items : List Json} (hitems : ∀ item ∈ items, Plain depth item) :
      Plain (depth + 1) (.arr items)
  | obj {depth : ℕ} {members : List (List ℕ × Json)}
      (hkeys : ∀ member ∈ members, IsText member.1)
      (hvalues : ∀ member ∈ members, Plain depth member.2) : Plain (depth + 1) (.obj members)

/-- What can be read can be read where more may be nested. -/
theorem Plain.mono {depth depth' : ℕ} {value : Json} (h : Plain depth value)
    (hle : depth ≤ depth') : Plain depth' value := by
  induction h generalizing depth' with
  | null => exact .null depth'
  | bool _ b => exact .bool depth' b
  | int _ hn => exact .int depth' hn
  | str _ hcodes => exact .str depth' hcodes
  | arr _ ih =>
    obtain ⟨n, rfl⟩ : ∃ n, depth' = n + 1 := ⟨depth' - 1, by omega⟩
    exact .arr fun item hitem => ih item hitem (by omega)
  | obj hkeys _ ih =>
    obtain ⟨n, rfl⟩ : ∃ n, depth' = n + 1 := ⟨depth' - 1, by omega⟩
    exact .obj hkeys fun member hmember => ih member hmember (by omega)

/-! ## Texts -/

theorem hexDigit?_digitChar {n : ℕ} (h : n < 16) : hexDigit? (Nat.digitChar n) = some n := by
  interval_cases n <;> decide

/-- A scanned character that is neither a quote nor a backslash stands for itself. -/
theorem scanUnits_plain {c : Char} {text units rest} (hquote : c ≠ '"') (hback : c ≠ '\\')
    (hcontrol : ¬ c.toNat < 32) (h : scanUnits text = .ok (units, rest)) :
    scanUnits (c :: text) = .ok (c.toNat :: units, rest) := by
  unfold scanUnits
  split
  · next heq => exact absurd heq (by simp)
  · next heq => exact absurd (List.cons.inj heq).1 hquote
  · next heq => exact absurd (List.cons.inj heq).1 hback
  · next heq => exact absurd (List.cons.inj heq).1 hback
  · next heq =>
    obtain ⟨rfl, rfl⟩ := List.cons.inj heq
    simp [h, hcontrol]

/-- The scanner reads one written character. -/
theorem scanUnits_dumpChar (c : Char) {text units rest}
    (h : scanUnits text = .ok (units, rest)) :
    scanUnits (dumpChar c ++ text) = .ok (c.toNat :: units, rest) := by
  unfold dumpChar
  split
  case h_8 hquote hback _ _ _ _ _ =>
    by_cases hcontrol : c.toNat < 32
    · have hhigh := hexDigit?_digitChar (n := c.toNat / 16) (by omega)
      have hlow := hexDigit?_digitChar (n := c.toNat % 16) (by omega)
      have hzero : hexDigit? '0' = some 0 := by decide
      have hvalue : hexValue? ['0', '0', Nat.digitChar (c.toNat / 16),
          Nat.digitChar (c.toNat % 16)] = some c.toNat := by
        simp only [hexValue?, List.mapM_cons, List.mapM_nil, hzero, hhigh, hlow]
        simp
        omega
      simp [hcontrol, scanUnits, hvalue, h]
    · rw [if_neg hcontrol]
      exact scanUnits_plain hquote hback hcontrol h
  all_goals simp [scanUnits, escape?, h]

theorem scanUnits_dump {codes : List ℕ} (hcodes : IsText codes) (rest : List Char) :
    scanUnits (codes.flatMap (fun n => dumpChar (Char.ofNat n)) ++ '"' :: rest) =
      .ok (codes, rest) := by
  induction codes with
  | nil => simp [scanUnits]
  | cons n codes ih =>
    have hn : n.isValidChar := hcodes n List.mem_cons_self
    have hnat : (Char.ofNat n).toNat = n := by
      rw [Char.ofNat, dif_pos hn]
      rfl
    have htail := ih fun m hm => hcodes m (List.mem_cons_of_mem n hm)
    rw [List.flatMap_cons, List.append_assoc, scanUnits_dumpChar _ htail, hnat]

theorem joinSurrogates_text {codes : List ℕ} (hcodes : IsText codes) :
    joinSurrogates codes = codes := by
  fun_induction joinSurrogates codes with
  | case1 high low rest hpair ih =>
    have hvalid : high.isValidChar := hcodes high List.mem_cons_self
    simp only [Nat.isValidChar] at hvalid
    omega
  | case2 high low rest hpair ih =>
    rw [ih fun m hm => hcodes m (List.mem_cons_of_mem high hm)]
  | case3 units h => rfl

/-- A written text is read back. -/
theorem scanString_dumpText {codes : List ℕ} (hcodes : IsText codes) (rest : List Char) :
    ∃ body, dumpText codes ++ rest = '"' :: body ∧ scanString body = .ok (codes, rest) := by
  refine ⟨codes.flatMap (fun n => dumpChar (Char.ofNat n)) ++ '"' :: rest, ?_, ?_⟩
  · simp [dumpText]
  · rw [scanString, scanUnits_dump hcodes]
    simp [Except.map, joinSurrogates_text hcodes]

/-! ## Numbers -/

/-- What may stand behind a value. -/
def Ends (rest : List Char) : Prop := ∀ c ∈ rest.head?, c = ',' ∨ c = ']' ∨ c = '}'

theorem Ends.not_digit {c : Char} {rest : List Char} (h : Ends (c :: rest)) :
    c.isDigit = false := by
  obtain rfl | rfl | rfl := h c rfl <;> rfl

theorem toDigits_head {n : ℕ} (hn : 0 < n) : ∃ c cs, Nat.toDigits 10 n = c :: cs ∧ c ≠ '0' := by
  induction n using Nat.strong_induction_on with
  | _ n ih =>
    by_cases hlt : n < 10
    · refine ⟨Nat.digitChar n, [], Nat.toDigits_of_lt_base hlt, ?_⟩
      interval_cases n <;> decide
    · obtain ⟨c, cs, hdigits, hne⟩ := ih (n / 10) (by omega) (by omega)
      refine ⟨c, cs ++ [Nat.digitChar (n % 10)], ?_, hne⟩
      rw [Nat.toDigits_of_base_le (by decide) (by omega), hdigits, List.cons_append]

theorem scanInteger_toDigits (n : ℕ) {rest : List Char} (hrest : Ends rest) :
    scanInteger (Nat.toDigits 10 n ++ rest) = some (Nat.toDigits 10 n, rest) := by
  have hspan : (Nat.toDigits 10 n ++ rest).span Char.isDigit = (Nat.toDigits 10 n, rest) := by
    have hall : ∀ c ∈ Nat.toDigits 10 n, c.isDigit = true := fun c hc =>
      Nat.isDigit_of_mem_toDigits (by decide) (by decide) hc
    have hnone : rest.takeWhile Char.isDigit = [] ∧ rest.dropWhile Char.isDigit = rest := by
      cases rest with
      | nil => exact ⟨rfl, rfl⟩
      | cons c cs =>
        have hc : ¬ c.isDigit = true := by simp [hrest.not_digit]
        exact ⟨List.takeWhile_cons_of_neg hc, List.dropWhile_cons_of_neg hc⟩
    rw [List.span_eq_takeWhile_dropWhile, List.takeWhile_append_of_pos hall,
      List.dropWhile_append_of_pos hall, hnone.1, hnone.2, List.append_nil]
  by_cases hn : n = 0
  · subst hn
    rfl
  · obtain ⟨c, cs, hdigits, hne⟩ := toDigits_head (Nat.pos_of_ne_zero hn)
    have hmem : c ∈ Nat.toDigits 10 n := by simp [hdigits]
    have hc := Nat.isDigit_of_mem_toDigits (by decide) (by decide) hmem
    rw [hdigits] at hspan ⊢
    rw [List.cons_append] at hspan ⊢
    rw [scanInteger]
    · rw [if_pos hc, hspan]
    · exact hne

theorem scanFraction_ends {rest : List Char} (hrest : Ends rest) :
    scanFraction rest = ([], rest) := by
  cases rest with
  | nil => rfl
  | cons c cs => obtain rfl | rfl | rfl := hrest c rfl <;> rfl

theorem scanExponent_ends {rest : List Char} (hrest : Ends rest) :
    scanExponent rest = ([], rest) := by
  cases rest with
  | nil => rfl
  | cons c cs =>
    have hc : ¬ (c = 'e' ∨ c = 'E') := by
      obtain rfl | rfl | rfl := hrest c rfl <;> decide
    simp [scanExponent, hc]

theorem foldl_toDigits (n : ℕ) :
    (Nat.toDigits 10 n).foldl (fun n c => 10 * n + (c.toNat - 48)) 0 = n := by
  have hfold := Nat.ofDigitChars_ten_toDigits (n := n)
  rw [Nat.ofDigitChars_eq_foldl] at hfold
  exact hfold

/-- The digits of a number are read back with the sign that stood before them. -/
theorem scanNumber_toDigits (negative : Bool) {n : ℕ} {rest : List Char}
    (hn : (Nat.toDigits 10 n).length ≤ maxStrDigits) (hrest : Ends rest) :
    scanNumber negative (Nat.toDigits 10 n ++ rest) =
      .ok (.int (if negative then -n else n), rest) := by
  have hlength : ¬ maxStrDigits < (Nat.toDigits 10 n).length := not_lt.mpr hn
  simp only [scanNumber, scanInteger_toDigits n hrest, scanFraction_ends hrest,
    scanExponent_ends hrest, and_self, if_true, if_neg hlength, foldl_toDigits]

/-- A number starts with a digit or a sign. -/
def StartsNumber (c : Char) : Prop := c = '-' ∨ c.isDigit = true

theorem dumpInt_starts (n : ℤ) : ∃ c text, dumpInt n = c :: text ∧ StartsNumber c := by
  cases n with
  | ofNat m =>
    cases hdigits : Nat.toDigits 10 m with
    | nil => exact absurd hdigits Nat.toDigits_ne_nil
    | cons c cs =>
      have hmem : c ∈ Nat.toDigits 10 m := by simp [hdigits]
      exact ⟨c, cs, hdigits, .inr (Nat.isDigit_of_mem_toDigits (by decide) (by decide) hmem)⟩
  | negSucc m => exact ⟨'-', _, rfl, .inl rfl⟩

theorem scanOnce_number {c : Char} (hc : StartsNumber c) (depth : ℕ) (text : List Char) :
    scanOnce depth (c :: text) = scanScalar (c :: text) := by
  have hquote : c ≠ '"' := by
    rintro rfl
    simp [StartsNumber] at hc
  have harr : c ≠ '[' := by
    rintro rfl
    simp [StartsNumber] at hc
  have hobj : c ≠ '{' := by
    rintro rfl
    simp [StartsNumber] at hc
  unfold scanOnce
  split
  · next heq => exact absurd (List.cons.inj heq).1 hquote
  · next heq => exact absurd (List.cons.inj heq).1 harr
  · next heq => exact absurd (List.cons.inj heq).1 hobj
  · next heq => exact absurd (List.cons.inj heq).1 harr
  · next heq => exact absurd (List.cons.inj heq).1 hobj
  · rfl

theorem scanScalar_digit {c : Char} (hc : c.isDigit = true) (text : List Char) :
    scanScalar (c :: text) = scanNumber false (c :: text) := by
  unfold scanScalar
  split
  case h_8 => rfl
  all_goals
    next heq =>
      obtain ⟨rfl, -⟩ := List.cons.inj heq
      simp at hc

theorem scanScalar_minus {c : Char} (hc : c.isDigit = true) (text : List Char) :
    scanScalar ('-' :: c :: text) = scanNumber true (c :: text) := by
  unfold scanScalar
  split
  case h_7 heq => rw [(List.cons.inj heq).2]
  case h_8 _ _ _ _ _ _ _ hminus => exact absurd rfl (hminus _)
  all_goals
    next heq =>
      obtain ⟨hhead, htail⟩ := List.cons.inj heq
      first
      | exact absurd hhead (by decide)
      | obtain ⟨rfl, -⟩ := List.cons.inj htail
        simp at hc

theorem scanOnce_dumpInt {n : ℤ} {rest : List Char} (depth : ℕ)
    (hn : (Nat.toDigits 10 n.natAbs).length ≤ maxStrDigits) (hrest : Ends rest) :
    scanOnce depth (dumpInt n ++ rest) = .ok (.int n, rest) := by
  cases n with
  | ofNat m =>
    have hread := scanNumber_toDigits false hn hrest
    have hdigit : ∀ c ∈ Nat.toDigits 10 m, c.isDigit = true := fun c hc =>
      Nat.isDigit_of_mem_toDigits (by decide) (by decide) hc
    rw [dumpInt]
    simp only [Int.ofNat_eq_natCast, Int.natAbs_natCast] at hread
    cases hdigits : Nat.toDigits 10 m with
    | nil => exact absurd hdigits Nat.toDigits_ne_nil
    | cons c cs =>
      have hc : c.isDigit = true := hdigit c (by simp [hdigits])
      rw [hdigits, List.cons_append] at hread
      rw [List.cons_append, scanOnce_number (.inr hc), scanScalar_digit hc, hread]
      simp
  | negSucc m =>
    have hread := scanNumber_toDigits true hn hrest
    simp only [Int.natAbs_negSucc] at hread
    rw [dumpInt, List.cons_append, scanOnce_number (.inl rfl)]
    cases hdigits : Nat.toDigits 10 (m + 1) with
    | nil => exact absurd hdigits Nat.toDigits_ne_nil
    | cons c cs =>
      have hmem : c ∈ Nat.toDigits 10 (m + 1) := by simp [hdigits]
      have hc := Nat.isDigit_of_mem_toDigits (by decide) (by decide) hmem
      rw [hdigits, List.cons_append] at hread
      rw [List.cons_append, scanScalar_minus hc, hread]
      rfl

/-! ## Containers -/

/-- Neither white space nor the end of a container nor a byte order mark. -/
structure Opens (c : Char) : Prop where
  space : isWhitespace c = false
  square : c ≠ ']'
  curly : c ≠ '}'
  mark : c ≠ '\ufeff'

theorem opens_of_decide {c : Char}
    (h : isWhitespace c = false ∧ c ≠ ']' ∧ c ≠ '}' ∧ c ≠ '\ufeff') : Opens c :=
  ⟨h.1, h.2.1, h.2.2.1, h.2.2.2⟩

theorem StartsNumber.opens {c : Char} (h : StartsNumber c) : Opens c := by
  have hdigit : c.isDigit = true → 48 ≤ c.toNat ∧ c.toNat ≤ 57 := by
    simp [Char.isDigit, UInt32.le_iff_toNat_le]
  cases h with
  | inl h =>
    subst h
    constructor <;> decide
  | inr h =>
    have hrange := hdigit h
    have hne : ∀ d : Char, d.toNat < 48 ∨ 57 < d.toNat → c ≠ d := by
      intro d hd he
      rw [he] at hrange
      omega
    refine ⟨?_, hne _ (.inr (by decide)), hne _ (.inr (by decide)), hne _ (.inr (by decide))⟩
    simp [isWhitespace, hne ' ' (.inl (by decide)), hne '\t' (.inl (by decide)),
      hne '\n' (.inl (by decide)), hne '\r' (.inl (by decide))]

section Containers
variable {α : Type} {scan : Scanner α} {write : α → List Char} {close : Char}

/-- The scanner reads what is written of `a`. -/
structure Reads (scan : Scanner α) (write : α → List Char) (a : α) : Prop where
  scan : ∀ rest, Ends rest → scan (write a ++ rest) = .ok (a, rest)
  starts : ∃ c text, write a = c :: text ∧ Opens c

theorem Reads.skipWhitespace {a : α} (h : Reads scan write a) (rest : List Char) :
    skipWhitespace (write a ++ rest) = write a ++ rest := by
  obtain ⟨c, text, hwrite, hopens⟩ := h.starts
  rw [hwrite, List.cons_append, JsonText.skipWhitespace,
    List.dropWhile_cons_of_neg (by simp [hopens.space])]

theorem skipWhitespace_close (hclose : close = ']' ∨ close = '}') (rest : List Char) :
    skipWhitespace (close :: rest) = close :: rest := by
  obtain rfl | rfl := hclose <;> rfl

/-- Items with commas between them are read up to the close. -/
theorem scanItems_write (hclose : close = ']' ∨ close = '}') {a : α} {items : List α}
    (ha : Reads scan write a) (hitems : ∀ b ∈ items, Reads scan write b) (fuel : ℕ)
    (hfuel : items.length < fuel) (rest : List Char) :
    scanItems scan close fuel
        (write a ++ (items.flatMap (fun b => [',', ' '] ++ write b) ++ close :: rest)) =
      .ok (a :: items, rest) := by
  have hends : Ends (close :: rest) := fun c hc => by
    obtain rfl := Option.some.inj hc
    exact .inr hclose
  induction items generalizing a fuel with
  | nil =>
    obtain ⟨fuel, rfl⟩ := Nat.exists_eq_add_of_lt hfuel
    simp only [List.flatMap_nil, List.nil_append, List.length_nil, Nat.zero_add, scanItems]
    simp [ha.scan _ hends, bind, Except.bind, skipWhitespace_close hclose, pure, Except.pure]
  | cons b items ih =>
    obtain ⟨fuel, rfl⟩ : ∃ n, fuel = n + 1 := ⟨fuel - 1, by omega⟩
    have hb := hitems b List.mem_cons_self
    have hrest := ih hb (fun d hd => hitems d (List.mem_cons_of_mem b hd)) fuel
      (by simpa using hfuel)
    have hcomma : ∀ text, Ends (',' :: text) := fun text c hc => by
      obtain rfl := Option.some.inj hc
      exact .inl rfl
    have hne : ',' ≠ close := by
      obtain rfl | rfl := hclose <;> decide
    have htext : (b :: items).flatMap (fun b => [',', ' '] ++ write b) ++ close :: rest =
        ',' :: ' ' :: (write b ++
          (items.flatMap (fun b => [',', ' '] ++ write b) ++ close :: rest)) := by simp
    have hspace : skipWhitespace (' ' :: (write b ++
        (items.flatMap (fun b => [',', ' '] ++ write b) ++ close :: rest))) =
        write b ++ (items.flatMap (fun b => [',', ' '] ++ write b) ++ close :: rest) :=
      hb.skipWhitespace _
    have hfirst : ∀ text, skipWhitespace (',' :: text) = ',' :: text := fun text => rfl
    rw [htext, scanItems, ha.scan _ (hcomma _)]
    simp only [bind, Except.bind, hfirst, if_neg hne, if_true, hspace, hrest, pure, Except.pure]

/-- What is written between the brackets. -/
def writeItems (write : α → List Char) : List α → List Char
  | [] => []
  | a :: items => write a ++ items.flatMap fun b => [',', ' '] ++ write b

theorem length_le_flatMap (f : α → List Char) (hf : ∀ a, 1 ≤ (f a).length) (items : List α) :
    items.length ≤ (items.flatMap f).length := by
  induction items with
  | nil => simp
  | cons a items ih =>
    have ha := hf a
    simp only [List.length_cons, List.flatMap_cons, List.length_append]
    omega

theorem scanContainer_write (hclose : close = ']' ∨ close = '}') {items : List α}
    (hitems : ∀ a ∈ items, Reads scan write a) (rest : List Char) :
    scanContainer scan close (writeItems write items ++ close :: rest) = .ok (items, rest) := by
  cases items with
  | nil =>
    rw [writeItems, List.nil_append, scanContainer, skipWhitespace_close hclose]
    exact if_pos rfl
  | cons a items =>
    have ha := hitems a List.mem_cons_self
    have hread := scanItems_write hclose ha fun b hb => hitems b (List.mem_cons_of_mem a hb)
    have hspace := ha.skipWhitespace (items.flatMap (fun b => [',', ' '] ++ write b) ++ close :: rest)
    obtain ⟨c, text, hwrite, hopens⟩ := ha.starts
    have hc : c ≠ close := by
      obtain rfl | rfl := hclose
      · exact hopens.square
      · exact hopens.curly
    have hlength : items.length ≤
        (items.flatMap (fun b => [',', ' '] ++ write b) ++ close :: rest).length := by
      rw [List.length_append]
      have hle := length_le_flatMap (fun b => [',', ' '] ++ write b) (fun b => by simp) items
      omega
    rw [writeItems, List.append_assoc, scanContainer, hspace, hwrite, List.cons_append]
    rw [hwrite] at hread
    simp only [if_neg hc]
    exact hread _ (by simp only [List.length_cons, List.length_append] at hlength ⊢; omega) rest

end Containers

/-- A member is read as its key and its value. -/
theorem reads_member {scan : Scanner Json} {key : List ℕ} {value : Json} (hkey : IsText key)
    (hvalue : Reads scan dump value) :
    Reads (scanMember scan) (fun member => dumpText member.1 ++ [':', ' '] ++ dump member.2)
      (key, value) := by
  constructor
  · intro rest hrest
    obtain ⟨body, hbody, hscan⟩ := scanString_dumpText hkey (':' :: ' ' :: (dump value ++ rest))
    have htext : dumpText key ++ [':', ' '] ++ dump value ++ rest = '"' :: body := by
      rw [← hbody]
      simp
    have hspace : skipWhitespace (' ' :: (dump value ++ rest)) = dump value ++ rest :=
      hvalue.skipWhitespace rest
    have hcolon : ∀ text, skipWhitespace (':' :: text) = ':' :: text := fun text => rfl
    rw [htext, scanMember, hscan]
    simp only [bind, Except.bind, hcolon, hspace, hvalue.scan rest hrest, pure, Except.pure]
  · exact ⟨'"', _, rfl, opens_of_decide (by decide)⟩

theorem dumpItems_eq (items : List Json) :
    dumpItems items = items.flatMap fun item => [',', ' '] ++ dump item := by
  induction items with
  | nil => rfl
  | cons item items ih => simp [dumpItems, ih]

theorem dumpMembers_eq (members : List (List ℕ × Json)) :
    dumpMembers members = members.flatMap fun member =>
      [',', ' '] ++ (dumpText member.1 ++ [':', ' '] ++ dump member.2) := by
  induction members with
  | nil => rfl
  | cons member members ih => simp [dumpMembers, ih]

theorem dump_arr (items : List Json) :
    dump (.arr items) = '[' :: (writeItems dump items ++ [']']) := by
  cases items with
  | nil => rfl
  | cons item items => simp [dump, writeItems, dumpItems_eq]

theorem dump_obj (members : List (List ℕ × Json)) :
    dump (.obj members) = '{' :: (writeItems
      (fun member => dumpText member.1 ++ [':', ' '] ++ dump member.2) members ++ ['}']) := by
  cases members with
  | nil => rfl
  | cons member members => simp [dump, writeItems, dumpMembers_eq]

/-! ## Values -/

/-- A plain value is read back, whatever ends it. -/
theorem reads_dump {depth : ℕ} {value : Json} (h : Plain depth value) :
    Reads (scanOnce depth) dump value := by
  induction h with
  | null depth =>
    exact ⟨fun rest _ => by cases depth <;> rfl, _, _, rfl, opens_of_decide (by decide)⟩
  | bool depth b =>
    cases b with
    | true =>
      exact ⟨fun rest _ => by cases depth <;> rfl, _, _, rfl, opens_of_decide (by decide)⟩
    | false =>
      exact ⟨fun rest _ => by cases depth <;> rfl, _, _, rfl, opens_of_decide (by decide)⟩
  | int depth hn =>
    obtain ⟨c, text, hdump, hc⟩ := dumpInt_starts _
    exact ⟨fun rest hrest => scanOnce_dumpInt depth hn hrest, c, text, hdump, hc.opens⟩
  | str depth hcodes =>
    constructor
    · intro rest _
      obtain ⟨body, hbody, hscan⟩ := scanString_dumpText hcodes rest
      rw [dump, hbody]
      cases depth <;> simp [scanOnce, hscan, Except.map]
    · exact ⟨'"', _, rfl, opens_of_decide (by decide)⟩
  | arr hitems ih =>
    constructor
    · intro rest _
      rw [dump_arr, List.cons_append, List.append_assoc, scanOnce, List.singleton_append,
        scanContainer_write (.inl rfl) ih]
      rfl
    · exact ⟨'[', _, dump_arr _, opens_of_decide (by decide)⟩
  | obj hkeys hvalues ih =>
    constructor
    · intro rest _
      have hmembers := fun member hmember => reads_member (hkeys member hmember) (ih member hmember)
      rw [dump_obj, List.cons_append, List.append_assoc, scanOnce, List.singleton_append,
        scanContainer_write (.inr rfl) hmembers]
      rfl
    · exact ⟨'{', _, dump_obj _, opens_of_decide (by decide)⟩

/-- What `json.dumps` writes of a plain value, `json.loads` reads as that value. -/
theorem loads_dump {depth : ℕ} {value : Json} (h : Plain depth value) :
    loads depth (dump value) = .ok value := by
  have hread := reads_dump h
  have hscan := hread.scan [] (by simp [Ends])
  have hspace := hread.skipWhitespace []
  rw [List.append_nil] at hscan hspace
  unfold loads
  split
  · next tail hmark =>
    obtain ⟨c, text, hdump, hopens⟩ := hread.starts
    rw [hdump] at hmark
    exact absurd (List.cons.inj hmark).1 hopens.mark
  · rw [hspace, hscan]
    rfl

end JsonText
