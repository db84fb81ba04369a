import CrmEmulator.Proofs.Json.Reading
import CrmEmulator.Proofs.Text.Numeral

/-!
# CrmEmulator.Proofs.Json.Tokens — written strings and numbers are read back

1. A string between quotes is read back, whatever its characters (`string?_quoted`): each character
   is read back from the way in which it is escaped, and no character is a surrogate.
2. A whole number of 64 bits is read back (`value?_int`): its digits have no leading zero, and their
   value is never cut short.
-/

namespace CrmEmulator

namespace Json

/-! ## Strings -/

/-- A hexadecimal digit is read back. -/
theorem hexValue?_hexDigit (n : Nat) : hexValue? (hexDigit n) = some (n % 16) := by
  have hall : ∀ m < 16, hexValue? (hexDigit m) = some m := by decide
  have hsame : hexDigit n = hexDigit (n % 16) := by rw [hexDigit, hexDigit, Nat.mod_mod]
  rw [hsame]
  exact hall (n % 16) (Nat.mod_lt n (by decide))

/-- A unit before what is read after it. -/
def withUnit (unit : Nat) (read : Option (List Nat × List Char)) : Option (List Nat × List Char) :=
  read.map fun (units, rest) => (unit :: units, rest)

/-- An escape of one letter is read as its unit. -/
theorem stringUnits?_letter {c : Char} {unit : Nat} (h : escapeUnit? c = some unit)
    (rest : List Char) : stringUnits? ('\\' :: c :: rest) = withUnit unit (stringUnits? rest) := by
  rw [stringUnits?, h]
  · cases stringUnits? rest <;> rfl
  · rintro _ _ _ _ _ rfl
    cases h

/-- An escape of four digits is read as its unit. -/
theorem stringUnits?_code {a b c d : Char} {unit : Nat} (h : hexValue4? a b c d = some unit)
    (rest : List Char) :
    stringUnits? ('\\' :: 'u' :: a :: b :: c :: d :: rest) = withUnit unit (stringUnits? rest) := by
  rw [stringUnits?, h]
  cases stringUnits? rest <;> rfl

/-- Any other character that may stand in a string is read as itself. -/
theorem stringUnits?_plain {c : Char} (hquote : c ≠ '"') (hslash : c ≠ '\\')
    (hcontrol : 32 ≤ c.toNat) (rest : List Char) :
    stringUnits? (c :: rest) = withUnit c.toNat (stringUnits? rest) := by
  have hallowed : ¬(c.toNat < 32 ∨ c = '\\') := by
    rintro (hlow | heq)
    · omega
    · exact hslash heq
  rw [stringUnits?, if_neg hallowed]
  · cases stringUnits? rest <;> rfl
  · exact hquote
  · rintro _ _ _ _ _ heq
    exact absurd heq hslash
  · rintro _ _ heq
    exact absurd heq hslash

/-- A character is read back from the way in which it is written. -/
theorem stringUnits?_escapeChar (c : Char) (rest : List Char) :
    stringUnits? (escapeChar c ++ rest) = withUnit c.toNat (stringUnits? rest) := by
  unfold escapeChar
  split
  case h_1 | h_2 | h_3 | h_4 | h_5 => exact stringUnits?_letter rfl rest
  case h_6 hquote hslash _ _ _ =>
    split
    · next hback =>
      rw [hback]
      exact stringUnits?_letter rfl rest
    · split
      · next hfeed =>
        rw [hfeed]
        exact stringUnits?_letter rfl rest
      · split
        · next hcontrol =>
          -- the code of a control character has two digits
          refine stringUnits?_code ?_ rest
          have hzero : hexValue? '0' = some 0 := rfl
          have hdigits : 16 * (c.toNat / 16 % 16) + c.toNat % 16 = c.toNat := by omega
          simp [hexValue4?, hzero, hexValue?_hexDigit, hdigits]
        · next hplain => exact stringUnits?_plain hquote hslash (by omega) rest

/-- Written characters are read up to the closing quote. -/
theorem stringUnits?_written (cs rest : List Char) :
    stringUnits? (cs.flatMap escapeChar ++ '"' :: rest) = some (cs.map Char.toNat, rest) := by
  induction cs with
  | nil => rw [List.flatMap_nil, List.nil_append, stringUnits?, List.map_nil]
  | cons c cs ih =>
    rw [List.flatMap_cons, List.append_assoc, stringUnits?_escapeChar, ih]
    rfl

/-- The codes of characters are not surrogates, so none of them are joined. -/
theorem joinSurrogates?_map (cs : List Char) : joinSurrogates? (cs.map Char.toNat) = some cs := by
  have hapart : ∀ c : Char, isHighSurrogate c.toNat = false ∧ isLowSurrogate c.toNat = false := by
    intro c
    have hvalid : c.toNat < 0xd800 ∨ 0xdfff < c.toNat ∧ c.toNat < 0x110000 := c.valid
    constructor
    · rw [isHighSurrogate, Bool.and_eq_false_iff, decide_eq_false_iff_not, decide_eq_false_iff_not]
      omega
    · rw [isLowSurrogate, Bool.and_eq_false_iff, decide_eq_false_iff_not, decide_eq_false_iff_not]
      omega
  induction cs with
  | nil => rfl
  | cons c cs ih =>
    obtain ⟨hhigh, hlow⟩ := hapart c
    cases cs with
    | nil => simp [joinSurrogates?, hhigh, hlow]
    | cons d cs =>
      rw [List.map_cons, List.map_cons, joinSurrogates?]
      rw [List.map_cons] at ih
      simp [hhigh, hlow, ih]

/-- A string is read back from between its quotes. -/
theorem string?_quoted (s : String) (rest : List Char) :
    string? (s.toList.flatMap escapeChar ++ '"' :: rest) = some (s, rest) := by
  unfold string?
  rw [stringUnits?_written]
  simp [joinSurrogates?_map]

/-! ## Numbers -/

/-- What may follow a value: nothing, or what ends it. -/
inductive Ended : List Char → Prop
  | nothing : Ended []
  | comma (rest : List Char) : Ended (',' :: rest)
  | bracket (rest : List Char) : Ended (']' :: rest)
  | brace (rest : List Char) : Ended ('\x7d' :: rest)

/-! ### Digits -/

/-- A number that is not zero has no leading zero. -/
theorem head?_toDigits {n : Nat} (h : 0 < n) : (Nat.toDigits 10 n).head? ≠ some '0' := by
  induction n using Nat.strongRecOn with
  | ind n ih =>
    by_cases hsmall : n < 10
    · have hall : ∀ m < 10, 0 < m → Nat.digitChar m ≠ '0' := by decide
      rw [Nat.toDigits_of_lt_base hsmall]
      intro hzero
      exact hall n hsmall h (Option.some.inj hzero)
    · have hmore : 0 < n / 10 := by omega
      have hfirst := ih (n / 10) (by omega) hmore
      obtain ⟨c, cs, hcs, -⟩ := Numeral.toDigits_eq_cons (n / 10)
      rw [Nat.toDigits_of_base_le (by decide) (by omega), hcs]
      rw [hcs] at hfirst
      exact hfirst

/-- The digits of a number are some, and have no leading zero. -/
theorem leading_toDigits (n : Nat) :
    ¬(Nat.toDigits 10 n = [] ∨
      (Nat.toDigits 10 n).head? = some '0' ∧ Nat.toDigits 10 n ≠ ['0']) := by
  rintro (hnone | ⟨hzero, hmore⟩)
  · exact Nat.toDigits_ne_nil hnone
  · rcases Nat.eq_zero_or_pos n with rfl | hpos
    · exact hmore (Nat.toDigits_zero 10)
    · exact head?_toDigits hpos hzero

/-- The digits of a number end where the number does. -/
theorem takeWhile_toDigits (n : Nat) {rest : List Char} (h : Ended rest) :
    (Nat.toDigits 10 n ++ rest).takeWhile Char.isDigit = Nat.toDigits 10 n := by
  rw [List.takeWhile_append_of_pos fun c hc => Numeral.isDigit_of_mem_toDigits hc]
  have hnone : rest.takeWhile Char.isDigit = [] := by cases h <;> rfl
  rw [hnone, List.append_nil]

theorem dropWhile_toDigits (n : Nat) {rest : List Char} (h : Ended rest) :
    (Nat.toDigits 10 n ++ rest).dropWhile Char.isDigit = rest := by
  rw [List.dropWhile_append_of_pos fun c hc => Numeral.isDigit_of_mem_toDigits hc]
  cases h <;> rfl

/-- A natural number is read as the numeral of its digits. -/
theorem numeral?_toDigits (n : Nat) {rest : List Char} (h : Ended rest) :
    numeral? (Nat.toDigits 10 n ++ rest) =
      some (⟨false, Nat.toDigits 10 n, none, none⟩, rest) := by
  have htake := takeWhile_toDigits n h
  have hdrop := dropWhile_toDigits n h
  obtain ⟨c, cs, hcs, hc⟩ := Numeral.toDigits_eq_cons n
  unfold numeral?
  split
  next negative signless hsign =>
  split at hsign
  · next heq =>
    -- the first digit is no sign
    rw [hcs] at heq
    cases heq
    cases hc
  · cases hsign
    simp only [htake, hdrop]
    rw [if_neg (leading_toDigits n)]
    cases h <;> rfl

/-- A negative number is read as the numeral of its digits, with a sign. -/
theorem numeral?_neg_toDigits (n : Nat) {rest : List Char} (h : Ended rest) :
    numeral? ('-' :: (Nat.toDigits 10 n ++ rest)) =
      some (⟨true, Nat.toDigits 10 n, none, none⟩, rest) := by
  have htake := takeWhile_toDigits n h
  have hdrop := dropWhile_toDigits n h
  unfold numeral?
  simp only [htake, hdrop]
  rw [if_neg (leading_toDigits n)]
  cases h <;> rfl

/-- A number does not get smaller when digits are written after it. -/
theorem le_ofDigitChars (n : Nat) (cs : List Char) : n ≤ Nat.ofDigitChars 10 cs n := by
  induction cs generalizing n with
  | nil => exact Nat.le_refl n
  | cons c cs ih =>
    have hrest := ih (10 * n + digitValue c)
    calc
      n ≤ 10 * n + digitValue c := by omega
      _ ≤ Nat.ofDigitChars 10 (c :: cs) n := hrest

/-- All digits are taken where the number that they write has 64 bits. -/
theorem significand_of_lt {n : Nat} {cs : List Char} (h : Nat.ofDigitChars 10 cs n < Nat.pow 2 64) :
    significand n cs = (Nat.ofDigitChars 10 cs n, []) := by
  induction cs generalizing n with
  | nil => rfl
  | cons c cs ih =>
    have hle := le_ofDigitChars (10 * n + digitValue c) cs
    rw [significand, if_pos (Nat.lt_of_le_of_lt hle h)]
    exact ih h

/-- The digits of a number of 64 bits are its significand. -/
theorem significand_toDigits {n : Nat} (h : n < Nat.pow 2 64) :
    significand 0 (Nat.toDigits 10 n) = (n, []) := by
  have hvalue : Nat.ofDigitChars 10 (Nat.toDigits 10 n) 0 = n := Nat.ofDigitChars_ten_toDigits
  rw [← hvalue] at h
  rw [significand_of_lt h, hvalue]

theorem Numeral.value?_toDigits {n : Nat} (h : n < Nat.pow 2 64) :
    (⟨false, Nat.toDigits 10 n, none, none⟩ : Numeral).value? = some (.int n) := by
  simp only [Numeral.value?, significand_toDigits h]
  rfl

/-- The numeral of a negative 64-bit integer has that value. -/
theorem Numeral.value?_neg_toDigits {n : Nat} (hpos : 0 < n) (h : n ≤ Nat.pow 2 63) :
    (⟨true, Nat.toDigits 10 n, none, none⟩ : Numeral).value? = some (.int (-n)) := by
  have hbits : Nat.pow 2 63 < Nat.pow 2 64 := by decide
  have hsmall : ¬(n = 0 ∨ Nat.pow 2 63 < n) := by omega
  simp only [Numeral.value?, significand_toDigits (Nat.lt_of_le_of_lt h hbits)]
  rw [if_neg (fun hne => hne rfl), if_neg (by decide), if_neg hsmall]

/-! ### Texts of numbers -/

theorem toString_ofNat (n : Nat) : (toString (Int.ofNat n)).toList = Nat.toDigits 10 n := by
  simp [toString, Int.repr]

theorem toString_negSucc (n : Nat) :
    (toString (Int.negSucc n)).toList = '-' :: Nat.toDigits 10 (n + 1) := by
  simp [toString, Int.repr]

/-- A number begins with a digit or a minus sign. -/
theorem toString_eq_cons (n : Int) :
    ∃ c cs, (toString n).toList = c :: cs ∧ (c = '-' ∨ c.isDigit) := by
  cases n with
  | ofNat n =>
    obtain ⟨c, cs, hcs, hc⟩ := Numeral.toDigits_eq_cons n
    exact ⟨c, cs, (toString_ofNat n).trans hcs, .inr hc⟩
  | negSucc n => exact ⟨'-', _, toString_negSucc n, .inl rfl⟩

/-- A number begins with none of the characters that begin anything else. -/
theorem ne_of_number {c d : Char} (h : c = '-' ∨ c.isDigit) (hsign : d ≠ '-')
    (hdigit : d.isDigit = false) : c ≠ d := by
  rintro rfl
  rcases h with hminus | hdigit'
  · exact hsign hminus
  · exact Bool.false_ne_true (hdigit.symm.trans hdigit')

/-- A number does not begin with a space. -/
theorem isSpace_of_number {c : Char} (h : c = '-' ∨ c.isDigit) : isSpace c = false := by
  have hblank := ne_of_number h (d := ' ') (by decide) rfl
  have hfeed := ne_of_number h (d := '\n') (by decide) rfl
  have htab := ne_of_number h (d := '\t') (by decide) rfl
  have hreturn := ne_of_number h (d := '\r') (by decide) rfl
  simp [isSpace, hblank, hfeed, htab, hreturn]

theorem skipSpace_cons {c : Char} (h : isSpace c = false) (cs : List Char) :
    skipSpace (c :: cs) = c :: cs := by
  rw [skipSpace, List.dropWhile_cons_of_neg (by simp [h])]

/-- What begins with a digit or a minus sign is read as a number. -/
theorem value?_number {c : Char} (h : c = '-' ∨ c.isDigit) (fuel depth : Nat) (cs : List Char) :
    value? (fuel + 1) depth (c :: cs) =
      (numeral? (c :: cs)).bind fun (n, rest) => n.value?.map (·, rest) := by
  unfold value?
  rw [skipSpace_cons (isSpace_of_number h)]
  split
  case h_7 =>
    cases hread : numeral? (c :: cs) with
    | none => rfl
    | some read => cases hvalue : read.1.value? <;> simp [hvalue]
  -- every other kind of value begins with a character of its own
  all_goals
    next heq => exact absurd (List.cons.inj heq).1 (ne_of_number h (by decide) (by decide))

/-- A whole number of 64 bits is read back from its text. -/
theorem value?_int {n : Int} (hrange : (Json.int n).inRange) (fuel depth : Nat)
    {rest : List Char} (h : Ended rest) :
    value? (fuel + 1) depth ((toString n).toList ++ rest) = some (.int n, rest) := by
  -- the bounds as numbers, for the arithmetic below
  have hbound : Numeral.int64Bound = 9223372036854775808 := rfl
  have hbits : Nat.pow 2 64 = 18446744073709551616 := rfl
  have hbits' : Nat.pow 2 63 = 9223372036854775808 := rfl
  rw [inRange, Bool.and_eq_true, decide_eq_true_iff, decide_eq_true_iff] at hrange
  obtain ⟨hlow, hhigh⟩ := hrange
  cases n with
  | ofNat n =>
    have hsmall : n < Nat.pow 2 64 := by
      have hcast : Int.ofNat n = (n : Int) := rfl
      omega
    obtain ⟨c, cs, hcs, hc⟩ := Numeral.toDigits_eq_cons n
    have hread := numeral?_toDigits n h
    rw [toString_ofNat]
    rw [hcs, List.cons_append] at hread ⊢
    rw [value?_number (.inr hc), hread, ← hcs]
    show (Numeral.value? _).map _ = _
    rw [Numeral.value?_toDigits hsmall]
    rfl
  | negSucc n =>
    have hsmall : n + 1 ≤ Nat.pow 2 63 := by
      have hcast : Int.negSucc n = -((n : Int) + 1) := rfl
      omega
    rw [toString_negSucc, List.cons_append, value?_number (.inl rfl), numeral?_neg_toDigits _ h]
    show (Numeral.value? _).map _ = _
    rw [Numeral.value?_neg_toDigits (Nat.succ_pos n) hsmall]
    rfl

end Json

end CrmEmulator
