import EventRecorder.Digits
import EventRecorder.Frames

/-!
# The value of eight hexadecimal digits

`hex_get_float` scans two numbers of four digits and prints them as a numeral,
the first with its least significant bit as a sign, the second as four decimals.
The buffer of the numeral has room for nine characters: behind an integral part
of five characters or six, the last decimals are lost.
-/

namespace EventRecorder.HexValues

open CText Frames

/-- A hexadecimal digit is not white space, no sign and no prefix, so that a conversion
reads it as a digit. -/
theorem isxdigit_plain (c : Char) (digit : isxdigit c = true) :
    isspace c = false ∧ c ≠ '-' ∧ c ≠ '+' ∧ c ≠ 'x' ∧ c ≠ 'X' ∧ c ≠ nul := by
  refine ⟨xdigit_not_space c digit, ?_, ?_, ?_, ?_, ?_⟩
  all_goals
    rintro rfl
    cases digit

/-- `%4x` reads four digits and leaves what follows them, even if that is a digit too. -/
theorem scan_hex_digits (number rest : Text) (width : number.length = 4)
    (digit : ∀ c ∈ number, isxdigit c = true) :
    scanHex 4 (number ++ rest) = some (ofDigits 16 number % 2 ^ 32, rest) := by
  match number, width with
  | [a, b, c, d], _ =>
    obtain ⟨space, minus, plus, _⟩ := isxdigit_plain a (digit a (by simp))
    obtain ⟨_, _, _, small, large, _⟩ := isxdigit_plain b (digit b (by simp))
    have whole : [a, b, c, d].takeWhile isxdigit = [a, b, c, d] :=
      List.takeWhile_eq_self_iff.mpr digit
    have start : skipSpace ([a, b, c, d] ++ rest) = [a, b, c, d] ++ rest := by
      simp [skipSpace, space]
    have field : ([a, b, c, d] ++ rest).take 4 = [a, b, c, d] := List.take_left' rfl
    have behind : ([a, b, c, d] ++ rest).drop 4 = rest := List.drop_left' rfl
    have sign : scanSign [a, b, c, d] = (false, [a, b, c, d]) := by
      rw [scan_sign_cons, if_neg minus, if_neg plus]
    simp only [scanHex, start, field, behind, sign]
    split
    · rename_i prefixed
      exact absurd (List.cons.inj (List.cons.inj prefixed).2).1 small
    · rename_i prefixed
      exact absurd (List.cons.inj (List.cons.inj prefixed).2).1 large
    · simp [whole]

/-- Four hexadecimal digits, of either case. -/
structure HexWord where
  digits : Text
  width : digits.length = 4
  valid : ∀ c ∈ digits, isxdigit c = true

/-- The number the digits stand for, in base sixteen. -/
def HexWord.value (word : HexWord) : Nat := ofDigits 16 word.digits

/-- A hexadecimal digit is less than its base. -/
theorem digit_value_lt (c : Char) (digit : isxdigit c = true) : digitValue c < 16 := by
  rw [digitValue]
  by_cases numeric : c.isDigit = true
  · have most : c.toNat ≤ 57 := by
      have upper : c ≤ '9' := by
        simp only [Char.isDigit, Bool.and_eq_true, decide_eq_true_eq] at numeric
        exact numeric.2
      exact upper
    rw [if_pos numeric]
    omega
  · have letter : c.toLower ≤ 'f' := by
      simp only [isxdigit, numeric, Bool.false_or, Bool.and_eq_true, decide_eq_true_eq] at digit
      exact digit.2
    have most : c.toLower.toNat ≤ 102 := letter
    rw [if_neg numeric]
    omega

/-- A word has sixteen bits, and its value fits an `int` with room to spare. -/
theorem HexWord.value_lt (word : HexWord) : word.value < 2 ^ 16 := by
  have bound := of_digits_lt 16 word.digits fun c member => digit_value_lt c (word.valid c member)
  rwa [word.width] at bound

/-- The digits hold no terminator that would end the scan. -/
theorem HexWord.printable (word : HexWord) : nul ∉ word.digits := by
  intro member
  exact (isxdigit_plain nul (word.valid nul member)).2.2.2.2.2 rfl

/-- The four digits of a number, with zeros in front if it is small. -/
def HexWord.ofNumber (number : Nat) (fits : number < 16 ^ 4) : HexWord where
  digits := filled 4 16 number
  width := filled_length 4 16 number (by decide) (by decide) fits
  valid := filled_all 4 16 number (by decide) (isxdigit · = true) isxdigit_digit_char

/-- The digits are those with zeros in front. -/
@[simp] theorem HexWord.digits_of_number (number : Nat) (fits : number < 16 ^ 4) :
    (HexWord.ofNumber number fits).digits = filled 4 16 number := rfl

/-- Their value is the number again. -/
@[simp] theorem HexWord.value_of_number (number : Nat) (fits : number < 16 ^ 4) :
    (HexWord.ofNumber number fits).value = number :=
  of_digits_filled 4 16 number (by decide) (by decide)

/-- `%4x` reads a word and its value, without a reduction, as the value has sixteen
bits. -/
theorem scan_hex_word (word : HexWord) (rest : Text) :
    scanHex 4 (word.digits ++ rest) = some (word.value, rest) := by
  rw [scan_hex_digits word.digits rest word.width word.valid]
  change some (word.value % 2 ^ 32, rest) = _
  rw [Nat.mod_eq_of_lt (lt_trans word.value_lt (by decide))]

/-- The two numbers of eight digits are those of its words. -/
theorem hex_numbers_words (first second : HexWord) :
    hexNumbers (first.digits ++ second.digits) = (first.value, second.value) := by
  have printable : nul ∉ first.digits ++ second.digits := by
    rw [List.mem_append, not_or]
    exact ⟨first.printable, second.printable⟩
  have readSecond := scan_hex_word second []
  rw [List.append_nil] at readSecond
  simp only [hexNumbers, floatLength2, c_string_eq_self _ printable, scan_hex_word, readSecond]

/-- The integral part with the sign in its least significant bit. A magnitude of zero
has no sign. -/
def signedPart (word : Nat) : Int := if word % 2 = 1 then -(word / 2 : Nat) else (word / 2 : Nat)

/-- A signed number is that of its magnitude and sign bit, so that nothing is lost in
encoding it. -/
theorem signed_part_encoded (whole : Int) :
    signedPart (whole.natAbs * 2 + if whole < 0 then 1 else 0) = whole := by
  rw [signedPart]
  split_ifs <;> omega

/-- The numeral printed for two words: nine characters of the integral part, the point
and four decimals. -/
theorem float_text_words (first second : HexWord) :
    floatText (first.digits ++ second.digits) =
      (decimal (signedPart first.value) ++ '.' :: filled 4 10 second.value).take 9 := by
  have firstFits := first.value_lt
  have secondFits := second.value_lt
  have decimals : toInt second.value = second.value := Int.bmod_eq_of_le (by omega) (by omega)
  have whole : toInt (signedPart first.value) = signedPart first.value := by
    rw [signedPart]
    split_ifs
    · exact Int.bmod_eq_of_le (by omega) (by omega)
    · exact Int.bmod_eq_of_le (by omega) (by omega)
  have signed : (if first.value % 2 = 1 then -((first.value : Int) / 2)
      else (first.value : Int) / 2) = signedPart first.value := by
    rw [signedPart, Int.natCast_ediv]
    rfl
  simp only [floatText, hex_numbers_words, signed, whole, decimals, zero_padded_nat, snprintf,
    floatStrLength]

/-- The value of a numeral with a point, as the sum of both sides of it. -/
theorem decimal_numeral_pointed (text whole fraction : Text) (negative : Bool)
    (sign : scanSign text = (negative, whole ++ '.' :: fraction))
    (start : skipSpace text = text) (wholeDigits : ∀ c ∈ whole, c.isDigit = true)
    (digits : ∀ c ∈ fraction, c.isDigit = true) :
    Arithmetic.decimalNumeral text =
      (if negative then (-1 : ℚ) else 1) *
        (ofDigits 10 whole + ofDigits 10 fraction / 10 ^ fraction.length) := by
  have before : (whole ++ '.' :: fraction).takeWhile Char.isDigit = whole := by
    rw [List.takeWhile_append_of_pos wholeDigits]
    simp
  have behind : fraction.takeWhile Char.isDigit = fraction :=
    List.takeWhile_eq_self_iff.mpr digits
  have unit : (10 : ℚ) ^ fraction.length ≠ 0 := by positivity
  have value : ((ofDigits 10 (whole ++ fraction) : Nat) : ℚ) / 10 ^ fraction.length =
      ofDigits 10 whole + ofDigits 10 fraction / 10 ^ fraction.length := by
    rw [of_digits_append_eq]
    push_cast
    rw [add_div, mul_div_cancel_right₀ _ unit]
  simp only [Arithmetic.decimalNumeral, start, sign, before, List.drop_left, behind, value]
  cases negative
  · simp
  · simp

/-- The decimals that do not fit behind an integral part, by the characters of this one. -/
def lost (whole : Int) : Nat := (decimal whole).length - 4

/-- The magnitude of a number in decimal digits, behind a minus if it is negative. -/
theorem decimal_cases (whole : Int) :
    (whole < 0 ∧ decimal whole = '-' :: Nat.toDigits 10 whole.natAbs) ∨
      (0 ≤ whole ∧ decimal whole = Nat.toDigits 10 whole.natAbs) := by
  rcases lt_or_ge whole 0 with negative | nonneg
  · left
    refine ⟨negative, ?_⟩
    have same : whole = -(whole.natAbs : Int) := by omega
    rw [← decimal_neg whole.natAbs (by omega), ← same]
  · right
    refine ⟨nonneg, ?_⟩
    rw [← decimal_nat, Int.natAbs_of_nonneg nonneg]

/-- A magnitude of five digits takes six characters with its sign. -/
theorem decimal_length (whole : Int) (fits : whole.natAbs < 10 ^ 5) :
    (decimal whole).length ≤ 6 := by
  have short : (Nat.toDigits 10 whole.natAbs).length ≤ 5 :=
    (Nat.length_toDigits_le_iff (by decide) (by decide)).mpr fits
  rcases decimal_cases whole with ⟨_, same⟩ | ⟨_, same⟩
  · rw [same, List.length_cons]
    omega
  · rw [same]
    omega

/-- The numeral that is left of an integral part and four decimals: the point always is. -/
theorem numeral_cut (whole : Int) (fraction : Text) (fits : whole.natAbs < 10 ^ 5)
    (four : fraction.length = 4) :
    (decimal whole ++ '.' :: fraction).take 9 =
      decimal whole ++ '.' :: fraction.take (4 - lost whole) := by
  have length := decimal_length whole fits
  have room : 9 - (decimal whole).length = 8 - (decimal whole).length + 1 := by omega
  rw [List.take_append, List.take_of_length_le (by omega), room, List.take_succ_cons]
  by_cases short : (decimal whole).length ≤ 4
  · rw [List.take_of_length_le (by omega), List.take_of_length_le (by rw [lost]; omega)]
  · have same : 8 - (decimal whole).length = 4 - lost whole := by
      rw [lost]
      omega
    rw [same]

/-- The decimals kept are a quotient: cutting digits off is dividing by a power of ten. -/
theorem kept_decimals (decimals count : Nat) (four : decimals < 10 ^ 4) (some : count ≤ 4) :
    (ofDigits 10 ((filled 4 10 decimals).take (4 - count)) : ℚ) /
        10 ^ ((filled 4 10 decimals).take (4 - count)).length =
      (decimals / 10 ^ count * 10 ^ count : Nat) / 10 ^ 4 := by
  have length := filled_length 4 10 decimals (by decide) (by decide) four
  have valid : IsDigits 10 ((filled 4 10 decimals).drop (4 - count)) := fun c member =>
    filled_is_digits 4 10 decimals (by decide) (by decide) c (List.mem_of_mem_drop member)
  have quotient := (of_digits_split 10 ((filled 4 10 decimals).take (4 - count)) _ valid).1
  rw [List.take_append_drop, of_digits_filled 4 10 decimals (by decide) (by decide),
    List.length_drop, length, Nat.sub_sub_self some] at quotient
  have places : (10 : ℚ) ^ 4 = 10 ^ (4 - count) * 10 ^ count := by
    rw [← pow_add, Nat.sub_add_cancel some]
  have unit : (10 : ℚ) ^ count ≠ 0 := by positivity
  rw [quotient, List.length_take, length, Nat.min_eq_left (by omega), places]
  push_cast
  rw [mul_div_mul_right _ _ unit]

/-- What a numeral of a signed integral part and decimals is worth. The sign is that of
the whole. -/
theorem decimal_numeral_decimal (whole : Int) (fraction : Text)
    (digits : ∀ c ∈ fraction, c.isDigit = true) :
    Arithmetic.decimalNumeral (decimal whole ++ '.' :: fraction) =
      (if whole < 0 then (-1 : ℚ) else 1) *
        (whole.natAbs + ofDigits 10 fraction / 10 ^ fraction.length) := by
  have wholeDigits : ∀ c ∈ Nat.toDigits 10 whole.natAbs, c.isDigit = true :=
    fun c member => Nat.isDigit_of_mem_toDigits (by decide) (by decide) member
  have value := of_digits_to_digits 10 whole.natAbs (by decide) (by decide)
  rcases decimal_cases whole with ⟨negative, same⟩ | ⟨nonneg, same⟩
  · rw [same, decimal_numeral_pointed _ _ fraction true rfl rfl wholeDigits digits, value,
      if_pos negative, if_pos rfl]
  · obtain ⟨c, rest, first⟩ := List.exists_cons_of_ne_nil
      (Nat.toDigits_ne_nil : Nat.toDigits 10 whole.natAbs ≠ [])
    have digit := wholeDigits c (by simp [first])
    have sign : scanSign (Nat.toDigits 10 whole.natAbs ++ '.' :: fraction) =
        (false, Nat.toDigits 10 whole.natAbs ++ '.' :: fraction) := by
      rw [first, List.cons_append, scan_sign_digit c digit]
    have start : skipSpace (Nat.toDigits 10 whole.natAbs ++ '.' :: fraction) =
        Nat.toDigits 10 whole.natAbs ++ '.' :: fraction := by
      rw [first, List.cons_append, skipSpace, List.dropWhile_cons_of_neg]
      simp [digit_not_space c digit]
    rw [same, decimal_numeral_pointed _ _ fraction false sign start wholeDigits digits, value,
      if_neg nonneg.not_gt, if_neg Bool.false_ne_true]

/-- The value `hex_get_float` reads from two words, before it is rounded: of four
decimals it keeps those that the numeral has room for. -/
theorem hex_get_float_words (first second : HexWord) (four : second.value < 10 ^ 4) :
    let whole := signedPart first.value
    hexGetFloat (first.digits ++ second.digits) = (if whole < 0 then (-1 : ℚ) else 1) *
      (whole.natAbs + (second.value / 10 ^ lost whole * 10 ^ lost whole : Nat) / 10 ^ 4) := by
  intro whole
  have small : whole.natAbs < 10 ^ 5 := by
    have fits := first.value_lt
    rw [show whole = signedPart first.value from rfl, signedPart]
    split_ifs <;> omega
  have digits : ∀ c ∈ (filled 4 10 second.value).take (4 - lost whole), c.isDigit = true :=
    fun c member => filled_all 4 10 second.value (by decide) (·.isDigit = true) (by decide) c
      (List.mem_of_mem_take member)
  have length := decimal_length whole small
  have few : lost whole ≤ 4 := by
    rw [lost]
    omega
  have text := float_text_words first second
  rw [numeral_cut _ _ small (filled_length 4 10 _ (by decide) (by decide) four)] at text
  rw [hexGetFloat, text]
  change Arithmetic.decimalNumeral _ = _
  rw [decimal_numeral_decimal whole _ digits, kept_decimals _ (lost whole) four few]

/-- The value read for a signed integral part and four decimals, with those replaced by
zeros that had no room. -/
theorem hex_get_float_filled (whole : Int) (decimals : Nat) (fits : whole.natAbs < 2 ^ 15)
    (four : decimals < 10 ^ 4) :
    hexGetFloat (filled 4 16 (whole.natAbs * 2 + if whole < 0 then 1 else 0) ++
      filled 4 16 decimals) =
      (if whole < 0 then (-1 : ℚ) else 1) *
        (whole.natAbs + (decimals / 10 ^ lost whole * 10 ^ lost whole : Nat) / 10 ^ 4) := by
  have wordFits : whole.natAbs * 2 + (if whole < 0 then 1 else 0) < 16 ^ 4 := by
    split_ifs <;> omega
  have read := hex_get_float_words (.ofNumber _ wordFits) (.ofNumber decimals (by omega))
    (by rwa [HexWord.value_of_number])
  simpa only [HexWord.digits_of_number, HexWord.value_of_number, signed_part_encoded] using read

end EventRecorder.HexValues
