import EventRecorder.HexValues

/-!
# The numbers that eight hexadecimal digits stand for

A word carries the sign of a number in its least significant bit and its
integral part above it; a second word carries four decimals. `hex_get_float`
goes through two static buffers, which it overwrites before it reads them. It
reads the number that the words stand for unless the integral part is a negative
zero, which loses its sign, or is too long for the numeral to take all decimals.
-/

namespace EventRecorder.DecodedValues

open Arithmetic CText Frames HexValues

/-- `float_s` and `flt`, the two static variables that a call finds as the last one left
them. -/
structure HexBuffers where
  floatS : Text
  size : floatS.length = floatStrLength
  flt : Nat × Nat

/-- Their values at process start, when static variables are zero. -/
def HexBuffers.initial : HexBuffers :=
  ⟨List.replicate floatStrLength nul, List.length_replicate, (0, 0)⟩

/-- The result of `sscanf` and what it leaves in `flt`: entries for which nothing was
read keep their old values. -/
def scanFlt (flt : Nat × Nat) (hex : Text) : Nat × (Nat × Nat) :=
  match scanHex floatLength2 (cString hex) with
  | none => (0, flt)
  | some (first, rest) =>
    match scanHex floatLength2 rest with
    | none => (1, (first, flt.2))
    | some (second, _) => (2, (first, second))

/-- `flt` behind the sign test. Negation is that of `unsigned int`, whose result is
converted to `int` when it is printed. -/
def signedFlt (flt : Nat × Nat) (hex : Text) : Nat × Nat :=
  let (conversions, scanned) := scanFlt flt hex
  let flt := if conversions < 2 then (0, 0) else scanned
  let result := flt.1 / 2
  (if flt.1 % 2 = 1 then (-(result : Int) % 2 ^ 32).toNat else result, flt.2)

/-- `float_s` behind the print and the assignment of its last byte, which is behind the
numeral and its terminator. -/
def printedFloatS (floatS : Text) (flt : Nat × Nat) : Text :=
  let numeral := decimal (toInt flt.1) ++ '.' :: zeroPadded 4 (toInt flt.2)
  (store floatS 0 (snprintf (floatStrLength - 1) numeral ++ [nul])).set (floatStrLength - 1) '0'

/-- What is printed ends before the last byte, so that assigning this one does not
change the string. -/
theorem numeral_fits (numeral : Text) :
    0 + (snprintf (floatStrLength - 1) numeral ++ [nul]).length < floatStrLength := by
  simp only [snprintf, List.length_append, List.length_take, List.length_singleton,
    floatStrLength]
  omega

/-- The print does not change the size of `float_s`, whatever is printed. -/
theorem printed_float_s_size (buffers : HexBuffers) (flt : Nat × Nat) :
    (printedFloatS buffers.floatS flt).length = floatStrLength := by
  rw [printedFloatS, List.length_set, store_length, buffers.size]
  rw [buffers.size]
  exact (numeral_fits _).le

/-- `hex_get_float` on the buffers that earlier calls left: the value it returns and the
buffers for the next call. -/
def hexGetFloatIn {F : Type} [Arithmetic F] (buffers : HexBuffers) (hex : Text) : F × HexBuffers :=
  let flt := signedFlt buffers.flt hex
  let floatS := printedFloatS buffers.floatS flt
  (toFloat (atof (cString floatS)), ⟨floatS, printed_float_s_size buffers flt, flt⟩)

/-- Both entries of `flt` are written before they are read, with what was scanned or
with zero. -/
theorem scan_flt_eq (flt : Nat × Nat) (hex : Text) :
    (if (scanFlt flt hex).1 < 2 then (0, 0) else (scanFlt flt hex).2) = hexNumbers hex := by
  rcases scanned : scanHex floatLength2 (cString hex) with _ | ⟨first, rest⟩
  · simp [scanFlt, hexNumbers, scanned]
  · rcases behind : scanHex floatLength2 rest with _ | ⟨second, _⟩
    · simp [scanFlt, hexNumbers, scanned, behind]
    · simp [scanFlt, hexNumbers, scanned, behind]

/-- The numbers printed are those of the digits, the first with its sign. -/
theorem signed_flt_eq (flt : Nat × Nat) (hex : Text) :
    toInt (signedFlt flt hex).1 =
        toInt (if (hexNumbers hex).1 % 2 = 1 then -((hexNumbers hex).1 / 2 : Int)
          else (hexNumbers hex).1 / 2) ∧
      (signedFlt flt hex).2 = (hexNumbers hex).2 := by
  rw [← scan_flt_eq flt hex]
  refine ⟨?_, rfl⟩
  simp only [signedFlt]
  generalize (if (scanFlt flt hex).1 < 2 then (0, 0) else (scanFlt flt hex).2) = numbers
  split_ifs
  · rw [Int.toNat_of_nonneg (Int.emod_nonneg _ (by decide)), Int.natCast_ediv]
    exact Int.emod_bmod ..
  · rw [Int.natCast_ediv]
    rfl

/-- A numeral holds no terminator that would cut it off. -/
theorem nul_not_mem_decimal (value : Int) : nul ∉ decimal value := by
  rw [decimal_eq]
  have digits : nul ∉ Nat.toDigits 10 value.natAbs := fun member =>
    to_digits_all 10 value.natAbs (by decide) (· ≠ nul) (by decide) nul member rfl
  split_ifs
  · simpa using ⟨by decide, digits⟩
  · simpa using digits

/-- Zeros in front do not bring in a terminator either. -/
theorem nul_not_mem_zero_padded (width : Nat) (value : Int) : nul ∉ zeroPadded width value := by
  have zero : nul ≠ '0' := by decide
  have minus : nul ≠ '-' := by decide
  simp only [zeroPadded]
  split_ifs
  · simp [nul_not_mem_decimal, zero, minus]
  · simp [nul_not_mem_decimal, zero]

/-- A byte set behind a string's terminator does not change the string, nor does what
memory held there. -/
theorem c_string_set_behind (memory text : Text) (position : Nat) (byte : Char)
    (printable : nul ∉ text) (behind : (text ++ [nul]).length ≤ position) :
    cString ((store memory 0 (text ++ [nul])).set position byte) = text := by
  simp only [store, List.take_zero, List.nil_append]
  rw [List.set_append_right _ _ behind, List.append_assoc, List.singleton_append,
    c_string_append _ _ printable]

/-- The whole of what is printed holds no terminator of its own. -/
theorem nul_not_mem_numeral (whole decimals : Int) :
    nul ∉ decimal whole ++ '.' :: zeroPadded 4 decimals := by
  have point : nul ≠ '.' := by decide
  simp [nul_not_mem_decimal, nul_not_mem_zero_padded, point]

/-- What `atof` reads is the numeral, whatever was in `float_s`, cut to what `snprintf`
has room for. -/
theorem c_string_printed (floatS : Text) (flt : Nat × Nat) :
    cString (printedFloatS floatS flt) = snprintf (floatStrLength - 1)
      (decimal (toInt flt.1) ++ '.' :: zeroPadded 4 (toInt flt.2)) := by
  have short := numeral_fits (decimal (toInt flt.1) ++ '.' :: zeroPadded 4 (toInt flt.2))
  rw [Nat.zero_add] at short
  have printable : nul ∉ snprintf (floatStrLength - 1)
      (decimal (toInt flt.1) ++ '.' :: zeroPadded 4 (toInt flt.2)) := by
    intro member
    exact nul_not_mem_numeral _ _ (List.mem_of_mem_take member)
  exact c_string_set_behind floatS _ _ '0' printable (Nat.le_sub_one_of_lt short)

/-- A call's result does not depend on what earlier calls left. The other modules can
use the function without buffers because of it. -/
theorem hex_get_float_in {F : Type} [Arithmetic F] (buffers : HexBuffers) (hex : Text) :
    (hexGetFloatIn buffers hex : F × HexBuffers).1 = hexGetFloat hex := by
  obtain ⟨whole, decimals⟩ := signed_flt_eq buffers.flt hex
  have text : cString (printedFloatS buffers.floatS (signedFlt buffers.flt hex)) =
      floatText hex := by
    rw [c_string_printed, whole, decimals]
    simp only [floatText]
  rw [hexGetFloat, ← text]
  rfl

/-- The number that two words stand for: the first gives the sign and the integral part,
the second the decimals. -/
def represented (word decimals : Nat) : ℚ :=
  (-1) ^ (word % 2) * ((word / 2 : Nat) + decimals / 10 ^ 4)

/-- How many of four decimals find no room behind the integral part of a word:
the numeral has nine characters, one of them a point and one a sign if there is
one. -/
def noRoom (word : Nat) : Nat :=
  if word / 2 < 1000 then 0 else if word / 2 < 10000 then word % 2 else word % 2 + 1

/-- The sign of zero is not lost, and the decimals without room are zero. -/
def Representable (word decimals : Nat) : Prop :=
  (word = 1 → decimals = 0) ∧ 10 ^ noRoom word ∣ decimals

/-- The magnitude of a word's integral part does not depend on the sign bit. -/
theorem signed_part_nat_abs (word : Nat) : (signedPart word).natAbs = word / 2 := by
  rw [signedPart]
  split_ifs
  · rw [Int.natAbs_neg, Int.natAbs_natCast]
  · rw [Int.natAbs_natCast]

/-- A word stands for a negative integral part if its sign bit is set, unless that part
is zero. -/
theorem signed_part_neg_iff (word : Nat) : signedPart word < 0 ↔ word % 2 = 1 ∧ word ≠ 1 := by
  rw [signedPart]
  split_ifs <;> omega

/-- The decimals without room are those the numeral loses, by the number of digits that
its integral part takes. -/
theorem no_room_eq (word : Nat) (fits : word < 2 ^ 16) : lost (signedPart word) = noRoom word := by
  have three : (Nat.toDigits 10 (word / 2)).length ≤ 3 ↔ word / 2 < 10 ^ 3 :=
    Nat.length_toDigits_le_iff (by decide) (by decide)
  have four : (Nat.toDigits 10 (word / 2)).length ≤ 4 ↔ word / 2 < 10 ^ 4 :=
    Nat.length_toDigits_le_iff (by decide) (by decide)
  have five : (Nat.toDigits 10 (word / 2)).length ≤ 5 ↔ word / 2 < 10 ^ 5 :=
    Nat.length_toDigits_le_iff (by decide) (by decide)
  have length : (decimal (signedPart word)).length =
      (if word % 2 = 1 ∧ word ≠ 1 then 1 else 0) + (Nat.toDigits 10 (word / 2)).length := by
    rw [decimal_eq, signed_part_nat_abs, List.length_append]
    simp only [signed_part_neg_iff]
    split_ifs <;> rfl
  rw [lost, length, noRoom]
  split_ifs <;> omega

/-- Cutting decimals off leaves them as they are exactly when those cut off are zero. -/
theorem cut_eq_iff (decimals count : Nat) :
    ((decimals / 10 ^ count * 10 ^ count : Nat) : ℚ) / 10 ^ 4 = decimals / 10 ^ 4 ↔
      10 ^ count ∣ decimals := by
  rw [div_left_inj' (by norm_num), Nat.cast_inj]
  exact ⟨fun same => Dvd.intro_left _ same, Nat.div_mul_cancel⟩

/-- The digits of a number and its decimals are read as the number they stand for,
whatever earlier calls left in the buffers, exactly when it is representable.

Proof: the numeral is the one for the integral part with its sign and the decimals that
have room, so that the number read is known. Where the sign is kept, comparing it with
the number represented compares the decimals with those cut off. -/
theorem decodes_iff (buffers : HexBuffers) (first second : HexWord)
    (four : second.value ≤ 9999) :
    (hexGetFloatIn buffers (first.digits ++ second.digits)).1 =
        represented first.value second.value ↔
      Representable first.value second.value := by
  have read := hex_get_float_words first second (by omega)
  simp only [signed_part_nat_abs, no_room_eq _ first.value_lt, signed_part_neg_iff] at read
  rw [hex_get_float_in, read, represented, Representable]
  by_cases odd : first.value % 2 = 1
  · by_cases zero : first.value = 1
    · have kept : (second.value / 10 ^ noRoom 1 * 10 ^ noRoom 1 : Nat) = second.value := by
        simp [noRoom]
      have dividing : 10 ^ noRoom 1 ∣ second.value := by simp [noRoom]
      have half : ((1 / 2 : Nat) : ℚ) = 0 := by norm_num
      -- a negative zero is read as a positive one
      have opposite : (second.value : ℚ) / 10 ^ 4 = -(second.value / 10 ^ 4) ↔
          second.value = 0 := by
        rw [self_eq_neg, div_eq_zero_iff, Nat.cast_eq_zero]
        norm_num
      rw [zero, kept, half, zero_add, if_neg (by simp), one_mul, pow_one, neg_one_mul, opposite]
      simp [dividing]
    · rw [if_pos ⟨odd, zero⟩, odd, pow_one, mul_right_inj' (by norm_num), add_right_inj,
        cut_eq_iff]
      simp [zero]
  · have even : first.value % 2 = 0 := by omega
    have positive : first.value ≠ 1 := by omega
    rw [if_neg (by simp [odd]), even, pow_zero, mul_right_inj' (by norm_num), add_right_inj,
      cut_eq_iff]
    simp [positive]

/-- The largest number whose decimals all have room, with four digits in front of the
point. -/
theorem long_number_decodes :
    (hexGetFloatIn .initial "4e1e270f".toList).1 = represented 19998 9999 :=
  (decodes_iff .initial ⟨"4e1e".toList, rfl, List.all_eq_true.mp (by decide)⟩
    ⟨"270f".toList, rfl, List.all_eq_true.mp (by decide)⟩
    (by decide +kernel)).mpr ⟨by decide, by decide⟩

/-- A negative number below one is read as positive; of the largest number the last
decimal is lost. -/
theorem decoded_differs :
    (hexGetFloatIn .initial "00010005".toList).1 ≠ represented 1 5 ∧
      (hexGetFloatIn .initial "fffe270f".toList).1 ≠ represented 65534 9999 := by
  rw [hex_get_float_in, hex_get_float_in]
  decide +kernel

end EventRecorder.DecodedValues
