import EventRecorder.Python

/-!
# The extractor's value encoding

`to_hex_string` turns a numeral of a measurement into the eight hexadecimal
digits of a frame: four for the integral part with its sign in the least
significant bit, four for the first decimals.

Between its steps the source keeps the two parts as texts in `spl` and converts
them back. The integral part is a number here throughout; the text of the
fraction stays one, because it is cut from the text of a float.
-/

namespace EventRecorder.Extractor

open CText Binary64 Python

/-- `DEC_LENGTH`, the digits of each of the two parts. -/
def decLength : Nat := 4

/-- `rotate`, by slices of the text three times in a row, which stands for an index
modulo the length. -/
def rotate (s : Text) (r : Nat) : Text := ((s ++ s ++ s).drop (s.length + r)).take s.length

/-- `int (spl[0])`: the integral part within the range of the format. The decimals are
not clamped with it. -/
def clamped (whole : Int) : Int :=
  if 32767 < whole then 32767 else if whole < -32767 then -32767 else whole

/-- `spl[1]`: the first decimals of the fraction, as the text in which Python prints it.
From `0.9999` on it is `9999`. -/
def fractionText (fraction : ℚ) : Except Exception Text :=
  if nearest (9999 / 10000) < fraction then .ok "9999".toList
  else (secondPiece '.' (str fraction)).map (·.take 4)

/-- `Hex[0]`. The bits are rotated by one, so that the last of them, which the sign
replaces, is the one that was the first. -/
def wholeHex (whole : Int) : Text :=
  -- `{0:016b}` and `[:16]`
  let bits := (filled 16 2 whole.natAbs).take 16
  let sign := if whole < 0 then '1' else '0'
  let digits := (hex (ofDigits 2 ((rotate bits 1).dropLast ++ [sign]))).drop 2
  if digits.length < decLength then
    List.replicate (decLength - digits.length) '0' ++ digits
  else digits

/-- `Hex[1]`, with the prefix counted in the width and cut off again. -/
def fractionHex (number : Int) : Text := (prefixedHex 6 number).drop 2

/-- `to_hex_string`. The float is split into its integral part and its fraction, which
are encoded apart; whatever cannot be converted raises. -/
def toHexString (fstring : Text) : Except Exception Text := do
  let value ← float (if fstring = ".".toList then "0.0".toList else fstring)
  let (whole, fraction) ← integerAndFraction value
  let number ← fractionText fraction >>= int
  return wholeHex (clamped whole) ++ fractionHex number

/-- One step of the rotation moves the first character to the end. No other number of
steps is made. -/
theorem rotate_cons (c : Char) (rest : Text) : rotate (c :: rest) 1 = rest ++ [c] := by
  have turn : (c :: rest ++ c :: rest ++ c :: rest).drop ((c :: rest).length + 1) =
      rest ++ [c] ++ rest := by
    rw [List.append_assoc, ← List.drop_drop, List.drop_left]
    simp
  rw [rotate, turn]
  exact List.take_left' (by simp)

/-- `Hex[0]` is padded to its four digits, if it has fewer. -/
theorem padded_digits (number : Nat) (short : (Nat.toDigits 16 number).length ≤ 4) :
    (if (Nat.toDigits 16 number).length < 4 then
      List.replicate (4 - (Nat.toDigits 16 number).length) '0' ++ Nat.toDigits 16 number
    else Nat.toDigits 16 number) = filled 4 16 number := by
  split_ifs with few
  · rfl
  · have all : 4 - (Nat.toDigits 16 number).length = 0 := by omega
    rw [filled, List.leftpad, all, List.replicate_zero, List.nil_append]

/-- The digits of the integral part: its magnitude and, in the last bit, its sign. -/
theorem whole_hex_eq (whole : Int) (fits : whole.natAbs < 2 ^ 15) :
    wholeHex whole = filled 4 16 (whole.natAbs * 2 + if whole < 0 then 1 else 0) := by
  have bits : (filled 16 2 whole.natAbs).take 16 = '0' :: filled 15 2 whole.natAbs := by
    rw [filled_succ 15 2 _ (by decide) (by decide) fits, List.take_of_length_le]
    rw [List.length_cons, filled_length 15 2 _ (by decide) (by decide) fits]
  have number : ofDigits 2 ((rotate ('0' :: filled 15 2 whole.natAbs) 1).dropLast ++
      [if whole < 0 then '1' else '0']) = whole.natAbs * 2 + if whole < 0 then 1 else 0 := by
    rw [rotate_cons, List.dropLast_concat, of_digits_snoc,
      of_digits_filled 15 2 _ (by decide) (by decide)]
    split_ifs <;> rfl
  have short : (Nat.toDigits 16 (whole.natAbs * 2 + if whole < 0 then 1 else 0)).length ≤ 4 :=
    (Nat.length_toDigits_le_iff (by decide) (by decide)).mpr (by split_ifs <;> omega)
  have unprefixed (n : Nat) : (hex n).drop 2 = Nat.toDigits 16 n := rfl
  simp only [wholeHex, bits, number, unprefixed, decLength]
  exact padded_digits _ short

/-- The digits of the decimals, four of them with zeros in front. -/
theorem fraction_hex_eq (number : Nat) : fractionHex number = filled 4 16 number := by
  have nonneg : ¬ (number : Int) < 0 := by omega
  rw [fractionHex, prefixedHex, if_neg nonneg, Int.natAbs_natCast]
  rfl

/-- A numeral of a number in range is encoded part by part, from the double nearest to
that number. -/
theorem to_hex_string_eq (text : Text) (number : ℚ) (denotes : numeral text = some number)
    (finite : |nearest number| < limit) :
    toHexString text =
      (fractionText |nearest number - truncate (nearest number)| >>= int).map fun decimals =>
        wholeHex (clamped (truncate (nearest number))) ++ fractionHex decimals := by
  have digits : text ≠ ".".toList := by
    rintro rfl
    cases denotes
  have value : float text = .ok (.finite (nearest number)) := by
    simp only [float, denotes, if_neg finite.not_ge]
  simp only [toHexString, if_neg digits, value, integerAndFraction]
  rfl

end EventRecorder.Extractor
