import EventRecorder.Digits
import EventRecorder.ShortestDecimal

/-!
# Python numbers and texts

The built-in functions of Python that the extractor uses. A finite float is the
rational number it stands for, and the two zeros are one number.

`float` takes the digits and the white space of every script: it first maps them to
those of ASCII. The tables are those of Unicode 14, which Python 3.11 carries.
-/

namespace EventRecorder.Python

open CText Binary64 ShortestDecimal

/-- The exceptions the extractor can raise, by their class. Their messages are not read. -/
inductive Exception where
  | valueError
  | indexError
  | overflowError
  deriving DecidableEq

/-- A float. Of the infinite ones nothing depends on the sign, and of those that are no
number nothing on the rest. -/
inductive Double where
  | finite (number : ℚ)
  | infinite
  | nan
  deriving DecidableEq

/-- The zeros of the decimal digits outside ASCII. Nine digits follow each of them. -/
def decimalZeros : List Nat :=
  [0x660, 0x6f0, 0x7c0, 0x966, 0x9e6, 0xa66, 0xae6, 0xb66, 0xbe6, 0xc66, 0xce6, 0xd66, 0xde6,
    0xe50, 0xed0, 0xf20, 0x1040, 0x1090, 0x17e0, 0x1810, 0x1946, 0x19d0, 0x1a80, 0x1a90, 0x1b50,
    0x1bb0, 0x1c40, 0x1c50, 0xa620, 0xa8d0, 0xa900, 0xa9d0, 0xa9f0, 0xaa50, 0xabf0, 0xff10,
    0x104a0, 0x10d30, 0x11066, 0x110f0, 0x11136, 0x111d0, 0x112f0, 0x11450, 0x114d0, 0x11650,
    0x116c0, 0x11730, 0x118e0, 0x11950, 0x11c50, 0x11d50, 0x11da0, 0x16a60, 0x16ac0, 0x16b50,
    0x1d7ce, 0x1d7d8, 0x1d7e2, 0x1d7ec, 0x1d7f6, 0x1e140, 0x1e2f0, 0x1e950, 0x1fbf0]

/-- The white space outside ASCII, which is stripped like a blank. -/
def wideSpaces : List Nat :=
  [0x85, 0xa0, 0x1680, 0x2000, 0x2001, 0x2002, 0x2003, 0x2004, 0x2005, 0x2006, 0x2007, 0x2008,
    0x2009, 0x200a, 0x2028, 0x2029, 0x202f, 0x205f, 0x3000]

/-- The value of a decimal digit outside ASCII, by its distance to the zero of its
script. -/
def toDecimal (c : Char) : Option Nat :=
  (decimalZeros.find? fun first => first ≤ c.toNat ∧ c.toNat < first + 10).map (c.toNat - ·)

/-- The text that `float` parses: digits and white space are mapped to those of ASCII.
Another character outside ASCII, for which there is a question mark, is in no numeral. -/
def toAscii (text : Text) : Text :=
  text.map fun c =>
    if c.toNat < 128 then c
    else if c.toNat ∈ wideSpaces then ' '
    else
      match toDecimal c with
      | some digit => Char.ofNat ('0'.toNat + digit)
      | none => '?'

/-- An ASCII text is parsed as it is, so that the tables matter for other scripts only. -/
theorem to_ascii_self (text : Text) (ascii : ∀ c ∈ text, c.toNat < 128) : toAscii text = text := by
  rw [toAscii]
  conv_rhs => rw [← List.map_id text]
  exact List.map_congr_left fun c member => if_pos (ascii c member)

/-- What `float` strips of a text: the white space at both ends, and none of that
between. -/
def strip (text : Text) : Text := (skipSpace (skipSpace text).reverse).reverse

/-- The digits a text begins with, and the rest of it. A single underscore may
stand between two digits. -/
def scanDigits : Text → Text × Text
  | [] => ([], [])
  | c :: '_' :: d :: rest =>
    if c.isDigit ∧ d.isDigit then
      let (digits, rest) := scanDigits (d :: rest)
      (c :: digits, rest)
    else if c.isDigit then ([c], '_' :: d :: rest)
    else ([], c :: '_' :: d :: rest)
  | c :: rest =>
    if c.isDigit then
      let (digits, rest) := scanDigits rest
      (c :: digits, rest)
    else ([], c :: rest)

/-- The digits behind a point, if there is one. There may be a point without any. -/
def scanFraction : Text → Text × Text
  | '.' :: rest => scanDigits rest
  | rest => ([], rest)

/-- The exponent that ends a text, zero if nothing is left of it. What else is left
makes the text no numeral. -/
def scanExponent : Text → Option Int
  | [] => some 0
  | c :: rest =>
    let (negative, unsigned) := scanSign rest
    let (digits, rest) := scanDigits unsigned
    if (c = 'e' ∨ c = 'E') ∧ digits ≠ [] ∧ rest = [] then
      some (if negative then -ofDigits 10 digits else ofDigits 10 digits)
    else none

/-- The number a text is the numeral of, exactly and without rounding. There has to be a
digit on one side of the point. -/
def numeral (text : Text) : Option ℚ :=
  let (negative, unsigned) := scanSign (strip (toAscii text))
  let (whole, rest) := scanDigits unsigned
  let (fraction, rest) := scanFraction rest
  if whole ++ fraction = [] then none
  else
    (scanExponent rest).map fun (exponent : Int) =>
      let magnitude : ℚ := ofDigits 10 (whole ++ fraction) * 10 ^ (exponent - fraction.length)
      if negative then -magnitude else magnitude

/-- `float (text)`: the double nearest to the number of a numeral, or one of the words
for what is no finite number. -/
def float (text : Text) : Except Exception Double :=
  match numeral text with
  | some number =>
    if limit ≤ |nearest number| then .ok .infinite else .ok (.finite (nearest number))
  | none =>
    let word := (scanSign (strip (toAscii text))).2.map Char.toLower
    if word = "inf".toList ∨ word = "infinity".toList then .ok .infinite
    else if word = "nan".toList then .ok .nan
    else .error .valueError

/-- The integer next to a number on the side of zero, as converting to `int` takes it. -/
def truncate (number : ℚ) : Int := if number < 0 then ⌈number⌉ else ⌊number⌋

/-- `[int (mod[1]), abs (mod[0])]` for `mod = modf (value)`. An infinite value and one
that is no number have no integral part to convert. -/
def integerAndFraction : Double → Except Exception (Int × ℚ)
  | .finite number => .ok (truncate number, |number - truncate number|)
  | .infinite => .error .overflowError
  | .nan => .error .valueError

/-- The exponent of a numeral, in two digits or more and with a sign in any case. -/
def exponentText (exponent : Int) : Text :=
  'e' :: (if exponent < 0 then '-' else '+') :: (Nat.toDigits 10 exponent.natAbs).leftpad 2 '0'

/-- Digits with the point behind a number of them, and with zeros where there are no
digits up to it. -/
def pointed (digits : Text) (point : Int) : Text :=
  if point ≤ 0 then "0.".toList ++ List.replicate (-point).toNat '0' ++ digits
  else if digits.length ≤ point then
    digits ++ List.replicate (point - digits.length).toNat '0' ++ ".0".toList
  else digits.take point.toNat ++ '.' :: digits.drop point.toNat

/-- Digits with the point behind the first of them, or none behind a single one, and
with the exponent. -/
def scientific (digits : Text) (point : Int) : Text :=
  digits.take 1 ++ (if digits.length = 1 then [] else '.' :: digits.drop 1) ++
    exponentText (point - 1)

/-- The decimal that `str` writes a positive float as. No float needs more than
17 digits. -/
def shortestDecimal (number : ℚ) : Decimal := shortest nearest 17 number

/-- `str (number)` of a float that is not negative: its shortest decimal, in positional
notation for the usual sizes. -/
def str (number : ℚ) : Text :=
  if number = 0 then "0.0".toList
  else
    let digits := Nat.toDigits 10 (shortestDecimal number).digits
    let point := digits.length + (shortestDecimal number).place
    if -4 < point ∧ point ≤ 16 then pointed digits point else scientific digits point

/-- `int (text)`, for a text without the white space and the underscores that
Python passes over. -/
def int (text : Text) : Except Exception Int :=
  match denoted text with
  | some number => .ok number
  | none => .error .valueError

/-- `text.split (separator)[1]`, which fails if the separator does not occur. -/
def secondPiece (separator : Char) (text : Text) : Except Exception Text :=
  match (text.splitOn separator)[1]? with
  | some piece => .ok piece
  | none => .error .indexError

/-- `hex (number)`, of a number that is not negative. -/
def hex (number : Nat) : Text := "0x".toList ++ Nat.toDigits 16 number

/-- `{number:#0<width>x}`, whose width counts the prefix and the sign. -/
def prefixedHex (width : Nat) (number : Int) : Text :=
  if number < 0 then "-0x".toList ++ filled (width - 3) 16 number.natAbs
  else "0x".toList ++ filled (width - 2) 16 number.natAbs

end EventRecorder.Python
