import Mathlib.Data.Rat.Floor
import EventRecorder.CInput

/-!
# C floating-point arithmetic as a parameter

The recorder computes with `float` and `double`. One number type stands for the
doubles; a float is a double that `toFloat` leaves fixed, and a float operation
is the double operation rounded by `toFloat`. Nothing else is assumed of the
operations, so results over an arbitrary instance hold under any rounding.

The rational instance evaluates the model. Its rounding is the identity and its
square root is exact to six decimal places.
-/

namespace EventRecorder

open CText

universe u

/-- The operations of C arithmetic that the recorder uses. An instance says how they
round; nothing is assumed of that here. -/
class Arithmetic (F : Type u) where
  /-- A decimal constant or an integer, converted to double. -/
  lit : ℚ → F
  /-- Conversion of a double to float. -/
  toFloat : F → F
  add : F → F → F
  sub : F → F → F
  mul : F → F → F
  div : F → F → F
  neg : F → F
  sqrt : F → F
  fmax : F → F → F
  fmin : F → F → F
  lt : F → F → Bool
  /-- `(int) x`. -/
  truncate : F → Int
  /-- `%f`. -/
  render : F → Text
  atof : Text → F

namespace Arithmetic

variable {F : Type u} [Arithmetic F]

/-- A float constant, or an integer converted to float: the double of it, rounded. -/
def flit (value : ℚ) : F := toFloat (lit value)

/-- Float addition: that of doubles, rounded to float. -/
def fadd (x y : F) : F := toFloat (add x y)

/-- Float subtraction: that of doubles, rounded to float. -/
def fsub (x y : F) : F := toFloat (sub x y)

/-- Float multiplication: that of doubles, rounded to float. -/
def fmul (x y : F) : F := toFloat (mul x y)

/-- Float division: that of doubles, rounded to float. -/
def fdiv (x y : F) : F := toFloat (div x y)

/-- Square root of a non-negative rational, rounded down at six decimals. The model can
be evaluated with it; no theorem rests on how it rounds. -/
def sixDigitSqrt (value : ℚ) : ℚ := Nat.sqrt (value * 10 ^ 12).floor.toNat / 10 ^ 6

/-- `%f` of a rational: its sign, the integral part and six decimals, with halves
rounded away from zero. -/
def sixDigits (value : ℚ) : Text :=
  let scaled := (|value| * 10 ^ 6 + 1 / 2).floor.toNat
  let fraction := decimal (scaled % 10 ^ 6 : Nat)
  (if value < 0 then ['-'] else []) ++ decimal (scaled / 10 ^ 6 : Nat) ++
    '.' :: List.replicate (6 - fraction.length) '0' ++ fraction

/-- `atof` of a decimal numeral without an exponent, behind white space and a sign. Of
another text it reads as far as there are digits. -/
def decimalNumeral (text : Text) : ℚ :=
  let (negative, unsigned) := scanSign (skipSpace text)
  let whole := unsigned.takeWhile Char.isDigit
  let fraction := match unsigned.drop whole.length with
    | '.' :: rest => rest.takeWhile Char.isDigit
    | _ => []
  let value : ℚ := ofDigits 10 (whole ++ fraction) / 10 ^ fraction.length
  if negative then -value else value

/-- Exact arithmetic on the rationals. -/
instance : Arithmetic ℚ where
  lit := id
  toFloat := id
  add := (· + ·)
  sub := (· - ·)
  mul := (· * ·)
  div := (· / ·)
  neg := (- ·)
  sqrt := sixDigitSqrt
  fmax := max
  fmin := min
  lt x y := decide (x < y)
  truncate value := value.num.tdiv value.den
  render := sixDigits
  atof := decimalNumeral

end Arithmetic

end EventRecorder
