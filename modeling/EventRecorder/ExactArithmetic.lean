import EventRecorder.Arithmetic
import Mathlib.Algebra.Order.Floor.Ring
import Mathlib.Algebra.Order.AbsoluteValue.Basic

/-!
# Exact arithmetic

The recorder's arithmetic over any linear ordered field, without rounding and
with the square root as a parameter. The checked variant computes the same and
marks what exact arithmetic leaves undefined: a quotient by zero and the root of
a negative number are `none`, and an operation on `none` gives `none`.
-/

namespace EventRecorder.ExactArithmetic

open Arithmetic CText

universe u
variable {K : Type u} [Field K] [LinearOrder K] [FloorRing K]

/-- `(int) x`: the fraction is cut off, so that negative numbers are rounded up. -/
def cut (value : K) : Int := if 0 ≤ value then ⌊value⌋ else ⌈value⌉

/-- `%f`: the sign, and six decimals of the amount with halves away from zero. -/
def sixDecimals (value : K) : Text :=
  (if value < 0 then ['-'] else []) ++ sixDigits (⌊|value| * 10 ^ 6 + 1 / 2⌋ / 10 ^ 6)

/-- Arithmetic without rounding: a float is any element of the field, and conversion to
float changes nothing. The square root is whatever the caller supplies. -/
@[reducible] def exactArithmetic (root : K → K) : Arithmetic K where
  lit value := value
  toFloat := id
  add := (· + ·)
  sub := (· - ·)
  mul := (· * ·)
  div := (· / ·)
  neg := (- ·)
  sqrt := root
  fmax := max
  fmin := min
  lt x y := decide (x < y)
  truncate := cut
  render := sixDecimals
  atof text := decimalNumeral text

/-- Exact arithmetic that hands on `none` from every undefined operation. A run whose
members all have a value has divided by nothing but what is not zero and taken no root
of a negative number. -/
@[reducible] def checkedArithmetic (root : K → K) : Arithmetic (Option K) where
  lit value := some value
  toFloat := id
  add := Option.map₂ (· + ·)
  sub := Option.map₂ (· - ·)
  mul := Option.map₂ (· * ·)
  div dividend divisor :=
    divisor.bind fun divisor => if divisor = 0 then none else dividend.map (· / divisor)
  neg := Option.map (- ·)
  sqrt value := value.bind fun value => if value < 0 then none else some (root value)
  fmax := Option.map₂ max
  fmin := Option.map₂ min
  lt x y := (Option.map₂ (fun x y => decide (x < y)) x y).getD false
  truncate value := value.elim (-2 ^ 31) cut
  render value := value.elim "nan".toList sixDecimals
  atof text := some (decimalNumeral text)

section Operations

variable (root : K → K) (x y : K)

/-- A float constant is its value. The lemmas that follow say the same of the
operations, so that calculations of the recorder become calculations in the field. -/
@[simp] theorem exact_flit (value : ℚ) : @flit K (exactArithmetic root) value = value := rfl

/-- Float addition does not round here, and is the addition of the field. -/
@[simp] theorem exact_fadd : @fadd K (exactArithmetic root) x y = x + y := rfl

/-- Float subtraction is that of the field. -/
@[simp] theorem exact_fsub : @fsub K (exactArithmetic root) x y = x - y := rfl

/-- Float multiplication is that of the field. -/
@[simp] theorem exact_fmul : @fmul K (exactArithmetic root) x y = x * y := rfl

/-- Float division is that of the field, in which a quotient by zero is zero; the
checked arithmetic tells where this happens. -/
@[simp] theorem exact_fdiv : @fdiv K (exactArithmetic root) x y = x / y := rfl

/-- The root that is converted to float, as the estimated deviation is, is the supplied
one. -/
@[simp] theorem exact_root :
    @toFloat K (exactArithmetic root) (@sqrt K (exactArithmetic root) x) = root x := rfl

/-- The larger of two floats is the maximum in the order of the field. -/
@[simp] theorem exact_fmax : @fmax K (exactArithmetic root) x y = max x y := rfl

/-- The smaller of two floats is the minimum in the order of the field. -/
@[simp] theorem exact_fmin : @fmin K (exactArithmetic root) x y = min x y := rfl

/-- A double constant is its value as well, since floats and doubles are one type. -/
@[simp] theorem exact_lit (value : ℚ) : @lit K (exactArithmetic root) value = value := rfl

/-- The additions of doubles, which the small-value test makes, are those of the field. -/
@[simp] theorem exact_add : @add K (exactArithmetic root) x y = x + y := rfl

/-- So are the subtractions of doubles. -/
@[simp] theorem exact_sub : @sub K (exactArithmetic root) x y = x - y := rfl

/-- And the negation in the lower limit test. -/
@[simp] theorem exact_neg : @neg K (exactArithmetic root) x = -x := rfl

/-- Comparisons are decided by the order of the field. -/
@[simp] theorem exact_lt : @lt K (exactArithmetic root) x y = decide (x < y) := rfl

/-- A constant always has a value. -/
@[simp] theorem checked_flit (value : ℚ) :
    @flit (Option K) (checkedArithmetic root) value = some (value : K) := rfl

/-- The sum of two values has one. None of the lemmas on operations that are defined
everywhere needs a condition. -/
@[simp] theorem checked_fadd :
    @fadd (Option K) (checkedArithmetic root) (some x) (some y) = some (x + y) := rfl

/-- The difference of two values has one. -/
@[simp] theorem checked_fsub :
    @fsub (Option K) (checkedArithmetic root) (some x) (some y) = some (x - y) := rfl

/-- The product of two values has one. -/
@[simp] theorem checked_fmul :
    @fmul (Option K) (checkedArithmetic root) (some x) (some y) = some (x * y) := rfl

/-- The maximum of two values is one of them. -/
@[simp] theorem checked_fmax :
    @fmax (Option K) (checkedArithmetic root) (some x) (some y) = some (max x y) := rfl

/-- The minimum of two values is one of them. -/
@[simp] theorem checked_fmin :
    @fmin (Option K) (checkedArithmetic root) (some x) (some y) = some (min x y) := rfl

/-- A quotient has a value where the divisor is not zero. In the detector divisors are
sample counts, of which this is to be shown. -/
theorem checked_fdiv (nonzero : y ≠ 0) :
    @fdiv (Option K) (checkedArithmetic root) (some x) (some y) = some (x / y) := by
  change (if y = 0 then none else some (x / y)) = _
  rw [if_neg nonzero]

/-- A root has a value where the number is not negative, which is to be shown of the
squared deviations. -/
theorem checked_root (nonnegative : 0 ≤ x) :
    @toFloat (Option K) (checkedArithmetic root)
      (@sqrt (Option K) (checkedArithmetic root) (some x)) = some (root x) := by
  change (if x < 0 then none else some (root x)) = _
  rw [if_neg (not_lt.mpr nonnegative)]

end Operations

end EventRecorder.ExactArithmetic
