import Mathlib.Algebra.Order.Field.Power
import Mathlib.Data.Int.Log
import Mathlib.Data.Rat.Floor
import Mathlib.Tactic.Linarith
import Mathlib.Tactic.Positivity

/-!
# Rounding to binary64

A finite double is the rational number it stands for; the two zeros are one
number. Around a number the doubles are the multiples of one power of two, the
quantum, which no exponent below the subnormal one refines. Rounding takes the
nearest multiple, and of two equally near ones the even one.

The range is not bounded here: a result of magnitude `limit` or more stands for
an infinity.
-/

namespace EventRecorder.Binary64

/-- The integer nearest to a number; halfway between two, the even one. This is the
rounding of the default mode. -/
def halfEven (number : ℚ) : ℤ :=
  let below := ⌊number⌋
  let rest := number - below
  if rest < 1 / 2 then below
  else if 1 / 2 < rest then below + 1
  else if below % 2 = 0 then below
  else below + 1

/-- The distance between the doubles around a number: the last of 53 bits, but never
less than the last bit of a subnormal number. -/
def quantum (number : ℚ) : ℚ := 2 ^ max (Int.log 2 |number| - 52) (-1074)

/-- The double nearest to a number, as the nearest multiple of the quantum around it. -/
def nearest (number : ℚ) : ℚ := halfEven (number / quantum number) * quantum number

/-- The magnitude from which on a result is infinite. Everything rounded to less than it
is a finite double. -/
def limit : ℚ := 2 ^ 1024

/-- Off the integers, the one above a number is next to the one below it, so that there
are two candidates to round to. -/
theorem ceil_eq_floor_add_one (number : ℚ) (between : 0 < number - ⌊number⌋) :
    ⌈number⌉ = ⌊number⌋ + 1 := by
  have upper := Int.lt_floor_add_one number
  rw [Int.ceil_eq_iff]
  push_cast
  constructor <;> linarith

/-- The nearest integer is one of the two around the number, whichever of the branches
takes it. -/
theorem half_even_cases (number : ℚ) :
    halfEven number = ⌊number⌋ ∨ halfEven number = ⌈number⌉ := by
  simp only [halfEven]
  split_ifs with down up even
  · exact .inl rfl
  · exact .inr (ceil_eq_floor_add_one number (by linarith)).symm
  · exact .inl rfl
  · exact .inr (ceil_eq_floor_add_one number (by linarith)).symm

/-- It is no further than a half, which is all that bounds on rounding errors need of
it. -/
theorem half_even_near (number : ℚ) : |halfEven number - number| ≤ 1 / 2 := by
  have lower := Int.floor_le number
  have upper := Int.lt_floor_add_one number
  simp only [halfEven]
  split_ifs with down up even
  · rw [abs_le]
    constructor <;> linarith
  · rw [abs_le]
    push_cast
    constructor <;> linarith
  · rw [abs_le]
    constructor <;> linarith
  · rw [abs_le]
    push_cast
    constructor <;> linarith

/-- No number from zero on is rounded below zero, because the integer below it is not. -/
theorem half_even_nonneg (number : ℚ) (nonneg : 0 ≤ number) : 0 ≤ halfEven number := by
  rcases half_even_cases number with floor | ceil
  · exact floor ▸ Int.floor_nonneg.mpr nonneg
  · exact ceil ▸ Int.ceil_nonneg nonneg

/-- No number up to zero is rounded above zero, because the integer above it is not. -/
theorem half_even_nonpos (number : ℚ) (nonpos : number ≤ 0) : halfEven number ≤ 0 := by
  have near := (abs_le.mp (half_even_near number)).2
  have below : (halfEven number : ℚ) < 1 := by linarith
  have whole : halfEven number < 1 := by exact_mod_cast below
  omega

/-- There are doubles everywhere, so that dividing by their distance is safe. -/
theorem quantum_pos (number : ℚ) : 0 < quantum number := zpow_pos (by norm_num) _

/-- Below a power of two the quantum is bounded by the quantum just under that power.
The exponent of the power is a natural number, far from the subnormal numbers. -/
theorem quantum_le (number : ℚ) (power : ℕ) (small : |number| < 2 ^ (power + 1)) :
    quantum number ≤ 2 ^ power / 2 ^ 52 := by
  have log : Int.log 2 |number| ≤ power := by
    rcases (abs_nonneg number).eq_or_lt with zero | positive
    · rw [← zero, Int.log_zero_right]
      exact Int.natCast_nonneg power
    · have next : |number| < ((2 : ℕ) : ℚ) ^ ((power : ℤ) + 1) := by exact_mod_cast small
      exact Int.lt_add_one_iff.mp ((Int.lt_zpow_iff_log_lt (by decide) positive).mp next)
  calc quantum number ≤ 2 ^ ((power : ℤ) - 52) := zpow_le_zpow_right₀ (by norm_num) (by omega)
    _ = 2 ^ power / 2 ^ 52 := by
      rw [zpow_sub₀ (by norm_num), zpow_natCast]
      norm_num

/-- The double nearest to a number is no further than half a quantum, which is
`half_even_near` scaled by the quantum. -/
theorem nearest_near (number : ℚ) : |nearest number - number| ≤ quantum number / 2 := by
  have positive := quantum_pos number
  have scaled : nearest number - number =
      (halfEven (number / quantum number) - number / quantum number) * quantum number := by
    rw [nearest, sub_mul, div_mul_cancel₀ _ positive.ne']
  rw [scaled, abs_mul, abs_of_pos positive]
  calc _ ≤ 1 / 2 * quantum number :=
        mul_le_mul_of_nonneg_right (half_even_near _) positive.le
    _ = quantum number / 2 := by ring

/-- The error of a number below a power of two, as a fraction of that power, for numbers
whose exact exponent is not known. -/
theorem nearest_near_of_lt (number : ℚ) (power : ℕ) (small : |number| < 2 ^ (power + 1)) :
    |nearest number - number| ≤ 2 ^ power / 2 ^ 53 := by
  calc |nearest number - number| ≤ quantum number / 2 := nearest_near number
    _ ≤ 2 ^ power / 2 ^ 52 / 2 := by
      have bound := quantum_le number power small
      linarith
    _ = 2 ^ power / 2 ^ 53 := by ring

/-- Rounding does not take a number from zero on to the other side of zero. -/
theorem nearest_nonneg (number : ℚ) (nonneg : 0 ≤ number) : 0 ≤ nearest number := by
  have positive := quantum_pos number
  have whole := half_even_nonneg (number / quantum number) (div_nonneg nonneg positive.le)
  exact mul_nonneg (by exact_mod_cast whole) positive.le

/-- Rounding does not take a number up to zero to the other side of zero. -/
theorem nearest_nonpos (number : ℚ) (nonpos : number ≤ 0) : nearest number ≤ 0 := by
  have positive := quantum_pos number
  have whole := half_even_nonpos (number / quantum number)
    (div_nonpos_of_nonpos_of_nonneg nonpos positive.le)
  exact mul_nonpos_of_nonpos_of_nonneg (by exact_mod_cast whole) positive.le

/-- A number that is rounded below zero is below zero, as anything else would be rounded
to zero at least. -/
theorem neg_of_nearest_neg (number : ℚ) (negative : nearest number < 0) : number < 0 :=
  not_le.mp fun nonneg => (nearest_nonneg number nonneg).not_gt negative

/-- A number that is rounded above zero is above zero, as anything else would be rounded
to zero at most. -/
theorem pos_of_nearest_pos (number : ℚ) (positive : 0 < nearest number) : 0 < number :=
  not_le.mp fun nonpos => (nearest_nonpos number nonpos).not_gt positive

/-- Zero is a double itself. -/
theorem nearest_zero : nearest 0 = 0 :=
  le_antisymm (nearest_nonpos 0 le_rfl) (nearest_nonneg 0 le_rfl)

end EventRecorder.Binary64
