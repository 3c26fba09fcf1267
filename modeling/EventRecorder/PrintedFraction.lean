import EventRecorder.EncodedFraction

/-!
# How near the kept decimals of a fraction are

The printed decimal of a float lies within one unit of its last place, and
within the rounding error of doubles below two. From this follows how far the
decimals the extractor keeps are from the fraction: less than one unit of the
fourth place if the printed fraction has four decimals, and further if it has
fewer, since these are then read as the last ones.
-/

namespace EventRecorder.PrintedFraction

open CText Binary64 ShortestDecimal Python EncodedFraction

/-- A float between zero and the largest four decimals, as a fraction of which
decimals are printed. -/
structure Printed (fraction : ℚ) : Prop where
  positive : 0 < fraction
  small : fraction ≤ nearest (9999 / 10000)

/-- The largest four decimals as a float, to within the rounding error of a number below
one. -/
theorem nearest_top : |nearest (9999 / 10000) - 9999 / 10000| ≤ 1 / 2 ^ 53 := by
  have near := nearest_near_of_lt (9999 / 10000) 0 (by rw [abs_of_nonneg] <;> norm_num)
  simpa using near

/-- Digits cut off make a number smaller, never larger. -/
theorem cut_le (number cut places all : Nat) (same : cut + places = all) :
    ((number / 10 ^ cut : Nat) : ℚ) / 10 ^ places ≤ number / 10 ^ all := by
  have whole : ((number / 10 ^ cut : Nat) : ℚ) * 10 ^ cut ≤ number := by
    exact_mod_cast Nat.div_mul_le_self number (10 ^ cut)
  rw [← same, pow_add, div_le_div_iff₀ (by positivity) (by positivity)]
  calc ((number / 10 ^ cut : Nat) : ℚ) * (10 ^ cut * 10 ^ places)
      = (number / 10 ^ cut : Nat) * 10 ^ cut * 10 ^ places := by ring
    _ ≤ number * 10 ^ places := mul_le_mul_of_nonneg_right whole (by positivity)

/-- The next number cut to the same digits is no smaller than the next number, which
bounds the loss from the other side. -/
theorem le_cut_succ (number cut places all : Nat) (fits : cut + places ≤ all) :
    ((number : ℚ) + 1) / 10 ^ all ≤ ((number / 10 ^ cut : Nat) + 1) / 10 ^ places := by
  have whole : (number : ℚ) + 1 ≤ ((number / 10 ^ cut : Nat) + 1) * 10 ^ cut := by
    rw [mul_comm]
    exact_mod_cast Nat.succ_le_of_lt (Nat.lt_mul_div_succ number (by positivity))
  calc ((number : ℚ) + 1) / 10 ^ all
      ≤ (number + 1) / 10 ^ (cut + places) :=
        div_le_div_of_nonneg_left (by positivity) (by positivity)
          (pow_le_pow_right₀ (by norm_num) fits)
    _ ≤ ((number / 10 ^ cut : Nat) + 1) * 10 ^ cut / 10 ^ (cut + places) :=
        div_le_div_of_nonneg_right whole (by positivity)
    _ = ((number / 10 ^ cut : Nat) + 1) / 10 ^ places := by
        rw [pow_add, mul_comm ((10 : ℚ) ^ cut), mul_div_mul_right _ _ (by positivity)]

section

variable {fraction : ℚ}

/-- A fraction that is printed is less than one, being no more than the largest four
decimals. -/
theorem fraction_lt_one (printed : Printed fraction) : fraction < 1 := by
  have small := printed.small
  have top := (abs_le.mp nearest_top).2
  norm_num at top
  linarith

/-- A positive fraction is printed with a digit other than zero. -/
theorem digits_pos (printed : Printed fraction) : 0 < (shortestDecimal fraction).digits :=
  shortest_pos nearest 17 fraction printed.positive (by decide) nearest_zero

/-- The leading digit of a fraction stands behind the point, because the fraction is
less than one. -/
theorem log_neg (printed : Printed fraction) : Int.log 10 fraction < 0 := by
  have below : fraction < ((10 : ℕ) : ℚ) ^ (0 : ℤ) := by
    rw [zpow_zero]
    exact fraction_lt_one printed
  exact (Int.lt_zpow_iff_log_lt (by decide) printed.positive).mp below

/-- The last digit of a fraction stands behind the point as well. -/
theorem place_nonpos (printed : Printed fraction) : (shortestDecimal fraction).place ≤ 0 := by
  have place := shortest_place nearest 17 fraction
  have log := log_neg printed
  exact place.trans (by omega)

/-- The printed decimal is as near as its last place, which holds of the shortest
decimal of any number. -/
theorem printed_near (printed : Printed fraction) :
    |(shortestDecimal fraction).value - fraction| < 10 ^ (shortestDecimal fraction).place :=
  shortest_near nearest 17 fraction printed.positive

/-- The printed decimal is as near as rounding below two, since it is rounded to the
fraction. -/
theorem printed_close (printed : Printed fraction) :
    |(shortestDecimal fraction).value - fraction| ≤ 1 / 2 ^ 53 := by
  have near := printed_near printed
  rcases shortest_read nearest 17 fraction with back | last
  · have unit : (10 : ℚ) ^ (shortestDecimal fraction).place ≤ 1 :=
      zpow_le_one_of_nonpos₀ (by norm_num) (place_nonpos printed)
    have one := fraction_lt_one printed
    have positive := printed.positive
    have bounds := abs_lt.mp near
    have small : |(shortestDecimal fraction).value| < 2 ^ (0 + 1) := by
      rw [zero_add, pow_one, abs_lt]
      constructor <;> linarith [bounds.1, bounds.2]
    have error := nearest_near_of_lt _ 0 small
    rw [show nearest (shortestDecimal fraction).value = fraction from back, abs_sub_comm] at error
    simpa using error
  · have log := log_neg printed
    have place : (shortestDecimal fraction).place ≤ -17 := by
      rw [shortestDecimal, last, lastPlace]
      omega
    calc |(shortestDecimal fraction).value - fraction|
        ≤ 10 ^ (shortestDecimal fraction).place := near.le
      _ ≤ 10 ^ (-17 : ℤ) := zpow_le_zpow_right₀ (by norm_num) place
      _ ≤ 1 / 2 ^ 53 := by norm_num

/-- The point stands in front of the printed digits, possibly with zeros between. -/
theorem printed_point (printed : Printed fraction) : point (shortestDecimal fraction) ≤ 0 := by
  have close := (abs_le.mp (printed_close printed)).2
  have small := printed.small
  have top := (abs_le.mp nearest_top).2
  apply point_nonpos _ (digits_pos printed)
  norm_num at close top
  linarith

/-- The last place is that of the last decimal, as a quotient instead of a negative
power. -/
theorem place_eq (printed : Printed fraction) :
    (10 : ℚ) ^ (shortestDecimal fraction).place =
      1 / 10 ^ decimals (shortestDecimal fraction) := by
  have place := place_nonpos printed
  have exponent : (shortestDecimal fraction).place =
      -(decimals (shortestDecimal fraction) : ℤ) := by
    rw [decimals]
    omega
  rw [exponent, zpow_neg, zpow_natCast, inv_eq_one_div]

/-- The printed decimal over the power of its decimals, which is the form that cutting
is computed in. -/
theorem printed_value (printed : Printed fraction) :
    (shortestDecimal fraction).value =
      (shortestDecimal fraction).digits / 10 ^ decimals (shortestDecimal fraction) := by
  rw [Decimal.value, place_eq printed, mul_one_div]

/-- The fraction lies within one unit of the last printed decimal, in that form. -/
theorem printed_within (printed : Printed fraction) :
    |(shortestDecimal fraction).digits / 10 ^ decimals (shortestDecimal fraction) - fraction| <
      1 / 10 ^ decimals (shortestDecimal fraction) := by
  rw [← printed_value printed, ← place_eq printed]
  exact printed_near printed

/-- The digits of the printed fraction, with zeros in front, are its decimals. -/
theorem count_le_decimals (printed : Printed fraction) :
    count (shortestDecimal fraction) ≤ decimals (shortestDecimal fraction) := by
  have below := printed_point printed
  rw [point] at below
  rw [decimals]
  omega

/-- With four decimals or more, the first four cut less than a unit of the fourth
place off. -/
theorem first_decimals_near (printed : Printed fraction)
    (four : 4 ≤ decimals (shortestDecimal fraction)) :
    |fraction - firstDecimals (shortestDecimal fraction) / 10 ^ 4| < 1 / 10 ^ 4 ∧
      -(1 / 2 ^ 53) ≤ fraction - firstDecimals (shortestDecimal fraction) / 10 ^ 4 := by
  have within := abs_lt.mp (printed_within printed)
  have close := (abs_le.mp (printed_close printed)).2
  rw [printed_value printed] at close
  have lower := cut_le (shortestDecimal fraction).digits _ 4 _ (Nat.sub_add_cancel four)
  have upper := le_cut_succ (shortestDecimal fraction).digits _ 4 _ (Nat.sub_add_cancel four).le
  have unit : (1 : ℚ) / 10 ^ decimals (shortestDecimal fraction) ≤ 1 / 10 ^ 4 :=
    div_le_div_of_nonneg_left (by norm_num) (by norm_num) (pow_le_pow_right₀ (by norm_num) four)
  rw [add_div, add_div] at upper
  rw [firstDecimals]
  refine ⟨?_, by linarith⟩
  rw [abs_lt]
  constructor <;> linarith [within.1, within.2]

/-- In positional notation one of the first four decimals is not zero, because a smaller
fraction is printed in the other one. -/
theorem first_decimals_bounds (printed : Printed fraction)
    (positional : -4 < point (shortestDecimal fraction)) :
    0 < firstDecimals (shortestDecimal fraction) ∧
      firstDecimals (shortestDecimal fraction) < 10 ^ 4 := by
  have room := count_le_decimals printed
  have some := count_pos (shortestDecimal fraction)
  have leading := le_digits (shortestDecimal fraction) (digits_pos printed)
  constructor
  · have few : decimals (shortestDecimal fraction) - 4 ≤ count (shortestDecimal fraction) - 1 := by
      rw [point] at positional
      rw [decimals]
      omega
    exact Nat.div_pos ((Nat.pow_le_pow_right (by decide) few).trans leading) (by positivity)
  · apply Nat.div_lt_of_lt_mul
    calc (shortestDecimal fraction).digits < 10 ^ count (shortestDecimal fraction) := digits_lt _
      _ ≤ 10 ^ (decimals (shortestDecimal fraction) - 4 + 4) :=
          Nat.pow_le_pow_right (by decide) (by omega)
      _ = 10 ^ (decimals (shortestDecimal fraction) - 4) * 10 ^ 4 := pow_add _ _ _

/-- Fewer than four decimals are read as the last of four: they fall short of the
fraction. -/
theorem few_decimals_far (printed : Printed fraction)
    (few : decimals (shortestDecimal fraction) < 4) :
    9 / 10 ^ 4 - 1 / 2 ^ 53 ≤ fraction - firstDecimals (shortestDecimal fraction) / 10 ^ 4 := by
  have close := (abs_le.mp (printed_close printed)).2
  rw [printed_value printed] at close
  have all : firstDecimals (shortestDecimal fraction) = (shortestDecimal fraction).digits := by
    rw [firstDecimals, Nat.sub_eq_zero_of_le few.le, pow_zero, Nat.div_one]
  have some : (1 : ℚ) ≤ (shortestDecimal fraction).digits := by
    exact_mod_cast digits_pos printed
  have scaled : ((shortestDecimal fraction).digits : ℚ) / 10 ^ 3 ≤
      (shortestDecimal fraction).digits / 10 ^ decimals (shortestDecimal fraction) :=
    div_le_div_of_nonneg_left (by positivity) (by positivity)
      (pow_le_pow_right₀ (by norm_num) (by omega))
  rw [all]
  linarith

/-- In scientific notation the fraction is below the fourth decimal place, and
the digits behind the leading one bound it. -/
theorem scientific_bounds (printed : Printed fraction)
    (scientific : ¬ -4 < point (shortestDecimal fraction)) :
    fraction < 1 / 10 ^ 4 ∧
      (5 ≤ count (shortestDecimal fraction) →
        fraction < (90001 + behindLeading (shortestDecimal fraction)) / 10 ^ 9) := by
  have within := (abs_lt.mp (printed_within printed)).1
  have lt := digits_lt (shortestDecimal fraction)
  have room : count (shortestDecimal fraction) + 4 ≤ decimals (shortestDecimal fraction) := by
    rw [point] at scientific
    rw [decimals]
    omega
  constructor
  · have upper := le_cut_succ (shortestDecimal fraction).digits _ 4 _ room
    rw [Nat.div_eq_of_lt lt, Nat.cast_zero, zero_add, add_div] at upper
    linarith
  · intro many
    have upper := le_cut_succ (shortestDecimal fraction).digits
      (count (shortestDecimal fraction) - 5) 9 (decimals (shortestDecimal fraction)) (by omega)
    have five : (shortestDecimal fraction).digits / 10 ^ (count (shortestDecimal fraction) - 5) ≤
        90000 + behindLeading (shortestDecimal fraction) := by
      have short : (shortestDecimal fraction).digits /
          10 ^ (count (shortestDecimal fraction) - 5) < 10 ^ 5 := by
        apply Nat.div_lt_of_lt_mul
        rwa [← pow_add, Nat.sub_add_cancel many]
      rw [behindLeading]
      omega
    have cast : (((shortestDecimal fraction).digits /
        10 ^ (count (shortestDecimal fraction) - 5) : Nat) : ℚ) ≤
        90000 + behindLeading (shortestDecimal fraction) := by
      exact_mod_cast five
    rw [add_div] at upper
    linarith

end

end EventRecorder.PrintedFraction
