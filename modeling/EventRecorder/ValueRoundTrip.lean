import EventRecorder.HexValues
import EventRecorder.PrintedFraction

/-!
# The round trip of a value

A value the extractor encoded and `hex_get_float` decoded should have the sign of
the number it was read from and lie within one unit of the fourth decimal of it,
the rounding of the number to a float apart.

It does where the printed fraction of the float has four decimals or more and
the decoded numeral has room for them. Fewer decimals are read as the last ones,
between minus one and zero the sign is lost with the integral part, a fraction
printed in scientific notation is read by the digits behind its leading one, and
of a long integral part the last decimals are cut.
-/

namespace EventRecorder.ValueRoundTrip

open CText Binary64 ShortestDecimal Python Extractor
open EncodedFraction PrintedFraction Frames HexValues

/-- The largest magnitude of the format, `32767.9999`, by the comment in the extractor. -/
def greatest : ℚ := 327679999 / 10 ^ 4

/-- What a decoded value owes to the number that was encoded and to the float it
was rounded to. -/
structure Faithful (number float decoded : ℚ) : Prop where
  /-- The sign of the number, or zero for a number below the fourth decimal. -/
  sign : 0 < number * decoded ∨ decoded = 0 ∧ |number| < 1 / 10 ^ 4
  /-- Less than a unit of the fourth decimal off, and the error of the float. -/
  near : |decoded - number| < 1 / 10 ^ 4 + |float - number|

/-- The extractor encodes a text, and what `hex_get_float` reads of it is faithful
to the number. -/
def RoundTrips (text : Text) (number : ℚ) : Prop :=
  ∃ hex, toHexString text = .ok hex ∧ Faithful number (nearest number) (hexGetFloat hex)

/-- A float whose integral part has its sign. Between minus one and zero the integral
part is zero and has none. -/
def SignKept (float : ℚ) : Prop := float ≤ -1 ∨ 0 ≤ float

/-- The integral part of a number's float, which is encoded first. -/
def integral (number : ℚ) : Int := truncate (nearest number)

/-- The fraction of a number's float, without its sign. -/
def fraction (number : ℚ) : ℚ := |nearest number - integral number|

/-- The decimal the fraction is written as, which the extractor takes apart as a text. -/
def written (number : ℚ) : Decimal := shortestDecimal (fraction number)

/-- What is left of four decimals behind an integral part, with zeros for those that are
cut off. -/
def left (whole : Int) (decimals : Nat) : Nat := decimals / 10 ^ lost whole * 10 ^ lost whole

/-- A number that the format keeps. The cases are those of the text that the fraction is
written as. -/
def Survives (number : ℚ) : Prop :=
  if fraction number = 0 then True
  else if nearest (9999 / 10000) < fraction number then
    SignKept (nearest number) ∧ lost (integral number) = 0
  else if -4 < point (written number) then
    SignKept (nearest number) ∧ 4 ≤ decimals (written number) ∧
      -- The decimals that are cut are zero, or one unit that the error of the float makes up.
      (firstDecimals (written number) % 10 ^ lost (integral number) = 0 ∨
        firstDecimals (written number) % 10 ^ lost (integral number) = 1 ∧
          |number| < (integral number).natAbs + firstDecimals (written number) / 10 ^ 4 +
            |nearest number - number|)
  else
    5 ≤ count (written number) ∧
      (SignKept (nearest number) ∧ left (integral number) (behindLeading (written number)) ≤ 1 ∨
        behindLeading (written number) = 0)

instance (float : ℚ) : Decidable (SignKept float) := inferInstanceAs (Decidable (_ ∨ _))

instance (number : ℚ) : Decidable (Survives number) := inferInstanceAs (Decidable (ite _ _ _))

/-- The value decoded from an integral part and four decimals, as `hex_get_float` reads
it. -/
def decoded (whole : Int) (decimals : Nat) : ℚ :=
  (if whole < 0 then (-1 : ℚ) else 1) * (whole.natAbs + left whole decimals / 10 ^ 4)

/-- The integral part and the fraction of a float, by its sign. -/
theorem float_parts (number : ℚ) :
    fraction number < 1 ∧
      ((0 ≤ nearest number ∧ 0 ≤ integral number ∧
          nearest number = (integral number).natAbs + fraction number) ∨
        (nearest number < 0 ∧ integral number ≤ 0 ∧
          -nearest number = (integral number).natAbs + fraction number)) := by
  rw [fraction, integral, truncate]
  split_ifs with negative
  · have lower := Int.le_ceil (nearest number)
    have upper := Int.ceil_lt_add_one (nearest number)
    have whole : ⌈nearest number⌉ ≤ 0 := Int.ceil_le.mpr (by exact_mod_cast negative.le)
    have magnitude : ((⌈nearest number⌉.natAbs : Nat) : ℚ) = -⌈nearest number⌉ := by
      rw [Nat.cast_natAbs, abs_of_nonpos whole, Int.cast_neg]
    rw [abs_of_nonpos (by linarith), magnitude]
    exact ⟨by linarith, .inr ⟨negative, whole, by ring⟩⟩
  · have lower := Int.floor_le (nearest number)
    have upper := Int.lt_floor_add_one (nearest number)
    have whole : 0 ≤ ⌊nearest number⌋ := Int.floor_nonneg.mpr (not_lt.mp negative)
    have magnitude : ((⌊nearest number⌋.natAbs : Nat) : ℚ) = ⌊nearest number⌋ := by
      rw [Nat.cast_natAbs, abs_of_nonneg whole]
    rw [abs_of_nonneg (by linarith), magnitude]
    exact ⟨by linarith, .inl ⟨not_lt.mp negative, whole, by ring⟩⟩

/-- The magnitude of the float is that of its parts. -/
theorem float_abs (number : ℚ) :
    |nearest number| = (integral number).natAbs + fraction number := by
  obtain ⟨_, ⟨nonneg, _, parts⟩ | ⟨negative, _, parts⟩⟩ := float_parts number
  · rw [abs_of_nonneg nonneg, parts]
  · rw [abs_of_neg negative, parts]

/-- The fraction is a distance, and not negative. -/
theorem fraction_nonneg (number : ℚ) : 0 ≤ fraction number := abs_nonneg _

/-- The sign decoded is that of the float, if it is kept. -/
theorem kept_parts (number : ℚ) (kept : SignKept (nearest number)) :
    nearest number = (if integral number < 0 then (-1 : ℚ) else 1) *
      ((integral number).natAbs + fraction number) := by
  obtain ⟨small, ⟨nonneg, sign, whole⟩ | ⟨negative, sign, whole⟩⟩ := float_parts number
  · rw [if_neg sign.not_gt, one_mul]
    exact whole
  · have below : integral number < 0 := by
      rcases kept with down | up
      · have large : (0 : ℚ) < (integral number).natAbs := by linarith
        have some : 0 < (integral number).natAbs := by exact_mod_cast large
        omega
      · exact absurd up negative.not_ge
    rw [if_pos below]
    linarith

/-- Between minus one and zero there is no integral part that could carry the sign. -/
theorem hidden_parts (number : ℚ) (hidden : ¬ SignKept (nearest number)) :
    nearest number < 0 ∧ integral number = 0 := by
  rw [SignKept, not_or, not_le, not_le] at hidden
  refine ⟨hidden.2, ?_⟩
  have upper : ⌈nearest number⌉ ≤ 0 := Int.ceil_le.mpr (by exact_mod_cast hidden.2.le)
  have lower : -1 < ⌈nearest number⌉ := Int.lt_ceil.mpr (by exact_mod_cast hidden.1)
  rw [integral, truncate, if_pos hidden.2]
  omega

/-- The error of a float in the range of the format, which has fifteen bits in front of
the point. -/
theorem float_error (number : ℚ) (range : |number| ≤ greatest) :
    |nearest number - number| ≤ 1 / 2 ^ 39 := by
  have small : |number| < 2 ^ (14 + 1) := range.trans_lt (by norm_num [greatest])
  exact (nearest_near_of_lt number 14 small).trans (by norm_num)

/-- A float other than zero has the sign of its number, as rounding does not cross zero. -/
theorem same_sign (number : ℚ) (nonzero : nearest number ≠ 0) : 0 < number * nearest number := by
  rcases lt_or_gt_of_ne nonzero with negative | positive
  · exact mul_pos_of_neg_of_neg (neg_of_nearest_neg number negative) negative
  · exact mul_pos (pos_of_nearest_pos number positive) positive

section

variable {number : ℚ}

/-- What is within a unit of the float is near the number, the error of the float apart. -/
theorem near_of_close (float decoded : ℚ) (close : |decoded - float| < 1 / 10 ^ 4) :
    |decoded - number| < 1 / 10 ^ 4 + |float - number| :=
  (abs_sub_le decoded float number).trans_lt (by linarith)

/-- What is clearly further than a unit from the float is not faithful, whatever the
error. -/
theorem not_faithful_of_far (range : |number| ≤ greatest) (decoded : ℚ)
    (far : 1 / 10 ^ 4 + 1 / 2 ^ 38 ≤ |decoded - nearest number|) :
    ¬ Faithful number (nearest number) decoded := by
  intro faithful
  have near := faithful.near
  have error := float_error number range
  have apart := abs_sub_le decoded number (nearest number)
  rw [abs_sub_comm number] at apart
  norm_num at far error
  linarith

/-- How far the decoded value is from another of the same sign, as a distance of
magnitudes. -/
theorem decoded_gap (other magnitude : ℚ)
    (signed : other = (if integral number < 0 then (-1 : ℚ) else 1) * magnitude) (decimals : Nat) :
    |decoded (integral number) decimals - other| =
      |(integral number).natAbs + left (integral number) decimals / 10 ^ 4 - magnitude| := by
  have sign : |(if integral number < 0 then (-1 : ℚ) else 1)| = 1 := by
    split_ifs <;> simp
  rw [decoded, signed, ← mul_sub, abs_mul, sign, one_mul]

/-- How far it is from the float, if the sign is kept: by the decimals and the fraction
alone. -/
theorem float_gap (kept : SignKept (nearest number)) (decimals : Nat) :
    |decoded (integral number) decimals - nearest number| =
      |left (integral number) decimals / 10 ^ 4 - fraction number| := by
  rw [decoded_gap _ _ (kept_parts number kept), add_sub_add_left_eq_sub]

/-- The number has the sign that is decoded, if there is a fraction. -/
theorem number_sign (kept : SignKept (nearest number)) (some : 0 < fraction number) :
    0 < number * (if integral number < 0 then (-1 : ℚ) else 1) := by
  have parts := kept_parts number kept
  have magnitude : (0 : ℚ) < (integral number).natAbs + fraction number :=
    add_pos_of_nonneg_of_pos (Nat.cast_nonneg _) some
  have nonzero : nearest number ≠ 0 := by
    rw [parts]
    apply mul_ne_zero _ magnitude.ne'
    split_ifs <;> norm_num
  have same := same_sign number nonzero
  rw [parts, ← mul_assoc] at same
  exact pos_of_mul_pos_left same magnitude.le

/-- The number is its magnitude with the sign that is decoded. -/
theorem number_parts (kept : SignKept (nearest number)) (some : 0 < fraction number) :
    number = (if integral number < 0 then (-1 : ℚ) else 1) * |number| := by
  have same := number_sign kept some
  split_ifs at same ⊢
  · rw [abs_of_neg (by linarith), neg_one_mul, neg_neg]
  · rw [abs_of_pos (by linarith), one_mul]

/-- A decoded value whose sign is kept has the sign of its number, unless it is
zero. -/
theorem decoded_sign (kept : SignKept (nearest number)) (some : 0 < fraction number)
    (decimals : Nat)
    (positive : 0 < (integral number).natAbs + left (integral number) decimals) :
    0 < number * decoded (integral number) decimals := by
  have magnitude : (0 : ℚ) < (integral number).natAbs +
      left (integral number) decimals / 10 ^ 4 := by
    rcases Nat.add_pos_iff_pos_or_pos.mp positive with whole | decimal
    · have large : (0 : ℚ) < (integral number).natAbs := by exact_mod_cast whole
      positivity
    · have large : (0 : ℚ) < left (integral number) decimals := by
        exact_mod_cast decimal
      positivity
  rw [decoded, ← mul_assoc]
  exact mul_pos (number_sign kept some) magnitude

/-- Nothing is cut behind no integral part, as a single zero leaves room for all
decimals. -/
theorem left_zero (decimals : Nat) : left 0 decimals = decimals := by
  have none : lost 0 = 0 := by decide
  rw [left, none, pow_zero, Nat.div_one, Nat.mul_one]

/-- Between minus one and zero, only zero can be faithful, since any decimals are read
as positive. -/
theorem hidden_faithful (hidden : ¬ SignKept (nearest number)) (decimals : Nat) :
    Faithful number (nearest number) (decoded (integral number) decimals) ↔
      decimals = 0 ∧ |number| < 1 / 10 ^ 4 := by
  obtain ⟨negative, whole⟩ := hidden_parts _ hidden
  have below := neg_of_nearest_neg number negative
  have value : decoded (integral number) decimals = decimals / 10 ^ 4 := by
    simp [whole, decoded, left_zero]
  rw [value]
  constructor
  · intro faithful
    rcases faithful.sign with same | zero
    · have nonneg : (0 : ℚ) ≤ decimals / 10 ^ 4 := by positivity
      exact absurd same (mul_nonpos_of_nonpos_of_nonneg below.le nonneg).not_gt
    · have none : (decimals : ℚ) = 0 := by
        simpa using zero.1
      exact ⟨by exact_mod_cast none, zero.2⟩
  · rintro ⟨rfl, small⟩
    have error := abs_nonneg (nearest number - number)
    refine ⟨.inr ⟨by norm_num, small⟩, ?_⟩
    rw [Nat.cast_zero, zero_div, zero_sub, abs_neg]
    linarith

/-- The integral part is within the format. -/
theorem whole_lt (range : |number| ≤ greatest) : (integral number).natAbs < 2 ^ 15 := by
  have error := float_error number range
  have magnitude := float_abs number
  have nonneg := fraction_nonneg number
  have apart := abs_sub_abs_le_abs_sub (nearest number) number
  have bound : ((integral number).natAbs : ℚ) < 32768 := by
    rw [greatest] at range
    norm_num at error range
    linarith
  exact_mod_cast bound

/-- At most two of the four decimals have no room. -/
theorem lost_le (range : |number| ≤ greatest) : lost (integral number) ≤ 2 := by
  have fits := whole_lt range
  have length := decimal_length (integral number) (by omega)
  rw [lost]
  omega

/-- What is cut off is the remainder. -/
theorem left_add_mod (whole : Int) (decimals : Nat) :
    left whole decimals + decimals % 10 ^ lost whole = decimals :=
  Nat.div_add_mod' _ _

/-- Without a fraction the float is decoded as it is, sign included. -/
theorem zero_faithful (range : |number| ≤ greatest) (zero : fraction number = 0) :
    Faithful number (nearest number) (decoded (integral number) 0) := by
  have error := float_error number range
  have kept : SignKept (nearest number) := by
    by_contra hidden
    obtain ⟨negative, whole⟩ := hidden_parts _ hidden
    obtain ⟨_, ⟨nonneg, _⟩ | ⟨_, _, parts⟩⟩ := float_parts number
    · exact nonneg.not_gt negative
    · rw [whole, zero] at parts
      simp at parts
      exact negative.ne parts
  have value : decoded (integral number) 0 = nearest number := by
    have parts := kept_parts number kept
    have none : left (integral number) 0 = 0 := by simp [left]
    rw [decoded, none, Nat.cast_zero, zero_div, add_zero]
    rw [zero, add_zero] at parts
    exact parts.symm
  rw [value]
  refine ⟨?_, by linarith⟩
  by_cases nothing : nearest number = 0
  · rw [nothing, zero_sub, abs_neg] at error
    exact .inr ⟨nothing, error.trans_lt (by norm_num)⟩
  · exact .inl (same_sign number nothing)

/-- Decimals close to the fraction of a float whose sign is kept are faithful, if the
number decoded has a sign or the number is small. -/
theorem kept_close (kept : SignKept (nearest number)) (some : 0 < fraction number)
    (decimals : Nat)
    (close : |left (integral number) decimals / 10 ^ 4 - fraction number| <
      1 / 10 ^ 4)
    (sign : 0 < (integral number).natAbs + left (integral number) decimals ∨
      |number| < 1 / 10 ^ 4) :
    Faithful number (nearest number) (decoded (integral number) decimals) := by
  rw [← float_gap kept] at close
  refine ⟨?_, near_of_close _ _ close⟩
  rcases Nat.eq_zero_or_pos ((integral number).natAbs +
      left (integral number) decimals) with none | positive
  · obtain ⟨whole, decimal⟩ := Nat.add_eq_zero_iff.mp none
    refine .inr ⟨?_, sign.resolve_left none.not_gt⟩
    simp [decoded, whole, decimal]
  · exact .inl (decoded_sign kept some decimals positive)

/-- Decimals far from the fraction are not faithful. -/
theorem kept_far (range : |number| ≤ greatest) (kept : SignKept (nearest number)) (decimals : Nat)
    (far : 1 / 10 ^ 4 + 1 / 2 ^ 38 ≤
      |left (integral number) decimals / 10 ^ 4 - fraction number|) :
    ¬ Faithful number (nearest number) (decoded (integral number) decimals) := by
  rw [← float_gap kept] at far
  exact not_faithful_of_far range _ far

/-- Decimals that fall clearly short of the fraction are not faithful either. -/
theorem kept_short (range : |number| ≤ greatest) (kept : SignKept (nearest number)) (decimals : Nat)
    (short : 1 / 10 ^ 4 + 1 / 2 ^ 38 ≤
      fraction number - left (integral number) decimals / 10 ^ 4) :
    ¬ Faithful number (nearest number) (decoded (integral number) decimals) := by
  apply kept_far range kept
  rw [abs_sub_comm]
  exact short.trans (le_abs_self _)

/-- Above the largest decimals, these are faithful where all four are kept. -/
theorem top_faithful (range : |number| ≤ greatest)
    (top : nearest (9999 / 10000) < fraction number) :
    Faithful number (nearest number) (decoded (integral number) 9999) ↔
      SignKept (nearest number) ∧ lost (integral number) = 0 := by
  have large := (abs_le.mp nearest_top).1
  have one := (float_parts number).1
  have some : 0 < fraction number := (nearest_nonneg _ (by norm_num)).trans_lt top
  norm_num at large
  by_cases kept : SignKept (nearest number)
  · by_cases all : lost (integral number) = 0
    · refine iff_of_true ?_ ⟨kept, all⟩
      have whole : left (integral number) 9999 = 9999 := by
        rw [left, all]
        norm_num
      apply kept_close kept some
      · rw [whole, abs_lt]
        norm_num
        constructor <;> linarith
      · rw [whole]
        exact .inl (by omega)
    · refine iff_of_false ?_ fun both => all both.2
      have few := lost_le range
      have cut : left (integral number) 9999 ≤ 9990 := by
        have one_or_two : lost (integral number) = 1 ∨
            lost (integral number) = 2 := by omega
        rcases one_or_two with same | same
        · rw [left, same]
          decide
        · rw [left, same]
          decide
      have bound : ((left (integral number) 9999 : Nat) : ℚ) ≤ 9990 := by
        exact_mod_cast cut
      apply kept_short range kept
      norm_num
      linarith
  · refine iff_of_false ?_ fun both => kept both.1
    rw [hidden_faithful kept]
    exact fun both => absurd both.1 (by decide)

/-- Where one unit is cut off, the error of the float has to make up for it. -/
theorem unit_cut_faithful (range : |number| ≤ greatest) (kept : SignKept (nearest number))
    (some : 0 < fraction number) (decimals : Nat)
    (cut : left (integral number) decimals + 1 = decimals)
    (lower : -(1 / 2 ^ 53) ≤ fraction number - decimals / 10 ^ 4)
    (positive : 0 < (integral number).natAbs + left (integral number) decimals) :
    Faithful number (nearest number) (decoded (integral number) decimals) ↔
      |number| < (integral number).natAbs + decimals / 10 ^ 4 + |nearest number - number| := by
  have unit : ((left (integral number) decimals : Nat) : ℚ) + 1 = decimals := by
    exact_mod_cast cut
  have magnitude := float_abs number
  have error := float_error number range
  have apart := abs_sub_abs_le_abs_sub (nearest number) number
  have below : ((integral number).natAbs + left (integral number) decimals / 10 ^ 4 : ℚ) ≤
      |number| := by
    norm_num at error lower
    linarith
  have gap : |decoded (integral number) decimals - number| =
      |number| - ((integral number).natAbs + left (integral number) decimals / 10 ^ 4) := by
    rw [decoded_gap _ _ (number_parts kept some), abs_sub_comm,
      abs_of_nonneg (sub_nonneg.mpr below)]
  constructor
  · intro faithful
    have near := faithful.near
    rw [gap] at near
    linarith
  · intro small
    refine ⟨.inl (decoded_sign kept some decimals positive), ?_⟩
    rw [gap]
    linarith

/-- Decimals are cut off only behind an integral part, which then is not zero. -/
theorem positive_of_cut (decimals : Nat) (cut : decimals % 10 ^ lost (integral number) ≠ 0) :
    0 < (integral number).natAbs := by
  rw [Int.natAbs_pos]
  intro zero
  have none : lost 0 = 0 := by decide
  rw [zero, none, pow_zero, Nat.mod_one] at cut
  exact cut rfl

/-- Of the first four decimals those that are cut have to be zero, or one unit that
the error of the float makes up for. -/
theorem first_four_faithful (range : |number| ≤ greatest) (kept : SignKept (nearest number))
    (printed : Printed (fraction number)) (positional : -4 < point (written number))
    (four : 4 ≤ decimals (written number)) :
    Faithful number (nearest number)
        (decoded (integral number) (firstDecimals (written number))) ↔
      firstDecimals (written number) % 10 ^ lost (integral number) = 0 ∨
        firstDecimals (written number) % 10 ^ lost (integral number) = 1 ∧
          |number| < (integral number).natAbs + firstDecimals (written number) / 10 ^ 4 +
            |nearest number - number| := by
  have positive : 0 < firstDecimals (written number) :=
    (first_decimals_bounds printed positional).1
  have close : |fraction number - firstDecimals (written number) / 10 ^ 4| < 1 / 10 ^ 4 :=
    (first_decimals_near printed four).1
  have lower : -(1 / 2 ^ 53) ≤ fraction number - firstDecimals (written number) / 10 ^ 4 :=
    (first_decimals_near printed four).2
  have cut := left_add_mod (integral number) (firstDecimals (written number))
  rcases lt_trichotomy (firstDecimals (written number) % 10 ^ lost (integral number)) 1 with
    none | one | more
  · have whole : left (integral number) (firstDecimals (written number)) =
        firstDecimals (written number) := by omega
    refine iff_of_true ?_ (.inl (by omega))
    apply kept_close kept printed.positive
    · rwa [whole, abs_sub_comm]
    · exact .inl (by omega)
  · have whole := positive_of_cut _ (by omega :
      firstDecimals (written number) % 10 ^ lost (integral number) ≠ 0)
    rw [unit_cut_faithful range kept printed.positive _ (by omega) lower (by omega)]
    simp [one]
  · refine iff_of_false ?_ fun both => by omega
    have bound : ((left (integral number) (firstDecimals (written number)) : Nat) : ℚ) + 2 ≤
        firstDecimals (written number) := by
      exact_mod_cast (by omega)
    apply kept_short range kept
    norm_num at lower ⊢
    linarith

/-- Fewer than four decimals are never faithful, because they are encoded as a number
and stand for the last of four. -/
theorem first_few_not_faithful (range : |number| ≤ greatest) (kept : SignKept (nearest number))
    (printed : Printed (fraction number)) (few : decimals (written number) < 4) :
    ¬ Faithful number (nearest number)
      (decoded (integral number) (firstDecimals (written number))) := by
  have far : 9 / 10 ^ 4 - 1 / 2 ^ 53 ≤
      fraction number - firstDecimals (written number) / 10 ^ 4 := few_decimals_far printed few
  have cut := left_add_mod (integral number) (firstDecimals (written number))
  have bound : ((left (integral number) (firstDecimals (written number)) : Nat) : ℚ) ≤
      firstDecimals (written number) := by
    exact_mod_cast (by omega)
  apply kept_short range kept
  norm_num at far ⊢
  linarith

/-- In positional notation the first decimals are faithful where there are four,
and none that counts is cut off. -/
theorem positional_faithful (range : |number| ≤ greatest) (printed : Printed (fraction number))
    (positional : -4 < point (written number)) :
    Faithful number (nearest number)
        (decoded (integral number) (firstDecimals (written number))) ↔
      SignKept (nearest number) ∧ 4 ≤ decimals (written number) ∧
        (firstDecimals (written number) % 10 ^ lost (integral number) = 0 ∨
          firstDecimals (written number) % 10 ^ lost (integral number) = 1 ∧
            |number| < (integral number).natAbs + firstDecimals (written number) / 10 ^ 4 +
              |nearest number - number|) := by
  by_cases kept : SignKept (nearest number)
  · rw [and_iff_right kept]
    by_cases four : 4 ≤ decimals (written number)
    · rw [and_iff_right four]
      exact first_four_faithful range kept printed positional four
    · exact iff_of_false (first_few_not_faithful range kept printed (not_le.mp four))
        fun both => four both.1
  · refine iff_of_false ?_ fun both => kept both.1
    rw [hidden_faithful kept]
    exact fun both => (first_decimals_bounds printed positional).1.ne' both.1

/-- A fraction of few units of the ninth decimal, behind no integral part, is that of a
small number. -/
theorem small_number (range : |number| ≤ greatest) (none : integral number = 0)
    (small : fraction number < 90001 / 10 ^ 9) : |number| < 1 / 10 ^ 4 := by
  have magnitude := float_abs number
  have error := float_error number range
  have apart := abs_sub_abs_le_abs_sub number (nearest number)
  rw [abs_sub_comm] at apart
  rw [none, Int.natAbs_zero, Nat.cast_zero, zero_add] at magnitude
  norm_num at small error ⊢
  linarith

/-- Digits behind the leading one that come to nothing, or to one, are close to a
fraction below the fourth decimal. -/
theorem behind_leading_close (range : |number| ≤ greatest) (kept : SignKept (nearest number))
    (printed : Printed (fraction number)) (below : fraction number < 1 / 10 ^ 4)
    (few : left (integral number) (behindLeading (written number)) ≤ 1)
    (bound : fraction number < (90001 + behindLeading (written number)) / 10 ^ 9) :
    Faithful number (nearest number)
      (decoded (integral number) (behindLeading (written number))) := by
  have positive := printed.positive
  apply kept_close kept positive
  · rw [abs_lt]
    rcases Nat.le_one_iff_eq_zero_or_eq_one.mp few with zero | one
    · rw [zero, Nat.cast_zero]
      constructor <;> linarith
    · rw [one, Nat.cast_one]
      constructor <;> linarith
  · rcases Nat.eq_zero_or_pos ((integral number).natAbs +
        left (integral number) (behindLeading (written number))) with none | some
    · obtain ⟨whole, zero⟩ := Nat.add_eq_zero_iff.mp none
      rw [Int.natAbs_eq_zero.mp whole, left_zero] at zero
      rw [zero, Nat.cast_zero, add_zero] at bound
      exact .inr (small_number range (Int.natAbs_eq_zero.mp whole) bound)
    · exact .inl some

/-- If they come to more, they are read as more than the fraction, by a unit and more. -/
theorem behind_leading_far (range : |number| ≤ greatest) (kept : SignKept (nearest number))
    (many : 1 < left (integral number) (behindLeading (written number)))
    (bound : fraction number < (90001 + behindLeading (written number)) / 10 ^ 9) :
    ¬ Faithful number (nearest number)
      (decoded (integral number) (behindLeading (written number))) := by
  have cut := left_add_mod (integral number) (behindLeading (written number))
  have unit : 10 ^ lost (integral number) ≤ 10 ^ 2 :=
    Nat.pow_le_pow_right (by decide) (lost_le range)
  have rest := Nat.mod_lt (behindLeading (written number))
    (by positivity : 0 < 10 ^ lost (integral number))
  have most : (behindLeading (written number) : ℚ) ≤
      (left (integral number) (behindLeading (written number)) : Nat) + 99 := by
    exact_mod_cast (by omega)
  have several : (2 : ℚ) ≤ (left (integral number) (behindLeading (written number)) : Nat) := by
    exact_mod_cast many
  apply kept_far range kept
  refine le_trans ?_ (le_abs_self _)
  norm_num at bound ⊢
  linarith

/-- In scientific notation the digits behind the leading one are faithful where
they come to nothing or to one. -/
theorem scientific_faithful (range : |number| ≤ greatest) (printed : Printed (fraction number))
    (scientific : ¬ -4 < point (written number)) (many : 5 ≤ count (written number)) :
    Faithful number (nearest number)
        (decoded (integral number) (behindLeading (written number))) ↔
      SignKept (nearest number) ∧ left (integral number) (behindLeading (written number)) ≤ 1 ∨
        behindLeading (written number) = 0 := by
  have below : fraction number < 1 / 10 ^ 4 := (scientific_bounds printed scientific).1
  have bound : fraction number < (90001 + behindLeading (written number)) / 10 ^ 9 :=
    (scientific_bounds printed scientific).2 many
  by_cases kept : SignKept (nearest number)
  · by_cases few : left (integral number) (behindLeading (written number)) ≤ 1
    · exact iff_of_true (behind_leading_close range kept printed below few bound)
        (.inl ⟨kept, few⟩)
    · refine iff_of_false (behind_leading_far range kept (not_le.mp few) bound) ?_
      rintro (both | zeros)
      · exact few both.2
      · rw [zeros, left, Nat.zero_div, Nat.zero_mul] at few
        exact few (Nat.zero_le 1)
  · rw [hidden_faithful kept]
    constructor
    · exact fun both => .inr both.1
    · rintro (both | zeros)
      · exact absurd both.1 kept
      · rw [zeros, Nat.cast_zero, add_zero] at bound
        exact ⟨zeros, small_number range (hidden_parts _ kept).2 bound⟩

end

/-- A number in range is encoded by its integral part and the decimals found for
its fraction. -/
theorem encoded_eq (text : Text) (number : ℚ) (denotes : numeral text = some number)
    (range : |number| ≤ greatest) :
    toHexString text = (fractionText (fraction number) >>= int).map fun decimals =>
      filled 4 16 ((integral number).natAbs * 2 + if integral number < 0 then 1 else 0) ++
        fractionHex decimals := by
  have error := float_error number range
  have apart := abs_sub_abs_le_abs_sub (nearest number) number
  have finite : |nearest number| < limit := by
    rw [greatest] at range
    norm_num at error range
    calc |nearest number| < 2 ^ 16 := by linarith
      _ ≤ 2 ^ 1024 := pow_le_pow_right₀ (by norm_num) (by norm_num)
  have whole := whole_lt range
  have unclamped : clamped (integral number) = integral number := by
    rw [clamped, if_neg (by omega), if_neg (by omega)]
  rw [to_hex_string_eq text number denotes finite]
  change (fractionText (fraction number) >>= int).map (fun decimals =>
    wholeHex (clamped (integral number)) ++ fractionHex decimals) = _
  rw [unclamped, whole_hex_eq _ whole]

/-- What is decoded from the decimals found decides the round trip. -/
theorem round_trip_ok (text : Text) (number : ℚ) (denotes : numeral text = some number)
    (range : |number| ≤ greatest) (decimals : Nat)
    (found : (fractionText (fraction number) >>= int) = .ok decimals) (four : decimals < 10 ^ 4) :
    RoundTrips text number ↔
      Faithful number (nearest number) (decoded (integral number) decimals) := by
  have encoded := encoded_eq text number denotes range
  have value := hex_get_float_filled (integral number) decimals (whole_lt range) four
  rw [found, Except.map, fraction_hex_eq] at encoded
  rw [decoded, left, ← value]
  constructor
  · rintro ⟨hex, same, faithful⟩
    rw [encoded] at same
    rwa [Except.ok.inj same]
  · exact fun faithful => ⟨_, encoded, faithful⟩

/-- Where no decimals are found, there is no round trip, as the extractor raises an
exception. -/
theorem round_trip_error (text : Text) (number : ℚ) (denotes : numeral text = some number)
    (range : |number| ≤ greatest) (exception : Exception)
    (raised : (fractionText (fraction number) >>= int) = .error exception) :
    ¬ RoundTrips text number := by
  rintro ⟨hex, same, _⟩
  rw [encoded_eq text number denotes range, raised] at same
  cases same

/-- The decimals found for a fraction that is written out, by the notation it is written
in. -/
theorem written_decimals (number : ℚ) (printed : Printed (fraction number)) :
    (fractionText (fraction number) >>= int) =
      if -4 < point (written number) then .ok (firstDecimals (written number))
      else if count (written number) = 1 then .error .indexError
      else if count (written number) < 5 then .error .valueError
      else .ok (behindLeading (written number)) :=
  fraction_printed _ printed.positive printed.small (printed_point printed)

/-- A number of the format makes the round trip exactly if it survives.

Proof: by the cases of `Survives`. In each the decimals that the extractor finds are
known, or that it finds none, and the value decoded from them is compared with the
float: it is close to it, or clearly further than the error can make up for. -/
theorem round_trip_iff (text : Text) (number : ℚ) (denotes : numeral text = some number)
    (range : |number| ≤ greatest) : RoundTrips text number ↔ Survives number := by
  rw [Survives]
  rcases (fraction_nonneg number).eq_or_lt with zero | positive
  · rw [if_pos zero.symm, iff_true]
    have found : (fractionText (fraction number) >>= int) = .ok (0 : Nat) := zero ▸ fraction_zero
    rw [round_trip_ok text number denotes range 0 found (by decide)]
    exact zero_faithful range zero.symm
  rw [if_neg positive.ne']
  split_ifs with top positional
  · rw [round_trip_ok text number denotes range 9999 (fraction_top _ top) (by decide)]
    exact top_faithful range top
  all_goals
    have printed : Printed (fraction number) := ⟨positive, not_lt.mp top⟩
    have found := written_decimals number printed
  · rw [if_pos positional] at found
    rw [round_trip_ok text number denotes range _ found
      (first_decimals_bounds printed positional).2]
    exact positional_faithful range printed positional
  · rw [if_neg positional] at found
    by_cases many : 5 ≤ count (written number)
    · rw [if_neg (by omega),
        if_neg (by omega)] at found
      rw [round_trip_ok text number denotes range _ found (Nat.mod_lt _ (by decide)),
        and_iff_right many]
      exact scientific_faithful range printed positional many
    · refine iff_of_false ?_ fun both => many both.1
      by_cases single : count (written number) = 1
      · rw [if_pos single] at found
        exact round_trip_error text number denotes range _ found
      · rw [if_neg single, if_pos (not_le.mp many)] at found
        exact round_trip_error text number denotes range _ found

/-- A float whose fraction has many decimals makes the round trip. -/
theorem long_fraction_round_trip : RoundTrips "12.3".toList (123 / 10) :=
  (round_trip_iff "12.3".toList (123 / 10) (by decide +kernel) (by norm_num [greatest])).mpr
    (by decide +kernel)

/-- One half is in the format, is encoded as five and decoded as 0.0005. -/
theorem half_no_round_trip :
    numeral "0.5".toList = some (1 / 2) ∧ |(1 / 2 : ℚ)| ≤ greatest ∧
      ¬ RoundTrips "0.5".toList (1 / 2) := by
  refine ⟨by decide +kernel, by norm_num [greatest], ?_⟩
  rintro ⟨hex, same, faithful⟩
  have encoded : toHexString "0.5".toList = .ok "00000005".toList := by decide +kernel
  have value : hexGetFloat "00000005".toList = (5 / 10 ^ 4 : ℚ) := by decide +kernel
  have exact : nearest (1 / 2) = 1 / 2 := by decide +kernel
  obtain rfl := Except.ok.inj (same.symm.trans encoded)
  have near := faithful.near
  rw [value, exact] at near
  norm_num at near

end EventRecorder.ValueRoundTrip
