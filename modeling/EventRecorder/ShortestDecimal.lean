import EventRecorder.Binary64

/-!
# The shortest decimal of a number

Where numbers are read from decimals with rounding, many decimals are read as
one number. Printing chooses the one with the fewest digits, and of those the
nearest to the number. Of the decimals with a given count of digits only the two
around the number have to be tried: between the number and any other decimal that
is read as it lies one of these.

The reading is a parameter, and so is the count of digits that no number needs
more of.
-/

namespace EventRecorder.ShortestDecimal

open Binary64

/-- A decimal: its digits as one number, and the place of the last of them as an
exponent of ten. -/
structure Decimal where
  digits : Nat
  place : Int

/-- The number a decimal stands for. -/
def Decimal.value (decimal : Decimal) : ℚ := decimal.digits * 10 ^ decimal.place

/-- The place of the last of some leading digits of a number, by the place of its first. -/
def lastPlace (number : ℚ) (count : Nat) : Int := Int.log 10 number + 1 - count

/-- A number in units of a place, so that its digits up to there are the integral part. -/
def scaled (number : ℚ) (place : Int) : ℚ := number / 10 ^ place

/-- The last decimal of a count of digits up to a number. -/
def below (number : ℚ) (count : Nat) : Decimal :=
  ⟨⌊scaled number (lastPlace number count)⌋.toNat, lastPlace number count⟩

/-- The first decimal of a count of digits from a number on. Its digits may be a power
of ten, one digit longer. -/
def above (number : ℚ) (count : Nat) : Decimal :=
  ⟨⌈scaled number (lastPlace number count)⌉.toNat, lastPlace number count⟩

/-- The decimal of a count of digits nearest to a number, which is one of these two. -/
def closest (number : ℚ) (count : Nat) : Decimal :=
  ⟨(halfEven (scaled number (lastPlace number count))).toNat, lastPlace number count⟩

section

variable (read : ℚ → ℚ) (most : Nat)

/-- The nearest decimal of a count of digits among those read as a number. No other than
the two around the number has to be tried. -/
def readBack (number : ℚ) (count : Nat) : Option Decimal :=
  if read (below number count).value = number ∧ read (above number count).value = number then
    some (closest number count)
  else if read (below number count).value = number then some (below number count)
  else if read (above number count).value = number then some (above number count)
  else none

/-- The decimal a positive number is printed as: of the first count of digits that is
read back, up to a largest. -/
def shortest (number : ℚ) : Decimal :=
  ((List.range most).findSome? (readBack read number)).getD (closest number most)

end

/-- Digits within one of the scaled number make a decimal within one unit. -/
theorem value_near (number : ℚ) (place digits : Int) (nonneg : 0 ≤ digits)
    (near : |digits - scaled number place| < 1) :
    |(⟨digits.toNat, place⟩ : Decimal).value - number| < 10 ^ place := by
  have unit : (0 : ℚ) < 10 ^ place := zpow_pos (by norm_num) _
  have whole : ((digits.toNat : Nat) : ℚ) = digits := by
    exact_mod_cast Int.toNat_of_nonneg nonneg
  have parts : (⟨digits.toNat, place⟩ : Decimal).value - number =
      (digits - scaled number place) * 10 ^ place := by
    rw [Decimal.value, scaled, whole, sub_mul, div_mul_cancel₀ _ unit.ne']
  rw [parts, abs_mul, abs_of_pos unit]
  calc _ < 1 * (10 : ℚ) ^ place := mul_lt_mul_of_pos_right near unit
    _ = 10 ^ place := one_mul _

/-- A positive number is positive in any units. -/
theorem scaled_pos (number : ℚ) (positive : 0 < number) (place : Int) : 0 < scaled number place :=
  div_pos positive (zpow_pos (by norm_num) _)

/-- The decimal below a number is within one unit of its last place. -/
theorem below_near (number : ℚ) (positive : 0 < number) (count : Nat) :
    |(below number count).value - number| < 10 ^ (below number count).place := by
  have lower := Int.floor_le (scaled number (lastPlace number count))
  have upper := Int.lt_floor_add_one (scaled number (lastPlace number count))
  apply value_near _ _ _ (Int.floor_nonneg.mpr (scaled_pos number positive _).le)
  rw [abs_lt]
  constructor <;> linarith

/-- So is the one above it. -/
theorem above_near (number : ℚ) (positive : 0 < number) (count : Nat) :
    |(above number count).value - number| < 10 ^ (above number count).place := by
  have lower := Int.le_ceil (scaled number (lastPlace number count))
  have upper := Int.ceil_lt_add_one (scaled number (lastPlace number count))
  apply value_near _ _ _ (Int.ceil_nonneg (scaled_pos number positive _).le)
  rw [abs_lt]
  constructor <;> linarith

/-- The nearest decimal is one of the two around the number, as rounding takes one of
the two integers. -/
theorem closest_cases (number : ℚ) (count : Nat) :
    closest number count = below number count ∨ closest number count = above number count := by
  rcases half_even_cases (scaled number (lastPlace number count)) with floor | ceil
  · exact .inl (by rw [closest, floor, below])
  · exact .inr (by rw [closest, ceil, above])

/-- So is the nearest one within a unit of its last place, being one of them. -/
theorem closest_near (number : ℚ) (positive : 0 < number) (count : Nat) :
    |(closest number count).value - number| < 10 ^ (closest number count).place := by
  rcases closest_cases number count with same | same
  · exact same ▸ below_near number positive count
  · exact same ▸ above_near number positive count

/-- With a leading digit, the nearest decimal is not zero, since the number is at least
one in those units. -/
theorem closest_pos (number : ℚ) (positive : 0 < number) (count : Nat) (leading : 0 < count) :
    0 < (closest number count).digits := by
  have unit : (0 : ℚ) < 10 ^ lastPlace number count := zpow_pos (by norm_num) _
  have first : ((10 : Nat) : ℚ) ^ Int.log 10 number ≤ number :=
    Int.zpow_log_le_self (by decide) positive
  have place : (10 : ℚ) ^ lastPlace number count ≤ 10 ^ Int.log 10 number :=
    zpow_le_zpow_right₀ (by norm_num) (by rw [lastPlace]; omega)
  have large : 1 ≤ scaled number (lastPlace number count) :=
    (one_le_div unit).mpr (place.trans (by exact_mod_cast first))
  have near := (abs_le.mp (half_even_near (scaled number (lastPlace number count)))).1
  have whole : (0 : ℚ) < halfEven (scaled number (lastPlace number count)) := by linarith
  exact Int.pos_iff_toNat_pos.mp (by exact_mod_cast whole)

section

variable (read : ℚ → ℚ) (most : Nat)

/-- What is read back is one of the two decimals around the number, and is read as it. -/
theorem read_back_some (number : ℚ) (count : Nat) (decimal : Decimal)
    (found : readBack read number count = some decimal) :
    read decimal.value = number ∧
      (decimal = below number count ∨ decimal = above number count) := by
  simp only [readBack] at found
  split_ifs at found with both first second
  · obtain rfl := Option.some.inj found
    rcases closest_cases number count with same | same
    · exact ⟨same ▸ both.1, .inl same⟩
    · exact ⟨same ▸ both.2, .inr same⟩
  · obtain rfl := Option.some.inj found
    exact ⟨first, .inl rfl⟩
  · obtain rfl := Option.some.inj found
    exact ⟨second, .inr rfl⟩

/-- The shortest decimal is read back, or has the largest count of digits. -/
theorem shortest_cases (number : ℚ) :
    (∃ count, readBack read number count = some (shortest read most number)) ∨
      shortest read most number = closest number most := by
  cases search : (List.range most).findSome? (readBack read number) with
  | none => exact .inr (by rw [shortest, search, Option.getD_none])
  | some decimal =>
    obtain ⟨count, _, found⟩ := List.exists_of_findSome?_eq_some search
    exact .inl ⟨count, by rw [shortest, search, Option.getD_some, found]⟩

/-- The shortest decimal lies within one unit of its last place, in either case. -/
theorem shortest_near (number : ℚ) (positive : 0 < number) :
    |(shortest read most number).value - number| < 10 ^ (shortest read most number).place := by
  rcases shortest_cases read most number with ⟨count, found⟩ | last
  · rcases (read_back_some read number count _ found).2 with same | same
    · exact same ▸ below_near number positive count
    · exact same ▸ above_near number positive count
  · exact last ▸ closest_near number positive most

/-- Its last place is at most the one above the leading digit of the number. -/
theorem shortest_place (number : ℚ) :
    (shortest read most number).place ≤ Int.log 10 number + 1 := by
  have bound (count : Nat) : lastPlace number count ≤ Int.log 10 number + 1 := by
    rw [lastPlace]
    omega
  rcases shortest_cases read most number with ⟨count, found⟩ | last
  · rcases (read_back_some read number count _ found).2 with same | same
    · exact same ▸ bound count
    · exact same ▸ bound count
  · exact last ▸ bound most

/-- It is read as the number, unless the digits allowed were too few for that. -/
theorem shortest_read (number : ℚ) :
    read (shortest read most number).value = number ∨
      (shortest read most number).place = lastPlace number most := by
  rcases shortest_cases read most number with ⟨count, found⟩ | last
  · exact .inl (read_back_some read number count _ found).1
  · exact .inr (last ▸ rfl)

/-- It is not zero, because zero is not read as a positive number. -/
theorem shortest_pos (number : ℚ) (positive : 0 < number) (leading : 0 < most)
    (zero : read 0 = 0) : 0 < (shortest read most number).digits := by
  rcases shortest_cases read most number with ⟨count, found⟩ | last
  · have back := (read_back_some read number count _ found).1
    rw [Nat.pos_iff_ne_zero]
    intro none
    rw [Decimal.value, none, Nat.cast_zero, zero_mul, zero] at back
    exact positive.ne back
  · exact last ▸ closest_pos number positive most leading

end

end EventRecorder.ShortestDecimal
