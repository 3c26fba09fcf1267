import EventRecorder.ShortestDecimal

/-!
# Seventeen digits

A double is read back from a decimal that is off by less than half a unit of its
seventeenth digit. Between two powers of two the doubles lie further apart than that,
and below a power of two, where they lie twice as close, only the power itself is
affected, which is as large as the numbers below it get.

So a double is read back from the shortest decimal that was found for it, whether or
not fewer digits were enough.
-/

namespace EventRecorder.SeventeenDigits

open Binary64 ShortestDecimal

/-- Rounding finds a whole number that is nearer than one half, as no other is as near. -/
theorem half_even_of_near (number : ℚ) (whole : Int) (near : |number - whole| < 1 / 2) :
    halfEven number = whole := by
  have rounded := abs_le.mp (half_even_near number)
  rw [abs_lt] at near
  have above : (halfEven number : ℚ) < whole + 1 := by linarith
  have below : (whole : ℚ) < halfEven number + 1 := by linarith
  have upper : halfEven number < whole + 1 := by exact_mod_cast above
  have lower : whole < halfEven number + 1 := by exact_mod_cast below
  omega

/-- A number is rounded to a multiple of its quantum that is nearer than one half of
it. -/
theorem nearest_of_near (number : ℚ) (whole : Int)
    (near : |number - whole * quantum number| < quantum number / 2) :
    nearest number = whole * quantum number := by
  have positive := quantum_pos number
  rw [nearest, half_even_of_near]
  have scaled : number / quantum number - whole =
      (number - whole * quantum number) / quantum number := by
    rw [sub_div, mul_div_cancel_right₀ _ positive.ne']
  rw [scaled, abs_div, abs_of_pos positive, div_lt_iff₀ positive]
  linarith

/-- The exponent of the quantum, which comparisons of quanta are made by. -/
def quantumExponent (number : ℚ) : Int := max (Int.log 2 |number| - 52) (-1074)

/-- The quantum is the power of two with that exponent. -/
theorem quantum_eq (number : ℚ) : quantum number = 2 ^ quantumExponent number := rfl

/-- An exponent above another one is not the least, so that it follows from the size of
the number. -/
theorem coarse_exponent (number finer : ℚ)
    (coarse : quantumExponent finer < quantumExponent number) :
    quantumExponent number = Int.log 2 |number| - 52 := by
  have least : -1074 ≤ quantumExponent finer := le_max_right _ _
  have above : -1074 < max (Int.log 2 |number| - 52) (-1074) := least.trans_lt coarse
  exact max_eq_left (by omega)

/-- A power of two that is not below the quantum is a multiple of it, and hence a
double. -/
theorem power_multiple (number : ℚ) (exponent : Int) (large : quantumExponent number ≤ exponent) :
    (2 : ℚ) ^ exponent =
      ((2 ^ (exponent - quantumExponent number).toNat : Int) : ℚ) * quantum number := by
  have split : exponent = ((exponent - quantumExponent number).toNat : Int) +
      quantumExponent number := by omega
  conv_lhs => rw [split]
  rw [zpow_add₀ (by norm_num), zpow_natCast, quantum_eq]
  push_cast
  rfl

/-- A number is below as many quanta as a significand can count, because the quantum has
its last bit at least. -/
theorem lt_quanta (number : ℚ) : |number| < 2 ^ 53 * quantum number := by
  have next : |number| < ((2 : ℕ) : ℚ) ^ (Int.log 2 |number| + 1) :=
    Int.lt_zpow_succ_log_self (by decide) _
  have exponent : Int.log 2 |number| + 1 ≤ 53 + quantumExponent number := by
    rw [quantumExponent]
    omega
  calc |number| < (2 : ℚ) ^ (Int.log 2 |number| + 1) := by exact_mod_cast next
    _ ≤ 2 ^ (53 + quantumExponent number) := zpow_le_zpow_right₀ (by norm_num) exponent
    _ = 2 ^ 53 * quantum number := by
      rw [zpow_add₀ (by norm_num), quantum_eq]
      norm_num

/-- A double is a multiple of its quantum, which is what rounding leaves alone. -/
theorem double_multiple (double : ℚ) (exact : nearest double = double) :
    ∃ whole : Int, double = whole * quantum double :=
  ⟨_, exact.symm⟩

/-- A multiple of a power of two is one of the quanta of a number no larger than the
power allows. -/
theorem multiple_of_multiple (number : ℚ) (whole : Int) (exponent : Int)
    (large : quantumExponent number ≤ exponent) :
    ∃ multiple : Int, (whole : ℚ) * 2 ^ exponent = multiple * quantum number := by
  refine ⟨whole * 2 ^ (exponent - quantumExponent number).toNat, ?_⟩
  rw [power_multiple number exponent large]
  push_cast
  ring

/-- Two multiples of a positive unit are the same or a unit apart. -/
theorem multiples_apart (unit : ℚ) (positive : 0 < unit) (first second : Int)
    (below : (first : ℚ) * unit < second * unit) :
    (first : ℚ) * unit + unit ≤ second * unit := by
  have less : (first : ℚ) < second := lt_of_mul_lt_mul_right below positive.le
  have next : first + 1 ≤ second := by exact_mod_cast less
  have step : ((first : ℚ) + 1) * unit ≤ second * unit :=
    mul_le_mul_of_nonneg_right (by exact_mod_cast next) positive.le
  linarith

/-- What is rounded is a double: rounding it again changes nothing, even if the number
was rounded up to a power of two. -/
theorem nearest_nearest (number : ℚ) : nearest (nearest number) = nearest number := by
  by_cases zero : nearest number = 0
  · rw [zero, nearest_zero]
  set whole := halfEven (number / quantum number) with rounded
  have value : nearest number = whole * 2 ^ quantumExponent number := rfl
  have positive := quantum_pos number
  -- The significand that results is at most one that is all ones, or the next power.
  have bound : |(whole : ℚ)| ≤ 2 ^ 53 := by
    have scaled : |number / quantum number| < 2 ^ 53 := by
      rw [abs_div, abs_of_pos positive, div_lt_iff₀ positive]
      exact lt_quanta number
    have near := half_even_near (number / quantum number)
    have apart : |(whole : ℚ)| < 2 ^ 53 + 1 := by
      have triangle := abs_sub_abs_le_abs_sub (whole : ℚ) (number / quantum number)
      linarith
    have counted : |whole| < 2 ^ 53 + 1 := by exact_mod_cast apart
    have most : |whole| ≤ 2 ^ 53 := by omega
    exact_mod_cast most
  have magnitude : |nearest number| = |(whole : ℚ)| * 2 ^ quantumExponent number := by
    rw [value, abs_mul, abs_of_pos (zpow_pos (by norm_num : (0 : ℚ) < 2) _)]
  have exactly (multiple : Int) (same : nearest number = multiple * quantum (nearest number)) :
      nearest (nearest number) = nearest number := by
    rw [nearest_of_near (nearest number) multiple, ← same]
    rw [← same, sub_self, abs_zero]
    exact half_pos (quantum_pos _)
  by_cases power : |(whole : ℚ)| = 2 ^ 53
  · -- It is a power of two, whose quantum is the next one.
    have log : Int.log 2 |nearest number| = 53 + quantumExponent number := by
      rw [magnitude, power]
      have joined : (2 : ℚ) ^ 53 * 2 ^ quantumExponent number =
          ((2 : ℕ) : ℚ) ^ (53 + quantumExponent number) := by
        rw [Nat.cast_ofNat, zpow_add₀ (by norm_num)]
        norm_num
      rw [joined]
      exact Int.log_zpow (by decide) _
    have exponent : quantumExponent (nearest number) ≤ quantumExponent number + 1 := by
      have least : -1074 ≤ quantumExponent number := le_max_right _ _
      rw [quantumExponent, log]
      omega
    have even : ∃ half : Int, whole = half * 2 := by
      have whole_power : |whole| = 2 ^ 53 := by exact_mod_cast power
      rcases abs_eq (by positivity) |>.mp whole_power with same | same
      · exact ⟨2 ^ 52, by omega⟩
      · exact ⟨-2 ^ 52, by omega⟩
    obtain ⟨half, doubled⟩ := even
    have next : nearest number = half * 2 ^ (quantumExponent number + 1) := by
      rw [value, doubled, zpow_add₀ (by norm_num)]
      push_cast
      ring
    obtain ⟨multiple, same⟩ := multiple_of_multiple (nearest number) half _ exponent
    exact exactly multiple (next.trans same)
  · have small : |(whole : ℚ)| < 2 ^ 53 := lt_of_le_of_ne bound power
    have exponent : quantumExponent (nearest number) ≤ quantumExponent number := by
      have least : -1074 ≤ quantumExponent number := le_max_right _ _
      have below : |nearest number| < ((2 : ℕ) : ℚ) ^ (53 + quantumExponent number) := by
        rw [magnitude, Nat.cast_ofNat, zpow_add₀ (by norm_num)]
        have positive : (0 : ℚ) < 2 ^ quantumExponent number := zpow_pos (by norm_num) _
        have scaled := mul_lt_mul_of_pos_right small positive
        exact_mod_cast scaled
      have log := (Int.lt_zpow_iff_log_lt (by decide) (abs_pos.mpr zero)).mp below
      rw [quantumExponent]
      omega
    obtain ⟨multiple, same⟩ := multiple_of_multiple (nearest number) whole _ exponent
    exact exactly multiple (value.trans same)

/-- Rounding to an integer does not depend on the sign, as the even of two integers
stays even. -/
theorem half_even_neg (number : ℚ) : halfEven (-number) = -halfEven number := by
  have lower := Int.floor_le number
  have upper := Int.lt_floor_add_one number
  rcases lower.eq_or_lt with whole | between
  · rw [half_even_of_near (-number) (-⌊number⌋), half_even_of_near number ⌊number⌋]
    · rw [whole, sub_self, abs_zero]
      norm_num
    · rw [Int.cast_neg, whole, sub_self, abs_zero]
      norm_num
  · have below : ⌊-number⌋ = -⌊number⌋ - 1 := by
      rw [Int.floor_eq_iff]
      push_cast
      constructor <;> linarith
    simp only [halfEven, below]
    push_cast
    split_ifs <;> first | omega | linarith

/-- Nor does rounding to a double. -/
theorem nearest_neg (number : ℚ) : nearest (-number) = -nearest number := by
  have same : quantum (-number) = quantum number := by rw [quantum, quantum, abs_neg]
  rw [nearest, same, neg_div, half_even_neg, Int.cast_neg, neg_mul]
  rfl

section

variable {double read : ℚ}

/-- What is close to a double is closer than half of its quantum, by the count of quanta
in it. -/
theorem close_lt (positive : 0 < double) (close : |read - double| ≤ double / (2 * 10 ^ 16)) :
    |read - double| < quantum double / 2 := by
  have quanta := lt_quanta double
  rw [abs_of_pos positive] at quanta
  have unit := quantum_pos double
  calc |read - double| ≤ double / (2 * 10 ^ 16) := close
    _ < quantum double / 2 := by
      rw [div_lt_div_iff₀ (by norm_num) (by norm_num)]
      norm_num at quanta ⊢
      linarith

/-- A double with fewer quanta than what is close to it does not exist: between the two
there would be a power of two that is nearer. -/
theorem close_not_above (positive : 0 < double) (exact : nearest double = double)
    (close : |read - double| ≤ double / (2 * 10 ^ 16)) :
    quantumExponent read ≤ quantumExponent double := by
  by_contra above
  rw [not_le] at above
  have near := close_lt positive close
  have log := coarse_exponent read double above
  have some : read ≠ 0 := by
    rintro rfl
    rw [zero_sub, abs_neg, abs_of_pos positive, le_div_iff₀ (by norm_num)] at close
    linarith
  have power : (2 : ℚ) ^ Int.log 2 |read| ≤ |read| := by
    have first := Int.zpow_log_le_self (b := 2) (by decide) (abs_pos.mpr some)
    exact_mod_cast first
  have small : double < 2 ^ Int.log 2 |read| := by
    have next : |double| < ((2 : ℕ) : ℚ) ^ (Int.log 2 |double| + 1) :=
      Int.lt_zpow_succ_log_self (by decide) _
    have order : Int.log 2 |double| + 1 ≤ Int.log 2 |read| := by
      have own : Int.log 2 |double| - 52 ≤ quantumExponent double := le_max_left _ _
      omega
    rw [abs_of_pos positive] at next order
    calc double < (2 : ℚ) ^ (Int.log 2 double + 1) := by exact_mod_cast next
      _ ≤ 2 ^ Int.log 2 |read| := zpow_le_zpow_right₀ (by norm_num) order
  obtain ⟨whole, multiple⟩ := double_multiple double exact
  have larger := power_multiple double (Int.log 2 |read|) (by omega)
  rw [larger] at small power
  have apart := multiples_apart _ (quantum_pos double) whole _ (multiple.symm.trans_lt small)
  rw [← multiple] at apart
  have unit := quantum_pos double
  rw [abs_lt] at near
  rcases abs_cases read with ⟨same, _⟩ | ⟨same, negative⟩
  · linarith
  · linarith

/-- Where what is close has a finer quantum, the double is a power of two, and its
quantum is twice as large. -/
theorem close_below_power (positive : 0 < double) (exact : nearest double = double)
    (close : |read - double| ≤ double / (2 * 10 ^ 16))
    (below : quantumExponent read < quantumExponent double) :
    double = 2 ^ Int.log 2 double ∧ quantum double = 2 * quantum read := by
  have near := close_lt positive close
  have unit := quantum_pos double
  have half : double / 2 < read := by
    rw [abs_le] at close
    have tiny : double / (2 * 10 ^ 16) < double / 2 := by
      rw [div_lt_div_iff₀ (by norm_num) (by norm_num)]
      linarith
    linarith
  have readPositive : 0 < read := (half_pos positive).trans half
  have log := coarse_exponent double read below
  rw [abs_of_pos positive] at log
  have order : Int.log 2 read < Int.log 2 double := by
    have finer : Int.log 2 read - 52 ≤ quantumExponent read := by
      rw [quantumExponent, abs_of_pos readPositive]
      exact le_max_left _ _
    omega
  have power : (2 : ℚ) ^ Int.log 2 double ≤ double := by
    have first := Int.zpow_log_le_self (b := 2) (by decide) positive
    exact_mod_cast first
  have small : read < 2 ^ Int.log 2 double := by
    have next : read < ((2 : ℕ) : ℚ) ^ (Int.log 2 read + 1) :=
      Int.lt_zpow_succ_log_self (by decide) _
    calc read < (2 : ℚ) ^ (Int.log 2 read + 1) := by exact_mod_cast next
      _ ≤ 2 ^ Int.log 2 double := zpow_le_zpow_right₀ (by norm_num) (by omega)
  have same : double = 2 ^ Int.log 2 double := by
    by_contra other
    have more : (2 : ℚ) ^ Int.log 2 double < double := lt_of_le_of_ne power (Ne.symm other)
    obtain ⟨whole, multiple⟩ := double_multiple double exact
    have smaller := power_multiple double (Int.log 2 double) (by omega)
    rw [smaller] at more small
    have apart := multiples_apart _ unit _ whole (more.trans_eq multiple)
    rw [← multiple] at apart
    rw [abs_lt] at near
    linarith
  refine ⟨same, ?_⟩
  have next : Int.log 2 double - 1 ≤ Int.log 2 read := by
    have lower : ((2 : ℕ) : ℚ) ^ (Int.log 2 double - 1) ≤ read := by
      rw [Nat.cast_ofNat, zpow_sub_one₀ (by norm_num), ← same]
      linarith
    exact (Int.zpow_le_iff_le_log (by decide) readPositive).mp lower
  have exponent : quantumExponent double = 1 + quantumExponent read := by
    have finer : quantumExponent read = max (Int.log 2 read - 52) (-1074) := by
      rw [quantumExponent, abs_of_pos readPositive]
    omega
  rw [quantum_eq, quantum_eq, exponent, zpow_add₀ (by norm_num), zpow_one]

/-- A double is what a number close to it is rounded to.

Proof: the double is a multiple of the quantum of the number, which is not coarser than
its own. If the two are the same, what is close is less than half of it away, by
`close_lt`. If it is finer, the double is a power of two and as many of its own quanta,
so that half of the finer one is still more. -/
theorem nearest_of_close (positive : 0 < double) (exact : nearest double = double)
    (close : |read - double| ≤ double / (2 * 10 ^ 16)) : nearest read = double := by
  have near := close_lt positive close
  have above := close_not_above positive exact close
  obtain ⟨whole, multiple⟩ := double_multiple double exact
  obtain ⟨count, counted⟩ := multiple_of_multiple read whole _ above
  rw [← quantum_eq, ← multiple] at counted
  rw [counted]
  apply nearest_of_near
  rw [← counted]
  rcases above.lt_or_eq with below | same
  · obtain ⟨power, twice⟩ := close_below_power positive exact close below
    have unit := quantum_pos read
    have size : double = 2 ^ 52 * quantum double := by
      have log := coarse_exponent double read below
      rw [abs_of_pos positive] at log
      have split : Int.log 2 double = 52 + quantumExponent double := by omega
      conv_lhs => rw [power, split, zpow_add₀ (by norm_num)]
      rw [quantum_eq]
      norm_num
    calc |read - double| ≤ double / (2 * 10 ^ 16) := close
      _ < quantum read / 2 := by
        rw [size, twice, div_lt_div_iff₀ (by norm_num) (by norm_num)]
        norm_num
        linarith
  · rw [quantum_eq, same]
    exact near

end

/-- The nearest decimal of seventeen digits is off by at most half a unit of the
seventeenth. -/
theorem closest_close (number : ℚ) (positive : 0 < number) :
    |(closest number 17).value - number| ≤ number / (2 * 10 ^ 16) := by
  have unit : (0 : ℚ) < 10 ^ lastPlace number 17 := zpow_pos (by norm_num) _
  have near := half_even_near (scaled number (lastPlace number 17))
  have nonneg := half_even_nonneg _ (scaled_pos number positive (lastPlace number 17)).le
  have whole : ((halfEven (scaled number (lastPlace number 17))).toNat : ℚ) =
      halfEven (scaled number (lastPlace number 17)) := by
    exact_mod_cast Int.toNat_of_nonneg nonneg
  have parts : (closest number 17).value - number =
      (halfEven (scaled number (lastPlace number 17)) - scaled number (lastPlace number 17)) *
        10 ^ lastPlace number 17 := by
    rw [Decimal.value, closest, whole, sub_mul, scaled, div_mul_cancel₀ _ unit.ne']
  have first : (10 : ℚ) ^ Int.log 10 number ≤ number := by
    have power := Int.zpow_log_le_self (b := 10) (by decide) positive
    exact_mod_cast power
  have place : (10 : ℚ) ^ lastPlace number 17 * 10 ^ 16 = 10 ^ Int.log 10 number := by
    have split : Int.log 10 number = lastPlace number 17 + 16 := by
      rw [lastPlace]
      push_cast
      ring
    rw [split, zpow_add₀ (by norm_num)]
    norm_num
  rw [parts, abs_mul, abs_of_pos unit, le_div_iff₀ (by norm_num)]
  calc _ ≤ 1 / 2 * (10 : ℚ) ^ lastPlace number 17 * (2 * 10 ^ 16) := by gcongr
    _ = 10 ^ lastPlace number 17 * 10 ^ 16 := by ring
    _ ≤ number := place.trans_le first

/-- A double is read back from its shortest decimal, since seventeen digits are always
close enough to be considered. -/
theorem shortest_reads (double : ℚ) (positive : 0 < double) (exact : nearest double = double) :
    nearest (shortest nearest 17 double).value = double := by
  rcases shortest_cases nearest 17 double with ⟨count, found⟩ | last
  · exact (read_back_some nearest double count _ found).1
  · rw [last]
    exact nearest_of_close positive exact (closest_close double positive)

end EventRecorder.SeventeenDigits
