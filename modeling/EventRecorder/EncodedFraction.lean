import EventRecorder.Extractor

/-!
# The decimals the extractor keeps of a fraction

The extractor takes the first four characters behind the point of the printed
fraction. In positional notation they are its first decimals, fewer than four
where it has no more. In scientific notation they are the digits behind the
leading one, and they are no number when the exponent begins among them.
-/

namespace EventRecorder.EncodedFraction

open CText Binary64 ShortestDecimal Python Extractor

/-- The count of digits of a decimal, of which the first is not a zero unless the number
is. -/
def count (decimal : Decimal) : Nat := (Nat.toDigits 10 decimal.digits).length

/-- The place of the point, counted from before the leading digit: not positive for a
number below one. -/
def point (decimal : Decimal) : Int := count decimal + decimal.place

/-- The count of decimals, none for a number that ends in front of the point. -/
def decimals (decimal : Decimal) : Nat := (-decimal.place).toNat

/-- The number of the first four decimals, or of all decimals if there are fewer. The
extractor means to encode it as four. -/
def firstDecimals (decimal : Decimal) : Nat := decimal.digits / 10 ^ (decimals decimal - 4)

/-- The number of the four digits behind the leading one, which stand behind the point
in scientific notation. -/
def behindLeading (decimal : Decimal) : Nat := decimal.digits / 10 ^ (count decimal - 5) % 10 ^ 4

/-- Every decimal has a digit, zero too. -/
theorem count_pos (decimal : Decimal) : 0 < count decimal := Nat.length_toDigits_pos

/-- The digits of a decimal are a number below the power for their count. -/
theorem digits_lt (decimal : Decimal) : decimal.digits < 10 ^ count decimal :=
  (Nat.length_toDigits_le_iff (by decide) (count_pos decimal)).mp (Nat.le_refl _)

/-- The leading digit of a positive decimal makes its digits a number from the power for
one digit less on. -/
theorem le_digits (decimal : Decimal) (positive : 0 < decimal.digits) :
    10 ^ (count decimal - 1) ≤ decimal.digits := by
  by_contra less
  have some : 0 < count decimal - 1 := by
    rw [Nat.pos_iff_ne_zero]
    intro single
    rw [single] at less
    omega
  have shorter := (Nat.length_toDigits_le_iff (by decide) some).mpr (Nat.lt_of_not_le less)
  change count decimal ≤ _ at shorter
  omega

/-- A positive decimal below one has its point in front of its digits, by the size of
these. -/
theorem point_nonpos (decimal : Decimal) (positive : 0 < decimal.digits)
    (small : decimal.value < 1) : point decimal ≤ 0 := by
  by_contra beyond
  have unit : (0 : ℚ) < 10 ^ decimal.place := zpow_pos (by norm_num) _
  have leading : (10 : ℚ) ^ (count decimal - 1) ≤ decimal.digits := by
    exact_mod_cast le_digits decimal positive
  have large : (1 : ℚ) ≤ decimal.value := by
    calc (1 : ℚ) ≤ 10 ^ ((count decimal - 1 : Nat) + decimal.place) := by
          apply one_le_zpow₀ (by norm_num)
          have some := count_pos decimal
          rw [point] at beyond
          omega
      _ = 10 ^ (count decimal - 1) * 10 ^ decimal.place := by
          rw [zpow_add₀ (by norm_num), zpow_natCast]
      _ ≤ decimal.digits * 10 ^ decimal.place := mul_le_mul_of_nonneg_right leading unit.le
  exact absurd small large.not_gt

/-- The texts `int` accepts: digits, of which there has to be one. -/
theorem int_digits (text : Text) (some : text ≠ []) (digits : ∀ c ∈ text, c.isDigit = true) :
    int text = .ok (ofDigits 10 text) := by
  obtain ⟨c, rest, rfl⟩ := List.exists_cons_of_ne_nil some
  have sign := scan_sign_digit c (digits c (by simp)) rest
  have all : (c :: rest).all Char.isDigit = true := List.all_eq_true.mpr digits
  simp [int, denoted, sign, all]

/-- A text that begins with a digit and holds another character is no number, which an
exponent among the four characters runs into. -/
theorem int_other (text : Text) (c : Char) (digit : c.isDigit = true) (other : Char)
    (member : other ∈ text) (none : other.isDigit = false) :
    int (c :: text) = .error .valueError := by
  have sign := scan_sign_digit c digit text
  have some : (c :: text).all Char.isDigit = false := by
    rw [List.all_eq_false]
    exact ⟨other, List.mem_cons_of_mem _ member, by simp [none]⟩
  simp [int, denoted, sign, some]

/-- The piece behind the only point of a text, which is what splitting it there gives. -/
theorem second_piece_pointed (left right : Text) (before : '.' ∉ left) (behind : '.' ∉ right) :
    secondPiece '.' (left ++ '.' :: right) = .ok right := by
  rw [secondPiece, List.splitOn_append_cons_self_of_not_mem before,
    List.splitOn_eq_singleton behind]
  rfl

/-- A text without a point has no second piece, and asking for it fails. -/
theorem second_piece_plain (text : Text) (plain : '.' ∉ text) :
    secondPiece '.' text = .error .indexError := by
  rw [secondPiece, List.splitOn_eq_singleton plain]
  rfl

/-- Digits hold no point, so that splitting them does not find one. -/
theorem point_not_mem (text : Text) (digits : ∀ c ∈ text, c.isDigit = true) : '.' ∉ text := by
  intro member
  cases digits '.' member

/-- The digits of a number are digits. -/
theorem to_digits_digit (number : Nat) : ∀ c ∈ Nat.toDigits 10 number, c.isDigit = true :=
  fun _ member => Nat.isDigit_of_mem_toDigits (by decide) (by decide) member

/-- An exponent holds no point, being a sign and digits behind the letter. -/
theorem point_not_mem_exponent (exponent : Int) : '.' ∉ exponentText exponent := by
  have digits : '.' ∉ (Nat.toDigits 10 exponent.natAbs).leftpad 2 '0' :=
    point_not_mem _ (filled_all 2 10 exponent.natAbs (by decide) (·.isDigit = true) (by decide))
  rw [exponentText]
  split_ifs <;> simpa using digits

/-- Positional notation of a number below one: a zero, the point, and the decimals with
the zeros in front of them. -/
theorem pointed_eq (decimal : Decimal) (below : point decimal ≤ 0) :
    pointed (Nat.toDigits 10 decimal.digits) (point decimal) =
      ['0'] ++ '.' :: filled (decimals decimal) 10 decimal.digits := by
  have zeros : (-point decimal).toNat = decimals decimal - count decimal := by
    rw [point] at below ⊢
    rw [decimals]
    omega
  rw [pointed, if_pos below, zeros]
  rfl

/-- The number of the first four of some decimals, as a quotient by a power of ten. -/
theorem of_digits_first (decimal : Decimal) (below : point decimal ≤ 0) :
    ofDigits 10 ((filled (decimals decimal) 10 decimal.digits).take 4) = firstDecimals decimal := by
  have some := count_pos decimal
  have room : count decimal ≤ decimals decimal := by
    rw [point] at below
    rw [decimals]
    omega
  have fits : decimal.digits < 10 ^ decimals decimal :=
    (digits_lt decimal).trans_le (Nat.pow_le_pow_right (by decide) room)
  have valid : IsDigits 10 ((filled (decimals decimal) 10 decimal.digits).drop 4) :=
    fun c member => filled_is_digits _ 10 _ (by decide) (by decide) c (List.mem_of_mem_drop member)
  have quotient := (of_digits_split 10
    ((filled (decimals decimal) 10 decimal.digits).take 4) _ valid).1
  rw [List.take_append_drop, of_digits_filled _ 10 _ (by decide) (by decide), List.length_drop,
    filled_length _ 10 _ (by decide) (by omega) fits] at quotient
  exact quotient

/-- Of a fraction in positional notation the first four decimals are kept, and they are
read without the zeros in front. -/
theorem int_pointed (decimal : Decimal) (below : point decimal ≤ 0) :
    ((secondPiece '.' (pointed (Nat.toDigits 10 decimal.digits) (point decimal))).map
      (·.take 4) >>= int) = .ok (firstDecimals decimal) := by
  have digits : ∀ c ∈ filled (decimals decimal) 10 decimal.digits, c.isDigit = true :=
    filled_all _ 10 _ (by decide) (·.isDigit = true) (by decide)
  have some : (filled (decimals decimal) 10 decimal.digits).take 4 ≠ [] := by
    intro none
    have empty := congrArg List.length none
    have long : 0 < (filled (decimals decimal) 10 decimal.digits).length := by
      rw [filled, List.length_leftpad]
      exact (count_pos decimal).trans_le (Nat.le_max_right _ _)
    rw [List.length_take, List.length_nil] at empty
    omega
  rw [pointed_eq decimal below, second_piece_pointed _ _ (by decide) (point_not_mem _ digits)]
  change int ((filled (decimals decimal) 10 decimal.digits).take 4) = _
  rw [int_digits _ some fun c member => digits c (List.mem_of_mem_take member),
    of_digits_first decimal below]

/-- A single digit in scientific notation has no point behind it, so that there is no
second piece to take. -/
theorem int_scientific_single (decimal : Decimal) (single : count decimal = 1) :
    ((secondPiece '.' (scientific (Nat.toDigits 10 decimal.digits) (point decimal))).map
      (·.take 4) >>= int) = .error .indexError := by
  have plain : '.' ∉ scientific (Nat.toDigits 10 decimal.digits) (point decimal) := by
    have digits := point_not_mem _ (to_digits_digit decimal.digits)
    change (Nat.toDigits 10 decimal.digits).length = 1 at single
    rw [scientific, if_pos single, List.append_nil, List.mem_append]
    rintro (leading | exponent)
    · exact digits (List.mem_of_mem_take leading)
    · exact point_not_mem_exponent _ exponent
  rw [second_piece_plain _ plain]
  rfl

/-- Behind the point of scientific notation: the other digits and the exponent, with
nothing between them. -/
theorem second_piece_scientific (decimal : Decimal) (several : count decimal ≠ 1) :
    secondPiece '.' (scientific (Nat.toDigits 10 decimal.digits) (point decimal)) =
      .ok ((Nat.toDigits 10 decimal.digits).drop 1 ++ exponentText (point decimal - 1)) := by
  have digits := point_not_mem _ (to_digits_digit decimal.digits)
  have behind : '.' ∉ (Nat.toDigits 10 decimal.digits).drop 1 ++
      exponentText (point decimal - 1) := by
    rw [List.mem_append]
    rintro (others | exponent)
    · exact digits (List.mem_of_mem_drop others)
    · exact point_not_mem_exponent _ exponent
  change (Nat.toDigits 10 decimal.digits).length ≠ 1 at several
  rw [scientific, if_neg several, List.append_assoc, List.cons_append]
  exact second_piece_pointed _ _ (fun member => digits (List.mem_of_mem_take member)) behind

/-- Fewer than five digits in scientific notation: the exponent is cut into, and what is
left is no number. -/
theorem int_scientific_few (decimal : Decimal) (several : count decimal ≠ 1)
    (few : count decimal < 5) :
    ((secondPiece '.' (scientific (Nat.toDigits 10 decimal.digits) (point decimal))).map
      (·.take 4) >>= int) = .error .valueError := by
  have some := count_pos decimal
  have length : ((Nat.toDigits 10 decimal.digits).drop 1).length = count decimal - 1 :=
    List.length_drop
  obtain ⟨c, rest, others⟩ := List.exists_cons_of_length_pos (by omega :
    0 < ((Nat.toDigits 10 decimal.digits).drop 1).length)
  have digit : c.isDigit = true :=
    to_digits_digit decimal.digits c (List.mem_of_mem_drop (others ▸ List.mem_cons_self))
  rw [second_piece_scientific decimal several, others]
  rw [others, List.length_cons] at length
  change int (c :: (rest ++ exponentText (point decimal - 1)).take 3) = _
  apply int_other _ c digit 'e'
  · rw [List.take_append, exponentText]
    have left : ∃ more, 3 - rest.length = more + 1 := ⟨2 - rest.length, by omega⟩
    obtain ⟨more, left⟩ := left
    rw [left, List.take_succ_cons]
    simp
  · rfl

/-- The number of the digits behind the leading one, as a quotient and a remainder by
powers of ten. -/
theorem of_digits_behind (decimal : Decimal) (many : 5 ≤ count decimal) :
    ofDigits 10 (((Nat.toDigits 10 decimal.digits).drop 1).take 4) = behindLeading decimal := by
  have isDigits (text : Text) (part : text ⊆ Nat.toDigits 10 decimal.digits) : IsDigits 10 text :=
    fun c member => to_digits_all 10 decimal.digits (by decide) (digitValue · < 10) (by decide) c
      (part member)
  have length : (((Nat.toDigits 10 decimal.digits).drop 1).take 4).length = 4 := by
    change 5 ≤ (Nat.toDigits 10 decimal.digits).length at many
    rw [List.length_take, List.length_drop]
    omega
  have first := (of_digits_split 10 ((Nat.toDigits 10 decimal.digits).take 5) _
    (isDigits ((Nat.toDigits 10 decimal.digits).drop 5) (List.drop_subset _ _))).1
  have last := (of_digits_split 10 ((Nat.toDigits 10 decimal.digits).take 1)
    (((Nat.toDigits 10 decimal.digits).drop 1).take 4)
    (isDigits _ (List.Subset.trans (List.take_subset _ _) (List.drop_subset _ _)))).2
  have five : (Nat.toDigits 10 decimal.digits).take 1 ++
      ((Nat.toDigits 10 decimal.digits).drop 1).take 4 =
      (Nat.toDigits 10 decimal.digits).take 5 := by
    rw [← List.take_add]
  rw [List.take_append_drop, of_digits_to_digits 10 _ (by decide) (by decide),
    List.length_drop] at first
  rw [last, five, first, length]
  rfl

/-- Of five digits or more in scientific notation, those behind the leading one are
kept, in place of the decimals. -/
theorem int_scientific_many (decimal : Decimal) (many : 5 ≤ count decimal) :
    ((secondPiece '.' (scientific (Nat.toDigits 10 decimal.digits) (point decimal))).map
      (·.take 4) >>= int) = .ok (behindLeading decimal) := by
  have length : 4 ≤ ((Nat.toDigits 10 decimal.digits).drop 1).length := by
    change 5 ≤ (Nat.toDigits 10 decimal.digits).length at many
    rw [List.length_drop]
    omega
  have some : ((Nat.toDigits 10 decimal.digits).drop 1).take 4 ≠ [] := by
    intro none
    have empty := congrArg List.length none
    rw [List.length_take, List.length_nil] at empty
    omega
  rw [second_piece_scientific decimal (by omega)]
  change int (List.take 4 (_ ++ _)) = _
  rw [List.take_append_of_le_length length, int_digits _ some fun c member =>
    to_digits_digit decimal.digits c (List.mem_of_mem_drop (List.mem_of_mem_take member)),
    of_digits_behind decimal many]

/-- A fraction of zero is printed with one decimal and encoded as zero. -/
theorem fraction_zero : (fractionText 0 >>= int) = .ok 0 := by
  have small : ¬ nearest (9999 / 10000) < 0 :=
    (nearest_nonneg _ (by norm_num)).not_gt
  rw [fractionText, if_neg small]
  rfl

/-- A fraction above the largest decimals is encoded as these, before anything is
printed. -/
theorem fraction_top (fraction : ℚ) (top : nearest (9999 / 10000) < fraction) :
    (fractionText fraction >>= int) = .ok 9999 := by
  rw [fractionText, if_pos top]
  rfl

/-- The decimals of any other fraction, by the notation it is printed in: positional,
scientific with a single digit, with a few, and with enough of them. -/
theorem fraction_printed (fraction : ℚ) (positive : 0 < fraction)
    (small : fraction ≤ nearest (9999 / 10000))
    (below : point (shortestDecimal fraction) ≤ 0) :
    (fractionText fraction >>= int) =
      if -4 < point (shortestDecimal fraction) then .ok (firstDecimals (shortestDecimal fraction))
      else if count (shortestDecimal fraction) = 1 then .error .indexError
      else if count (shortestDecimal fraction) < 5 then .error .valueError
      else .ok (behindLeading (shortestDecimal fraction)) := by
  have text : str fraction =
      if -4 < point (shortestDecimal fraction) ∧ point (shortestDecimal fraction) ≤ 16 then
        pointed (Nat.toDigits 10 (shortestDecimal fraction).digits)
          (point (shortestDecimal fraction))
      else
        scientific (Nat.toDigits 10 (shortestDecimal fraction).digits)
          (point (shortestDecimal fraction)) := by
    rw [str, if_neg positive.ne']
    rfl
  rw [fractionText, if_neg small.not_gt, text]
  by_cases positional : -4 < point (shortestDecimal fraction)
  · rw [if_pos ⟨positional, below.trans (by decide)⟩, if_pos positional]
    exact int_pointed _ below
  · rw [if_neg (fun both => positional both.1), if_neg positional]
    split_ifs with single few
    · exact int_scientific_single _ single
    · exact int_scientific_few _ single few
    · exact int_scientific_many _ (by omega)

end EventRecorder.EncodedFraction
