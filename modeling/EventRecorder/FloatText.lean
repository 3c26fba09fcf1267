import EventRecorder.EncodedFraction
import EventRecorder.SeventeenDigits

/-!
# The text of a float

`float (str (value))` is `value`: the digits of the shortest decimal are found again
wherever the text puts its point, and the decimal is rounded to the float it was
found for.
-/

namespace EventRecorder.FloatText

open CText Binary64 ShortestDecimal SeventeenDigits Python EncodedFraction

/-- `str (value)` of any float, with the sign in front of the text of the magnitude. -/
def strOf : Double → Text
  | .finite number => if number < 0 then '-' :: str (-number) else str number
  | .infinite => "inf".toList
  | .nan => "nan".toList

/-! ## Scanning the parts -/

/-- Digits are scanned up to what is neither a digit nor a single underscore, which may
stand between digits in Python. -/
theorem scan_digits_run (digits rest : Text) (run : ∀ c ∈ digits, c.isDigit = true)
    (stop : ∀ c ∈ rest.head?, c.isDigit = false ∧ c ≠ '_') :
    scanDigits (digits ++ rest) = (digits, rest) := by
  induction digits with
  | nil =>
    cases rest with
    | nil => rfl
    | cons c rest =>
      obtain ⟨other, plain⟩ := stop c rfl
      rw [List.nil_append]
      unfold scanDigits
      split
      · cases ‹c :: rest = []›
      · rename_i first second behind same
        obtain ⟨rfl, rest_eq⟩ := List.cons.inj same
        simp [other, rest_eq]
      · rename_i first behind _ same
        obtain ⟨rfl, rfl⟩ := List.cons.inj same
        simp [other]
  | cons c digits inductionHypothesis =>
    obtain ⟨first, others⟩ := List.forall_mem_cons.mp run
    have following := inductionHypothesis others
    have plain : ∀ next behind, digits ++ rest ≠ '_' :: next :: behind := by
      intro next behind same
      cases digits with
      | nil =>
        rw [List.nil_append] at same
        exact (stop '_' (by rw [same]; rfl)).2 rfl
      | cons digit digits =>
        obtain ⟨rfl, _⟩ := List.cons.inj same
        cases others '_' List.mem_cons_self
    rw [List.cons_append]
    unfold scanDigits
    split
    · cases ‹c :: (digits ++ rest) = []›
    · rename_i first second behind same
      exact absurd (List.cons.inj same).2 (plain second behind)
    · rename_i head behind _ same
      obtain ⟨rfl, rfl⟩ := List.cons.inj same
      rw [if_pos first, following]

/-- A character of ASCII that is not white space, which reading a numeral leaves as it
is at both ends and in between. -/
def Visible (c : Char) : Prop := isspace c = false ∧ c.toNat < 128

/-- A decimal digit of ASCII is a visible character. -/
theorem digit_visible (c : Char) (digit : c.isDigit = true) : Visible c := by
  refine ⟨digit_not_space c digit, ?_⟩
  have last : c.toNat ≤ 57 := (Bool.and_eq_true_iff.mp digit).2 |> of_decide_eq_true
  omega

/-- A text of such characters is parsed as it stands: nothing in it is mapped or stripped. -/
theorem strip_visible (text : Text) (visible : ∀ c ∈ text, Visible c) :
    strip (toAscii text) = text := by
  have skipped (part : Text) (inside : ∀ c ∈ part, isspace c = false) : skipSpace part = part := by
    cases part with
    | nil => rfl
    | cons c rest => simp [skipSpace, inside c List.mem_cons_self]
  rw [to_ascii_self text fun c member => (visible c member).2, strip,
    skipped text fun c member => (visible c member).1, skipped text.reverse, List.reverse_reverse]
  intro c member
  exact (visible c (List.mem_reverse.mp member)).1

/-- What stands behind the digits of a numeral: nothing that would be read as part of
them, and an exponent as a whole. -/
structure Tail (text : Text) (exponent : Int) : Prop where
  stop : ∀ c ∈ text.head?, c.isDigit = false ∧ c ≠ '_' ∧ c ≠ '.'
  visible : ∀ c ∈ text, Visible c
  scanned : scanExponent text = some exponent

/-- Nothing behind the digits, for an exponent of zero. -/
theorem tail_nil : Tail [] 0 := ⟨by simp, by simp, rfl⟩

/-- An exponent behind the digits, with its sign and at least two digits of its own. -/
theorem tail_exponent (exponent : Int) : Tail (exponentText exponent) exponent := by
  have digits : ∀ c ∈ (Nat.toDigits 10 exponent.natAbs).leftpad 2 '0', c.isDigit = true := by
    rw [List.leftpad]
    intro c member
    rcases List.mem_append.mp member with zero | digit
    · rw [List.eq_of_mem_replicate zero]
      rfl
    · exact to_digits_digit _ c digit
  have number : ofDigits 10 ((Nat.toDigits 10 exponent.natAbs).leftpad 2 '0') =
      exponent.natAbs := of_digits_filled 2 10 _ (by decide) (by decide)
  refine ⟨?_, ?_, ?_⟩
  · intro c first
    obtain rfl : 'e' = c := Option.some.inj first
    decide
  · intro c member
    simp only [exponentText, List.mem_cons] at member
    rcases member with rfl | sign | digit
    · exact ⟨rfl, by decide⟩
    · split_ifs at sign
      · rw [sign]
        exact ⟨rfl, by decide⟩
      · rw [sign]
        exact ⟨rfl, by decide⟩
    · exact digit_visible c (digits c digit)
  · have run := scan_digits_run _ [] digits (by simp)
    rw [List.append_nil] at run
    by_cases negative : exponent < 0
    · have sign : scanSign ('-' :: (Nat.toDigits 10 exponent.natAbs).leftpad 2 '0') =
          (true, (Nat.toDigits 10 exponent.natAbs).leftpad 2 '0') := rfl
      rw [exponentText, if_pos negative, scanExponent, sign]
      simp only [run, number]
      simp [abs_of_neg negative]
    · have sign : scanSign ('+' :: (Nat.toDigits 10 exponent.natAbs).leftpad 2 '0') =
          (false, (Nat.toDigits 10 exponent.natAbs).leftpad 2 '0') := rfl
      rw [exponentText, if_neg negative, scanExponent, sign]
      simp only [run, number]
      simp [abs_of_nonneg (not_lt.mp negative)]

/-- The sign in front of a numeral, if it is that of a negative number. -/
def minus (negative : Bool) : Text := if negative then ['-'] else []

/-- The number with that sign, so that both signs have one proof. -/
def signed (negative : Bool) (number : ℚ) : ℚ := if negative then -number else number

/-- A sign in front of a digit is scanned, and without one the digits are left as they
are. -/
theorem scan_sign_minus (negative : Bool) (digits rest : Text) (some : digits ≠ [])
    (run : ∀ c ∈ digits, c.isDigit = true) :
    scanSign (minus negative ++ (digits ++ rest)) = (negative, digits ++ rest) := by
  cases negative with
  | true => rfl
  | false =>
    obtain ⟨c, others, rfl⟩ := List.exists_cons_of_ne_nil some
    exact scan_sign_digit c (run c List.mem_cons_self) (others ++ rest)

/-- The sign is a visible character, like the digits behind it. -/
theorem minus_visible (negative : Bool) : ∀ c ∈ minus negative, Visible c := by
  cases negative with
  | true => simp [minus, Visible, isspace]
  | false => simp [minus]

/-- A numeral is read by its parts: the digits in front of the point, those behind it,
and the exponent. Every form in which a float is printed has these. -/
theorem numeral_parts (negative : Bool) (whole fraction mark tail : Text) (exponent : Int)
    (some : whole ≠ []) (wholeDigits : ∀ c ∈ whole, c.isDigit = true)
    (fractionDigits : ∀ c ∈ fraction, c.isDigit = true) (behind : Tail tail exponent)
    (marked : mark = '.' :: fraction ∨ mark = [] ∧ fraction = []) :
    numeral (minus negative ++ (whole ++ (mark ++ tail))) =
      Option.some (signed negative
        (ofDigits 10 (whole ++ fraction) * 10 ^ (exponent - fraction.length))) := by
  have visible : ∀ c ∈ minus negative ++ (whole ++ (mark ++ tail)), Visible c := by
    intro c member
    simp only [List.mem_append] at member
    rcases member with sign | digit | inside | last
    · exact minus_visible negative c sign
    · exact digit_visible c (wholeDigits c digit)
    · rcases marked with rfl | ⟨rfl, _⟩
      · rcases List.mem_cons.mp inside with rfl | digit
        · exact ⟨rfl, by decide⟩
        · exact digit_visible c (fractionDigits c digit)
      · cases inside
    · exact behind.visible c last
  have front : scanDigits (whole ++ (mark ++ tail)) = (whole, mark ++ tail) := by
    apply scan_digits_run whole _ wholeDigits
    intro c first
    rcases marked with rfl | ⟨rfl, _⟩
    · obtain rfl : '.' = c := Option.some.inj first
      decide
    · have stop := behind.stop c first
      exact ⟨stop.1, stop.2.1⟩
  have decimals : scanFraction (mark ++ tail) = (fraction, tail) := by
    rcases marked with rfl | ⟨rfl, rfl⟩
    · rw [List.cons_append, scanFraction]
      apply scan_digits_run fraction tail fractionDigits
      intro c first
      have stop := behind.stop c first
      exact ⟨stop.1, stop.2.1⟩
    · rw [List.nil_append]
      unfold scanFraction
      split
      · exact absurd rfl (behind.stop '.' rfl).2.2
      · rfl
  have full : whole ++ fraction ≠ [] := List.append_ne_nil_of_left_ne_nil some _
  simp only [numeral, strip_visible _ visible, scan_sign_minus negative whole _ some wholeDigits,
    front, decimals, if_neg full, behind.scanned, Option.map_some]
  rfl

/-! ## The text of a number -/

section

variable (negative : Bool) (decimal : Decimal)

/-- The value of a decimal by its digits, wherever the point was put and the exponent
chosen to go with it. -/
theorem value_eq (text : Text) (place : Int) (denoted : ofDigits 10 text = decimal.digits)
    (same : place = decimal.place) :
    (ofDigits 10 text : ℚ) * 10 ^ place = decimal.value := by
  rw [denoted, same, Decimal.value]

/-- The zeros with which a numeral is filled up are digits. -/
theorem zeros_digits (count : Nat) : ∀ c ∈ List.replicate count '0', c.isDigit = true := by
  intro c member
  rw [List.eq_of_mem_replicate member]
  rfl

/-- The digits of a decimal denote it with the point in front of them, behind the zeros
that its place asks for; -/
theorem numeral_below (below : point decimal ≤ 0) :
    numeral (minus negative ++ pointed (Nat.toDigits 10 decimal.digits) (point decimal)) =
      some (signed negative decimal.value) := by
  have digits := to_digits_digit decimal.digits
  have read := numeral_parts negative ['0']
    (List.replicate (-point decimal).toNat '0' ++ Nat.toDigits 10 decimal.digits)
    ('.' :: (List.replicate (-point decimal).toNat '0' ++ Nat.toDigits 10 decimal.digits)) [] 0
    (by simp) (zeros_digits 1)
    (fun c member => (List.mem_append.mp member).elim (zeros_digits _ c) (digits c))
    tail_nil (.inl rfl)
  have denoted : ofDigits 10 (['0'] ++ (List.replicate (-point decimal).toNat '0' ++
      Nat.toDigits 10 decimal.digits)) = decimal.digits := by
    rw [← List.append_assoc, ← List.replicate_one, List.replicate_append_replicate,
      of_digits_zeros, of_digits_to_digits 10 _ (by decide) (by decide)]
  rw [value_eq decimal _ _ denoted] at read
  · rw [pointed, if_pos below]
    simpa using read
  · have length : (Nat.toDigits 10 decimal.digits).length = count decimal := rfl
    have place : point decimal = count decimal + decimal.place := rfl
    rw [List.length_append, List.length_replicate, length]
    omega

/-- behind them, with zeros in between and one more behind the point; -/
theorem numeral_above (above : (count decimal : Int) ≤ point decimal) :
    numeral (minus negative ++ pointed (Nat.toDigits 10 decimal.digits) (point decimal)) =
      some (signed negative decimal.value) := by
  have digits := to_digits_digit decimal.digits
  have positive := count_pos decimal
  have length : (Nat.toDigits 10 decimal.digits).length = count decimal := rfl
  have some : Nat.toDigits 10 decimal.digits ≠ [] :=
    List.ne_nil_of_length_pos Nat.length_toDigits_pos
  have zero : ¬ point decimal ≤ 0 := by omega
  have read := numeral_parts negative
    (Nat.toDigits 10 decimal.digits ++ List.replicate (point decimal - count decimal).toNat '0')
    ['0'] ['.', '0'] [] 0 (List.append_ne_nil_of_left_ne_nil some _)
    (fun c member => (List.mem_append.mp member).elim (digits c) (zeros_digits _ c))
    (zeros_digits 1) tail_nil (.inl rfl)
  have value : (ofDigits 10 (Nat.toDigits 10 decimal.digits ++
      List.replicate (point decimal - count decimal).toNat '0' ++ ['0']) : ℚ) *
        10 ^ ((0 : Int) - (['0'] : Text).length) = decimal.value := by
    have none := of_digits_zeros 10 ((point decimal - count decimal).toNat + 1) []
    rw [List.append_nil, of_digits_nil] at none
    have place : decimal.place = ((point decimal - count decimal).toNat : Int) := by
      have sum : point decimal = count decimal + decimal.place := rfl
      omega
    rw [List.append_assoc, ← List.replicate_one, List.replicate_append_replicate,
      of_digits_append_eq, none, of_digits_to_digits 10 _ (by decide) (by decide),
      List.length_replicate, Decimal.value, place, zpow_natCast, pow_succ]
    push_cast
    norm_num
    ring
  rw [value] at read
  rw [pointed, if_neg zero, length, if_pos above]
  simpa using read

/-- between them, which is where the point goes without any zeros; -/
theorem numeral_between (below : 0 < point decimal) (above : point decimal < count decimal) :
    numeral (minus negative ++ pointed (Nat.toDigits 10 decimal.digits) (point decimal)) =
      some (signed negative decimal.value) := by
  have digits := to_digits_digit decimal.digits
  have length : (Nat.toDigits 10 decimal.digits).length = count decimal := rfl
  have read := numeral_parts negative
    ((Nat.toDigits 10 decimal.digits).take (point decimal).toNat)
    ((Nat.toDigits 10 decimal.digits).drop (point decimal).toNat)
    ('.' :: (Nat.toDigits 10 decimal.digits).drop (point decimal).toNat) [] 0
    (List.ne_nil_of_length_pos (by rw [List.length_take]; omega))
    (fun c member => digits c (List.mem_of_mem_take member))
    (fun c member => digits c (List.mem_of_mem_drop member)) tail_nil (.inl rfl)
  rw [List.take_append_drop, value_eq decimal _ _
    (of_digits_to_digits 10 _ (by decide) (by decide))] at read
  · rw [pointed, if_neg below.not_ge, length, if_neg above.not_ge]
    simpa using read
  · have place : point decimal = count decimal + decimal.place := rfl
    rw [List.length_drop, length]
    omega

/-- and with an exponent, behind the first digit. -/
theorem numeral_scientific :
    numeral (minus negative ++ scientific (Nat.toDigits 10 decimal.digits) (point decimal)) =
      some (signed negative decimal.value) := by
  have digits := to_digits_digit decimal.digits
  have positive := count_pos decimal
  have length : (Nat.toDigits 10 decimal.digits).length = count decimal := rfl
  have read := numeral_parts negative ((Nat.toDigits 10 decimal.digits).take 1)
    ((Nat.toDigits 10 decimal.digits).drop 1)
    (if (Nat.toDigits 10 decimal.digits).length = 1 then []
      else '.' :: (Nat.toDigits 10 decimal.digits).drop 1)
    (exponentText (point decimal - 1)) (point decimal - 1)
    (List.ne_nil_of_length_pos (by rw [List.length_take]; omega))
    (fun c member => digits c (List.mem_of_mem_take member))
    (fun c member => digits c (List.mem_of_mem_drop member)) (tail_exponent _)
    (by
      split_ifs with single
      · exact .inr ⟨rfl, List.drop_eq_nil_of_le single.le⟩
      · exact .inl rfl)
  rw [List.take_append_drop, value_eq decimal _ _
    (of_digits_to_digits 10 _ (by decide) (by decide))] at read
  · rw [scientific, List.append_assoc]
    exact read
  · have place : point decimal = count decimal + decimal.place := rfl
    rw [List.length_drop, length]
    omega

end

/-- A positive number is written as its shortest decimal, in one of these four forms,
and each of them denotes it. -/
theorem numeral_str (negative : Bool) (number : ℚ) (positive : 0 < number) :
    numeral (minus negative ++ str number) =
      some (signed negative (shortestDecimal number).value) := by
  have place : ((Nat.toDigits 10 (shortestDecimal number).digits).length : Int) +
      (shortestDecimal number).place = point (shortestDecimal number) := rfl
  rw [str, if_neg positive.ne']
  simp only [place]
  split_ifs with positional
  · rcases le_or_gt (point (shortestDecimal number)) 0 with below | some
    · exact numeral_below negative _ below
    · rcases le_or_gt (count (shortestDecimal number) : Int) (point (shortestDecimal number))
        with above | inside
      · exact numeral_above negative _ above
      · exact numeral_between negative _ some inside
  · exact numeral_scientific negative _

/-- A float that a text can be read as: a double in range, an infinite one or none. -/
def IsFloat : Double → Prop
  | .finite number => nearest number = number ∧ |number| < limit
  | .infinite => True
  | .nan => True

/-- What a text is read as is one: a number read is rounded, and is infinite from the
limit on. -/
theorem float_is_float (text : Text) (value : Double) (read : float text = .ok value) :
    IsFloat value := by
  unfold float at read
  split at read
  · split_ifs at read with large
    · obtain rfl := Except.ok.inj read
      trivial
    · obtain rfl := Except.ok.inj read
      exact ⟨nearest_nearest _, not_le.mp large⟩
  · dsimp only at read
    split_ifs at read
    · obtain rfl := Except.ok.inj read
      trivial
    · obtain rfl := Except.ok.inj read
      trivial

/-- A float is read back from its text.

Proof: the text of a number denotes its shortest decimal, and rounding that gives the
number, which is what makes it a decimal of it. -/
theorem float_str (value : Double) (written : IsFloat value) :
    float (strOf value) = .ok value := by
  cases value with
  | infinite => rfl
  | nan => rfl
  | finite number =>
    obtain ⟨exact, small⟩ := written
    have back (magnitude : ℚ) (positive : 0 < magnitude)
        (double : nearest magnitude = magnitude) :
        nearest (shortestDecimal magnitude).value = magnitude :=
      shortest_reads magnitude positive double
    rw [strOf]
    split_ifs with negative
    · have positive : 0 < -number := neg_pos.mpr negative
      have text : numeral ('-' :: str (-number)) = some (-(shortestDecimal (-number)).value) :=
        numeral_str true (-number) positive
      have rounded : nearest (-(shortestDecimal (-number)).value) = number := by
        rw [nearest_neg, back (-number) positive (by rw [nearest_neg, exact]), neg_neg]
      simp only [float, text, rounded, if_neg small.not_ge]
    · rcases (not_lt.mp negative).eq_or_lt with rfl | positive
      · decide +kernel
      · have text : numeral (str number) = some (shortestDecimal number).value :=
          numeral_str false number positive
        simp only [float, text, back number positive exact, if_neg small.not_ge]

end EventRecorder.FloatText
