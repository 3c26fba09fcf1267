import EventRecorder.CInput
import Mathlib.Data.List.Induction
import Mathlib.Tactic.Ring

/-!
# Numerals of a base

Reading the digits of a number gives the number back, also with zeros in front.
Of a numeral of given length, the leading digits are a quotient and the last ones
a remainder. One numeral is the beginning of another when its number is the other
without its last digits.
-/

namespace EventRecorder.CText

/-- The digits of a number in a base, with zeros in front up to a width. A number with
more digits than that keeps them all. -/
def filled (width base number : Nat) : Text := (Nat.toDigits base number).leftpad width '0'

/-- A text of digits below a base, such as numerals of the base have. -/
def IsDigits (base : Nat) (text : Text) : Prop := ∀ c ∈ text, digitValue c < base

/-- Writing a digit and reading it: up to sixteen they are few enough to look at each. -/
theorem digit_value_digit_char : ∀ n < 16, digitValue n.digitChar = n := by decide

/-- The digits below sixteen are hexadecimal ones for `isxdigit` too. -/
theorem isxdigit_digit_char : ∀ n < 16, isxdigit n.digitChar = true := by decide

/-- Without digits the number is zero. -/
@[simp] theorem of_digits_nil (base : Nat) : ofDigits base [] = 0 := rfl

/-- A digit behind the others moves these up by one place. -/
@[simp] theorem of_digits_snoc (base : Nat) (digits : Text) (c : Char) :
    ofDigits base (digits ++ [c]) = ofDigits base digits * base + digitValue c := by
  simp [ofDigits]

/-- Digits that follow move the others to higher places, by as many as they are. By
induction on the digits that follow, from their end. -/
theorem of_digits_append_eq (base : Nat) (digits rest : Text) :
    ofDigits base (digits ++ rest) =
      ofDigits base digits * base ^ rest.length + ofDigits base rest := by
  induction rest using List.reverseRecOn with
  | nil => simp
  | append_singleton rest c inductionHypothesis =>
    rw [← List.append_assoc, of_digits_snoc, inductionHypothesis, of_digits_snoc,
      List.length_append, List.length_singleton]
    ring

/-- Zeros in front do not count, however many there are. -/
theorem of_digits_zeros (base count : Nat) (digits : Text) :
    ofDigits base (List.replicate count '0' ++ digits) = ofDigits base digits := by
  induction count with
  | zero => rfl
  | succ count inductionHypothesis =>
    have first : 0 * base + digitValue '0' = 0 := by
      rw [Nat.zero_mul]
      rfl
    rw [List.replicate_succ, List.cons_append, ofDigits, List.foldl_cons, first]
    exact inductionHypothesis

/-- A numeral is below the power of its length, as each of its digits is below the base. -/
theorem of_digits_lt (base : Nat) (digits : Text) (valid : IsDigits base digits) :
    ofDigits base digits < base ^ digits.length := by
  induction digits using List.reverseRecOn with
  | nil => simp
  | append_singleton digits c inductionHypothesis =>
    have shorter := inductionHypothesis fun d member => valid d (List.mem_append_left _ member)
    have last := valid c (by simp)
    rw [of_digits_snoc, List.length_append, List.length_singleton, pow_succ]
    calc ofDigits base digits * base + digitValue c
        < ofDigits base digits * base + base := Nat.add_lt_add_left last _
      _ = (ofDigits base digits + 1) * base := by ring
      _ ≤ base ^ digits.length * base := Nat.mul_le_mul_right _ shorter

/-- A cut numeral: its front is the quotient of the number by the power of the length
behind the cut, and what follows is the remainder. -/
theorem of_digits_split (base : Nat) (digits rest : Text) (valid : IsDigits base rest) :
    ofDigits base digits = ofDigits base (digits ++ rest) / base ^ rest.length ∧
      ofDigits base rest = ofDigits base (digits ++ rest) % base ^ rest.length := by
  have low := of_digits_lt base rest valid
  have positive : 0 < base ^ rest.length := Nat.zero_lt_of_lt low
  rw [of_digits_append_eq]
  constructor
  · rw [Nat.mul_comm, Nat.mul_add_div positive, Nat.div_eq_of_lt low, Nat.add_zero]
  · rw [Nat.mul_add_mod_of_lt low]

/-- Writing a number and reading it gives the number back, in any base whose digits can
be told apart. -/
theorem of_digits_to_digits (base number : Nat) (large : 1 < base) (small : base ≤ 16) :
    ofDigits base (Nat.toDigits base number) = number := by
  induction number using Nat.strongRecOn with
  | ind number inductionHypothesis =>
    rw [Nat.toDigits_eq_if large]
    split_ifs with single
    · simpa [ofDigits] using digit_value_digit_char number (by omega)
    · have digit : number % base < 16 := (Nat.mod_lt _ (by omega)).trans_le small
      rw [of_digits_snoc, inductionHypothesis _ (Nat.div_lt_self (by omega) large),
        digit_value_digit_char _ digit]
      exact Nat.div_add_mod' number base

/-- Every digit of a number is one of its base, so that a property of these holds
throughout the numeral. -/
theorem to_digits_all (base number : Nat) (large : 1 < base) (property : Char → Prop)
    (digit : ∀ n < base, property n.digitChar) : ∀ c ∈ Nat.toDigits base number, property c := by
  induction number using Nat.strongRecOn with
  | ind number inductionHypothesis =>
    rw [Nat.toDigits_eq_if large]
    split_ifs with single
    · simpa using digit number single
    · intro c member
      rcases List.mem_append.mp member with higher | last
      · exact inductionHypothesis _ (Nat.div_lt_self (by omega) large) c higher
      · obtain rfl := List.mem_singleton.mp last
        exact digit _ (Nat.mod_lt _ (by omega))

section

variable (width base number : Nat)

/-- The zeros in front change nothing about what is read back. -/
theorem of_digits_filled (large : 1 < base) (small : base ≤ 16) :
    ofDigits base (filled width base number) = number := by
  rw [filled, List.leftpad, of_digits_zeros, of_digits_to_digits base number large small]

/-- A number below the power of the width takes up the width exactly: it has at most so
many digits, and zeros make up for the others. -/
theorem filled_length (large : 1 < base) (some : 0 < width) (fits : number < base ^ width) :
    (filled width base number).length = width := by
  have short := (Nat.length_toDigits_le_iff large some).mpr fits
  rw [filled, List.length_leftpad, Nat.max_eq_left short]

/-- A place more is a zero more, where the number already fits without it. -/
theorem filled_succ (large : 1 < base) (some : 0 < width) (fits : number < base ^ width) :
    filled (width + 1) base number = '0' :: filled width base number := by
  have short := (Nat.length_toDigits_le_iff large some).mpr fits
  rw [filled, filled, List.leftpad, List.leftpad, Nat.sub_add_comm short, List.replicate_succ,
    List.cons_append]

/-- The zeros in front are digits of every base, so that what holds of the digits holds
of the whole. -/
theorem filled_all (large : 1 < base) (property : Char → Prop)
    (digit : ∀ n < base, property n.digitChar) : ∀ c ∈ filled width base number, property c := by
  intro c member
  rcases List.mem_append.mp member with zero | rest
  · obtain rfl := List.eq_of_mem_replicate zero
    exact digit 0 (by omega)
  · exact to_digits_all base number large property digit c rest

/-- With its zeros too the numeral consists of digits of the base. -/
theorem filled_is_digits (large : 1 < base) (small : base ≤ 16) :
    IsDigits base (filled width base number) :=
  filled_all width base number large _ fun n bound =>
    (digit_value_digit_char n (by omega)).symm ▸ bound

end

/-- `%d` of a number from zero on has its digits and no sign. -/
theorem decimal_nat (number : Nat) : decimal number = Nat.toDigits 10 number :=
  Nat.toList_repr

/-- `%d` of a number below zero has the digits of its amount behind a sign. -/
theorem decimal_neg (number : Nat) (positive : 0 < number) :
    decimal (-number) = '-' :: Nat.toDigits 10 number := by
  obtain ⟨less, rfl⟩ : ∃ less, number = less + 1 := ⟨number - 1, by omega⟩
  change ("-" ++ (less + 1).repr).toList = _
  rw [String.toList_append, Nat.toList_repr]
  rfl

/-- `%0<width>d` of a number from zero on has its digits behind zeros, up to the width. -/
theorem zero_padded_nat (width number : Nat) :
    zeroPadded width number = filled width 10 number := by
  have nonneg : ¬ (number : Int) < 0 := by omega
  rw [zeroPadded, if_neg nonneg, Int.natAbs_natCast, decimal_nat]
  rfl

/-! ## Numerals that continue each other -/

/-- The last characters of `%d`, in which a sign can be among them only if there are too
few digits. -/
def lastDigits (count : Nat) (value : Int) : Text :=
  (decimal value).drop ((decimal value).length - count)

/-- A number is another without its last digits, and has some digits itself: what is cut
is then never the whole numeral. -/
def Shortens (count : Nat) (shorter longer : Int) : Prop :=
  shorter = longer.tdiv (10 ^ count) ∧ (count = 0 ∨ shorter ≠ 0)

/-- The digits of a number end in as many as are wanted, and begin with those of the
quotient if it is not zero. By induction on how many are cut. -/
theorem to_digits_split (count number : Nat) (some : 0 < number / 10 ^ count) :
    ∃ last, last.length = count ∧
      Nat.toDigits 10 number = Nat.toDigits 10 (number / 10 ^ count) ++ last := by
  induction count with
  | zero => exact ⟨[], rfl, by simp⟩
  | succ count inductionHypothesis =>
    have higher : number / 10 ^ (count + 1) = number / 10 ^ count / 10 := by
      rw [Nat.div_div_eq_div_mul, pow_succ]
    rw [higher] at some ⊢
    obtain ⟨last, length, split⟩ := inductionHypothesis (by omega)
    refine ⟨(number / 10 ^ count % 10).digitChar :: last, by rw [List.length_cons, length], ?_⟩
    rw [split, Nat.toDigits_of_base_le (by decide) (by omega), List.append_assoc]
    rfl

/-- The digits of one number continue those of another exactly if this is the quotient
by the power of what is added, and what is added are the last digits. -/
theorem to_digits_continue_iff (shorter longer : Nat) (last : Text) :
    Nat.toDigits 10 longer = Nat.toDigits 10 shorter ++ last ↔
      (shorter = longer / 10 ^ last.length ∧ (last.length = 0 ∨ shorter ≠ 0)) ∧
        last = (Nat.toDigits 10 longer).drop ((Nat.toDigits 10 longer).length - last.length) := by
  constructor
  · intro continues
    have valid : IsDigits 10 last := by
      intro c member
      have all := to_digits_all 10 longer (by decide) (fun c => digitValue c < 10)
        fun n bound => (digit_value_digit_char n (by omega)).symm ▸ bound
      exact all c (continues ▸ List.mem_append_right _ member)
    have quotient := (of_digits_split 10 (Nat.toDigits 10 shorter) last valid).1
    rw [← continues, of_digits_to_digits 10 _ (by decide) (by decide),
      of_digits_to_digits 10 _ (by decide) (by decide)] at quotient
    refine ⟨⟨quotient, ?_⟩, ?_⟩
    · rcases Nat.eq_zero_or_pos last.length with none | some
      · exact .inl none
      · right
        rintro rfl
        have longEnough : ¬ (Nat.toDigits 10 longer).length ≤ last.length := by
          rw [continues]
          simp [Nat.toDigits_zero]
        rw [Nat.length_toDigits_le_iff (by decide) some] at longEnough
        have positive := Nat.div_pos (Nat.le_of_not_lt longEnough) (Nat.pow_pos (by decide))
        omega
    · rw [continues, List.length_append, Nat.add_sub_cancel, List.drop_left]
  · rintro ⟨⟨quotient, some⟩, suffix⟩
    rcases Nat.eq_zero_or_pos last.length with none | positive
    · obtain rfl := List.eq_nil_of_length_eq_zero none
      rw [List.append_nil, quotient, List.length_nil, pow_zero, Nat.div_one]
    · have quotientPositive : 0 < longer / 10 ^ last.length := by omega
      obtain ⟨rest, length, split⟩ := to_digits_split last.length longer quotientPositive
      have same : last = rest := by
        rw [split, ← length, List.length_append, Nat.add_sub_cancel, List.drop_left] at suffix
        exact suffix
      rw [split, ← quotient, same]

/-- `%d` of any number: a sign if it is negative, and then the digits of its amount. -/
theorem decimal_eq (value : Int) :
    decimal value = (if value < 0 then ['-'] else []) ++ Nat.toDigits 10 value.natAbs := by
  split_ifs with negative
  · obtain ⟨number, rfl⟩ := Int.exists_eq_neg_ofNat (Int.le_of_lt negative)
    rw [Int.natAbs_neg, Int.natAbs_natCast]
    exact decimal_neg number (by omega)
  · obtain ⟨number, rfl⟩ := Int.eq_ofNat_of_zero_le (Int.not_lt.mp negative)
    exact decimal_nat number

/-- A numeral begins with a sign exactly if its number is negative, whatever follows it. -/
theorem decimal_head (value : Int) (rest : Text) :
    (decimal value ++ rest).head? = some '-' ↔ value < 0 := by
  rw [decimal_eq]
  split_ifs with negative
  · simp [negative]
  · have digits := Nat.toDigits_ne_nil (n := value.natAbs) (b := 10)
    obtain ⟨first, others, split⟩ := List.exists_cons_of_ne_nil digits
    have digit : first ≠ '-' :=
      to_digits_all 10 value.natAbs (by decide) (· ≠ '-') (by decide) first
        (split ▸ List.mem_cons_self)
    simp [split, digit, negative]

/-- The quotient of a number that is not positive is not positive either, as division
rounds to zero. -/
theorem tdiv_nonpos (number divisor : Int) (below : number ≤ 0) (positive : 0 ≤ divisor) :
    number.tdiv divisor ≤ 0 := by
  have above := Int.tdiv_nonneg (Int.neg_nonneg_of_nonpos below) positive
  rw [Int.neg_tdiv] at above
  omega

/-- For two numbers of one sign only their amounts count, so that cutting digits is
about natural numbers. -/
theorem shortens_iff (count : Nat) (shorter longer : Int) (sign : longer < 0 ↔ shorter < 0) :
    Shortens count shorter longer ↔
      shorter.natAbs = longer.natAbs / 10 ^ count ∧ (count = 0 ∨ shorter.natAbs ≠ 0) := by
  have amount : (longer.tdiv (10 ^ count)).natAbs = longer.natAbs / 10 ^ count := by
    rw [Int.natAbs_tdiv, Int.natAbs_pow]
    rfl
  have positive : (0 : Int) ≤ 10 ^ count := Int.pow_nonneg (by decide)
  rw [Shortens, ne_eq, ne_eq, Int.natAbs_eq_zero, ← amount]
  refine and_congr_left fun _ => ⟨fun same => by rw [same], fun same => ?_⟩
  by_cases negative : longer < 0
  · have below : longer.tdiv (10 ^ count) ≤ 0 := tdiv_nonpos _ _ (by omega) positive
    omega
  · have above : 0 ≤ longer.tdiv (10 ^ count) := Int.tdiv_nonneg (by omega) positive
    omega

/-- A number without its last digits has the sign of the whole, for it is not zero
unless nothing was cut. -/
theorem Shortens.sign {count : Nat} {shorter longer : Int}
    (shortens : Shortens count shorter longer) : longer < 0 ↔ shorter < 0 := by
  have positive : (0 : Int) ≤ 10 ^ count := Int.pow_nonneg (by decide)
  obtain ⟨quotient, some⟩ := shortens
  rcases some with rfl | some
  · rw [quotient, pow_zero, Int.tdiv_one]
  · rcases Int.lt_or_le longer 0 with negative | nonnegative
    · have below := tdiv_nonpos _ _ (Int.le_of_lt negative) positive
      omega
    · have above := Int.tdiv_nonneg nonnegative positive
      omega

/-- A number has the digits that another is without: there are at least so many. -/
theorem Shortens.digits_le {count : Nat} {shorter longer : Int}
    (shortens : Shortens count shorter longer) :
    count ≤ (Nat.toDigits 10 longer.natAbs).length := by
  have quotient := (shortens_iff count shorter longer shortens.sign).mp shortens
  rcases Nat.eq_zero_or_pos count with none | some
  · omega
  · have large : ¬ longer.natAbs < 10 ^ count := by
      intro small
      rw [Nat.div_eq_of_lt small] at quotient
      omega
    rw [← Nat.length_toDigits_le_iff (by decide) some] at large
    omega

/-- As many last digits are found as are cut, since the numeral is long enough and its
sign stands further in front. -/
theorem Shortens.last_length {count : Nat} {shorter longer : Int}
    (shortens : Shortens count shorter longer) : (lastDigits count longer).length = count := by
  have enough := shortens.digits_le
  rw [lastDigits, List.length_drop, decimal_eq, List.length_append]
  omega

/-- One numeral continues another exactly when the number is the other without its last
digits, and these are what is added. The sign is that of both, and behind it the digits
of the amounts decide. -/
theorem decimal_continue_iff (shorter longer : Int) (last : Text) :
    decimal longer = decimal shorter ++ last ↔
      Shortens last.length shorter longer ∧ last = lastDigits last.length longer := by
  have amounts (sign : longer < 0 ↔ shorter < 0) : decimal longer = decimal shorter ++ last ↔
      Nat.toDigits 10 longer.natAbs = Nat.toDigits 10 shorter.natAbs ++ last := by
    rw [decimal_eq, decimal_eq, if_congr sign rfl rfl, List.append_assoc,
      List.append_cancel_left_eq]
  constructor
  · intro continues
    have sign : longer < 0 ↔ shorter < 0 := by
      rw [← decimal_head longer [], ← decimal_head shorter last, ← continues, List.append_nil]
    have digits := (to_digits_continue_iff _ _ _).mp ((amounts sign).mp continues)
    refine ⟨(shortens_iff last.length shorter longer sign).mpr digits.1, ?_⟩
    rw [lastDigits, continues, List.length_append, Nat.add_sub_cancel, List.drop_left]
  · rintro ⟨shortens, suffix⟩
    have quotient := (shortens_iff last.length shorter longer shortens.sign).mp shortens
    refine (amounts shortens.sign).mpr ((to_digits_continue_iff _ _ _).mpr ⟨quotient, ?_⟩)
    have enough := shortens.digits_le
    rw [lastDigits, decimal_eq, List.length_append, Nat.add_sub_assoc enough,
      List.drop_length_add_append] at suffix
    exact suffix

end EventRecorder.CText
