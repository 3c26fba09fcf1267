import EventRecorder.CText
import Mathlib.Algebra.Ring.Int.Defs
import Mathlib.Algebra.Ring.Nat
import Mathlib.Data.List.TakeWhile

/-!
# C input functions

The scanning functions of the C library read a text from its beginning and
return, next to what they read, the rest of it. A conversion that reads nothing
fails, and the directives after it are not tried.

Copies and comparisons work on memory, where a string ends at the first
terminator.
-/

namespace EventRecorder.CText

/-- `isspace` in the C locale: the blank and the five control characters, and no other
white space. -/
def isspace (c : Char) : Bool := c ∈ [' ', '\t', '\n', '\x0b', '\x0c', '\r']

/-- A white-space directive. It reads whatever white space there is, none included, and
never fails. -/
def skipSpace (input : Text) : Text := input.dropWhile isspace

/-- A directive that matches one character, which has to be the next of the input,
without any white space skipped before it. -/
def scanChar (c : Char) : Text → Option Text
  | [] => none
  | head :: rest => if head = c then some rest else none

/-- `%[…]` with a field width: as many accepted characters as there are, but at
least one. -/
def scanSet (width : Nat) (accepts : Char → Bool) (input : Text) : Option (Text × Text) :=
  let token := (input.take width).takeWhile accepts
  if token = [] then none else some (token, input.drop token.length)

/-- `%s` with a field width: white space is skipped, and then up to so many other
characters are read, of which there has to be one. -/
def scanWord (width : Nat) (input : Text) : Option (Text × Text) :=
  scanSet width (!isspace ·) (skipSpace input)

/-- An optional sign: whether it is a minus, and the text after it. Without a sign the
text is left as it is. -/
def scanSign : Text → Bool × Text
  | '-' :: rest => (true, rest)
  | '+' :: rest => (false, rest)
  | text => (false, text)

/-- `isxdigit`, for the digits and both cases of the six letters. -/
def isxdigit (c : Char) : Bool := c.isDigit || 'a' ≤ c.toLower && c.toLower ≤ 'f'

/-- The value of a digit, decimal or hexadecimal. Of other characters no use is made. -/
def digitValue (c : Char) : Nat := if c.isDigit then c.toNat - 48 else c.toLower.toNat - 87

/-- The number that digits write in a base, from the most significant on. -/
def ofDigits (base : Nat) (digits : Text) : Nat :=
  digits.foldl (fun value digit => value * base + digitValue digit) 0

/-- `%x` with a field width, stored in an `unsigned int`. As in `strtoul`, a
minus negates modulo the type's size; the prefix `0x` may stand alone. -/
def scanHex (width : Nat) (input : Text) : Option (Nat × Text) :=
  let (negative, unsigned) := scanSign ((skipSpace input).take width)
  let (zero, digits) := match unsigned with
    | '0' :: 'x' :: rest => (true, rest)
    | '0' :: 'X' :: rest => (true, rest)
    | other => (false, other)
  let number := digits.takeWhile isxdigit
  let value := ofDigits 16 number
  if number = [] ∧ zero = false then none
  else
    some ((if negative then 2 ^ 32 - value else value) % 2 ^ 32,
      digits.drop number.length ++ (skipSpace input).drop width)

/-- The value of an `int` whose bits are those of a wider or unsigned integer, so that
what does not fit is read from its low 32 bits. -/
def toInt (value : Int) : Int := value.bmod (2 ^ 32)

/-- `atoi`: `strtol` in base ten, which stays within the range of a `long`,
converted to `int`. -/
def atoi (text : Text) : Int :=
  let (negative, unsigned) := scanSign (skipSpace text)
  let value := ofDigits 10 (unsigned.takeWhile Char.isDigit)
  toInt (if negative then max (-2 ^ 63) (-value) else min (2 ^ 63 - 1) value)

/-- The number a whole text is the numeral of: a sign that may be missing, and digits up
to the end. Any other text is the numeral of none. -/
def denoted (text : Text) : Option Int :=
  let (negative, digits) := scanSign text
  if digits ≠ [] ∧ digits.all Char.isDigit then
    some (if negative then -ofDigits 10 digits else ofDigits 10 digits)
  else none

/-- `%0<width>d`. The sign comes in front of the zeros and counts for the width. -/
def zeroPadded (width : Nat) (value : Int) : Text :=
  let sign := if value < 0 then ['-'] else []
  let digits := decimal value.natAbs
  sign ++ List.replicate (width - sign.length - digits.length) '0' ++ digits

/-- A text in a field of a given size, followed by terminators as far as there is room,
and cut where there is none. -/
def padded (size : Nat) (text : Text) : Text := (text ++ List.replicate size nul).take size

/-- `strncpy`, from the memory at its source: the string there, with terminators behind
it up to the count, or without one if it is as long. -/
def strncpy (destination source : Text) (count : Nat) : Text :=
  store destination 0 (padded count (cString source))

/-- `strncmp`, from the memory at both strings: the difference of the first two
characters that differ, or zero if there is none up to a terminator or the count. -/
def strncmp : Text → Text → Nat → Int
  | c :: left, d :: right, count + 1 =>
    if c ≠ d then c.toNat - d.toNat
    else if c = nul then 0
    else strncmp left right count
  | _, _, _ => 0

/-- `fgets` into a buffer of one more byte: what it reads, up to a newline, and
the rest of the stream. -/
def fgets : Nat → Text → Text × Text
  | 0, stream => ([], stream)
  | _, [] => ([], [])
  | room + 1, c :: stream =>
    if c = '\n' then ([c], stream)
    else
      let (text, rest) := fgets room stream
      (c :: text, rest)

/-- What a conversion reads fits its width, and comes from the input with the rest.
Buffers as wide as the width are safe for this reason. -/
theorem scan_set_some (width : Nat) (accepts : Char → Bool) (input token rest : Text)
    (read : scanSet width accepts input = some (token, rest)) :
    token.length ≤ width ∧ token ⊆ input ∧ rest ⊆ input := by
  simp only [scanSet] at read
  split_ifs at read
  obtain ⟨rfl, rfl⟩ := Prod.mk.inj (Option.some.inj read)
  have first : (input.take width).takeWhile accepts <+: input.take width :=
    List.takeWhile_prefix accepts
  refine ⟨?_, ?_, List.drop_subset _ _⟩
  · exact first.length_le.trans (List.length_take_le _ _)
  · exact List.Subset.trans first.subset (List.take_subset _ _)

/-- The input after a matched character is the input before it without that character. -/
theorem scan_char_some (c : Char) (input rest : Text) (read : scanChar c input = some rest) :
    input = c :: rest := by
  cases input with
  | nil => cases read
  | cons head tail =>
    simp only [scanChar] at read
    split_ifs at read with same
    rw [same, Option.some.inj read]

/-- Skipping white space brings in no character that the input did not have. -/
theorem skip_space_subset (input : Text) : skipSpace input ⊆ input :=
  (List.dropWhile_suffix _).subset

/-- What a `%s` conversion reads fits its width and comes from the input, after the
white space in front is gone. -/
theorem scan_word_some (width : Nat) (input token rest : Text)
    (read : scanWord width input = some (token, rest)) :
    token.length ≤ width ∧ token ⊆ input ∧ rest ⊆ input := by
  obtain ⟨fits, tokenInput, restInput⟩ := scan_set_some _ _ _ _ _ read
  exact ⟨fits, List.Subset.trans tokenInput (skip_space_subset input),
    List.Subset.trans restInput (skip_space_subset input)⟩

/-- A hexadecimal digit is not white space, so that a conversion for one is not ended by
a directive for the other. -/
theorem xdigit_not_space (c : Char) (digit : isxdigit c = true) : isspace c = false := by
  by_contra space
  have member : c ∈ [' ', '\t', '\n', '\x0b', '\x0c', '\r'] :=
    of_decide_eq_true (Bool.not_eq_false _ ▸ space)
  simp only [List.mem_cons, List.not_mem_nil, or_false] at member
  rcases member with rfl | rfl | rfl | rfl | rfl | rfl <;> cases digit

/-- A digit is not white space, and skipping white space stops in front of a numeral. -/
theorem digit_not_space (c : Char) (digit : c.isDigit = true) : isspace c = false :=
  xdigit_not_space c (by rw [isxdigit, digit, Bool.true_or])

/-- `atoi` reads a sign and digits up to the end of the text. The number is clamped to a
`long` first and converted to `int` afterwards. -/
theorem atoi_of_sign (text : Text) (negative : Bool) (digits : Text)
    (sign : scanSign text = (negative, digits)) (digit : ∀ c ∈ digits, c.isDigit = true) :
    atoi text = toInt (if negative then max (-2 ^ 63) (-(ofDigits 10 digits : Int))
      else min (2 ^ 63 - 1) (ofDigits 10 digits : Int)) := by
  have start : skipSpace text = text := by
    unfold scanSign at sign
    split at sign
    · rfl
    · rfl
    · obtain ⟨rfl, rfl⟩ := Prod.mk.inj sign
      cases text with
      | nil => rfl
      | cons c rest =>
        have visible := digit_not_space c (digit c (by simp))
        simp [skipSpace, visible]
  have whole : digits.takeWhile Char.isDigit = digits := List.takeWhile_eq_self_iff.mpr digit
  simp only [atoi, start, sign, whole]

/-- The sign is decided by the first character, as a case distinction that proofs can
rewrite with. -/
theorem scan_sign_cons (c : Char) (rest : Text) :
    scanSign (c :: rest) =
      if c = '-' then (true, rest) else if c = '+' then (false, rest) else (false, c :: rest) := by
  by_cases minus : c = '-'
  · rw [minus]
    rfl
  · by_cases plus : c = '+'
    · rw [plus]
      rfl
    · simp [scanSign, minus, plus]

/-- Digits have no sign in front, and are left for the conversion as they are. -/
theorem scan_sign_digit (c : Char) (digit : c.isDigit = true) (rest : Text) :
    scanSign (c :: rest) = (false, c :: rest) := by
  have minus : c ≠ '-' := by
    rintro rfl
    cases digit
  have plus : c ≠ '+' := by
    rintro rfl
    cases digit
  rw [scan_sign_cons, if_neg minus, if_neg plus]

/-- A whole numeral is a sign and digits, and its number is theirs. -/
theorem denoted_some (text : Text) (value : Int) (numeral : denoted text = some value) :
    ∃ negative digits, scanSign text = (negative, digits) ∧ (∀ c ∈ digits, c.isDigit = true) ∧
      value = if negative then -(ofDigits 10 digits : Int) else ofDigits 10 digits := by
  cases sign : scanSign text with
  | mk negative digits =>
    simp only [denoted, sign] at numeral
    by_cases valid : digits ≠ [] ∧ digits.all Char.isDigit = true
    · rw [if_pos valid] at numeral
      exact ⟨negative, digits, rfl, List.all_eq_true.mp valid.2, (Option.some.inj numeral).symm⟩
    · rw [if_neg valid] at numeral
      cases numeral

/-- `atoi` reads a whole numeral of an `int` as its number: neither the clamping nor the
conversion changes it. -/
theorem atoi_denoted (text : Text) (value : Int) (numeral : denoted text = some value)
    (lower : -2 ^ 31 ≤ value) (upper : value < 2 ^ 31) : atoi text = value := by
  obtain ⟨negative, digits, sign, digit, same⟩ := denoted_some text value numeral
  have within : (if negative then max (-2 ^ 63) (-(ofDigits 10 digits : Int))
      else min (2 ^ 63 - 1) (ofDigits 10 digits : Int)) = value := by
    rw [same] at lower upper ⊢
    split_ifs at lower upper ⊢
    · exact Int.max_eq_right (by omega)
    · exact Int.min_eq_right (by omega)
  rw [atoi_of_sign text negative digits sign digit, within, toInt]
  apply Int.bmod_eq_of_le
  · omega
  · omega

/-- Digits that follow multiply the number by the base at least, so that a numeral that
is cut loses most of its value. -/
theorem of_digits_append (base : Nat) (digits rest : Text) :
    ofDigits base digits * base ^ rest.length ≤ ofDigits base (digits ++ rest) := by
  rw [ofDigits, ofDigits, List.foldl_append]
  generalize digits.foldl (fun value digit => value * base + digitValue digit) 0 = value
  induction rest generalizing value with
  | nil => simp
  | cons c rest inductionHypothesis =>
    have further := inductionHypothesis (value * base + digitValue c)
    rw [List.length_cons, List.foldl_cons]
    calc value * base ^ (rest.length + 1)
        = value * base * base ^ rest.length := by rw [Nat.pow_succ', Nat.mul_assoc]
      _ ≤ (value * base + digitValue c) * base ^ rest.length :=
          Nat.mul_le_mul_right _ (Nat.le_add_right _ _)
      _ ≤ _ := further

/-- Of a text that is cut, the sign stays and digits are lost, as long as one character
is left. -/
theorem scan_sign_take (text : Text) (count : Nat) (some : 0 < count)
    (cut : count < text.length) :
    ∃ fewer < (scanSign text).2.length,
      scanSign (text.take count) = ((scanSign text).1, (scanSign text).2.take fewer) := by
  obtain ⟨count, rfl⟩ : ∃ less, count = less + 1 := ⟨count - 1, by omega⟩
  obtain ⟨c, rest, rfl⟩ := List.exists_cons_of_length_pos (by omega : 0 < text.length)
  rw [List.take_succ_cons, scan_sign_cons, scan_sign_cons]
  split_ifs
  · exact ⟨count, by simpa using cut, rfl⟩
  · exact ⟨count, by simpa using cut, rfl⟩
  · exact ⟨count + 1, cut, rfl⟩

/-- A numeral of one significant digit is read as zero when it is cut, because the digit
in question is the last. -/
theorem atoi_cut (text : Text) (value : Int) (count : Nat) (numeral : denoted text = some value)
    (positive : 0 < value) (single : value < 10) (some : 0 < count) (cut : count < text.length) :
    atoi (text.take count) = 0 := by
  obtain ⟨negative, digits, sign, digit, same⟩ := denoted_some text value numeral
  obtain ⟨fewer, less, cutSign⟩ := scan_sign_take text count some cut
  rw [sign] at less cutSign
  have small : ofDigits 10 digits < 10 := by
    split_ifs at same <;> omega
  have none : ofDigits 10 (digits.take fewer) = 0 := by
    have whole := of_digits_append 10 (digits.take fewer) (digits.drop fewer)
    have power : 10 ^ 1 ≤ 10 ^ (digits.drop fewer).length :=
      Nat.pow_le_pow_right (by decide) (by
        rw [List.length_drop]
        exact Nat.sub_pos_of_lt less)
    rw [List.take_append_drop] at whole
    have scaled := Nat.mul_le_mul_left (ofDigits 10 (digits.take fewer)) power
    omega
  rw [atoi_of_sign _ _ _ cutSign fun c member => digit c (List.mem_of_mem_take member), none]
  cases negative <;> rfl

/-- A line that fits is read with its newline, and the stream goes on with the next
line. -/
theorem fgets_whole (room : Nat) (line rest : Text) (whole : '\n' ∉ line)
    (fits : line.length < room) :
    fgets room (line ++ '\n' :: rest) = (line ++ ['\n'], rest) := by
  induction line generalizing room with
  | nil =>
    obtain ⟨less, rfl⟩ : ∃ less, room = less + 1 := ⟨room - 1, by simp at fits; omega⟩
    rfl
  | cons c line inductionHypothesis =>
    obtain ⟨less, rfl⟩ : ∃ less, room = less + 1 := ⟨room - 1, by simp at fits; omega⟩
    obtain ⟨different, others⟩ := not_or.mp (mt List.mem_cons.mpr whole)
    have shorter := inductionHypothesis less others (by simpa using fits)
    rw [List.cons_append, fgets, if_neg (Ne.symm different), shorter]
    rfl

/-- Of a longer line `fgets` reads what it has room for and leaves the rest, which the
next call takes for a line of its own. -/
theorem fgets_part (room : Nat) (line rest : Text) (whole : '\n' ∉ line)
    (long : room ≤ line.length) :
    fgets room (line ++ rest) = (line.take room, line.drop room ++ rest) := by
  induction line generalizing room with
  | nil =>
    obtain rfl : room = 0 := by simpa using long
    rfl
  | cons c line inductionHypothesis =>
    cases room with
    | zero => rfl
    | succ room =>
      obtain ⟨different, others⟩ := not_or.mp (mt List.mem_cons.mpr whole)
      have shorter := inductionHypothesis room others (by simpa using long)
      rw [List.cons_append, fgets, if_neg (Ne.symm different), shorter]
      rfl

/-- A read from a stream that goes on consumes some of it. Reading until the end
terminates on account of this. -/
theorem fgets_rest_length (room : Nat) (stream : Text) (pending : stream ≠ []) :
    (fgets (room + 1) stream).2.length < stream.length := by
  induction room generalizing stream with
  | zero =>
    cases stream with
    | nil => exact absurd rfl pending
    | cons c stream =>
      simp only [fgets]
      split_ifs <;> simp
  | succ room inductionHypothesis =>
    cases stream with
    | nil => exact absurd rfl pending
    | cons c stream =>
      rw [fgets]
      split_ifs
      · simp
      · cases stream with
        | nil => simp [fgets]
        | cons d stream =>
          have shorter := inductionHypothesis (d :: stream) (List.cons_ne_nil _ _)
          simp only [List.length_cons] at shorter ⊢
          omega

/-- Memory without a terminator is a string as a whole, for as far as the model looks at
it. -/
theorem c_string_eq_self (text : Text) (printable : nul ∉ text) : cString text = text := by
  rw [cString, List.takeWhile_eq_self_iff]
  intro c member
  have different : c ≠ nul := by
    rintro rfl
    exact printable member
  simpa using different

/-- A string ends where its memory holds the first terminator, whatever comes behind. -/
theorem c_string_append (text rest : Text) (printable : nul ∉ text) :
    cString (text ++ nul :: rest) = text := by
  rw [cString, List.takeWhile_append_of_pos (List.takeWhile_eq_self_iff.mp
    (c_string_eq_self text printable))]
  simp

/-- A string holds no terminator, or it would have ended earlier. -/
theorem nul_not_mem_c_string (memory : Text) : nul ∉ cString memory := by
  intro member
  have kept := List.mem_takeWhile_imp member
  simp at kept

/-- A field has its size, whether the text in it is cut or filled up. -/
@[simp] theorem padded_length (size : Nat) (text : Text) : (padded size text).length = size := by
  simp [padded]

/-- A text that fits its field is followed by terminators up to the end of the
field. -/
theorem padded_eq (size : Nat) (text : Text) (fits : text.length ≤ size) :
    padded size text = text ++ List.replicate (size - text.length) nul := by
  rw [padded, List.take_append, List.take_of_length_le fits, List.take_replicate,
    Nat.min_eq_left (Nat.sub_le _ _)]

/-- A field's text is the string at its beginning, when a terminator follows a
text that fills the field. -/
theorem c_string_padded (size : Nat) (text rest : Text) (fits : text.length ≤ size)
    (printable : nul ∉ text) (terminated : text.length = size → rest.head? = some nul) :
    cString (padded size text ++ rest) = text := by
  rw [padded_eq size text fits, List.append_assoc]
  by_cases full : text.length = size
  · obtain ⟨more, rfl⟩ := List.head?_eq_some_iff.mp (terminated full)
    rw [full, Nat.sub_self, List.replicate_zero, List.nil_append]
    exact c_string_append text more printable
  · obtain ⟨less, left⟩ : ∃ less, size - text.length = less + 1 :=
      ⟨size - text.length - 1, by omega⟩
    rw [left, List.replicate_succ, List.cons_append]
    exact c_string_append text _ printable

/-- A field without its first bytes is a shorter field, for the text without as many
characters. -/
theorem drop_padded (size count : Nat) (text : Text) (fits : text.length ≤ size)
    (short : count ≤ size) :
    (padded size text).drop count = padded (size - count) (text.drop count) := by
  rw [padded_eq size text fits, padded_eq _ _ (by simp; omega), List.drop_append,
    List.drop_replicate, List.length_drop]
  congr 2
  omega

/-- `strncmp` finds no difference exactly where the strings agree up to the count. The
memory must be as long as the count on both sides, or the comparison would run off it. -/
theorem strncmp_eq_zero_iff (left right : Text) (count : Nat) (leftRoom : count ≤ left.length)
    (rightRoom : count ≤ right.length) :
    strncmp left right count = 0 ↔ cString (left.take count) = cString (right.take count) := by
  induction count generalizing left right with
  | zero => simp [strncmp]
  | succ count inductionHypothesis =>
    obtain ⟨c, left, rfl⟩ := List.exists_cons_of_length_pos (by omega : 0 < left.length)
    obtain ⟨d, right, rfl⟩ := List.exists_cons_of_length_pos (by omega : 0 < right.length)
    have shorter := inductionHypothesis left right (by simpa using leftRoom)
      (by simpa using rightRoom)
    by_cases same : c = d
    · subst same
      by_cases ends : c = nul
      · simp [strncmp, cString, ends]
      · simpa [strncmp, cString, ends] using shorter
    · have codes : (c.toNat : Int) - d.toNat ≠ 0 := by
        intro zero
        exact same (Char.toNat_inj.mp (by omega))
      have differ : cString ((c :: left).take (count + 1)) ≠
          cString ((d :: right).take (count + 1)) := by
        by_cases left_ends : c = nul <;> by_cases right_ends : d = nul <;>
          simp_all [cString]
      simp only [strncmp, ne_eq, same, not_false_eq_true, ↓reduceIte]
      exact iff_of_false codes differ

end EventRecorder.CText
