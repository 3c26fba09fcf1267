import EventRecorder.Digits

/-!
# Times as text

`db_get_time` prints a time with its milliseconds, and `datetime.strptime` reads one in the
format `%Y-%m-%d %H:%M:%S.%f`. Reading what was printed gives the time back, to the
millisecond.

No separator of the format is a digit, so a number ends where its digits do or where it has
as many as its directive takes. A blank in place of a day's first digit is not read.
-/

namespace EventRecorder.Timestamps

open CText

/-- The days of a month, by the rule for leap years of the Gregorian calendar. -/
def daysIn (year month : Nat) : Nat :=
  if month = 2 then if year % 4 = 0 ∧ (year % 100 ≠ 0 ∨ year % 400 = 0) then 29 else 28
  else if month = 4 ∨ month = 6 ∨ month = 9 ∨ month = 11 then 30
  else 31

/-- A `datetime` without a time zone. -/
@[ext] structure DateTime where
  year : Nat
  month : Nat
  day : Nat
  hour : Nat
  minute : Nat
  second : Nat
  microsecond : Nat
  deriving DecidableEq, Repr

/-- What the constructor of `datetime` accepts. -/
structure DateTime.Valid (time : DateTime) : Prop where
  year : 1 ≤ time.year ∧ time.year ≤ 9999
  month : 1 ≤ time.month ∧ time.month ≤ 12
  day : 1 ≤ time.day ∧ time.day ≤ daysIn time.year time.month
  hour : time.hour < 24
  minute : time.minute < 60
  second : time.second < 60
  microsecond : time.microsecond < 10 ^ 6

/-- A time is valid if each of its fields is in range, the day by its month. -/
theorem DateTime.valid_iff (time : DateTime) : time.Valid ↔
    (1 ≤ time.year ∧ time.year ≤ 9999) ∧ (1 ≤ time.month ∧ time.month ≤ 12) ∧
      (1 ≤ time.day ∧ time.day ≤ daysIn time.year time.month) ∧ time.hour < 24 ∧
      time.minute < 60 ∧ time.second < 60 ∧ time.microsecond < 10 ^ 6 :=
  ⟨fun valid => ⟨valid.year, valid.month, valid.day, valid.hour, valid.minute, valid.second,
    valid.microsecond⟩, fun parts => ⟨parts.1, parts.2.1, parts.2.2.1, parts.2.2.2.1,
    parts.2.2.2.2.1, parts.2.2.2.2.2.1, parts.2.2.2.2.2.2⟩⟩

instance (time : DateTime) : Decidable time.Valid := decidable_of_iff _ time.valid_iff.symm

/-- What `gettimeofday` and `localtime` give: a valid time in a year of four digits. -/
structure Clock where
  time : DateTime
  valid : time.Valid
  four : 1000 ≤ time.year

/-- `db_get_time`: the timestamp, cut to milliseconds. -/
def dbGetTime (clock : Clock) : Text :=
  filled 4 10 clock.time.year ++ '-' :: filled 2 10 clock.time.month ++
    '-' :: filled 2 10 clock.time.day ++ ' ' :: filled 2 10 clock.time.hour ++
    ':' :: filled 2 10 clock.time.minute ++ ':' :: filled 2 10 clock.time.second ++
    '.' :: filled 3 10 (clock.time.microsecond / 1000)

/-- A directive that takes so many digits, with a value in a range. It takes as many as
it can. -/
def directive (least most low high : Nat) (text : Text) : Option (Nat × Text) :=
  let digits := (text.take most).takeWhile Char.isDigit
  if least ≤ digits.length ∧ low ≤ ofDigits 10 digits ∧ ofDigits 10 digits ≤ high then
    some (ofDigits 10 digits, text.drop digits.length)
  else none

/-- A blank of the format takes any blanks, and at least one. -/
def blanks (text : Text) : Option Text :=
  if (skipSpace text).length < text.length then some (skipSpace text) else none

/-- `%f`, at the end of the text: up to six digits, filled up with zeros behind. -/
def fraction (text : Text) : Option Nat :=
  if text.all Char.isDigit ∧ 1 ≤ text.length ∧ text.length ≤ 6 then
    some (ofDigits 10 (text ++ List.replicate (6 - text.length) '0'))
  else none

/-- `datetime.strptime (text, "%Y-%m-%d %H:%M:%S.%f")`. Reading a time that no calendar
has raises an exception. -/
def strptime (text : Text) : Option DateTime := do
  let (year, text) ← directive 4 4 0 9999 text
  let text ← scanChar '-' text
  let (month, text) ← directive 1 2 1 12 text
  let text ← scanChar '-' text
  let (day, text) ← directive 1 2 1 31 text
  let text ← blanks text
  let (hour, text) ← directive 1 2 0 23 text
  let text ← scanChar ':' text
  let (minute, text) ← directive 1 2 0 59 text
  let text ← scanChar ':' text
  let (second, text) ← directive 1 2 0 61 text
  let text ← scanChar '.' text
  let microsecond ← fraction text
  let time := DateTime.mk year month day hour minute second microsecond
  if time.Valid then some time else none

/-- The days before a year, in the calendar as if it had always been in use. -/
def daysBeforeYear (year : Nat) : Nat :=
  (year - 1) * 365 + (year - 1) / 4 - (year - 1) / 100 + (year - 1) / 400

/-- The days of a year before a month. -/
def daysBeforeMonth (year month : Nat) : Nat :=
  ((List.range (month - 1)).map fun before => daysIn year (before + 1)).sum

/-- `time.toordinal ()`, the number of a day. -/
def DateTime.ordinal (time : DateTime) : Nat :=
  daysBeforeYear time.year + daysBeforeMonth time.year time.month + time.day

/-- The microseconds up to a time, which differences of times are computed by. -/
def DateTime.instant (time : DateTime) : Nat :=
  (((time.ordinal * 24 + time.hour) * 60 + time.minute) * 60 + time.second) * 10 ^ 6 +
    time.microsecond

/-- `later - earlier`, in microseconds. -/
def DateTime.since (later earlier : DateTime) : Int := later.instant - earlier.instant

/-- `str` of a `timedelta` of so many microseconds, the days in front of the time of
day. -/
def timedelta (microseconds : Int) : Text :=
  let days := microseconds / (86400 * 10 ^ 6)
  let rest : Nat := (microseconds % (86400 * 10 ^ 6)).toNat
  let seconds : Nat := rest / 10 ^ 6
  (if days = 0 then [] else
    decimal days ++ " day".toList ++ (if days.natAbs = 1 then [] else ['s']) ++ ", ".toList) ++
  decimal (seconds / 3600 : Nat) ++ ':' :: filled 2 10 (seconds / 60 % 60) ++
    ':' :: filled 2 10 (seconds % 60) ++
  (if rest % 10 ^ 6 = 0 then [] else '.' :: filled 6 10 (rest % 10 ^ 6))

/-! ## Reading what was printed -/

/-- Digits of base ten are digits, zeros in front included. -/
theorem filled_digits (width number : Nat) :
    ∀ c ∈ filled width 10 number, c.isDigit = true :=
  filled_all width 10 number (by decide) _ (by decide)

/-- A directive reads a number printed with as many digits as it takes, whatever
follows. -/
theorem directive_filled (least most low high number : Nat) (rest : Text) (some : 0 < most)
    (enough : least ≤ most) (fits : number < 10 ^ most) (lower : low ≤ number)
    (upper : number ≤ high) :
    directive least most low high (filled most 10 number ++ rest) = Option.some (number, rest) := by
  have length := filled_length most 10 number (by decide) some fits
  have digits : ((filled most 10 number ++ rest).take most).takeWhile Char.isDigit =
      filled most 10 number := by
    rw [List.take_left' length, List.takeWhile_eq_self_iff]
    exact filled_digits most number
  simp only [directive, digits, of_digits_filled most 10 number (by decide) (by decide), length]
  rw [if_pos ⟨enough, lower, upper⟩, List.drop_left' length]

/-- So does one of two digits at most, although it would take one. -/
theorem two_filled (low high number : Nat) (rest : Text) (fits : number < 100)
    (lower : low ≤ number) (upper : number ≤ high) :
    directive 1 2 low high (filled 2 10 number ++ rest) = some (number, rest) :=
  directive_filled 1 2 low high number rest (by decide) (by decide) fits lower upper

/-- A separator is read where it stands. -/
theorem scan_char_cons (c : Char) (rest : Text) : scanChar c (c :: rest) = some rest := if_pos rfl

/-- A blank before a number is read, and nothing of the number. -/
theorem blanks_filled (number : Nat) (rest : Text) (fits : number < 10 ^ 2) :
    blanks (' ' :: (filled 2 10 number ++ rest)) = some (filled 2 10 number ++ rest) := by
  have digits := filled_digits 2 number
  have length := filled_length 2 10 number (by decide) (by decide) fits
  generalize filled 2 10 number = printed at digits length ⊢
  match printed, length with
  | first :: second, _ =>
    have visible := digit_not_space first (digits first List.mem_cons_self)
    have blank : isspace ' ' = true := rfl
    simp [blanks, skipSpace, blank, visible]

/-- The fraction of a second is read to the millisecond. -/
theorem fraction_filled (millisecond : Nat) (fits : millisecond < 10 ^ 3) :
    fraction (filled 3 10 millisecond) = some (millisecond * 1000) := by
  have length := filled_length 3 10 millisecond (by decide) (by decide) fits
  have digits : (filled 3 10 millisecond).all Char.isDigit = true :=
    List.all_eq_true.mpr (filled_digits 3 millisecond)
  have zeros : ofDigits 10 (List.replicate 3 '0') = 0 := by decide
  rw [fraction, if_pos ⟨digits, by omega, by omega⟩, length, of_digits_append_eq,
    of_digits_filled 3 10 millisecond (by decide) (by decide), List.length_replicate, zeros,
    Nat.add_zero]
  norm_num

/-- The time to the millisecond, which is what a timestamp tells of it. -/
def DateTime.truncated (time : DateTime) : DateTime :=
  { time with microsecond := time.microsecond / 1000 * 1000 }

/-- A valid time is valid to the millisecond. -/
theorem DateTime.Valid.truncated {time : DateTime} (valid : time.Valid) :
    time.truncated.Valid := by
  obtain ⟨year, month, day, hour, minute, second, microsecond⟩ := valid
  refine ⟨year, month, day, hour, minute, second, ?_⟩
  simp only [DateTime.truncated]
  omega

/-- Times to the millisecond are as far apart as the times are, but for less than a
millisecond. -/
theorem since_truncated (later earlier : DateTime) :
    |later.truncated.since earlier.truncated - later.since earlier| < 1000 := by
  have shift (time : DateTime) :
      (time.truncated.instant : Int) = time.instant - time.microsecond % 1000 := by
    have same : time.truncated.ordinal = time.ordinal := rfl
    simp only [DateTime.instant, same]
    simp only [DateTime.truncated]
    omega
  simp only [DateTime.since, shift, abs_lt]
  omega

/-- A month has at most 31 days. -/
theorem days_in_le (year month : Nat) : daysIn year month ≤ 31 := by
  unfold daysIn
  split_ifs <;> decide

/-- Reading a timestamp gives its time back, to the millisecond.

Proof: the directives take the printed numbers one by one, since each is followed by a
separator or has all the digits it can have, and the time that they make up is valid. -/
theorem strptime_timestamp (clock : Clock) :
    strptime (dbGetTime clock) = some clock.time.truncated := by
  obtain ⟨time, valid, four⟩ := clock
  have truncated := valid.truncated
  obtain ⟨year, month, day, hour, minute, second, microsecond⟩ := valid
  have days := days_in_le time.year time.month
  simp only [strptime, dbGetTime, List.append_assoc, List.cons_append]
  rw [directive_filled 4 4 0 9999 _ _ (by decide) (by decide) (by omega) (by omega) (by omega)]
  simp only [Option.bind_eq_bind, Option.bind_some, scan_char_cons]
  rw [two_filled 1 12 _ _ (by omega) (by omega) (by omega)]
  simp only [Option.bind_some, scan_char_cons]
  rw [two_filled 1 31 _ _ (by omega) (by omega) (by omega)]
  simp only [Option.bind_some]
  rw [blanks_filled _ _ (by omega), Option.bind_some,
    two_filled 0 23 _ _ (by omega) (by omega) (by omega)]
  simp only [Option.bind_some, scan_char_cons]
  rw [two_filled 0 59 _ _ (by omega) (by omega) (by omega)]
  simp only [Option.bind_some, scan_char_cons]
  rw [two_filled 0 61 _ _ (by omega) (by omega) (by omega)]
  simp only [Option.bind_some, scan_char_cons]
  rw [fraction_filled _ (by omega), Option.bind_some]
  exact if_pos truncated

end EventRecorder.Timestamps
