import EventRecorder.Formats
import EventRecorder.PreparedStatements
import EventRecorder.Python
import EventRecorder.Timestamps

/-!
# The program that plots

`sqlite.py` selects the announcements of a crash from the database, each by its type, and
takes their fields apart: the number of the sample at which the crash was found and the two
thresholds, for the axes of the plots, and the times, for the durations before and after.
-/

namespace EventRecorder.Plots

open Arithmetic CText Formats Timestamps
open Database hiding dbGetTime
open Sqlite (Row)

section

variable {F : Type}

/-- What `SELECT msg FROM LOGS where type=<code>` has of a row: its text, if it is of
that table and type. -/
def selected (code : Int) : Row F → Option Text
  | (.logs, [_, some (.int type), some (.text msg), _]) => if type = code then some msg else none
  | _ => none

/-- `cur.execute ("SELECT msg FROM LOGS where type=<code>").fetchall ()`, in the order
in which the rows are scanned. -/
def select (code : Int) (rows : List (Row F)) : List Text := rows.filterMap (selected code)

/-- `text.rstrip ()`, which takes the newline of a time off, if there is one. -/
def rstrip (text : Text) : Text := (skipSpace text.reverse).reverse

/-- What `SELECT data FROM DATA where pid=<pid>` has of a row: its value, if it is of
that table and channel. -/
def selectedData (pid : Int) : Row F → Option F
  | (.data, [_, some (.int rowPid), _, some (.double data), _]) =>
    if rowPid = pid then some data else none
  | _ => none

/-- `data` of `plot_data`, from the rows in the order in which they are scanned. -/
def plotData (pid : Int) (rows : List (Row F)) : List F := rows.filterMap (selectedData pid)

/-- The values that `plot_static` draws in its two colours: up to the split, and from the last
one before it. -/
def plotStatic (split : Nat) (y : List F) : List F × List F := (y.take split, y.drop (split - 1))

variable (parse : Text → Text → Option (List Text))

/-- `plot_get_time`: `row`, `h_h` and `h_l`. An index out of range or a text that does not
match raises an error. -/
def plotGetTime (rows : List (Row F)) : Option (Text × Text × Text) := do
  let msg ← (select 32 rows)[0]?
  let parsed ← parse "Crash Started {} {} {} {}".toList msg
  let row ← parsed[0]?
  let hH ← parsed[1]?
  let hL ← parsed[2]?
  return (row, hH, hL)

/-- `start_time`, the number of the sample at which the crash was found less twenty. -/
def startTime (rows : List (Row F)) : Option Int := do
  let (row, _, _) ← plotGetTime parse rows
  let number ← (Python.int row).toOption
  return number - 20

/-- `plot_get_total_time`: `pre` and `post`. The start is the fourth field of its
announcement, and the others are the second of theirs. -/
def plotGetTotalTime (rows : List (Row F)) : Option (Text × Text) := do
  let msg ← (select 32 rows)[0]?
  let parsed ← parse "Crash Started {} {} {} {}".toList msg
  let start ← strptime (rstrip (← parsed[3]?))
  let msg ← (select 64 rows)[0]?
  let parsed ← parse "Crash Mid {} {}".toList msg
  let mid ← strptime (rstrip (← parsed[1]?))
  let msg ← (select 128 rows)[0]?
  let parsed ← parse "Crash Ended {} {}".toList msg
  let last ← strptime (rstrip (← parsed[1]?))
  return (timedelta (mid.since start), timedelta (last.since mid))

end

/-! ## What is read -/

/-- Numbers are words: not empty, and without a blank that would end a field. -/
theorem decimal_word (number : Nat) : decimal number ≠ [] ∧ ' ' ∉ decimal number := by
  rw [decimal_nat]
  refine ⟨Nat.toDigits_ne_nil, fun blank => ?_⟩
  have digit := Nat.isDigit_of_mem_toDigits (by decide) (by decide) blank
  cases digit

/-- A number is read back from its digits. -/
theorem int_decimal (number : Nat) : Python.int (decimal number) = .ok number := by
  have digits : ∀ c ∈ decimal number, c.isDigit = true := by
    rw [decimal_nat]
    exact fun c member => Nat.isDigit_of_mem_toDigits (by decide) (by decide) member
  obtain ⟨c, rest, cons⟩ := List.exists_cons_of_ne_nil (decimal_word number).1
  have sign : scanSign (decimal number) = (false, decimal number) := by
    rw [cons, scan_sign_digit c (digits c (by simp [cons]))]
  have value : ofDigits 10 (decimal number) = number := by
    rw [decimal_nat, of_digits_to_digits 10 number (by decide) (by decide)]
  have denotes : denoted (decimal number) = some (number : Int) := by
    rw [denoted, sign]
    dsimp only
    rw [if_pos ⟨(decimal_word number).1, List.all_eq_true.mpr digits⟩, value]
    rfl
  rw [Python.int, denotes]

/-- The times of the clock have a fixed width, with years of four digits and
milliseconds. -/
theorem timestamp_length (clock : Clock) : (dbGetTime clock).length = 23 := by
  obtain ⟨time, valid, four⟩ := clock
  obtain ⟨year, month, day, hour, minute, second, microsecond⟩ := valid
  have days := days_in_le time.year time.month
  have width (width number : Nat) (some : 0 < width) (fits : number < 10 ^ width) :=
    filled_length width 10 number (by decide) some fits
  simp only [dbGetTime, List.length_append, List.length_cons]
  rw [width 4 _ (by decide) (by omega), width 2 _ (by decide) (by omega),
    width 2 _ (by decide) (by omega), width 2 _ (by decide) (by omega),
    width 2 _ (by decide) (by omega), width 2 _ (by decide) (by omega),
    width 3 _ (by decide) (by omega)]

/-- A timestamp has nothing to be stripped, as its last character is a digit. -/
theorem rstrip_timestamp (clock : Clock) : rstrip (dbGetTime clock) = dbGetTime clock := by
  have digits := filled_digits 3 (clock.time.microsecond / 1000)
  have length := filled_length 3 10 (clock.time.microsecond / 1000) (by decide) (by decide)
    (by have := clock.valid.microsecond; omega)
  unfold dbGetTime
  generalize filled 3 10 (clock.time.microsecond / 1000) = printed at digits length ⊢
  match printed, length with
  | [first, second, last], _ =>
    have visible := digit_not_space last (digits last (by simp))
    simp [rstrip, skipSpace, visible]

/-- A timestamp is read back to the millisecond. -/
theorem strptime_stripped (clock : Clock) :
    strptime (rstrip (dbGetTime clock)) = some clock.time.truncated := by
  rw [rstrip_timestamp, strptime_timestamp]

/-- The fields of the start of a crash: the number, the threshold twice, and the time
with the blank in it. -/
theorem parse_started (parse : Text → Text → Option (List Text)) (parses : ParsesFields parse)
    (number threshold time : Text) (numberWord : number ≠ [] ∧ ' ' ∉ number)
    (word : threshold ≠ [] ∧ ' ' ∉ threshold) (some : time ≠ []) :
    parse "Crash Started {} {} {} {}".toList ("Crash Started ".toList ++ number ++
      ' ' :: threshold ++ ' ' :: threshold ++ ' ' :: time) =
      Option.some [number, threshold, threshold, time] := by
  have fields := parses "Crash Started ".toList [number, threshold, threshold] time (by simp)
    (by simp_all) some
  simpa using fields

/-- The fields of the middle and of the end: the number, and the time with the blank in
it. -/
theorem parse_later (parse : Text → Text → Option (List Text)) (parses : ParsesFields parse)
    (head number time : Text) (plain : ∀ c ∈ head, c.isAlpha = true ∨ c = ' ')
    (word : number ≠ [] ∧ ' ' ∉ number) (some : time ≠ []) :
    parse (head ++ "{} {}".toList) (head ++ number ++ ' ' :: time) =
      Option.some [number, time] := by
  have fields := parses head [number] time plain (by simpa using word) some
  simpa using fields

section

variable {F : Type}

/-- If each announcement is selected once, its fields are read, and the durations are
those between the times in them. -/
theorem plot_messages (parse : Text → Text → Option (List Text)) (parses : ParsesFields parse)
    (rows : List (Row F)) (number last : Nat) (threshold : Text)
    (word : threshold ≠ [] ∧ ' ' ∉ threshold) (started mid ended : Clock)
    (first : select 32 rows = ["Crash Started ".toList ++ decimal number ++ ' ' :: threshold ++
      ' ' :: threshold ++ ' ' :: dbGetTime started])
    (second : select 64 rows = ["Crash Mid ".toList ++ decimal number ++ ' ' :: dbGetTime mid])
    (third : select 128 rows = ["Crash Ended ".toList ++ decimal last ++ ' ' :: dbGetTime ended]) :
    plotGetTime parse rows = some (decimal number, threshold, threshold) ∧
      plotGetTotalTime parse rows =
        some (timedelta (mid.time.truncated.since started.time.truncated),
          timedelta (ended.time.truncated.since mid.time.truncated)) := by
  have some (clock : Clock) : dbGetTime clock ≠ [] := by
    have length := timestamp_length clock
    rintro none
    rw [none] at length
    cases length
  have startFields := parse_started parse parses (decimal number) threshold
    (dbGetTime started) (decimal_word number) word (some started)
  have midFields := parse_later parse parses "Crash Mid ".toList (decimal number) (dbGetTime mid)
    (by simp) (decimal_word number) (some mid)
  have endedFields := parse_later parse parses "Crash Ended ".toList (decimal last)
    (dbGetTime ended) (by simp) (decimal_word last) (some ended)
  constructor
  · simp only [plotGetTime, first, List.getElem?_cons_zero, Option.bind_eq_bind,
      Option.bind_some, startFields, List.getElem?_cons_succ]
    rfl
  · have midFormat : "Crash Mid {} {}".toList = "Crash Mid ".toList ++ "{} {}".toList := rfl
    have endedFormat : "Crash Ended {} {}".toList = "Crash Ended ".toList ++ "{} {}".toList := rfl
    simp only [plotGetTotalTime, first, second, third, midFormat, endedFormat,
      List.getElem?_cons_zero, Option.bind_eq_bind, Option.bind_some, startFields, midFields,
      endedFields, List.getElem?_cons_succ, strptime_stripped]
    rfl

/-- The axis begins twenty samples before the number that was read, which may be below
zero. -/
theorem start_time_eq (parse : Text → Text → Option (List Text)) (stored : List (Row F))
    (number : Nat) (high low : Text)
    (read : plotGetTime parse stored = some (decimal number, high, low)) :
    startTime parse stored = some ((number : Int) - 20) := by
  rw [startTime, read]
  simp only [Option.bind_eq_bind, Option.bind_some, int_decimal]
  rfl

end

end EventRecorder.Plots
