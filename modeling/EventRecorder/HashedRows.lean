import EventRecorder.Digits
import EventRecorder.PreparedStatements

/-!
# Hashed rows

A row of each table is stored with the hash of a text: its columns written one after the
other, without anything between them, as far as the buffer has room. Two rows of a table
have the same text when what a column of one has more than the same column of the other
is the beginning of the next column there.

Every row starts with a time, whose length is fixed, and a number.
-/

namespace EventRecorder.HashedRows

open Arithmetic CText Database PreparedStatements

/-- What `db_get_time` writes: `%Y-%m-%d %H:%M:%S` and `.%03ld`, for years of four
digits. Of it only the width matters here. -/
@[ext] structure Timestamp where
  text : Text
  sized : text.length = 23
  deriving DecidableEq

/-- The hashed columns of a row, by its table. All numbers but the value of the last
table are bound as `int`. -/
inductive Row (F : Type) where
  | logs (timestamp : Timestamp) (type : Int32) (log : Text)
  | errors (timestamp : Timestamp) (type : Int32) (errs : Text) (errc : Int32)
  | data (timestamp : Timestamp) (pid type : Int32) (f : F)

variable {F : Type}

/-- The table of a row, by the statement that inserts into it. -/
def Row.statement : Row F → Statement
  | .logs .. => .logs
  | .errors .. => .errors
  | .data .. => .data

/-- The time of a row, which every table has in front. -/
def Row.timestamp : Row F → Timestamp
  | .logs timestamp .. => timestamp
  | .errors timestamp .. => timestamp
  | .data timestamp .. => timestamp

/-- The number behind the time: the type of a record, or the process id of a datum. -/
def Row.number : Row F → Int32
  | .logs _ type _ => type
  | .errors _ type _ _ => type
  | .data _ pid _ _ => pid

/-- The column behind the number, as it is written into the text that is hashed. -/
def Row.middle : Row F → Text
  | .logs _ _ log => log
  | .errors _ _ errs _ => errs
  | .data _ _ type _ => decimal type.toInt

/-- The columns as they are bound, in the order of the table. -/
def Row.columns : Row F → List (Value F)
  | .logs timestamp type log => [.text timestamp.text, .int type.toInt, .text log]
  | .errors timestamp type errs errc =>
    [.text timestamp.text, .int type.toInt, .text errs, .int errc.toInt]
  | .data timestamp pid type f =>
    [.text timestamp.text, .int pid.toInt, .int type.toInt, .double f]

variable [Arithmetic F]

/-- The last column, as it is written. A record of the first table has none, so that
nothing is written. -/
def Row.last : Row F → Text
  | .logs .. => []
  | .errors _ _ _ errc => decimal errc.toInt
  | .data _ _ _ f => render f

/-- The text that `snprintf` leaves in `entry_buffer`: the columns one after the other,
cut where there is no more room. -/
def Row.hashed (row : Row F) : Text :=
  snprintf dbEntryMaxLen
    (row.timestamp.text ++ decimal row.number.toInt ++ row.middle ++ row.last)

/-- The characters that fit behind the number, in the buffer of the source and behind a
time of fixed width. -/
def Row.room (row : Row F) : Nat := dbEntryMaxLen - 1 - 23 - (decimal row.number.toInt).length

/-- What the text has of the column behind the number, which may be cut. -/
def Row.shownMiddle (row : Row F) : Text := row.middle.take row.room

/-- What the text has of the last column, which may be cut or left out. -/
def Row.shownLast (row : Row F) : Text := row.last.take (row.room - row.middle.length)

/-- Where one of two columns goes on, the one behind the other begins with what it has more. -/
def Slides (first second first' second' : Text) : Prop :=
  ∃ more, first' = first ++ more ∧ second = more ++ second' ∨
    first = first' ++ more ∧ second' = more ++ second

/-- The number of one row is that of the other without its last digits, or the same number,
and the columns behind it make up for these digits. -/
def Continues (row other : Row F) : Prop :=
  ∃ count, Shortens count row.number.toInt other.number.toInt ∧
    Slides row.shownMiddle row.shownLast
      (lastDigits count other.number.toInt ++ other.shownMiddle) other.shownLast

/-- Two rows of the same time, of which one continues the other: nothing in the text
tells where a column ends. -/
def Confusable (row other : Row F) : Prop :=
  row.timestamp = other.timestamp ∧ (Continues row other ∨ Continues other row)

/-! ## The text of a row -/

/-- A numeral of 32 bits is short, with a sign and ten digits at most, and always has
room. -/
theorem decimal_length_le (number : Int32) : (decimal number.toInt).length ≤ 11 := by
  have lower := number.le_toInt
  have upper := number.toInt_lt
  have digits : (Nat.toDigits 10 number.toInt.natAbs).length ≤ 10 :=
    (Nat.length_toDigits_le_iff (by decide) (by decide)).mpr (by omega)
  rw [decimal_eq, List.length_append]
  split_ifs <;> simp <;> omega

/-- The buffer cuts the last two columns only, as the others never fill it. -/
theorem hashed_eq (row : Row F) :
    row.hashed = row.timestamp.text ++
      (decimal row.number.toInt ++ (row.shownMiddle ++ row.shownLast)) := by
  have short := decimal_length_le row.number
  have size : dbEntryMaxLen = 600 := rfl
  rw [Row.hashed, snprintf, List.append_assoc, List.append_assoc, List.take_append,
    row.timestamp.sized, List.take_of_length_le (by rw [row.timestamp.sized, size]; decide),
    List.take_append, List.take_of_length_le (by omega), List.take_append]
  rfl

/-- What one text has more than another is the beginning of what follows, in other
words: the two with what follows them are equal. -/
theorem slides_iff (first second first' second' : Text) :
    Slides first second first' second' ↔ first ++ second = first' ++ second' := by
  rw [Slides, List.append_eq_append_iff, ← exists_or]

/-- The number of one row goes on in the columns of the other, digit by digit or with
nothing. -/
theorem continues_iff (row other : Row F) :
    Continues row other ↔
      ∃ more, decimal other.number.toInt = decimal row.number.toInt ++ more ∧
        row.shownMiddle ++ row.shownLast =
          more ++ (other.shownMiddle ++ other.shownLast) := by
  simp only [Continues, slides_iff, List.append_assoc, decimal_continue_iff]
  constructor
  · rintro ⟨count, shortens, same⟩
    refine ⟨lastDigits count other.number.toInt, ⟨?_, ?_⟩, same⟩
    · rwa [shortens.last_length]
    · rw [shortens.last_length]
  · rintro ⟨more, ⟨shortens, suffix⟩, same⟩
    rw [suffix] at same
    exact ⟨more.length, shortens, same⟩

/-- Two rows have the same text exactly when they can be confused, since their times
have the same width. -/
theorem hashed_eq_iff (row other : Row F) :
    row.hashed = other.hashed ↔ Confusable row other := by
  rw [Confusable, continues_iff, continues_iff, hashed_eq, hashed_eq]
  constructor
  · intro same
    have sized : row.timestamp.text.length = other.timestamp.text.length := by
      rw [row.timestamp.sized, other.timestamp.sized]
    obtain ⟨time, rest⟩ := List.append_inj same sized
    refine ⟨Timestamp.ext time, ?_⟩
    rcases List.append_eq_append_iff.mp rest with ⟨more, continues⟩ | ⟨more, continues⟩
    · exact .inl ⟨more, continues⟩
    · exact .inr ⟨more, continues⟩
  · rintro ⟨time, continues⟩
    rw [time, List.append_cancel_left_eq, List.append_eq_append_iff]
    rcases continues with ⟨more, continues⟩ | ⟨more, continues⟩
    · exact .inl ⟨more, continues⟩
    · exact .inr ⟨more, continues⟩

/-- Different rows of one table have different texts, so that the hash of one does not
fit the other. -/
def Binds (row other : Row F) : Prop :=
  row.statement = other.statement → row ≠ other → row.hashed ≠ other.hashed

/-- The text binds two rows if and only if they are no different rows of one table that
can be confused.

Proof: `hashed_eq_iff`, by which not being confused is having different texts. -/
theorem binds_iff (row other : Row F) :
    Binds row other ↔
      (row.statement = other.statement → row ≠ other → ¬ Confusable row other) := by
  rw [Binds, ne_eq row.hashed, hashed_eq_iff]

/-- One second of one day, with its milliseconds. -/
def stamp : Timestamp := ⟨"2022-05-20 10:15:30.250".toList, by decide⟩

/-- In each table a digit can move to the next column, and a small value is written as zero. -/
theorem rows_not_bound :
    ¬ Binds (.logs stamp 1 "2".toList : Row ℚ) (.logs stamp 12 []) ∧
      ¬ Binds (.errors stamp 1 "x1".toList 2 : Row ℚ) (.errors stamp 1 "x".toList 12) ∧
      ¬ Binds (.data stamp 10 0 (201 / 2) : Row ℚ) (.data stamp 1001 0 (1 / 2)) ∧
      ¬ Binds (.data stamp 10 0 0 : Row ℚ) (.data stamp 10 0 (1 / 10 ^ 7)) := by
  refine ⟨fun binds => ?_, fun binds => ?_, fun binds => ?_, fun binds => ?_⟩
  · exact binds rfl (by simp) (by decide)
  · exact binds rfl (by simp) (by decide)
  · exact binds rfl (by simp) (by decide +kernel)
  · exact binds rfl (by norm_num) (by decide +kernel)

/-! ## The text `db_sql_log` hashes -/

variable [LogHeader]

omit [Arithmetic F] [LogHeader] in
/-- Every insert fills the buffer, whatever becomes of it: the entry is printed before
anything can fail. -/
theorem insert_entry_buffer {W : Type} (env : Environment W F) (stmt : Statement) (entry : Text)
    (columns : List (Value F)) (state : DbState W) :
    (insertEntry env stmt entry columns state).2.entryBuffer = snprintf dbEntryMaxLen entry := by
  unfold insertEntry
  simp only
  split_ifs <;> rfl

/-- The columns of a row determine its text, for a record whose columns are those of the
row. -/
theorem entry_text_eq (log : Log F) (timestamp : Text) (row : Row F)
    (table : row.statement = entryType log) (columns : row.columns = recordColumns log timestamp) :
    entryText log timestamp =
      row.timestamp.text ++ decimal row.number.toInt ++ row.middle ++ row.last := by
  unfold recordColumns at columns
  unfold entryText
  rw [← table] at columns ⊢
  cases row <;> simp [Row.columns, Row.statement] at columns ⊢ <;>
    simp [columns, Row.timestamp, Row.number, Row.middle, Row.last]

/-- `db_sql_log` feeds the text of the row it inserts to the hash, which connects the
rows with the code. -/
theorem db_sql_log_hashed {W : Type} (env : Environment W F) (log : Log F) (state : DbState W)
    (row : Row F) (table : row.statement = entryType log)
    (columns : row.columns = recordColumns log (env.clock state.world).1) :
    (dbSqlLog env log state).2.entryBuffer = row.hashed := by
  have text := entry_text_eq log _ row table columns
  have filled : (dbSqlLog env log state).2.entryBuffer =
      snprintf dbEntryMaxLen (entryText log (env.clock state.world).1) := by
    unfold dbSqlLog entryText
    cases entryType log <;> exact insert_entry_buffer ..
  rw [filled, text, Row.hashed]

end EventRecorder.HashedRows
