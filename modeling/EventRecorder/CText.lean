import Mathlib.Data.List.TakeDrop
import Mathlib.Tactic.Common

/-!
# C strings

A text is a list of characters without its terminator. Formatting functions
produce whole texts; `snprintf` keeps as much of one as fits its buffer next to
the terminating NUL.

Where bytes beyond a terminator matter, memory is a list of characters with
its terminators in place, and a string in it runs to the first of them.
-/

namespace EventRecorder.CText

/-- The characters of a C string, the terminating NUL left out. A text is as long as
`strlen` says. -/
abbrev Text := List Char

/-- The terminator of a C string. It stands in texts only where these are memory. -/
def nul : Char := '\x00'

/-- What `snprintf` leaves in a buffer of `size` bytes: the text, cut so that the
terminator fits behind it. -/
def snprintf (size : Nat) (text : Text) : Text := text.take (size - 1)

/-- `%ld` and `%d`: the digits of the amount, behind a sign if the number is negative. -/
def decimal (value : Int) : Text := (toString value).toList

/-- A hexadecimal digit, in lower case as `%x` prints it. -/
def hexDigit (value : Nat) : Char := "0123456789abcdef".toList.getD value '0'

/-- `%02x` of a byte: always two digits, the first of them for the higher half. -/
def hexByte (byte : Fin 256) : Text := [hexDigit (byte / 16), hexDigit (byte % 16)]

/-- A hexadecimal digit is one of sixteen characters, from which whatever is asked of it
can be read off. -/
theorem hex_digit_mem (value : Nat) : hexDigit value ∈ "0123456789abcdef".toList := by
  rw [hexDigit, List.getD_eq_getElem?_getD]
  cases found : "0123456789abcdef".toList[value]? with
  | none => decide
  | some digit => exact List.mem_of_getElem? found

/-- A hexadecimal digit is not a terminator, so that a printed digest is a string as a
whole. -/
theorem hex_digit_ne_nul (value : Nat) : hexDigit value ≠ nul := by
  have distinct : "0123456789abcdef".toList.all (· != nul) = true := by decide
  simpa using List.all_eq_true.mp distinct _ (hex_digit_mem value)

/-- Bytes written into memory at an offset. What stands before them and behind them
stays. -/
def store (memory : Text) (offset : Nat) (bytes : Text) : Text :=
  memory.take offset ++ bytes ++ memory.drop (offset + bytes.length)

/-- Writing inside memory keeps its length; a write that would go beyond it is not
inside. -/
theorem store_length (memory : Text) (offset : Nat) (bytes : Text)
    (inside : offset + bytes.length ≤ memory.length) :
    (store memory offset bytes).length = memory.length := by
  simp [store]
  omega

/-- Up to the end of what was written, memory is what stood before the offset and then
the written bytes. -/
theorem store_take_end (memory : Text) (offset : Nat) (bytes : Text)
    (inside : offset ≤ memory.length) :
    (store memory offset bytes).take (offset + bytes.length) = memory.take offset ++ bytes := by
  have whole : (memory.take offset ++ bytes).length = offset + bytes.length := by
    simp [inside]
  rw [store, ← whole, List.take_left]

/-- Setting one byte is a write of it, so that the lemmas on writes hold of it too. -/
theorem set_eq_store (memory : Text) (offset : Nat) (byte : Char)
    (inside : offset < memory.length) : memory.set offset byte = store memory offset [byte] := by
  rw [store, List.set_eq_take_append_cons_drop, if_pos inside]
  simp

/-- The string at the beginning of memory: what stands before the first terminator, or
all of it if there is none. -/
def cString (memory : Text) : Text := memory.takeWhile (· ≠ nul)

end EventRecorder.CText
