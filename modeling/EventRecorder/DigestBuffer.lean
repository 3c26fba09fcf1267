import EventRecorder.CInput
import EventRecorder.Sha
import Mathlib.Data.List.Enum

/-!
# Where a digest's digits are written

`sha_snprintf` writes two digits and a terminator for each byte, up to one byte more
than half the wanted length, and then terminates the text at that length. Its
callers give it two bytes more than the length. For an odd length the last
terminator falls on the last byte; for an even one it falls behind the buffer, if
the digest is long enough for the loop to get there. An empty digest leaves
whatever the buffer held in front of the final terminator.
-/

namespace EventRecorder.DigestBuffer

open CText Sha

/-- Bytes written at an offset, as one call of `snprintf` or one assignment makes them. -/
structure Write where
  offset : Nat
  bytes : Text
  deriving DecidableEq

/-- The writes of the loop, so many bytes of the digest: two digits and a terminator
each, which the next one overwrites. -/
def digitWrites (hashInt : List (Fin 256)) (rounds : Nat) : List Write :=
  (hashInt.take rounds).zipIdx.map fun numbered =>
    ⟨numbered.2 * 2, hexByte numbered.1 ++ [nul]⟩

/-- The writes of `sha_snprintf`, in order. The assignment behind the loop is the last
of them. -/
def writes (hashInt : List (Fin 256)) (hashLen : Nat) : List Write :=
  digitWrites hashInt (min (1 + hashLen / 2) hashInt.length) ++ [⟨hashLen, [nul]⟩]

/-- Writes made one after the other, so that a later one shows where two overlap. -/
def written (memory : Text) (list : List Write) : Text :=
  list.foldl (fun memory write => store memory write.offset write.bytes) memory

/-- The buffer a caller gives for a length, with what it held before. Its size is the
one the comment on the function asks for. -/
structure Buffer (hashLen : Nat) where
  bytes : Text
  size : bytes.length = hashLen + 2

/-- Every write of `sha_snprintf` is inside its buffer, which then holds the first
digits of the digest, terminated, as many as asked for and there are. -/
structure Rendered (hashInt : List (Fin 256)) {hashLen : Nat} (buffer : Buffer hashLen) : Prop where
  inside : ∀ write ∈ writes hashInt hashLen, write.offset + write.bytes.length ≤ hashLen + 2
  terminated : nul ∈ shaSnprintf hashInt buffer.bytes hashLen
  digits : cString (shaSnprintf hashInt buffer.bytes hashLen) =
    (hexDigits hashInt hashInt.length).take (min hashLen (2 * hashInt.length))

/-- One byte more is one write more, behind the others. The proofs about the loop are by
induction with it. -/
theorem digit_writes_succ (hashInt : List (Fin 256)) (rounds : Nat)
    (more : rounds < hashInt.length) :
    digitWrites hashInt (rounds + 1) = digitWrites hashInt rounds ++
      [⟨rounds * 2, hexByte (hashInt.getD rounds 0) ++ [nul]⟩] := by
  have taken : (hashInt.take rounds).length = rounds := by
    rw [List.length_take, Nat.min_eq_left more.le]
  rw [digitWrites, List.take_succ_eq_append_getElem more, List.zipIdx_append, List.map_append,
    taken, List.getD_eq_getElem?_getD, List.getElem?_eq_getElem more]
  simp [digitWrites]

/-- The loop makes its writes: what it leaves in memory is what they leave. -/
theorem write_digits_eq (hashInt : List (Fin 256)) (hash : Text) (rounds : Nat)
    (enough : rounds ≤ hashInt.length) :
    writeDigits hashInt hash rounds = written hash (digitWrites hashInt rounds) := by
  induction rounds with
  | zero => rfl
  | succ rounds inductionHypothesis =>
    rw [writeDigits, inductionHypothesis (by omega), digit_writes_succ _ _ (by omega), written,
      written, List.foldl_append]
    rfl

/-- A write never shortens memory, although one that does not fit would run off its end. -/
theorem length_le_store (memory : Text) (offset : Nat) (bytes : Text) :
    memory.length ≤ (store memory offset bytes).length := by
  simp only [store, List.length_append, List.length_take, List.length_drop]
  omega

/-- Nor does the loop, which only writes. -/
theorem length_le_write_digits (hashInt : List (Fin 256)) (hash : Text) (rounds : Nat) :
    hash.length ≤ (writeDigits hashInt hash rounds).length := by
  induction rounds with
  | zero => exact le_rfl
  | succ rounds inductionHypothesis =>
    exact inductionHypothesis.trans (length_le_store _ _ _)

/-- `sha_snprintf` makes its writes and no others, so that where it writes can be told
from their list. -/
theorem sha_snprintf_eq (hashInt : List (Fin 256)) {hashLen : Nat} (buffer : Buffer hashLen) :
    shaSnprintf hashInt buffer.bytes hashLen = written buffer.bytes (writes hashInt hashLen) := by
  have size := buffer.size
  have grown := length_le_write_digits hashInt buffer.bytes
    (min (1 + hashLen / 2) hashInt.length)
  rw [shaSnprintf, set_eq_store _ _ _ (by omega),
    write_digits_eq _ _ _ (Nat.min_le_right _ _), writes, written, written,
    List.foldl_append]
  rfl

/-- The loop's last write ends where its digits do, one byte behind them, for the
terminator. -/
theorem digit_writes_inside_iff (hashInt : List (Fin 256)) (rounds size : Nat)
    (enough : rounds ≤ hashInt.length) :
    (∀ write ∈ digitWrites hashInt rounds, write.offset + write.bytes.length ≤ size) ↔
      rounds = 0 ∨ 2 * rounds < size := by
  rw [digitWrites, List.forall_mem_map, List.forall_mem_zipIdx']
  simp only [List.length_take, Nat.min_eq_left enough]
  constructor
  · intro inside
    by_contra outside
    obtain ⟨some, long⟩ := not_or.mp outside
    have last := inside (rounds - 1) (by omega)
    simp [hexByte] at last
    omega
  · rintro (none | short) i below
    · omega
    · simp [hexByte]
      omega

/-- All writes are inside the buffer for an odd length, and for an even one if the
digest has no more bytes than are wanted. -/
theorem writes_inside_iff (hashInt : List (Fin 256)) (hashLen : Nat) :
    (∀ write ∈ writes hashInt hashLen, write.offset + write.bytes.length ≤ hashLen + 2) ↔
      hashLen % 2 = 1 ∨ hashInt.length ≤ hashLen / 2 := by
  rw [writes, List.forall_mem_append, digit_writes_inside_iff _ _ _ (Nat.min_le_right _ _),
    List.forall_mem_singleton]
  simp only [List.length_singleton]
  omega

/-- The terminator is written, so that the text ends somewhere in the buffer. -/
theorem sha_snprintf_terminated (hashInt : List (Fin 256)) {hashLen : Nat}
    (buffer : Buffer hashLen) : nul ∈ shaSnprintf hashInt buffer.bytes hashLen := by
  have size := buffer.size
  have grown := length_le_write_digits hashInt buffer.bytes
    (min (1 + hashLen / 2) hashInt.length)
  rw [shaSnprintf]
  exact List.mem_set (by omega) nul

/-- Setting the terminator cuts the text off there, if it went on as far as that. -/
theorem c_string_cut (memory : Text) (position : Nat) (inside : position < memory.length)
    (printable : nul ∉ memory.take position) :
    cString (memory.set position nul) = memory.take position := by
  rw [List.set_eq_take_append_cons_drop, if_pos inside, c_string_append _ _ printable]

/-- A terminator behind the text does not change it. -/
theorem c_string_set_later (text rest : Text) (position : Nat) (printable : nul ∉ text)
    (later : text.length ≤ position) :
    cString ((text ++ nul :: rest).set position nul) = text := by
  rw [List.set_append_right _ _ later]
  cases position - text.length with
  | zero => exact c_string_append text rest printable
  | succ distance => exact c_string_append text _ printable

/-- Behind the digits the loop leaves its last terminator, and the digits themselves in
front of it. -/
theorem write_digits_terminated (hashInt : List (Fin 256)) (hash : Text) (rounds : Nat)
    (some : 0 < rounds) (bytes : rounds ≤ hashInt.length) (room : 2 * rounds < hash.length) :
    (writeDigits hashInt hash rounds).take (2 * rounds + 1) =
      hexDigits hashInt rounds ++ [nul] := by
  obtain ⟨i, rfl⟩ : ∃ i, rounds = i + 1 := ⟨rounds - 1, by omega⟩
  have before := (write_digits hashInt hash i (by omega) (by omega)).1
  have digits := (write_digits hashInt hash (i + 1) bytes room).2
  have last := store_take_end (writeDigits hashInt hash i) (i * 2)
    (hexByte (hashInt.getD i 0) ++ [nul]) (by omega)
  have three : i * 2 + (hexByte (hashInt.getD i 0) ++ [nul]).length = 2 * (i + 1) + 1 := by
    simp [hexByte]
    omega
  have two : ((writeDigits hashInt hash i).take (i * 2) ++ hexByte (hashInt.getD i 0)).length =
      2 * (i + 1) := by
    simp [hexByte]
    omega
  rw [three, ← List.append_assoc, ← writeDigits] at last
  have cut := congrArg (List.take (2 * (i + 1))) last
  rw [List.take_take, Nat.min_eq_left (Nat.le_succ _), digits, List.take_left' two] at cut
  rw [last, cut]

/-- The digits that are left of a digest at least as long as asked for: as many as asked
for, of an odd length. -/
theorem digits_of_long (hashInt : List (Fin 256)) {hashLen : Nat} (buffer : Buffer hashLen)
    (odd : hashLen % 2 = 1) (long : 1 + hashLen / 2 ≤ hashInt.length) :
    cString (shaSnprintf hashInt buffer.bytes hashLen) =
      (hexDigits hashInt hashInt.length).take (min hashLen (2 * hashInt.length)) := by
  have size := buffer.size
  obtain ⟨length, digits⟩ := write_digits hashInt buffer.bytes (1 + hashLen / 2) long (by omega)
  have kept : (writeDigits hashInt buffer.bytes (1 + hashLen / 2)).take hashLen =
      (hexDigits hashInt hashInt.length).take hashLen := by
    have fewer : min hashLen (2 * (1 + hashLen / 2)) = hashLen := by omega
    have written := congrArg (List.take hashLen) digits
    rwa [← hex_digits_take hashInt _ _ long, List.take_take, List.take_take, fewer] at written
  have printable : nul ∉ (writeDigits hashInt buffer.bytes (1 + hashLen / 2)).take hashLen := by
    rw [kept]
    exact fun member => nul_not_mem_hex_digits _ _ (List.mem_of_mem_take member)
  rw [shaSnprintf, Nat.min_eq_left long, c_string_cut _ _ (by omega) printable, kept,
    Nat.min_eq_left (by omega)]

/-- The digits of a digest that is not longer than asked for, and not empty: all of
them. -/
theorem digits_of_short (hashInt : List (Fin 256)) {hashLen : Nat} (buffer : Buffer hashLen)
    (some : 0 < hashInt.length) (short : hashInt.length ≤ hashLen / 2) :
    cString (shaSnprintf hashInt buffer.bytes hashLen) =
      (hexDigits hashInt hashInt.length).take (min hashLen (2 * hashInt.length)) := by
  have size := buffer.size
  have terminated := write_digits_terminated hashInt buffer.bytes hashInt.length some le_rfl
    (by omega)
  have split := List.take_append_drop (2 * hashInt.length + 1)
    (writeDigits hashInt buffer.bytes hashInt.length)
  rw [terminated, List.append_assoc, List.singleton_append] at split
  rw [shaSnprintf, Nat.min_eq_right (by omega), ← split,
    c_string_set_later _ _ _ (nul_not_mem_hex_digits _ _) (by simp; omega),
    Nat.min_eq_right (by omega), List.take_of_length_le (by simp)]

/-- Of an empty digest the text is empty if nothing stands before its terminator, since
the loop writes nothing then. -/
theorem digits_of_empty_iff {hashLen : Nat} (buffer : Buffer hashLen) :
    cString (shaSnprintf [] buffer.bytes hashLen) =
        (hexDigits [] 0).take (min hashLen (2 * 0)) ↔
      hashLen = 0 ∨ buffer.bytes.head? = some nul := by
  have size := buffer.size
  obtain ⟨first, rest, split⟩ : ∃ first rest, buffer.bytes = first :: rest :=
    List.exists_cons_of_length_pos (by omega)
  have untouched : shaSnprintf [] buffer.bytes hashLen = buffer.bytes.set hashLen nul := by
    rw [shaSnprintf, List.length_nil, Nat.min_zero]
    rfl
  rw [untouched, split]
  cases hashLen with
  | zero => simp [cString]
  | succ length =>
    simp only [List.set_cons_succ, cString, List.head?_cons]
    by_cases empty : first = nul
    · simp [empty]
    · simp [empty, hexDigits]

/-- The digits stay in their buffer and are right exactly when the length is odd or the
digest has no more bytes than are wanted, and when an empty digest finds an empty text
or none is wanted.

Proof: the list of writes tells where the last of them ends, which gives the first
condition. Under it the text is that of a long, a short or an empty digest, and each of
these was computed. -/
theorem rendered_iff (hashInt : List (Fin 256)) {hashLen : Nat} (buffer : Buffer hashLen) :
    Rendered hashInt buffer ↔
      (hashLen % 2 = 1 ∨ hashInt.length ≤ hashLen / 2) ∧
        (hashInt ≠ [] ∨ hashLen = 0 ∨ buffer.bytes.head? = some nul) := by
  have inside := writes_inside_iff hashInt hashLen
  cases hashInt with
  | nil =>
    have empty := digits_of_empty_iff buffer
    constructor
    · intro rendered
      exact ⟨inside.mp rendered.inside, .inr (empty.mp rendered.digits)⟩
    · rintro ⟨fits, notEmpty | blank⟩
      · exact absurd rfl notEmpty
      · exact ⟨inside.mpr fits, sha_snprintf_terminated _ buffer, empty.mpr blank⟩
  | cons byte rest =>
    constructor
    · intro rendered
      exact ⟨inside.mp rendered.inside, .inl (List.cons_ne_nil _ _)⟩
    · rintro ⟨fits, -⟩
      refine ⟨inside.mpr fits, sha_snprintf_terminated _ buffer, ?_⟩
      by_cases short : (byte :: rest).length ≤ hashLen / 2
      · exact digits_of_short _ buffer (Nat.succ_pos _) short
      · exact digits_of_long _ buffer (by omega) (by omega)

/-- The eight digits of a frame's hash, from a digest of 32 bytes, write one byte too
many. -/
theorem frame_hash_writes_outside :
    ¬ Rendered (List.replicate 32 0) (⟨List.replicate 10 nul, rfl⟩ : Buffer 8) := by
  intro rendered
  have last := rendered.inside ⟨8, hexByte 0 ++ [nul]⟩ (by decide)
  revert last
  decide

end EventRecorder.DigestBuffer
