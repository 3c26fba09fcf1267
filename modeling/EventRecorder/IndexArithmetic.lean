import EventRecorder.CircularMail
import EventRecorder.Runs
import Mathlib.Algebra.BigOperators.Group.List.Basic
import Mathlib.Algebra.Ring.Int.Defs
import Mathlib.Tactic.Common

/-!
# Index arithmetic of circular mail buffers

The index of a `cbuf_mail_t` is an `int`, its size a `size_t` of 64 bits. The operations
are computed here as the machine does: a value converted to `int` keeps its low 32 bits,
one converted to `size_t` is taken modulo 2 ^ 64, and an `int` operation whose result
does not fit is undefined.

The index after a sequence of operations should be the writes and reads ahead less the
reads and the rewinds, modulo the size. A rewind across the first slot goes wrong, and
so do the operations that leave the range of an `int` in a buffer larger than that.
-/

namespace EventRecorder.IndexArithmetic

open CircularMail

universe u
variable {α : Type u}

/-- The result of an operation on `int`, if it fits. An overflow of a signed operation
is undefined, and there is no value then. -/
def checked (value : Int) : Option Int :=
  if -2 ^ 31 ≤ value ∧ value < 2 ^ 31 then some value else none

/-- The conversion to `size_t`, which is defined for every `int`: a negative one becomes
a number close to the modulus. -/
def toSize (value : Int) : Nat := (value % 2 ^ 64).toNat

/-- The conversion from `size_t` to `int`, which the standard leaves to the
implementation: the low 32 bits are kept, and read with a sign. -/
def toInt (value : Nat) : Int := Int.bmod value (2 ^ 32)

/-- `cbuf_mail_write`. The comparison of the new index with the size is made in
`size_t`. -/
def cbufMailWrite (cbuf : CbufMail α) (mail : α) : Option (CbufMail α) :=
  (checked (cbuf.index + 1)).map fun index =>
    { cbuf with
      buf := if cbuf.index < 0 then cbuf.buf else cbuf.buf.set cbuf.index.toNat (some mail)
      index := if cbuf.size ≤ toSize index then 0 else index }

/-- `cbuf_mail_move_index`. Where the index falls below zero, the size is to be added to
it, but the source subtracts the index from the size. -/
def cbufMailMoveIndex (cbuf : CbufMail α) (n : Nat) : Option (CbufMail α) :=
  (checked (cbuf.index - toInt (n % cbuf.size))).map fun index =>
    { cbuf with index := if index < 0 then toInt (toSize (cbuf.size - index)) else index }

/-- `cbuf_mail_read_ahead`: the buffer afterwards; the mail is what `CbufMail.read` then
finds at the index. The index is tested for equality with the size. -/
def cbufMailReadAhead (cbuf : CbufMail α) : Option (CbufMail α) :=
  (checked (cbuf.index + 1)).map fun index =>
    { cbuf with index := if toSize index = cbuf.size then 0 else index }

/-- `cbuf_mail_read`, likewise: the buffer afterwards, with the last slot of it in place
of the one before the first. -/
def cbufMailRead (cbuf : CbufMail α) : Option (CbufMail α) :=
  (checked (cbuf.index - 1)).map fun index =>
    { cbuf with index := if index < 0 then toInt (toSize (cbuf.size - 1)) else index }

/-- The operations that move the index. Each is one call of the function of the same
name, with the argument that the index depends on. -/
inductive Operation (α : Type u) where
  | write (mail : α)
  | read
  | readAhead
  | moveIndex (n : Nat)

/-- The buffer after an operation, if no signed operation in it overflows. -/
def perform (cbuf : CbufMail α) : Operation α → Option (CbufMail α)
  | .write mail => cbufMailWrite cbuf mail
  | .read => cbufMailRead cbuf
  | .readAhead => cbufMailReadAhead cbuf
  | .moveIndex n => cbufMailMoveIndex cbuf n

/-- The slot an operation accesses: a write the one before its step, a read the one after. -/
def accessed (cbuf after : CbufMail α) : Operation α → Option Int
  | .write _ => some cbuf.index
  | .read => some after.index
  | .readAhead => some after.index
  | .moveIndex _ => none

/-- The state of a run. After an undefined operation there is none, and none of the
operations that follow happens. -/
def next (state : Option (CbufMail α)) (op : Operation α) : Option (CbufMail α) :=
  state.bind fun cbuf => perform cbuf op

/-- By how many slots an operation should move the index, ahead for a positive number
and back for a negative. -/
def Operation.shift : Operation α → Int
  | .write _ => 1
  | .read => -1
  | .readAhead => 1
  | .moveIndex n => -n

/-- The writes and reads ahead, less the reads and the sum of the rewinds: where the
index should be, before it is reduced to the size. -/
def balance (ops : List (Operation α)) : Int := (ops.map Operation.shift).sum

/-- An operation that is defined, brings the index to what the operations so far make of it,
modulo the size, and accesses no slot outside the buffer. -/
def Lawful (before : List (Operation α)) (state : Option (CbufMail α)) (op : Operation α) :
    Prop :=
  ∃ cbuf after, state = some cbuf ∧ perform cbuf op = some after ∧
    after.index = balance (before ++ [op]) % after.size ∧
    (0 ≤ after.index ∧ after.index < after.size) ∧
    ∀ slot ∈ accessed cbuf after op, 0 ≤ slot ∧ slot < after.buf.length

/-- A step forward is not from the largest `int`; a read goes back to the first slot at most,
or the last slot has an `int` for its number; a rewind does not cross the first slot, or
the size is a multiple of 2 ^ 32 and the slot it leads to has a number below 2 ^ 31. -/
def Allowed : Option (CbufMail α) → Operation α → Prop
  | none, _ => True
  | some cbuf, .write _ => cbuf.index < 2 ^ 31 - 1
  | some cbuf, .readAhead => cbuf.index < 2 ^ 31 - 1
  | some cbuf, .read => 0 < cbuf.index ∨ cbuf.size ≤ 2 ^ 31
  | some cbuf, .moveIndex n => (n % cbuf.size : Nat) ≤ cbuf.index ∨
      2 ^ 32 ∣ cbuf.size ∧ cbuf.index + cbuf.size - (n % cbuf.size : Nat) < 2 ^ 31

instance : (state : Option (CbufMail α)) → (op : Operation α) → Decidable (Allowed state op)
  | none, _ => .isTrue trivial
  | some _, .write _ => inferInstanceAs (Decidable (_ < _))
  | some _, .readAhead => inferInstanceAs (Decidable (_ < _))
  | some _, .read => inferInstanceAs (Decidable (_ ∨ _))
  | some _, .moveIndex _ => inferInstanceAs (Decidable (_ ∨ _))

/-! ## One operation -/

/-- An operation on `int` has a value exactly when the exact result fits, and the value
is that result. -/
theorem checked_eq_some_iff (value result : Int) :
    checked value = some result ↔ (-2 ^ 31 ≤ value ∧ value < 2 ^ 31) ∧ value = result := by
  unfold checked
  split_ifs with fits
  · rw [Option.some_inj, and_iff_right fits]
  · exact iff_of_false nofun fun both => fits both.1

/-- The conversion to `size_t` as a remainder of integers, which is the form that the
linear arithmetic of the proofs works with. -/
theorem to_size_cast (value : Int) : (toSize value : Int) = value % 2 ^ 64 :=
  Int.toNat_of_nonneg (Int.emod_nonneg _ (by decide))

/-- The remainder of a step back by less than a turn, without the remainder: the size is
added if the first slot is passed. -/
theorem back_emod (size back : Nat) (index : Int) (lower : 0 ≤ index) (upper : index < size)
    (less : back ≤ size) :
    (index - back) % size =
      if (back : Int) ≤ index then index - back else index - back + size := by
  split_ifs with inside
  · exact Int.emod_eq_of_lt (by omega) (by omega)
  · rw [← Int.add_emod_right]
    exact Int.emod_eq_of_lt (by omega) (by omega)

/-- The remainder of a step forward by one, without the remainder: it starts anew after
the last slot. -/
theorem forward_emod (size : Nat) (index : Int) (lower : 0 ≤ index) (upper : index < size) :
    (index + 1) % size = if index + 1 = size then 0 else index + 1 := by
  split_ifs with last
  · rw [last, Int.emod_self]
  · exact Int.emod_eq_of_lt (by omega) (by omega)

/-- The index of a buffer whose size is a `size_t`: inside the buffer, and an `int`,
which for a large buffer says more than that. -/
structure Placed (cbuf : CbufMail α) : Prop where
  inRange : InRange cbuf
  sizeT : cbuf.size < 2 ^ 64
  int : cbuf.index < 2 ^ 31

/-- The conversion of a number to `int` and its whole turns. What is lost in it is a
multiple of 2 ^ 32. -/
theorem to_int_turns (value : Nat) :
    ∃ turns : Nat, toInt value = value - turns * 2 ^ 32 ∧
      -2 ^ 31 ≤ toInt value ∧ toInt value < 2 ^ 31 := by
  unfold toInt
  rw [Int.bmod_def]
  split_ifs with small
  · exact ⟨value / 2 ^ 32, by omega, by omega, by omega⟩
  · exact ⟨value / 2 ^ 32 + 1, by omega, by omega, by omega⟩

/-- Beyond the first slot the index is as far on the other side of the size as it should be
on this. -/
theorem wrapped_ne (size back : Nat) (index : Int) (lower : 0 ≤ index) (upper : index < size)
    (int : index < 2 ^ 31) (less : back < size) (beyond : index - toInt back < 0) :
    toInt (toSize (size - (index - toInt back))) ≠ (index - back) % size := by
  obtain ⟨turns, step, _, above⟩ := to_int_turns back
  obtain ⟨others, wrapped, _, _⟩ := to_int_turns (toSize (size - (index - toInt back)))
  rw [back_emod size back index lower upper (by omega)]
  have sum := to_size_cast (size - (index - toInt back))
  split_ifs <;> omega

/-- A rewind leads where it should in two cases: when it does not pass the first slot,
or when what it subtracts too much is a whole number of turns of the buffer. -/
theorem move_iff (size back : Nat) (index : Int) (lower : 0 ≤ index) (upper : index < size)
    (int : index < 2 ^ 31) (less : back < size) (sizeT : size < 2 ^ 64) :
    (∃ moved, checked (index - toInt back) = some moved ∧
        (if moved < 0 then toInt (toSize (size - moved)) else moved) = (index - back) % size) ↔
      (back : Int) ≤ index ∨ 2 ^ 32 ∣ size ∧ index + size - back < 2 ^ 31 := by
  obtain ⟨turns, step, below, above⟩ := to_int_turns back
  constructor
  · rintro ⟨moved, defined, same⟩
    obtain ⟨fits, rfl⟩ := (checked_eq_some_iff _ _).mp defined
    split_ifs at same with beyond
    · exact absurd same (wrapped_ne size back index lower upper int less beyond)
    · rw [back_emod size back index lower upper (by omega)] at same
      split_ifs at same <;> omega
  · intro allowed
    refine ⟨index - toInt back, (checked_eq_some_iff _ _).mpr ⟨by omega, rfl⟩, ?_⟩
    rw [if_neg (by omega), back_emod size back index lower upper (by omega)]
    split_ifs <;> omega

/-- An operation that is defined keeps the allocation, and the index an `int`. It says
nothing about where the index is. -/
theorem perform_keeps (cbuf after : CbufMail α) (op : Operation α)
    (defined : perform cbuf op = some after) :
    after.size = cbuf.size ∧ after.buf.length = cbuf.buf.length ∧ after.index < 2 ^ 31 := by
  cases op with
  | write mail =>
    obtain ⟨index, valid, rfl⟩ := Option.map_eq_some_iff.mp defined
    obtain ⟨fits, rfl⟩ := (checked_eq_some_iff _ _).mp valid
    refine ⟨rfl, ?_, ?_⟩
    · simp only
      split_ifs <;> simp
    · simp only
      split_ifs <;> omega
  | read =>
    obtain ⟨index, valid, rfl⟩ := Option.map_eq_some_iff.mp defined
    obtain ⟨fits, rfl⟩ := (checked_eq_some_iff _ _).mp valid
    obtain ⟨_, _, _, above⟩ := to_int_turns (toSize (cbuf.size - 1))
    refine ⟨rfl, rfl, ?_⟩
    simp only
    split_ifs <;> omega
  | readAhead =>
    obtain ⟨index, valid, rfl⟩ := Option.map_eq_some_iff.mp defined
    obtain ⟨fits, rfl⟩ := (checked_eq_some_iff _ _).mp valid
    refine ⟨rfl, rfl, ?_⟩
    simp only
    split_ifs <;> omega
  | moveIndex n =>
    obtain ⟨index, valid, rfl⟩ := Option.map_eq_some_iff.mp defined
    obtain ⟨_, _, _, above⟩ := to_int_turns (toSize (cbuf.size - index))
    obtain ⟨fits, same⟩ := (checked_eq_some_iff _ _).mp valid
    refine ⟨rfl, rfl, ?_⟩
    simp only
    split_ifs <;> omega

/-- A step forward is defined and comes to the next slot unless it is from the largest
`int`. The new index is compared with the size, one way or another. -/
theorem forward_iff (cbuf : CbufMail α) (placed : Placed cbuf) (moved : Int → CbufMail α)
    (wraps : Nat → Prop) [DecidablePred wraps]
    (exact : ∀ value ≤ cbuf.size, wraps value ↔ value = cbuf.size)
    (index : ∀ value, (moved value).index = if wraps (toSize value) then 0 else value) :
    (∃ after, (checked (cbuf.index + 1)).map moved = some after ∧
        after.index = (cbuf.index + 1) % cbuf.size) ↔ cbuf.index < 2 ^ 31 - 1 := by
  obtain ⟨⟨_, lower, upper⟩, sizeT, int⟩ := placed
  have same : (toSize (cbuf.index + 1) : Int) = cbuf.index + 1 := by
    unfold toSize
    omega
  simp only [Option.map_eq_some_iff, checked_eq_some_iff, forward_emod _ _ lower upper]
  constructor
  · rintro ⟨_, ⟨_, ⟨fits, rfl⟩, _⟩, _⟩
    omega
  · intro less
    refine ⟨_, ⟨_, ⟨by omega, rfl⟩, rfl⟩, ?_⟩
    rw [index]
    have last := exact (toSize (cbuf.index + 1)) (by omega)
    split_ifs with wrapped <;> simp only [last] at wrapped <;> omega

/-- An operation is defined and moves the index by its shift exactly when it is allowed. -/
theorem moves_iff (cbuf : CbufMail α) (op : Operation α) (placed : Placed cbuf) :
    (∃ after, perform cbuf op = some after ∧
        after.index = (cbuf.index + op.shift) % cbuf.size) ↔ Allowed (some cbuf) op := by
  have sizeT := placed.sizeT
  have int := placed.int
  obtain ⟨_, lower, upper⟩ := placed.inRange
  have size (value : Int) (positive : 0 ≤ value) (small : value < 2 ^ 64) :
      (toSize value : Int) = value := by
    unfold toSize
    omega
  cases op with
  | write mail => exact forward_iff cbuf placed _ (cbuf.size ≤ ·) (by omega) fun _ => rfl
  | readAhead => exact forward_iff cbuf placed _ (· = cbuf.size) (by omega) fun _ => rfl
  | read =>
    have last := size (cbuf.size - 1) (by omega) (by omega)
    obtain ⟨turns, wrapped, below, above⟩ := to_int_turns (toSize (cbuf.size - 1))
    have back : (cbuf.index + -1) % cbuf.size =
        if 1 ≤ cbuf.index then cbuf.index - 1 else cbuf.index - 1 + cbuf.size :=
      back_emod cbuf.size 1 cbuf.index lower upper (by omega)
    simp only [perform, cbufMailRead, Option.map_eq_some_iff, checked_eq_some_iff, Allowed,
      Operation.shift, back]
    constructor
    · rintro ⟨_, ⟨index, ⟨fits, rfl⟩, rfl⟩, same⟩
      simp only at same
      split_ifs at same <;> omega
    · intro near
      refine ⟨_, ⟨_, ⟨by omega, rfl⟩, rfl⟩, ?_⟩
      simp only
      split_ifs <;> omega
  | moveIndex n =>
    have less : n % cbuf.size < cbuf.size := Nat.mod_lt _ (by omega)
    have same : (cbuf.index + -n) % cbuf.size =
        (cbuf.index - (n % cbuf.size : Nat)) % cbuf.size := by
      rw [Int.natCast_mod, Int.sub_emod_emod, Int.sub_eq_add_neg]
    rw [Allowed, ← move_iff cbuf.size (n % cbuf.size) cbuf.index lower upper int less sizeT,
      Operation.shift, same]
    constructor
    · rintro ⟨_, defined, there⟩
      obtain ⟨moved, valid, rfl⟩ := Option.map_eq_some_iff.mp defined
      exact ⟨moved, valid, there⟩
    · rintro ⟨moved, valid, there⟩
      exact ⟨_, Option.map_eq_some_iff.mpr ⟨moved, valid, rfl⟩, there⟩

/-- An allowed operation accesses slots of the buffer only, for the slot written as well
as for the slot read. -/
theorem accesses_inside (cbuf after : CbufMail α) (op : Operation α) (placed : Placed cbuf)
    (sized : after.buf.length = cbuf.size) (lower : 0 ≤ after.index)
    (upper : after.index < cbuf.size) :
    ∀ slot ∈ accessed cbuf after op, 0 ≤ slot ∧ slot < after.buf.length := by
  obtain ⟨_, first, last⟩ := placed.inRange
  rw [sized]
  cases op with
  | write mail =>
    rintro slot ⟨rfl⟩
    exact ⟨first, last⟩
  | moveIndex n => exact nofun
  | _ =>
    rintro slot ⟨rfl⟩
    exact ⟨lower, upper⟩

/-! ## Buffers an `int` is enough for -/

/-- Below the largest `int` a write is the one without a bound, which the other modules
use. -/
theorem write_exact (cbuf : CbufMail α) (mail : α) (lower : 0 ≤ cbuf.index)
    (upper : cbuf.index < 2 ^ 31 - 1) :
    cbufMailWrite cbuf mail = some (CircularMail.cbufMailWrite cbuf mail) := by
  have fits := (checked_eq_some_iff (cbuf.index + 1) _).mpr ⟨by omega, rfl⟩
  have wraps : cbuf.size ≤ toSize (cbuf.index + 1) ↔
      cbuf.index + 1 < 0 ∨ (cbuf.size : Int) ≤ cbuf.index + 1 := by
    unfold toSize
    omega
  simp only [cbufMailWrite, CircularMail.cbufMailWrite, fits, Option.map_some, wraps]

/-- So is a read ahead: the machine's operation agrees with the one on integers wherever
the index stays below the largest `int`. -/
theorem read_ahead_exact (cbuf : CbufMail α) (lower : 0 ≤ cbuf.index)
    (upper : cbuf.index < 2 ^ 31 - 1) :
    cbufMailReadAhead cbuf = some (CircularMail.cbufMailReadAhead cbuf) := by
  have fits := (checked_eq_some_iff (cbuf.index + 1) _).mpr ⟨by omega, rfl⟩
  have wraps : toSize (cbuf.index + 1) = cbuf.size ↔ cbuf.index + 1 = cbuf.size := by
    unfold toSize
    omega
  simp only [cbufMailReadAhead, CircularMail.cbufMailReadAhead, fits, Option.map_some, wraps]

/-- A rewind is, where twice the size still has an `int` for its number, since the slip
makes the index as large as that. -/
theorem move_index_exact (cbuf : CbufMail α) (n : Nat) (positive : 0 < cbuf.size)
    (small : cbuf.size ≤ 2 ^ 30) (lower : 0 ≤ cbuf.index) (upper : cbuf.index < 2 ^ 31) :
    cbufMailMoveIndex cbuf n = some (CircularMail.cbufMailMoveIndex cbuf n) := by
  have less : n % cbuf.size < cbuf.size := Nat.mod_lt _ positive
  obtain ⟨turns, step, below, above⟩ := to_int_turns (n % cbuf.size)
  have whole : toInt (n % cbuf.size) = (n % cbuf.size : Nat) := by omega
  have fits := (checked_eq_some_iff (cbuf.index - (n % cbuf.size : Nat)) _).mpr ⟨by omega, rfl⟩
  have there : cbuf.index - (n % cbuf.size : Nat) < 0 →
      toInt (toSize (cbuf.size - (cbuf.index - (n % cbuf.size : Nat)))) =
        cbuf.size - (cbuf.index - (n % cbuf.size : Nat)) := by
    intro beyond
    obtain ⟨others, wrapped, _, _⟩ :=
      to_int_turns (toSize (cbuf.size - (cbuf.index - (n % cbuf.size : Nat))))
    have sum := to_size_cast (cbuf.size - (cbuf.index - (n % cbuf.size : Nat)))
    omega
  simp only [cbufMailMoveIndex, CircularMail.cbufMailMoveIndex, whole, fits, Option.map_some]
  split_ifs with beyond
  · rw [there beyond]
  · rfl

/-! ## Runs -/

/-- The buffer of a run in which every operation was lawful: the index is where the
operations so far should have left it. -/
structure Follows (size : Nat) (before : List (Operation α)) (cbuf : CbufMail α) : Prop where
  sized : cbuf.size = size
  placed : Placed cbuf
  position : cbuf.index = balance before % size

/-- One more operation shifts the balance of a sequence by its own number of slots. -/
theorem balance_snoc (before : List (Operation α)) (op : Operation α) :
    balance (before ++ [op]) = balance before + op.shift := by
  simp [balance]

/-- An operation is lawful exactly when it is allowed, on a buffer whose index has
followed the operations before it. -/
theorem lawful_iff {size : Nat} {before : List (Operation α)} {cbuf : CbufMail α}
    (op : Operation α) (follows : Follows size before cbuf) :
    Lawful before (some cbuf) op ↔ Allowed (some cbuf) op := by
  obtain ⟨sized, placed, position⟩ := follows
  have law : balance (before ++ [op]) % cbuf.size = (cbuf.index + op.shift) % cbuf.size := by
    rw [balance_snoc, position, sized, Int.emod_add_emod]
  rw [← moves_iff cbuf op placed]
  constructor
  · rintro ⟨_, after, ⟨rfl⟩, defined, moved, -⟩
    rw [(perform_keeps cbuf after op defined).1, law] at moved
    exact ⟨after, defined, moved⟩
  · rintro ⟨after, defined, moved⟩
    obtain ⟨same, length, -⟩ := perform_keeps cbuf after op defined
    have positive : (0 : Int) < cbuf.size :=
      Int.lt_of_le_of_lt placed.inRange.lower placed.inRange.upper
    have lower : 0 ≤ after.index := moved ▸ Int.emod_nonneg _ (ne_of_gt positive)
    have upper : after.index < cbuf.size := moved ▸ Int.emod_lt_of_pos _ positive
    refine ⟨cbuf, after, rfl, defined, ?_, ⟨lower, by rwa [same]⟩, ?_⟩
    · rw [same, law, moved]
    · exact accesses_inside cbuf after op placed (length.trans placed.inRange.allocated) lower upper

/-- An allowed operation leads to a buffer that follows the operations, this one
included. -/
theorem next_follows {size : Nat} {before : List (Operation α)} {cbuf : CbufMail α}
    (op : Operation α) (follows : Follows size before cbuf) (allowed : Allowed (some cbuf) op) :
    ∃ after, next (some cbuf) op = some after ∧ Follows size (before ++ [op]) after := by
  obtain ⟨_, after, ⟨rfl⟩, defined, moved, ⟨lower, upper⟩, -⟩ := (lawful_iff op follows).mpr allowed
  obtain ⟨same, length, int⟩ := perform_keeps cbuf after op defined
  obtain ⟨sized, ⟨inRange, sizeT, -⟩, -⟩ := follows
  refine ⟨after, defined, same.trans sized, ?_, ?_⟩
  · refine ⟨⟨?_, lower, upper⟩, by rwa [same], int⟩
    rw [length, same, inRange.allocated]
  · rw [moved, same, sized]

/-- For every size and every sequence of operations from index 0, each operation is
lawful if and only if each is allowed.

Proof: `Follows` is the invariant. On a buffer that satisfies it, lawful and allowed are
the same thing, and an allowed operation keeps it, so that the first operation to break
one law breaks the other. -/
theorem index_law_iff (cells : List (Option α)) (positive : 1 ≤ cells.length)
    (sizeT : cells.length < 2 ^ 64) (ops : List (Operation α)) :
    Runs.EveryStep next (some ⟨cells, cells.length, 0⟩) ops Lawful ↔
      Runs.EveryStep next (some ⟨cells, cells.length, 0⟩) ops
        fun _ state op => Allowed state op := by
  apply Runs.every_step_iff
    fun before state => ∃ cbuf, state = some cbuf ∧ Follows cells.length before cbuf
  · refine ⟨_, rfl, rfl, ⟨⟨rfl, Int.le_refl 0, Int.ofNat_lt.mpr positive⟩, sizeT, ?_⟩, rfl⟩
    exact Int.pow_pos (by decide)
  · rintro before _ op ⟨cbuf, rfl, follows⟩
    exact lawful_iff op follows
  · rintro before _ op ⟨cbuf, rfl, follows⟩ allowed
    obtain ⟨after, defined, further⟩ := next_follows op follows allowed
    exact ⟨after, defined, further⟩

/-- Two writes to a buffer of two slots, a rewind of one that does not pass the first
slot, and a read. -/
theorem short_rewind_lawful :
    Runs.EveryStep next (some ⟨[none, none], 2, 0⟩)
      [.write 7, .moveIndex 1, .readAhead, .read] Lawful :=
  (index_law_iff [none, none] (by decide) (by decide) _).mpr (by decide)

/-- A rewind of one slot from the first of two leads behind the second, outside the
buffer. -/
theorem rewind_unlawful :
    ¬ Runs.EveryStep next (some (⟨[none, none], 2, 0⟩ : CbufMail Nat)) [.moveIndex 1] Lawful := by
  intro every
  obtain ⟨_, after, ⟨rfl⟩, ⟨rfl⟩, -, ⟨-, inside⟩, -⟩ := every [] _ [] rfl
  revert inside
  decide

end EventRecorder.IndexArithmetic
