import EventRecorder.Ring
import Mathlib.Tactic.Common

/-!
# Circular mail buffers

The operations of `cbuf_mail_t` as the source computes them, index arithmetic
included. A read delivers what the addressed memory holds: a stored mail, an
allocated slot that was never written, or something outside the allocation.
A write outside the allocation stores into no slot of the buffer.

Inside the allocation the operations are those of a ring. The one exception is
the rewind of `cbuf_mail_move_index`, which wraps to `size + |index|` instead of
`size - |index|` and so leaves the allocation.
-/

namespace EventRecorder.CircularMail

universe u
variable {α : Type u}

/-- What a `memcpy` out of the buffer delivers: bytes outside the allocation, a slot
that was allocated but never written, or the mail last written there. -/
inductive Read (α : Type u) where
  | outside
  | unwritten
  | value (mail : α)
  deriving DecidableEq

/-- Apply a change of the copied mail; bytes that are no mail stay such. -/
def Read.map {β : Type u} (change : α → β) : Read α → Read β
  | .outside => .outside
  | .unwritten => .unwritten
  | .value mail => .value (change mail)

/-- The content of a cell: of a position that is outside, of a slot that was never
written, or of one that holds a mail. -/
def Read.ofCell : Option (Option α) → Read α
  | none => .outside
  | some none => .unwritten
  | some (some mail) => .value mail

/-- `cbuf_mail_t`. The index is signed here, since `cbuf_mail_move_index` computes with
its difference before it wraps. -/
structure CbufMail (α : Type u) where
  buf : List (Option α)
  size : Nat
  index : Int

/-- The all-zero buffer that `memset` leaves: no allocation. -/
def CbufMail.zero : CbufMail α := ⟨[], 0, 0⟩

/-- The memory at `buf + index`. -/
def CbufMail.read (cbuf : CbufMail α) : Read α :=
  if cbuf.index < 0 then .outside else .ofCell cbuf.buf[cbuf.index.toNat]?

/-- `cbuf_mail_init`, given whether the allocation succeeds. The slots are allocated and
not written; the index stays what it was. -/
def cbufMailInit (allocated : Bool) (cbuf : CbufMail α) (size : Nat) : Nat × CbufMail α :=
  if allocated then (0, { cbuf with buf := List.replicate size none, size := size })
  else (1, cbuf)

/-- `cbuf_mail_write`. The comparison is unsigned: a negative index is large. -/
def cbufMailWrite (cbuf : CbufMail α) (mail : α) : CbufMail α :=
  let buf := if cbuf.index < 0 then cbuf.buf else cbuf.buf.set cbuf.index.toNat (some mail)
  let index := cbuf.index + 1
  { cbuf with buf := buf, index := if index < 0 ∨ (cbuf.size : Int) ≤ index then 0 else index }

/-- `cbuf_mail_move_index`. Below zero the source adds the distance to the size with its
sign the wrong way round, and so wraps to `size + |index|`. -/
def cbufMailMoveIndex (cbuf : CbufMail α) (n : Nat) : CbufMail α :=
  let index := cbuf.index - (n % cbuf.size : Nat)
  { cbuf with index := if index < 0 then cbuf.size - index else index }

/-- `cbuf_mail_read_ahead`: the buffer afterwards; the mail is what
`CbufMail.read` then finds at the index. -/
def cbufMailReadAhead (cbuf : CbufMail α) : CbufMail α :=
  let index := cbuf.index + 1
  { cbuf with index := if index = cbuf.size then 0 else index }

/-- A loop of `cbuf_mail_read_ahead`: the mails read, in order, and the buffer. -/
def readsAhead : Nat → CbufMail α → List (Read α) × CbufMail α
  | 0, cbuf => ([], cbuf)
  | count + 1, cbuf =>
    let moved := cbufMailReadAhead cbuf
    let (rest, last) := readsAhead count moved
    (moved.read :: rest, last)

/-- The index addresses an allocated slot of a buffer of positive size. Each operation
but a rewind below zero keeps to this. -/
structure InRange (cbuf : CbufMail α) : Prop where
  allocated : cbuf.buf.length = cbuf.size
  lower : 0 ≤ cbuf.index
  upper : cbuf.index < cbuf.size

/-- A write inside the allocation stores at the index and advances it by one slot, back
to the first after the last. Nothing else of the buffer changes. -/
theorem write_in_range (cbuf : CbufMail α) (mail : α) (valid : InRange cbuf) :
    cbufMailWrite cbuf mail =
      ⟨cbuf.buf.set cbuf.index.toNat (some mail), cbuf.size,
        ((cbuf.index.toNat + 1) % cbuf.size : Nat)⟩ := by
  obtain ⟨_, lower, upper⟩ := valid
  have nonnegative : ¬ cbuf.index < 0 := by omega
  have advanced : (if cbuf.index + 1 < 0 ∨ (cbuf.size : Int) ≤ cbuf.index + 1 then 0
      else cbuf.index + 1) = ((cbuf.index.toNat + 1) % cbuf.size : Nat) := by
    by_cases last : cbuf.index + 1 = cbuf.size
    · have wrapped : (cbuf.index.toNat + 1) % cbuf.size = 0 := by
        have whole : cbuf.index.toNat + 1 = cbuf.size := by omega
        rw [whole, Nat.mod_self]
      rw [if_pos (Or.inr (by omega)), wrapped]
      rfl
    · have short : (cbuf.index.toNat + 1) % cbuf.size = cbuf.index.toNat + 1 :=
        Nat.mod_eq_of_lt (by omega)
      rw [if_neg (by omega), short]
      omega
  simp only [cbufMailWrite, nonnegative, ↓reduceIte, advanced]

/-- Reading ahead inside the allocation moves to the next slot of the ring and, where it
arrives, is inside the allocation again. -/
theorem read_ahead_in_range (cbuf : CbufMail α) (valid : InRange cbuf) :
    cbufMailReadAhead cbuf =
        { cbuf with index := ((cbuf.index.toNat + 1) % cbuf.size : Nat) } ∧
      InRange (cbufMailReadAhead cbuf) := by
  obtain ⟨allocated, lower, upper⟩ := valid
  have advanced : (if cbuf.index + 1 = cbuf.size then 0 else cbuf.index + 1) =
      ((cbuf.index.toNat + 1) % cbuf.size : Nat) := by
    by_cases last : cbuf.index + 1 = cbuf.size
    · have whole : cbuf.index.toNat + 1 = cbuf.size := by omega
      rw [if_pos last, whole, Nat.mod_self]
      rfl
    · have short : (cbuf.index.toNat + 1) % cbuf.size = cbuf.index.toNat + 1 :=
        Nat.mod_eq_of_lt (by omega)
      rw [if_neg last, short]
      omega
  have moved : cbufMailReadAhead cbuf =
      { cbuf with index := ((cbuf.index.toNat + 1) % cbuf.size : Nat) } := by
    simp only [cbufMailReadAhead, advanced]
  refine ⟨moved, ?_⟩
  rw [moved]
  have positive : 0 < cbuf.size := by omega
  exact ⟨allocated, Int.natCast_nonneg _, Int.ofNat_lt.mpr (Nat.mod_lt _ positive)⟩

/-- Reading ahead inside the allocation visits consecutive slots of the ring,
starting one past the index, and moves the index by the number of reads. -/
theorem reads_ahead_in_range (count : Nat) (cbuf : CbufMail α) (valid : InRange cbuf) :
    (readsAhead count cbuf).1 =
        (Ring.window cbuf.size cbuf.buf (cbuf.index.toNat + 1) count).map Read.ofCell ∧
      (readsAhead count cbuf).2 =
        { cbuf with index := ((cbuf.index.toNat + count) % cbuf.size : Nat) } := by
  induction count generalizing cbuf with
  | zero =>
    have short : cbuf.index.toNat % cbuf.size = cbuf.index.toNat := by
      have upper := valid.upper
      exact Nat.mod_eq_of_lt (by have := valid.lower; omega)
    have stays : ((cbuf.index.toNat % cbuf.size : Nat) : Int) = cbuf.index := by
      rw [short]
      exact Int.toNat_of_nonneg valid.lower
    exact ⟨rfl, by simp only [readsAhead, Nat.add_zero, stays]⟩
  | succ count inductionHypothesis =>
    obtain ⟨moved, movedValid⟩ := read_ahead_in_range cbuf valid
    obtain ⟨reads, last⟩ := inductionHypothesis (cbufMailReadAhead cbuf) movedValid
    have position : (cbufMailReadAhead cbuf).index.toNat =
        (cbuf.index.toNat + 1) % cbuf.size := by rw [moved, Int.toNat_natCast]
    have sameBuf : (cbufMailReadAhead cbuf).buf = cbuf.buf := by rw [moved]
    have sameSize : (cbufMailReadAhead cbuf).size = cbuf.size := by rw [moved]
    have first : (cbufMailReadAhead cbuf).read =
        .ofCell cbuf.buf[(cbuf.index.toNat + 1) % cbuf.size]? := by
      rw [CbufMail.read, if_neg (by have := movedValid.lower; omega), position, sameBuf]
    constructor
    · simp only [readsAhead]
      rw [first, reads, position, sameBuf, sameSize]
      simp only [Ring.window, List.range_succ_eq_map, List.map_cons, List.map_map,
        Nat.add_zero]
      congr 1
      apply List.map_congr_left
      intro step _
      have turned : ((cbuf.index.toNat + 1) % cbuf.size + 1 + step) % cbuf.size =
          (cbuf.index.toNat + 1 + (step + 1)) % cbuf.size := by
        rw [Nat.add_assoc, Nat.mod_add_mod, Nat.add_comm 1 step]
      simp only [Function.comp_apply, turned, Nat.succ_eq_add_one]
    · simp only [readsAhead]
      rw [last, position, sameSize, moved]
      simp only [Nat.mod_add_mod]
      congr 3
      omega

/-- Reading ahead from beyond the allocation never wraps: it reads nothing that is
allocated and moves on by the number of reads. -/
theorem reads_ahead_beyond (count : Nat) (cbuf : CbufMail α)
    (allocated : cbuf.buf.length = cbuf.size) (beyond : cbuf.size ≤ cbuf.index) :
    readsAhead count cbuf =
      (List.replicate count .outside, { cbuf with index := cbuf.index + count }) := by
  induction count generalizing cbuf with
  | zero => simp [readsAhead]
  | succ count inductionHypothesis =>
    have moved : cbufMailReadAhead cbuf = { cbuf with index := cbuf.index + 1 } := by
      rw [cbufMailReadAhead, if_neg (by omega)]
    have missing : cbuf.buf[(cbuf.index + 1).toNat]? = none :=
      List.getElem?_eq_none (by omega)
    have first : (cbufMailReadAhead cbuf).read = .outside := by
      rw [moved, CbufMail.read]
      simp only
      rw [if_neg (by omega), missing]
      rfl
    have rest := inductionHypothesis (cbufMailReadAhead cbuf) (by rw [moved]; exact allocated)
      (by rw [moved]; exact Int.le_add_one beyond)
    simp only [readsAhead, first, rest, List.replicate_succ]
    rw [moved]
    simp only [Prod.mk.injEq, true_and, CbufMail.mk.injEq]
    omega

/-- Reading ahead moves the index only. -/
theorem reads_ahead_frame (count : Nat) (cbuf : CbufMail α) :
    (readsAhead count cbuf).2.buf = cbuf.buf ∧ (readsAhead count cbuf).2.size = cbuf.size := by
  induction count generalizing cbuf with
  | zero => exact ⟨rfl, rfl⟩
  | succ count inductionHypothesis => exact inductionHypothesis (cbufMailReadAhead cbuf)

/-- A buffer as `cbuf_mail_init` leaves it allocated, or not. -/
structure Allocated (size : Nat) (cbuf : CbufMail α) : Prop where
  length : cbuf.buf.length = cbuf.size
  sized : cbuf.size = 0 ∨ cbuf.size = size

/-- A write keeps the allocation. -/
theorem write_allocated {size : Nat} (cbuf : CbufMail α) (mail : α)
    (allocated : Allocated size cbuf) : Allocated size (cbufMailWrite cbuf mail) := by
  refine ⟨?_, allocated.sized⟩
  rw [cbufMailWrite]
  simp only
  split_ifs <;> simp [allocated.length]

/-- So do several writes. -/
theorem writes_allocated {size : Nat} (mails : List α) (cbuf : CbufMail α)
    (allocated : Allocated size cbuf) : Allocated size (mails.foldl cbufMailWrite cbuf) := by
  induction mails generalizing cbuf with
  | nil => exact allocated
  | cons mail rest inductionHypothesis =>
    exact inductionHypothesis _ (write_allocated cbuf mail allocated)

/-- Reading ahead keeps the allocation. -/
theorem reads_ahead_allocated {size : Nat} (count : Nat) (cbuf : CbufMail α)
    (allocated : Allocated size cbuf) : Allocated size (readsAhead count cbuf).2 := by
  induction count generalizing cbuf with
  | zero => exact allocated
  | succ count inductionHypothesis =>
    exact inductionHypothesis (cbufMailReadAhead cbuf) ⟨allocated.length, allocated.sized⟩

/-- A buffer that has received a history since its allocation: its slots form a
ring that holds the history, and the index is the next slot of that ring. -/
structure Tracks (size : Nat) (history : List α) (cbuf : CbufMail α) : Prop where
  sized : cbuf.size = size
  holds : Ring.Holds size cbuf.buf history
  position : cbuf.index = (history.length % size : Nat)

/-- The index of such a buffer is inside its allocation, since it is a remainder by the
size. -/
theorem Tracks.in_range {size : Nat} {history : List α} {cbuf : CbufMail α}
    (positive : 0 < size) (tracks : Tracks size history cbuf) : InRange cbuf where
  allocated := by rw [tracks.holds.length, tracks.sized]
  lower := by
    rw [tracks.position]
    apply Int.natCast_nonneg
  upper := by
    rw [tracks.position, tracks.sized]
    exact Int.ofNat_lt.mpr (Nat.mod_lt _ positive)

/-- Writing extends the history: the mail goes to the slot behind the last, which is the
one the index addresses. -/
theorem write_tracks {size : Nat} {history : List α} {cbuf : CbufMail α} (mail : α)
    (positive : 0 < size) (tracks : Tracks size history cbuf) :
    Tracks size (history ++ [mail]) (cbufMailWrite cbuf mail) := by
  have slot : cbuf.index.toNat = history.length % size := by
    rw [tracks.position, Int.toNat_natCast]
  rw [write_in_range cbuf mail (tracks.in_range positive), slot]
  refine ⟨tracks.sized, Ring.write_holds mail positive tracks.holds, ?_⟩
  simp [tracks.sized]

/-- Writing several mails extends the history by all of them, in the order in which they
are written. -/
theorem writes_track {size : Nat} {history : List α} {cbuf : CbufMail α} (mails : List α)
    (positive : 0 < size) (tracks : Tracks size history cbuf) :
    Tracks size (history ++ mails) (mails.foldl cbufMailWrite cbuf) := by
  induction mails generalizing history cbuf with
  | nil => simpa using tracks
  | cons mail rest inductionHypothesis =>
    have further := inductionHypothesis (write_tracks mail positive tracks)
    simpa using further

end EventRecorder.CircularMail
