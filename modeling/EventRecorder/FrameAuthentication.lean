import EventRecorder.FrameSteps
import EventRecorder.Runs

/-!
# Frame authentication

A frame is authentic when its hash could be computed and its hash digits are
those of its identifier and value. The check hashes eleven bytes of a buffer
that still holds what earlier frames left behind a shorter text, and compares
with the digits of an earlier frame when OpenSSL fails.

The digest function is a parameter, so the exact condition is one on the frames
and on the outcomes of OpenSSL: under it the verdict is right for every digest
function, and without it some digest function makes it wrong.
-/

namespace EventRecorder.FrameAuthentication

open CText Sha Frames

/-- The hash digits of a frame are eight only when its value digits are, since they
stand behind them in the data. -/
theorem value_length (frame : Frame) (digits : IsHexDigits 4 frame.hash) :
    frame.value.length = floatLength := by
  have length := digits.1
  simp only [Frame.hash, List.length_take, List.length_drop, canHashLength, floatLength] at length
  simp only [Frame.value, List.length_take, floatLength]
  omega

/-- The check hashes eleven bytes, whatever the frame: the count is fixed by the size of
the buffer and not by the text in it. -/
theorem hashed_input_length (input : Text) (frame : Frame)
    (room : input.length = canIdLength + floatLength) :
    (hashedInput input frame).length = canIdLength + floatLength - 1 := by
  rw [hashedInput, List.length_take, store_length]
  · omega
  · simp [snprintf, room, canIdLength, floatLength]

/-- An identifier of three characters and a whole value fill those bytes, and nothing of
earlier frames is left among them. -/
theorem hashed_input_eq (input : Text) (frame : Frame)
    (identifier : frame.canId.length + 1 = canIdLength)
    (value : frame.value.length = floatLength) :
    hashedInput input frame = frame.canId ++ frame.value := by
  have string : frame.idString = frame.canId := if_pos (by omega)
  have length : (frame.canId ++ frame.value).length = canIdLength + floatLength - 1 := by
    rw [List.length_append]
    omega
  have whole : snprintf (canIdLength + floatLength) (frame.canId ++ frame.value) =
      frame.canId ++ frame.value := List.take_of_length_le length.le
  rw [hashedInput, string, whole, store, List.take_zero, List.nil_append,
    List.append_assoc (frame.canId ++ frame.value), List.take_left' length]

section

variable [StringLibrary]

/-- A received line, and how the OpenSSL calls for it turn out. What these are asked to
hash is not chosen here. -/
structure Reception where
  line : Text
  openssl : MdCalls
  deriving DecidableEq

/-- The broker's buffers after a line, which the hash check of the next line finds as
they are. -/
def next (sha3 : Sha3) (state : BrokerState) (input : Reception) : BrokerState :=
  let (cmsg, hex) := receiveFrame input.line state.hex
  ⟨hex, (validateHash sha3 input.openssl cmsg hex state.hvld).2⟩

/-- The broker's buffers after some lines, from the time when they are zero. -/
def received (sha3 : Sha3) (inputs : List Reception) : BrokerState :=
  Runs.after (next sha3) .initial inputs

/-- What `validate_hash` returns for a line: 0 if the digits compared are equal. -/
def verdict (sha3 : Sha3) (state : BrokerState) (input : Reception) : Nat :=
  let (cmsg, hex) := receiveFrame input.line state.hex
  (validateHash sha3 input.openssl cmsg hex state.hvld).1

/-- The hash of the frame could be computed, and its hash digits are the first
eight of the hash of its identifier and value. -/
def Authentic (sha3 : Sha3) (input : Reception) : Prop :=
  input.openssl = .succeed ∧ (frameOf input.line).hash =
    hexDigits (sha3 ((frameOf input.line).canId ++ (frameOf input.line).value)).toList 4

/-- The verdict on a line, after earlier ones, is whether it is authentic, in both
directions. -/
def Exact (sha3 : Sha3) (before : List Reception) (input : Reception) : Prop :=
  verdict sha3 (received sha3 before) input = 0 ↔ Authentic sha3 input

/-- A hash was computed for one of the lines, and its digits have been in the buffer
ever since or were overwritten by those of a later one. -/
def Hashed (inputs : List Reception) : Prop := ∃ input ∈ inputs, input.openssl = .succeed

instance (inputs : List Reception) : Decidable (Hashed inputs) :=
  inferInstanceAs (Decidable (∃ _ ∈ _, _))

/-- With a computed hash the identifier has the length the check assumes; without
one the hash digits are not what an earlier frame can have left. -/
def Checkable (before : List Reception) (input : Reception) : Prop :=
  if input.openssl = .succeed then
    (frameOf input.line).canId.length + 1 = canIdLength ∨ ¬ IsHexDigits 4 (frameOf input.line).hash
  else if Hashed before then ¬ IsHexDigits 4 (frameOf input.line).hash
  else (frameOf input.line).hash ≠ []

instance (before : List Reception) (input : Reception) : Decidable (Checkable before input) := by
  unfold Checkable
  infer_instance

/-- The buffers keep their form, and the hash buffer holds the digits of some
text once a hash was computed, and nothing before. -/
theorem received_formed (sha3 : Sha3) (before : List Reception) :
    (received sha3 before).Formed ∧
      if Hashed before then
        ∃ text, (received sha3 before).hvld.stored = hexDigits (sha3 text).toList 4
      else (received sha3 before).hvld.stored = [] := by
  refine Runs.invariant
    (fun (before : List Reception) (state : BrokerState) => state.Formed ∧
      if Hashed before then ∃ text, state.hvld.stored = hexDigits (sha3 text).toList 4
      else state.hvld.stored = []) ?_ ?_ before
  · exact ⟨initial_formed, rfl⟩
  · rintro before state input ⟨formed, stored⟩
    obtain ⟨_, checked, digits⟩ := validate_received sha3 input.openssl input.line state formed
    obtain ⟨hexLength, hexEnds, _⟩ := receive_frame_value input.line state.hex formed.terminated
    have snoc : Hashed (before ++ [input]) ↔ Hashed before ∨ input.openssl = .succeed := by
      simp [Hashed, or_and_right, exists_or]
    refine ⟨⟨hexLength, hexEnds, checked⟩, ?_⟩
    have after : (next sha3 state input).hvld.stored =
        storedAfter sha3 input.openssl state.hvld (frameOf input.line) := digits
    rw [after, storedAfter]
    by_cases success : input.openssl = .succeed
    · rw [if_pos (snoc.mpr (.inr success)), if_pos success]
      exact ⟨_, rfl⟩
    · rw [if_neg success]
      by_cases hashed : Hashed before
      · rw [if_pos hashed] at stored
        rw [if_pos (snoc.mpr (.inl hashed))]
        exact stored
      · rw [if_neg hashed] at stored
        have never : ¬ Hashed (before ++ [input]) := by
          rw [snoc]
          exact not_or.mpr ⟨hashed, success⟩
        rw [if_neg never]
        exact stored

/-- The verdict compares the hash digits with those in the hash buffer, which are new
only if OpenSSL succeeded. -/
theorem verdict_zero_iff (sha3 : Sha3) (before : List Reception) (input : Reception) :
    verdict sha3 (received sha3 before) input = 0 ↔ (frameOf input.line).hash =
      storedAfter sha3 input.openssl (received sha3 before).hvld (frameOf input.line) :=
  (validate_received sha3 input.openssl input.line _ (received_formed sha3 before).1).1

/-- The digits compared while the digest function is constant: once a hash was computed
they are always the same. Such a function shows that a condition is needed. -/
theorem stored_constant (digest : Vector (Fin 256) 32) (before : List Reception)
    (hashed : Hashed before) :
    (received (fun _ => digest) before).hvld.stored = hexDigits digest.toList 4 := by
  obtain ⟨_, stored⟩ := received_formed (fun _ => digest) before
  rw [if_pos hashed] at stored
  obtain ⟨_, digits⟩ := stored
  exact digits

/-- With a computed hash the verdict is exact for frames of the assumed length
and for those without hash digits. -/
theorem computed_exact (sha3 : Sha3) (before : List Reception) (input : Reception)
    (success : input.openssl = .succeed)
    (fits : (frameOf input.line).canId.length + 1 = canIdLength ∨
      ¬ IsHexDigits 4 (frameOf input.line).hash) : Exact sha3 before input := by
  rw [Exact, verdict_zero_iff, Authentic, and_iff_right success, storedAfter, if_pos success]
  by_cases digits : IsHexDigits 4 (frameOf input.line).hash
  · have identifier := fits.resolve_right (not_not.mpr digits)
    rw [hashed_input_eq _ _ identifier (value_length _ digits)]
  · have never : ∀ text, (frameOf input.line).hash ≠ hexDigits (sha3 text).toList 4 := by
      intro text same
      exact digits (same ▸ hex_digits_are_digits _ 4 (by decide))
    exact iff_of_false (never _) (never _)

/-- Some digest function tells the hashed bytes from the identifier and value of
a frame with an identifier of another length. -/
theorem computed_inexact (before : List Reception) (input : Reception)
    (success : input.openssl = .succeed)
    (other : (frameOf input.line).canId.length + 1 ≠ canIdLength)
    (digits : IsHexDigits 4 (frameOf input.line).hash) : ∃ sha3, ¬ Exact sha3 before input := by
  obtain ⟨own, ownDigits⟩ := exists_digest 4 _ (by decide) digits
  obtain ⟨foreign, foreignDigits⟩ := exists_other_digest 4 (frameOf input.line).hash
    (by decide) (by decide)
  refine ⟨fun text => if text = (frameOf input.line).canId ++ (frameOf input.line).value then own
    else foreign, ?_⟩
  intro exact
  rw [Exact, verdict_zero_iff, Authentic, and_iff_right success, storedAfter, if_pos success,
    if_pos rfl] at exact
  have hashed := exact.mpr ownDigits.symm
  have length := hashed_input_length (received (fun text =>
    if text = (frameOf input.line).canId ++ (frameOf input.line).value then own else foreign)
      before).hvld.input (frameOf input.line) (received_formed _ before).1.hvld.input
  have value := value_length _ digits
  rw [if_neg] at hashed
  · exact foreignDigits hashed.symm
  · intro same
    rw [same, List.length_append, value] at length
    simp only [canIdLength, floatLength] at length other
    omega

/-- Without a computed hash the frame is not authentic, so the verdict is exact
when the hash digits are not those in the buffer. -/
theorem failed_exact_iff (sha3 : Sha3) (before : List Reception) (input : Reception)
    (failure : input.openssl ≠ .succeed) :
    Exact sha3 before input ↔
      (frameOf input.line).hash ≠ (received sha3 before).hvld.stored := by
  rw [Exact, verdict_zero_iff, Authentic, storedAfter, if_neg failure]
  simp [failure]

/-- After any lines, the verdict on a line is exact for every digest function if and
only if the line is checkable.

Proof: on a checkable line the bytes hashed are those of the frame, and the buffer holds
their digits or digits that cannot be accepted. On any other line a constant function,
or one that tells the frame's bytes from those hashed, gives a wrong verdict. -/
theorem verdict_exact_iff (before : List Reception) (input : Reception) :
    (∀ sha3, Exact sha3 before input) ↔ Checkable before input := by
  unfold Checkable
  split_ifs with success hashed
  · constructor
    · intro exact
      by_contra neither
      obtain ⟨other, digits⟩ := not_or.mp neither
      obtain ⟨sha3, wrong⟩ := computed_inexact before input success other (not_not.mp digits)
      exact wrong (exact sha3)
    · intro fits sha3
      exact computed_exact sha3 before input success fits
  · constructor
    · intro exact digits
      obtain ⟨digest, same⟩ := exists_digest 4 _ (by decide) digits
      have differs := (failed_exact_iff _ before input success).mp (exact fun _ => digest)
      exact differs (by rw [stored_constant digest before hashed, same])
    · intro digits sha3
      rw [failed_exact_iff sha3 before input success]
      obtain ⟨_, stored⟩ := received_formed sha3 before
      rw [if_pos hashed] at stored
      obtain ⟨text, same⟩ := stored
      intro equal
      exact digits (by rw [equal, same]; exact hex_digits_are_digits _ 4 (by decide))
  · have stored : ∀ sha3, (received sha3 before).hvld.stored = [] := by
      intro sha3
      have empty := (received_formed sha3 before).2
      rwa [if_neg hashed] at empty
    constructor
    · intro exact
      have differs := (failed_exact_iff _ before input success).mp
        (exact fun _ => Vector.replicate 32 0)
      rwa [stored] at differs
    · intro nonempty sha3
      rw [failed_exact_iff sha3 before input success, stored]
      exact nonempty

end

/-- Lower case of the letters of ASCII. -/
instance : StringLibrary where
  toLower := Char.toLower
  to_lower_ne_nul c different same := by
    delta Char.toLower at same
    split_ifs at same with upper
    · have code := congrArg UInt32.toNat (congrArg Char.val same)
      have bound := UInt32.le_iff_toNat_le.mp upper.2
      rw [UInt32.toNat_add] at code
      simp [nul] at code bound
      omega
    · exact different same

/-- A frame without data on the longitudinal channel, while OpenSSL is out of memory, so
that nothing is hashed. -/
def emptyFrame : Reception := ⟨"(1436509052.249713) vcan0 006#\n".toList, ⟨false, true, true, true⟩⟩

/-- As the first frame it is accepted: the hash buffer is still empty, and so is what it
is compared with. -/
theorem empty_frame_accepted : ¬ Exact zeroSha3 [] emptyFrame := by
  rw [failed_exact_iff _ _ _ (by decide)]
  decide

end EventRecorder.FrameAuthentication
