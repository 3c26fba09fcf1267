import EventRecorder.FrameSteps

/-!
# The three arrays of a scanned line

`can_rcv_msg` scans three tokens into adjacent arrays, with field widths equal to
the arrays' lengths. A token as wide as its field leaves its array without a
terminator; the one behind a full data field falls on the timestamp.
-/

namespace EventRecorder.FieldsApart

open CText Frames

/-- The array `can_id`, the first of the bytes of a message. -/
def canIdArray (msg : CanMsg) : Text := msg.bytes.take canIdLength

/-- The array `can_data`, directly behind the identifier. -/
def canDataArray (msg : CanMsg) : Text := (msg.bytes.drop canIdLength).take canDataLength

/-- The array `timestamp`, directly behind the data and up to the end of the message. -/
def timestampArray (msg : CanMsg) : Text := msg.bytes.drop (canIdLength + canDataLength)

/-- An array holds a token: it has a terminator, and the token before the first. -/
def Holds (array token : Text) : Prop := nul ∈ array ∧ cString array = token

/-- Each array holds the token the scan format assigns to it, and is empty where the
line does not match so far. -/
def KeptApart (msg : Text) : Prop :=
  Holds (canIdArray (canRcvMsg msg)) (scanned (scanCanId (cString msg))) ∧
    Holds (canDataArray (canRcvMsg msg)) (scanned (scanCanData (cString msg))) ∧
    Holds (timestampArray (canRcvMsg msg)) (scanned (scanTimestamp (cString msg)))

/-- No token is as wide as its field, so that there is room for its terminator in its
own array. -/
def TokensFit (msg : Text) : Prop :=
  (scanned (scanCanId (cString msg))).length < canIdLength ∧
    (scanned (scanCanData (cString msg))).length < canDataLength ∧
    (scanned (scanTimestamp (cString msg))).length < canTimestampLength

/-- A field of zeros that received a token holds it if it has room for a terminator. -/
theorem holds_padded_iff (size : Nat) (token : Text) (fits : token.length ≤ size)
    (printable : nul ∉ token) : Holds (padded size token) token ↔ token.length < size := by
  rw [Holds, padded_eq size token fits]
  constructor
  · rintro ⟨terminated, -⟩
    rcases List.mem_append.mp terminated with inside | behind
    · exact absurd inside printable
    · have some := (List.mem_replicate.mp behind).1
      omega
  · intro short
    obtain ⟨less, room⟩ : ∃ less, size - token.length = less + 1 :=
      ⟨size - token.length - 1, by omega⟩
    rw [room, List.replicate_succ]
    exact ⟨by simp, c_string_append token _ printable⟩

/-- Tokens come from the line, which holds no terminator, and so hold none either. -/
theorem timestamp_printable (msg : Text) : nul ∉ scanned (scanTimestamp (cString msg)) := by
  cases read : scanTimestamp (cString msg) with
  | none => exact List.not_mem_nil
  | some pair =>
    obtain ⟨input, opened, read⟩ := Option.bind_eq_some_iff.mp read
    obtain ⟨_, subset, _⟩ := scan_set_some _ _ _ _ _ read
    intro member
    apply nul_not_mem_c_string msg
    rw [scan_char_some _ _ _ opened]
    exact List.mem_cons_of_mem _ (subset member)

/-- The arrays of a received line, each as it is when the scan has written all three,
one behind the other. -/
theorem received_arrays (msg : Text) :
    let timestamp := padded canTimestampLength (scanned (scanTimestamp (cString msg)))
    canIdArray (canRcvMsg msg) = padded canIdLength (scanned (scanCanId (cString msg))) ∧
      canDataArray (canRcvMsg msg) =
        padded canDataLength (scanned (scanCanData (cString msg))) ∧
      timestampArray (canRcvMsg msg) =
        if (scanned (scanCanData (cString msg))).length < canDataLength then timestamp
        else timestamp.set 0 nul := by
  intro timestamp
  have bytes := can_rcv_msg_bytes msg
  have idWidth := padded_length canIdLength (scanned (scanCanId (cString msg)))
  have dataWidth := padded_length canDataLength (scanned (scanCanData (cString msg)))
  refine ⟨?_, ?_, ?_⟩
  · rw [canIdArray, bytes, List.take_left' idWidth]
  · rw [canDataArray, bytes, List.drop_left' idWidth, List.take_left' dataWidth]
  · rw [timestampArray, bytes, ← List.append_assoc,
      List.drop_left' (by rw [List.length_append, idWidth, dataWidth])]

/-- The arrays hold exactly their tokens when no token is as wide as its field.

Proof: the scan writes the arrays from the first to the last, so that a terminator
behind a full field falls on the next array and is overwritten there, or behind the
message. Each array is computed and compared with its token. -/
theorem kept_apart_iff (msg : Text) : KeptApart msg ↔ TokensFit msg := by
  obtain ⟨canId, canData, timestamp⟩ := received_arrays msg
  have identifier := holds_padded_iff canIdLength _ (scanned_can_id (cString msg)).1
    fun member => nul_not_mem_c_string msg ((scanned_can_id _).2 member)
  have data := holds_padded_iff canDataLength _ (scanned_can_data (cString msg)).1
    fun member => nul_not_mem_c_string msg ((scanned_can_data _).2 member)
  have stamp := holds_padded_iff canTimestampLength _ (scanned_timestamp_fits (cString msg))
    (timestamp_printable msg)
  rw [KeptApart, TokensFit, canId, canData, timestamp, identifier, data]
  apply and_congr_right
  intro _
  apply and_congr_right
  intro short
  rw [if_pos short, stamp]

/-- An extended identifier fills its array up to the last byte, so that the string there
runs on into the data. -/
theorem extended_identifier_runs_on :
    ¬ KeptApart "(1436509052.249713) vcan0 18FEF100#0000000111111111\n".toList := by
  rintro ⟨⟨terminated, -⟩, -⟩
  revert terminated
  decide +kernel

end EventRecorder.FieldsApart
