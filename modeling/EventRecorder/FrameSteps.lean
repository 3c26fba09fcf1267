import EventRecorder.Frames

/-!
# What a received line leaves in memory

A frame is the identifier and the data that a line assigns, after `tolowers`.
The strings that the broker and the hash check take from the structure are
functions of the frame, whatever timestamp the line carries.
-/

namespace EventRecorder.Frames

open Arithmetic CText Sha

/-- What a conversion assigns; the field stays empty when it is not reached, as the
structure was zeroed before. -/
def scanned (read : Option (Text × Text)) : Text := (read.map Prod.fst).getD []

/-- A conversion reads characters of its input, within its width; here for the
timestamp. -/
theorem scan_timestamp_some (msg token rest : Text)
    (read : scanTimestamp msg = some (token, rest)) :
    token.length ≤ canTimestampLength ∧ rest ⊆ msg := by
  obtain ⟨input, opened, read⟩ := Option.bind_eq_some_iff.mp read
  obtain ⟨fits, _, subset⟩ := scan_set_some _ _ _ _ _ read
  rw [scan_char_some _ _ _ opened]
  exact ⟨fits, List.subset_cons_of_subset _ subset⟩

/-- The directives that assign nothing leave a rest of the input. -/
theorem scan_interface_some (msg rest : Text) (read : scanInterface msg = some rest) :
    rest ⊆ msg := by
  obtain ⟨⟨_, first⟩, timestamp, read⟩ := Option.bind_eq_some_iff.mp read
  obtain ⟨second, closed, read⟩ := Option.bind_eq_some_iff.mp read
  obtain ⟨⟨_, third⟩, interface, read⟩ := Option.bind_eq_some_iff.mp read
  obtain ⟨_, _, subset⟩ := scan_word_some _ _ _ _ interface
  obtain rfl := Option.some.inj read
  have secondFirst : second ⊆ first := by
    rw [scan_char_some _ _ _ closed]
    exact List.subset_cons_self _ _
  have thirdMsg : third ⊆ msg :=
    List.Subset.trans subset
      (List.Subset.trans secondFirst (scan_timestamp_some _ _ _ timestamp).2)
  exact List.Subset.trans (skip_space_subset third) thirdMsg

/-- The identifier is within its width, and both it and what is left come from the
input. -/
theorem scan_can_id_some (msg token rest : Text) (read : scanCanId msg = some (token, rest)) :
    token.length ≤ canIdLength ∧ token ⊆ msg ∧ rest ⊆ msg := by
  obtain ⟨input, interface, read⟩ := Option.bind_eq_some_iff.mp read
  obtain ⟨fits, tokenInput, restInput⟩ := scan_set_some _ _ _ _ _ read
  have inputMsg := scan_interface_some _ _ interface
  exact ⟨fits, List.Subset.trans tokenInput inputMsg, List.Subset.trans restInput inputMsg⟩

/-- The data is within its width and comes from the input. -/
theorem scan_can_data_some (msg token rest : Text)
    (read : scanCanData msg = some (token, rest)) :
    token.length ≤ canDataLength ∧ token ⊆ msg := by
  obtain ⟨⟨_, first⟩, canId, read⟩ := Option.bind_eq_some_iff.mp read
  obtain ⟨second, separator, read⟩ := Option.bind_eq_some_iff.mp read
  obtain ⟨fits, tokenSecond, _⟩ := scan_word_some _ _ _ _ read
  have secondFirst : second ⊆ first := by
    rw [scan_char_some _ _ _ separator]
    exact List.subset_cons_self _ _
  exact ⟨fits, List.Subset.trans tokenSecond
    (List.Subset.trans secondFirst (scan_can_id_some _ _ _ canId).2.2)⟩

/-- Assigned texts fit their fields and hold no terminator; here the width of the
timestamp. -/
theorem scanned_timestamp_fits (msg : Text) :
    (scanned (scanTimestamp msg)).length ≤ canTimestampLength := by
  cases read : scanTimestamp msg with
  | none => exact Nat.zero_le _
  | some pair => exact (scan_timestamp_some _ _ _ read).1

/-- The same of the identifier, whether the conversion was reached or not. -/
theorem scanned_can_id (msg : Text) :
    (scanned (scanCanId msg)).length ≤ canIdLength ∧ scanned (scanCanId msg) ⊆ msg := by
  cases read : scanCanId msg with
  | none => exact ⟨Nat.zero_le _, List.nil_subset _⟩
  | some pair =>
    obtain ⟨fits, subset, _⟩ := scan_can_id_some _ _ _ read
    exact ⟨fits, subset⟩

/-- The same of the data, whether the conversion was reached or not. -/
theorem scanned_can_data (msg : Text) :
    (scanned (scanCanData msg)).length ≤ canDataLength ∧ scanned (scanCanData msg) ⊆ msg := by
  cases read : scanCanData msg with
  | none => exact ⟨Nat.zero_le _, List.nil_subset _⟩
  | some pair => exact scan_can_data_some _ _ _ read

/-- Writing a text into a field of zeros fills the field. The terminator of a
text as long as the field falls on the first byte behind it. -/
theorem write_field (msg : CanMsg) (before after text : Text) (size : Nat)
    (blank : msg.bytes = before ++ (List.replicate size nul ++ after))
    (fits : text.length ≤ size) :
    (msg.write before.length text).bytes = before ++ (padded size text ++
      if text.length < size then after else after.set 0 nul) := by
  have length : before.length + (size + after.length) = canMsgSize := by
    rw [← msg.size, blank]
    simp
  have written : store msg.bytes before.length (text ++ [nul]) = before ++ (text ++ nul ::
      (List.replicate (size - (text.length + 1)) nul ++
        after.drop (text.length + 1 - size))) := by
    rw [store, blank, List.take_left]
    simp [List.drop_append]
  have bytes : (msg.write before.length text).bytes =
      (store msg.bytes before.length (text ++ [nul])).take canMsgSize := rfl
  rw [bytes, written, padded_eq size text fits]
  by_cases short : text.length < size
  · obtain ⟨less, left⟩ : ∃ less, size - text.length = less + 1 :=
      ⟨size - text.length - 1, by omega⟩
    have shorter : size - (text.length + 1) = less := by omega
    have none : text.length + 1 - size = 0 := by omega
    rw [if_pos short, left, shorter, none, List.drop_zero, List.replicate_succ,
      List.take_of_length_le]
    · simp
    · simp
      omega
  · have full : text.length = size := by omega
    rw [if_neg short, full, Nat.sub_self, Nat.sub_eq_zero_of_le (Nat.le_succ size),
      Nat.add_sub_cancel_left, List.replicate_zero]
    cases after with
    | nil =>
      have whole : (before ++ text).length = canMsgSize := by simpa [full] using length
      rw [← whole]
      simp [List.take_append]
    | cons first after =>
      rw [List.take_of_length_le]
      · simp
      · simp at length ⊢
        omega

/-- The same for a conversion that may not have been reached: the field holds the token
with terminators behind it, and a token that fills it writes its terminator one byte
further on. -/
theorem assign_field (msg : CanMsg) (before after : Text) (size : Nat)
    (read : Option (Text × Text))
    (blank : msg.bytes = before ++ (List.replicate size nul ++ after))
    (nonempty : 0 < size) (fits : (scanned read).length ≤ size) :
    (msg.assign before.length read).bytes = before ++ (padded size (scanned read) ++
      if (scanned read).length < size then after else after.set 0 nul) := by
  cases read with
  | some pair => exact write_field msg before after pair.1 size blank fits
  | none =>
    have empty : (scanned none).length < size := nonempty
    rw [if_pos empty]
    simpa [CanMsg.assign, scanned, padded] using blank

/-- The structure after `can_rcv_msg`: each field holds its token, and a full
data field is terminated by the first byte of the timestamp. -/
theorem can_rcv_msg_bytes (msg : Text) :
    let timestamp := padded canTimestampLength (scanned (scanTimestamp (cString msg)))
    let canData := scanned (scanCanData (cString msg))
    (canRcvMsg msg).bytes = padded canIdLength (scanned (scanCanId (cString msg))) ++
      (padded canDataLength canData ++
        if canData.length < canDataLength then timestamp else timestamp.set 0 nul) := by
  intro timestamp canData
  have stamped := assign_field .zero (List.replicate (canIdLength + canDataLength) nul) []
    canTimestampLength (scanTimestamp (cString msg)) rfl (by decide) (scanned_timestamp_fits _)
  rw [List.length_replicate, List.set_nil, ite_self, List.append_nil] at stamped
  have identified := assign_field _ [] (List.replicate canDataLength nul ++ timestamp)
    canIdLength (scanCanId (cString msg))
    (by rw [stamped, List.replicate_add, List.append_assoc]; rfl) (by decide)
    (scanned_can_id _).1
  have untouched : (List.replicate canDataLength nul ++ timestamp).set 0 nul =
      List.replicate canDataLength nul ++ timestamp := rfl
  rw [untouched, ite_self] at identified
  have filled := assign_field _ (padded canIdLength (scanned (scanCanId (cString msg))))
    timestamp canDataLength (scanCanData (cString msg)) identified (by decide)
    (scanned_can_data _).1
  rw [padded_length] at filled
  exact filled

/-- What the broker reads of a line: an identifier and data in lower case, as wide as
their fields at most and without a terminator in them. -/
structure Frame where
  canId : Text
  canData : Text
  id_fits : canId.length ≤ canIdLength
  data_fits : canData.length ≤ canDataLength
  id_printable : nul ∉ canId
  data_printable : nul ∉ canData

/-- The value digits of a frame: the first eight characters of its data, or fewer if it
has no more. -/
def Frame.value (frame : Frame) : Text := frame.canData.take floatLength

/-- The hash digits of a frame: the eight characters behind the value, or fewer. -/
def Frame.hash (frame : Frame) : Text := (frame.canData.drop floatLength).take canHashLength

/-- The string at `can_id`: an identifier that fills its field runs on into the data,
and ends with it. -/
def Frame.idString (frame : Frame) : Text :=
  if frame.canId.length < canIdLength then frame.canId else frame.canId ++ frame.canData

variable [StringLibrary]

/-- The frame of a line. A line that does not fit the format has an empty identifier or
empty data. -/
def frameOf (msg : Text) : Frame where
  canId := scanned (scanCanId (cString msg))
  canData := (scanned (scanCanData (cString msg))).map StringLibrary.toLower
  id_fits := (scanned_can_id _).1
  data_fits := by simpa using (scanned_can_data _).1
  id_printable := fun member => nul_not_mem_c_string msg ((scanned_can_id _).2 member)
  data_printable := by
    intro member
    obtain ⟨c, inside, same⟩ := List.mem_map.mp member
    have printable : c ≠ nul := by
      rintro rfl
      exact nul_not_mem_c_string msg ((scanned_can_data _).2 inside)
    exact StringLibrary.to_lower_ne_nul c printable same

/-- The memory of a received line, after `tolowers`: the two fields, and behind them
what the timestamp left, with a terminator in front if the data filled its field. -/
theorem received_bytes (msg : Text) :
    ∃ rest, (canRcvMsg msg).tolowers.bytes = padded canIdLength (frameOf msg).canId ++
        (padded canDataLength (frameOf msg).canData ++ rest) ∧
      ((frameOf msg).canData.length = canDataLength → rest.head? = some nul) := by
  have bytes := can_rcv_msg_bytes msg
  dsimp only at bytes
  generalize stamp : (if (scanned (scanCanData (cString msg))).length < canDataLength then
    padded canTimestampLength (scanned (scanTimestamp (cString msg)))
    else (padded canTimestampLength (scanned (scanTimestamp (cString msg)))).set 0 nul) = rest
    at bytes
  obtain ⟨fits, subset⟩ := scanned_can_data (cString msg)
  have length : rest.length = canTimestampLength := by
    rw [← stamp]
    split_ifs <;> simp
  have terminated : (scanned (scanCanData (cString msg))).length = canDataLength →
      rest.head? = some nul := by
    intro full
    rw [← stamp, if_neg (by omega)]
    have nonempty : (padded canTimestampLength (scanned (scanTimestamp (cString msg)))).length =
        canTimestampLength := padded_length _ _
    generalize padded canTimestampLength (scanned (scanTimestamp (cString msg))) = field at nonempty
    cases field with
    | nil => cases nonempty
    | cons first field => rfl
  have data : cString (canRcvMsg msg).canData = scanned (scanCanData (cString msg)) := by
    rw [CanMsg.canData, bytes, List.drop_left' (padded_length _ _)]
    exact c_string_padded _ _ _ fits (fun member => nul_not_mem_c_string msg (subset member))
      terminated
  refine ⟨rest, ?_, ?_⟩
  · have lowered : store (canRcvMsg msg).bytes canIdLength (frameOf msg).canData =
        padded canIdLength (frameOf msg).canId ++
          (padded canDataLength (frameOf msg).canData ++ rest) := by
      have idLength : (padded canIdLength (scanned (scanCanId (cString msg)))).length =
        canIdLength := padded_length _ _
      rw [store, bytes, List.take_left' idLength, ← idLength, List.drop_append, padded_eq _ _ fits,
        padded_eq _ _ (frameOf msg).data_fits]
      simp [frameOf]
    have bytes : (canRcvMsg msg).tolowers.bytes = (store (canRcvMsg msg).bytes canIdLength
        ((cString (canRcvMsg msg).canData).map StringLibrary.toLower)).take canMsgSize := rfl
    rw [bytes, data]
    refine (congrArg (List.take canMsgSize) lowered).trans (List.take_of_length_le ?_)
    simp [length, canMsgSize]
    omega
  · intro full
    exact terminated (by simpa [frameOf] using full)

/-- The strings the code takes from a received line, as functions of the frame. The
timestamp does not show in any of them. -/
theorem received_strings (msg : Text) :
    cString (canRcvMsg msg).tolowers.canId = (frameOf msg).idString ∧
      cString (canRcvMsg msg).tolowers.canData = (frameOf msg).canData ∧
      cString ((canRcvMsg msg).tolowers.canData.drop floatLength) =
        (frameOf msg).canData.drop floatLength := by
  obtain ⟨rest, bytes, terminated⟩ := received_bytes msg
  have canData : (canRcvMsg msg).tolowers.canData =
      padded canDataLength (frameOf msg).canData ++ rest := by
    rw [CanMsg.canData, bytes, List.drop_left' (padded_length _ _)]
  have data : cString (canRcvMsg msg).tolowers.canData = (frameOf msg).canData := by
    rw [canData]
    exact c_string_padded _ _ _ (frameOf msg).data_fits (frameOf msg).data_printable terminated
  refine ⟨?_, data, ?_⟩
  · rw [canData] at data
    rw [CanMsg.canId, bytes, Frame.idString]
    split_ifs with short
    · exact c_string_padded _ _ _ (frameOf msg).id_fits (frameOf msg).id_printable
        fun full => absurd full short.ne
    · have full : (frameOf msg).canId.length = canIdLength := by
        have fits := (frameOf msg).id_fits
        omega
      have whole : padded canIdLength (frameOf msg).canId = (frameOf msg).canId := by
        rw [padded_eq _ _ full.le, full, Nat.sub_self, List.replicate_zero, List.append_nil]
      have printable := List.takeWhile_eq_self_iff.mp
        (c_string_eq_self _ (frameOf msg).id_printable)
      rw [whole, cString, List.takeWhile_append_of_pos printable]
      exact congrArg _ data
  · rw [canData, List.drop_append_of_le_length (by simp [floatLength, canDataLength]),
      drop_padded _ _ _ (frameOf msg).data_fits (by decide)]
    apply c_string_padded
    · rw [List.length_drop]
      exact Nat.sub_le_sub_right (frameOf msg).data_fits _
    · intro member
      exact (frameOf msg).data_printable (List.mem_of_mem_drop member)
    · intro full
      rw [List.length_drop] at full
      have fits := (frameOf msg).data_fits
      exact terminated (by simp only [canDataLength, floatLength] at full fits ⊢; omega)

omit [StringLibrary] in
/-- The first characters at `can_id` are the identifier's own, wherever the string goes
on. -/
theorem id_string_take (frame : Frame) : frame.idString.take canIdLength = frame.canId := by
  rw [Frame.idString]
  split_ifs with short
  · exact List.take_of_length_le short.le
  · have fits := frame.id_fits
    exact List.take_left' (by omega)

/-- The buffers of the hash check have their sizes, and the last byte of the
expected hash is its terminator. -/
structure HashVld.Formed (hvld : HashVld) : Prop where
  input : hvld.input.length = canIdLength + floatLength
  expected : hvld.expected.length = canHashLength + 1
  terminated : hvld.expected.drop canHashLength = [nul]
  actual : hvld.actual.length = canHashLength + 2 + 1

/-- The same of all static buffers: their sizes are kept, and their last byte stays
zero. -/
structure BrokerState.Formed (state : BrokerState) : Prop where
  hex : state.hex.length = floatLength + 1
  terminated : state.hex.drop floatLength = [nul]
  hvld : state.hvld.Formed

omit [StringLibrary] in
/-- The buffers at process start are formed, being zero. -/
theorem initial_formed : BrokerState.initial.Formed := by
  refine ⟨rfl, rfl, rfl, rfl, rfl, rfl⟩

/-- The hash digits that the last successful hash left, as far as they are compared. -/
def HashVld.stored (hvld : HashVld) : Text := cString (hvld.actual.take (canHashLength + 1))

omit [StringLibrary] in
/-- A copy into a buffer with a terminator behind the copied bytes is a string again, of
as many characters as were copied. -/
theorem strncpy_terminated (destination source : Text) (count : Nat)
    (terminated : destination.drop count = [nul]) :
    (strncpy destination source count).length = count + 1 ∧
      (strncpy destination source count).drop count = [nul] ∧
      cString (strncpy destination source count) = (cString source).take count := by
  have copied : strncpy destination source count =
      padded count ((cString source).take count) ++ [nul] := by
    rw [strncpy, store, List.take_zero, List.nil_append, padded_length, Nat.zero_add, terminated,
      padded, padded, List.take_append, List.take_append, List.take_take, Nat.min_self]
    congr 2
    rw [List.take_replicate, List.take_replicate, List.length_take]
    congr 1
    omega
  have printable : nul ∉ (cString source).take count := by
    intro member
    exact nul_not_mem_c_string source (List.mem_of_mem_take member)
  rw [copied]
  refine ⟨by simp, List.drop_left' (padded_length _ _), ?_⟩
  exact c_string_padded _ _ _ (List.length_take_le _ _) printable fun _ => rfl

/-- The bytes that are hashed for a frame: the input buffer up to its last byte. -/
def hashedInput (input : Text) (frame : Frame) : Text :=
  (store input 0 (snprintf (canIdLength + floatLength) (frame.idString ++ frame.value) ++
    [nul])).take (canIdLength + floatLength - 1)

/-- The digits in the hash buffer after a frame was checked: of its input when
OpenSSL succeeded, else those before. -/
def storedAfter (sha3 : Sha3) (md : MdCalls) (hvld : HashVld) (frame : Frame) : Text :=
  if md = .succeed then hexDigits (sha3 (hashedInput hvld.input frame)).toList 4 else hvld.stored

/-- The value digits handed to the hash check are those of the frame, whatever the
buffer held before. -/
theorem receive_frame_value (msg hex : Text) (terminated : hex.drop floatLength = [nul]) :
    (receiveFrame msg hex).2.length = floatLength + 1 ∧
      (receiveFrame msg hex).2.drop floatLength = [nul] ∧
      cString (receiveFrame msg hex).2 = (frameOf msg).value := by
  obtain ⟨length, ends, copied⟩ := strncpy_terminated hex (canRcvMsg msg).tolowers.canData
    floatLength terminated
  obtain ⟨_, data, _⟩ := received_strings msg
  exact ⟨length, ends, by rw [Frame.value, ← data]; exact copied⟩

omit [StringLibrary] in
/-- The hash check compares the hash digits of the frame whose strings it finds
with those in the hash buffer. -/
theorem validate_hash_law (sha3 : Sha3) (md : MdCalls) (msg : CanMsg) (hex : Text)
    (hvld : HashVld) (frame : Frame) (formed : hvld.Formed)
    (idString : cString msg.canId = frame.idString)
    (hash : cString (msg.canData.drop floatLength) = frame.canData.drop floatLength)
    (value : cString hex = frame.value) :
    let checked := validateHash sha3 md msg hex hvld
    (checked.1 = 0 ↔ frame.hash = storedAfter sha3 md hvld frame) ∧
      checked.2.Formed ∧ checked.2.stored = storedAfter sha3 md hvld frame := by
  obtain ⟨input, copied, actual, verdict⟩ := validate_hash_eq sha3 md msg hex hvld
  generalize validateHash sha3 md msg hex hvld = checked at input copied actual verdict ⊢
  obtain ⟨expectedLength, expectedEnds, expected⟩ := strncpy_terminated hvld.expected
    (msg.canData.drop floatLength) canHashLength formed.terminated
  rw [← copied] at expectedLength expectedEnds expected
  have expectedHash : cString checked.2.expected = frame.hash := by
    rw [expected, hash, Frame.hash]
  rw [idString, value] at input
  have short : (snprintf (canIdLength + floatLength)
      (frame.idString ++ frame.value) ++ [nul]).length ≤
        canIdLength + floatLength := by
    simp [snprintf, canIdLength, floatLength]
  have inputLength : checked.2.input.length = canIdLength + floatLength := by
    rw [input, store_length _ _ _ (by rw [formed.input]; omega), formed.input]
  rw [input, ← hashedInput] at actual
  have outcome : checked.2.actual.length = canHashLength + 2 + 1 ∧
      checked.2.stored = storedAfter sha3 md hvld frame := by
    rw [HashVld.stored, actual, storedAfter]
    by_cases success : md = .succeed
    · obtain ⟨_, length, digits⟩ := sha_hash_success sha3 md
        (hashedInput hvld.input frame) hvld.actual 4 success (by decide)
        (by rw [formed.actual]; decide)
      refine ⟨length.trans formed.actual, ?_⟩
      rw [if_pos success]
      exact (congrArg cString digits).trans
        (c_string_append _ [] (nul_not_mem_hex_digits _ _))
    · rw [sha_hash_failure _ _ _ _ _ success, if_neg success]
      exact ⟨formed.actual, rfl⟩
  refine ⟨?_, ⟨inputLength, expectedLength, expectedEnds, outcome.1⟩, outcome.2⟩
  have compared := strncmp_eq_zero_iff checked.2.expected checked.2.actual (canHashLength + 1)
    expectedLength.ge (by rw [outcome.1]; decide)
  have whole : checked.2.expected.take (canHashLength + 1) = checked.2.expected :=
    List.take_of_length_le expectedLength.le
  rw [whole, expectedHash, ← HashVld.stored, outcome.2] at compared
  rw [← compared, verdict]
  split_ifs with differs
  · simp [differs]
  · simpa using differs

/-- The hash check of a received line, in terms of the frame: the bytes it hashes, the
digits it compares, and the buffers it leaves. -/
theorem validate_received (sha3 : Sha3) (md : MdCalls) (msg : Text) (state : BrokerState)
    (formed : state.Formed) :
    let checked := validateHash sha3 md (receiveFrame msg state.hex).1
      (receiveFrame msg state.hex).2 state.hvld
    (checked.1 = 0 ↔ (frameOf msg).hash = storedAfter sha3 md state.hvld (frameOf msg)) ∧
      checked.2.Formed ∧ checked.2.stored = storedAfter sha3 md state.hvld (frameOf msg) := by
  obtain ⟨idString, _, hash⟩ := received_strings msg
  obtain ⟨_, _, value⟩ := receive_frame_value msg state.hex formed.terminated
  exact validate_hash_law sha3 md _ _ _ _ formed.hvld idString hash value

/-- The number a frame's value digits stand for, which is what the mail of an accepted
frame carries. -/
def Frame.float {F : Type} [Arithmetic F] (frame : Frame) : F := hexGetFloat frame.value

omit [StringLibrary] in
/-- The decoder reads its argument as a string, so that the buffer it stands in does not
matter. -/
theorem hex_get_float_of_string {F : Type} [Arithmetic F] (frame : Frame) (hex : Text)
    (same : cString hex = frame.value) : (hexGetFloat hex : F) = frame.float := by
  have own : cString frame.value = frame.value :=
    c_string_eq_self _ fun member => frame.data_printable (List.mem_of_mem_take member)
  have numbers : hexNumbers hex = hexNumbers frame.value := by
    rw [hexNumbers, hexNumbers, same, own]
  rw [Frame.float, hexGetFloat, hexGetFloat, floatText, floatText, numbers]

section

variable {F : Type} [Arithmetic F] [LogHeader]

/-- The mail of a frame, by whether its hash is accepted: a sample, or an error about
its identifier or about its hash. -/
def frameMail (frame : Frame) (accepted : Prop) [Decidable accepted] : Mail F :=
  if accepted then
    if atoi frame.idString = 0 then
      brokerError .invldPid ("Brocker: Unable to parse pid: ".toList ++ frame.canId)
    else safetyMail (atoi frame.idString) frame.float
  else
    brokerError .invldHsh ("Invalid message hash: '".toList ++ frame.canData ++ "'".toList)

/-- The broker sends the mail of the frame of each line and keeps its buffers in
form. -/
theorem broker_receive_law (sha3 : Sha3) (md : MdCalls) (msg : Text) (state : BrokerState)
    (formed : state.Formed) :
    let received : List (Mail F) × BrokerState := brokerReceive sha3 md msg state
    received.1 = [frameMail (frameOf msg)
        ((frameOf msg).hash = storedAfter sha3 md state.hvld (frameOf msg))] ∧
      received.2.Formed ∧
      received.2.hvld.stored = storedAfter sha3 md state.hvld (frameOf msg) := by
  obtain ⟨accepts, checked, stored⟩ := validate_received sha3 md msg state formed
  obtain ⟨hexLength, hexEnds, value⟩ := receive_frame_value msg state.hex formed.terminated
  obtain ⟨idString, data, _⟩ := received_strings msg
  have cmsg : (receiveFrame msg state.hex).1 = (canRcvMsg msg).tolowers := rfl
  have float : (hexGetFloat (receiveFrame msg state.hex).2 : F) = (frameOf msg).float :=
    hex_get_float_of_string _ _ value
  generalize validity : validateHash sha3 md (receiveFrame msg state.hex).1
    (receiveFrame msg state.hex).2 state.hvld = validated at accepts checked stored
  have result : (brokerReceive sha3 md msg state : List (Mail F) × BrokerState) =
      (brokerMails (receiveFrame msg state.hex).1 (receiveFrame msg state.hex).2 validated.1,
        ⟨(receiveFrame msg state.hex).2, validated.2⟩) := by
    unfold brokerReceive
    generalize receiveFrame msg state.hex = received at validity ⊢
    obtain ⟨received, hex⟩ := received
    dsimp only at validity ⊢
    rw [validity]
  rw [result]
  refine ⟨?_, ⟨hexLength, hexEnds, checked⟩, stored⟩
  simp only [brokerMails, cmsg, idString, id_string_take, data, float, frameMail]
  by_cases accepted : (frameOf msg).hash = storedAfter sha3 md state.hvld (frameOf msg)
  · rw [if_pos (accepts.mpr accepted), if_pos accepted]
    split_ifs <;> rfl
  · rw [if_neg fun zero => accepted (accepts.mp zero), if_neg accepted]

end

end EventRecorder.Frames
