import EventRecorder.Mail
import EventRecorder.Sha

/-!
# CAN frames

`broker_receive` turns one line of `candump` output into one mail. The line is
scanned into a structure of three adjacent arrays, which has no room for the
terminator of a full identifier or of a full data field: their strings run on
into the array behind them, as far as that array was written later.

The structure is its bytes, so that every string the code takes from it is the
string C reads there. The buffers of the broker and of the hash check are file
level variables; they are the state. `tolowers` belongs to the string library,
which is not part of the repository.
-/

namespace EventRecorder.Frames

open Arithmetic CText Sha

/-- `tolowers` from the string library: it replaces each character of a string
by its lower case and keeps the terminator in place. -/
class StringLibrary where
  toLower : Char → Char
  to_lower_ne_nul : ∀ c, c ≠ nul → toLower c ≠ nul

/-- `CAN_MSG_LENGTH`, the size of the buffer for one line. -/
def canMsgLength : Nat := 50

/-- `CAN_ID_LENGTH`: the array of the identifier, and the width with which it is
scanned. -/
def canIdLength : Nat := 4

/-- `CAN_DATA_LENGTH`: the array of the data, and the width with which it is scanned. -/
def canDataLength : Nat := 17

/-- `CAN_HASH_LENGTH`, the digits of a hash in a frame. -/
def canHashLength : Nat := 8

/-- `CAN_TIMESTAMP_LENGTH`: the array of the timestamp, and the width with which it is
scanned. -/
def canTimestampLength : Nat := 18

/-- `FLOAT_LENGTH`, the digits of a value in a frame. -/
def floatLength : Nat := 8

/-- `FLOAT_LENGTH_2`, the digits of each of its two words. -/
def floatLength2 : Nat := 4

/-- `FLOAT_STR_LENGTH`, the size of the buffer that a value is printed into. -/
def floatStrLength : Nat := 11

/-- `sizeof (can_msg)`: the arrays `can_id`, `can_data` and `timestamp`, which lie one
behind the other without a gap. -/
def canMsgSize : Nat := canIdLength + canDataLength + canTimestampLength

/-- `can_msg`, byte by byte, because its strings may run on from one array into the
next. -/
structure CanMsg where
  bytes : Text
  size : bytes.length = canMsgSize

/-- `can_msg cmsg = { 0 }`, in which every array is an empty string. -/
def CanMsg.zero : CanMsg := ⟨List.replicate canMsgSize nul, List.length_replicate⟩

/-- Bytes written into the structure; those past its end are dropped, as they do not
belong to it. -/
theorem written_size (bytes : Text) (offset : Nat) (text : Text)
    (size : bytes.length = canMsgSize) :
    ((store bytes offset text).take canMsgSize).length = canMsgSize := by
  have enough : canMsgSize ≤ (store bytes offset text).length := by
    simp only [store, List.length_append, List.length_take, List.length_drop, size]
    omega
  rw [List.length_take, Nat.min_eq_left enough]

/-- A string written into the structure. Of the terminator of an 18-character
timestamp, which falls behind the structure, nothing is kept. -/
def CanMsg.write (msg : CanMsg) (offset : Nat) (text : Text) : CanMsg :=
  ⟨(store msg.bytes offset (text ++ [nul])).take canMsgSize, written_size _ _ _ msg.size⟩

/-- The memory at `can_id`, from the first byte of the structure to its last. -/
def CanMsg.canId (msg : CanMsg) : Text := msg.bytes

/-- The memory at `can_data`, from there to the last byte of the structure. -/
def CanMsg.canData (msg : CanMsg) : Text := msg.bytes.drop canIdLength

/-- `tolowers (msg.can_data)`, which goes as far as the string there does. -/
def CanMsg.tolowers [StringLibrary] (msg : CanMsg) : CanMsg :=
  ⟨(store msg.bytes canIdLength ((cString msg.canData).map StringLibrary.toLower)).take canMsgSize,
    written_size _ _ _ msg.size⟩

/-- The scan format up to the first directive that assigns: `(%18[^)]`. White space in
front of the line is not skipped. -/
def scanTimestamp (msg : Text) : Option (Text × Text) := do
  let rest ← scanChar '(' msg
  scanSet canTimestampLength (· ≠ ')') rest

/-- The input where the identifier begins, behind `) %*s `, whose word is read and not
assigned. -/
def scanInterface (msg : Text) : Option Text := do
  let (_, rest) ← scanTimestamp msg
  let rest ← scanChar ')' rest
  let (_, rest) ← scanWord rest.length rest
  some (skipSpace rest)

/-- The scan up to the identifier: `%4[^#]`, which stops at the separator or after four
characters. -/
def scanCanId (msg : Text) : Option (Text × Text) := do
  let rest ← scanInterface msg
  scanSet canIdLength (· ≠ '#') rest

/-- The scan up to the data: `#%17s`. An identifier of more than four characters leaves
no separator here and ends the scan. -/
def scanCanData (msg : Text) : Option (Text × Text) := do
  let (_, rest) ← scanCanId msg
  let rest ← scanChar '#' rest
  scanWord canDataLength rest

/-- Write what a conversion read, if it was reached and read something, with the
terminator behind it. -/
def CanMsg.assign (msg : CanMsg) (offset : Nat) (read : Option (Text × Text)) : CanMsg :=
  match read with
  | some (text, _) => msg.write offset text
  | none => msg

/-- `can_rcv_msg`. The conversions are stored in the order of the format: the timestamp,
the identifier and the data. -/
def canRcvMsg (msg : Text) : CanMsg :=
  let cmsg := CanMsg.zero.assign (canIdLength + canDataLength) (scanTimestamp (cString msg))
  let cmsg := cmsg.assign 0 (scanCanId (cString msg))
  cmsg.assign canIdLength (scanCanData (cString msg))

/-- The two numbers `hex_get_float` scans, or zeros when the format does not fit the
digits. -/
def hexNumbers (hex : Text) : Nat × Nat :=
  match scanHex floatLength2 (cString hex) with
  | none => (0, 0)
  | some (first, rest) =>
    match scanHex floatLength2 rest with
    | none => (0, 0)
    | some (second, _) => (first, second)

/-- The numeral `hex_get_float` prints: the least significant bit of the first number is
the sign. What there is no room for is cut. -/
def floatText (hex : Text) : Text :=
  let (first, second) := hexNumbers hex
  let result : Int := first / 2
  let whole := toInt (if first % 2 = 1 then -result else result)
  snprintf (floatStrLength - 1) (decimal whole ++ '.' :: zeroPadded 4 (toInt second))

/-- `hex_get_float`: the numeral is read again with `atof`. -/
def hexGetFloat {F : Type} [Arithmetic F] (hex : Text) : F := toFloat (atof (floatText hex))

/-- `hvld`. The last byte of `actual` is the padding behind the array, which the
digit writer reaches. -/
structure HashVld where
  input : Text
  expected : Text
  actual : Text
  deriving DecidableEq

/-- `hash_vld hvld = { 0 }`, the static buffers of the check at process start. -/
def HashVld.zero : HashVld where
  input := List.replicate (canIdLength + floatLength) nul
  expected := List.replicate (canHashLength + 1) nul
  actual := List.replicate (canHashLength + 2 + 1) nul

/-- `validate_hash`. The error code of `sha_hash` is ignored, so that after a failure
the digits of before are compared. -/
def validateHash (sha3 : Sha3) (md : MdCalls) (msg : CanMsg) (hex : Text) (hvld : HashVld) :
    Nat × HashVld :=
  let expected := strncpy hvld.expected (msg.canData.drop floatLength) canHashLength
  let input := store hvld.input 0
    (snprintf (canIdLength + floatLength) (cString msg.canId ++ cString hex) ++ [nul])
  let actual := (shaHash sha3 md (input.take (canIdLength + floatLength - 1)) hvld.actual
    canHashLength).2
  (if strncmp expected actual (canHashLength + 1) ≠ 0 then 1 else 0, ⟨input, expected, actual⟩)

/-- What a check leaves in the buffers, and its verdict on them, without the
intermediate names. -/
theorem validate_hash_eq (sha3 : Sha3) (md : MdCalls) (msg : CanMsg) (hex : Text)
    (hvld : HashVld) :
    let checked := validateHash sha3 md msg hex hvld
    checked.2.input = store hvld.input 0
        (snprintf (canIdLength + floatLength) (cString msg.canId ++ cString hex) ++ [nul]) ∧
      checked.2.expected =
        strncpy hvld.expected (msg.canData.drop floatLength) canHashLength ∧
      checked.2.actual = (shaHash sha3 md
        (checked.2.input.take (canIdLength + floatLength - 1)) hvld.actual canHashLength).2 ∧
      checked.1 =
        if strncmp checked.2.expected checked.2.actual (canHashLength + 1) ≠ 0 then 1 else 0 :=
  ⟨rfl, rfl, rfl, rfl⟩

/-- The static variables that outlive a call of `broker_receive`. -/
structure BrokerState where
  hex : Text
  hvld : HashVld
  deriving DecidableEq

/-- Their values at process start. -/
def BrokerState.initial : BrokerState := ⟨List.replicate (floatLength + 1) nul, .zero⟩

section

variable {F : Type} [Arithmetic F] [LogHeader]

/-- `log_mail` with an error code and a text. -/
def brokerError (errc : DbErrorC) (errs : Text) : Mail F :=
  storageMail ⟨.eventError, .error errc (snprintf LogHeader.logDataSize errs), []⟩

/-- `mail`, the process id narrowed to the first byte of its info array. -/
def safetyMail (pid : Int) (f : F) : Mail F :=
  ⟨1, mtSafety, .float f, [Char.ofNat (pid % 256).toNat]⟩

/-- The message and the value digits that `broker_receive` hands to
`validate_hash`. -/
def receiveFrame [StringLibrary] (msg : Text) (hex : Text) : CanMsg × Text :=
  let cmsg := (canRcvMsg msg).tolowers
  (cmsg, strncpy hex cmsg.canData floatLength)

/-- The branches of `broker_receive` behind the hash check: the mails sent. -/
def brokerMails (cmsg : CanMsg) (hex : Text) (verdict : Nat) : List (Mail F) :=
  if verdict = 0 then
    let pid := atoi (cString cmsg.canId)
    if pid = 0 then
      [brokerError .invldPid
        ("Brocker: Unable to parse pid: ".toList ++ (cString cmsg.canId).take canIdLength)]
    else [safetyMail pid (hexGetFloat hex)]
  else
    [brokerError .invldHsh
      ("Invalid message hash: '".toList ++ cString cmsg.canData ++ "'".toList)]

/-- `broker_receive`: the mails sent, one of which goes to safety or reports an error,
and the static variables afterwards. -/
def brokerReceive [StringLibrary] (sha3 : Sha3) (md : MdCalls) (msg : Text) (state : BrokerState) :
    List (Mail F) × BrokerState :=
  let (cmsg, hex) := receiveFrame msg state.hex
  let (verdict, hvld) := validateHash sha3 md cmsg hex state.hvld
  (brokerMails cmsg hex verdict, ⟨hex, hvld⟩)

end

end EventRecorder.Frames
