import EventRecorder.LineFraming
import EventRecorder.PrintedFraction
import Mathlib.Data.Bool.AllAny

/-!
# From the extractor to the broker

The extractor writes a value as the payload of a frame: the identifier in three
digits, the value in eight and as many digits of a hash of both. The logger puts
a time and an interface in front, and `candump -L` writes the data in upper case.
The widths of the producers have to be those that the broker scans with, that its
buffer of one line has room for and that the hash check assumes.
-/

namespace EventRecorder.GeneratedFrames

open CText Binary64 Python Extractor EncodedFraction PrintedFraction
open Sha Frames FrameAuthentication LineFraming

/-- `HASH_LENGTH`, the hexadecimal digits kept of a hash. -/
def hashLength : Nat := 8

/-- `hash`: the first digits of the digest of a text. -/
def hash (sha3 : Sha3) (string : Text) : Text :=
  (hexDigits (sha3 string).toList 32).take hashLength

/-- `"{:03d}".format (pid)`, which is longer than three digits from 1000 on. -/
def pidText (pid : Nat) : Text := zeroPadded 3 pid

/-- The column `payload` of a row: the identifier, the separator, the value, and the
hash of identifier and value without the separator. -/
def payload (sha3 : Sha3) (pid : Nat) (text : Text) : Except Exception Text := do
  let value ← toHexString text
  let data := pidText pid ++ "#".toList ++ value
  let dataBare := pidText pid ++ value
  return data ++ hash sha3 dataBare

/-- A time, with the sign of its `float`, which is printed for a zero too. -/
inductive Time where
  | finite (negative : Bool) (magnitude : ℚ)
  | infinite (negative : Bool)
  | nan

/-- The sign and zeros in front of the digits, up to seventeen characters. Texts that
are not digits are filled up as well. -/
def signedTime (negative : Bool) (digits : Text) : Text :=
  let sign := if negative then ['-'] else []
  sign ++ digits.leftpad (17 - sign.length) '0'

/-- `'{:017.6f}'.format (time)`: six decimals, rounded from the exact value of the
float. -/
def timeText : Time → Text
  | .finite negative magnitude =>
    let number := (halfEven (|magnitude| * 10 ^ 6)).toNat
    signedTime negative (Nat.toDigits 10 (number / 10 ^ 6) ++ '.' :: filled 6 10 (number % 10 ^ 6))
  | .infinite negative => signedTime negative "inf".toList
  | .nan => signedTime false "nan".toList

/-- An interface name: not empty and without white space, so that it is one word of a
line. -/
structure Interface where
  name : Text
  some : name ≠ []
  visible : ∀ c ∈ name, isspace c = false
  printable : nul ∉ name

/-- The interface the logger writes when it is given none. -/
def vcan0 : Interface :=
  ⟨"vcan0".toList, by decide, List.all_iff_forall_prop.mp (by decide), by decide⟩

/-- `({time}) {can} {line}`, a line as `canplayer` reads it. -/
def logLine (time : Time) (can : Interface) (line : Text) : Text :=
  "(".toList ++ timeText time ++ ") ".toList ++ can.name ++ " ".toList ++ line

/-- A payload as `candump -L` writes it: what follows the identifier in upper case. -/
def reemitted (line : Text) : Text :=
  line.takeWhile (· ≠ '#') ++ (line.dropWhile (· ≠ '#')).map Char.toUpper

/-- The data of a payload: the digits behind the separator. -/
def dataText (line : Text) : Text := (line.dropWhile (· ≠ '#')).drop 1

/-- How the broker takes a line for the payload of an identifier: as one message,
scanned whole, with a valid hash. -/
structure Accepted (sha3 : Sha3) (pid : Nat) (row line : Text) : Prop where
  /-- Between whatever lines, it is one message. -/
  message : ∀ lines rest, canRunReceive (stream lines ++ (line ++ '\n' :: rest)) =
    canRunReceive (stream lines) ++ (line ++ ['\n']) :: canRunReceive rest
  /-- Its identifier and all of its data are scanned. -/
  canId : cString (canRcvMsg (line ++ ['\n'])).canId = pidText pid
  canData : cString (canRcvMsg (line ++ ['\n'])).canData = (dataText row).map Char.toUpper
  width : (dataText row).length = 16
  /-- After whatever lines, its hash is valid. -/
  valid : ∀ before, verdict sha3 (received sha3 before) ⟨line ++ ['\n'], .succeed⟩ = 0

/-! ## What the extractor writes -/

/-- The exceptions of two computations in sequence are those of either, so that a result
comes from results of both. -/
theorem bind_ok {α β : Type} {first : Except Exception α} {second : α → Except Exception β}
    {result : β} (finished : first >>= second = .ok result) :
    ∃ value, first = .ok value ∧ second value = .ok result := by
  cases first with
  | error => cases finished
  | ok value => exact ⟨value, rfl, finished⟩

/-- The decimals of a fraction, where they are found, have four digits at most, and are
not negative. -/
theorem fraction_decimals (fraction : ℚ) (nonneg : 0 ≤ fraction) (number : Int)
    (found : (fractionText fraction >>= int) = .ok number) :
    ∃ decimals : Nat, decimals < 10 ^ 4 ∧ number = decimals := by
  rcases nonneg.eq_or_lt with rfl | positive
  · rw [fraction_zero] at found
    exact ⟨0, by decide, (Except.ok.inj found).symm⟩
  by_cases top : nearest (9999 / 10000) < fraction
  · rw [fraction_top _ top] at found
    exact ⟨9999, by decide, (Except.ok.inj found).symm⟩
  · have printed : Printed fraction := ⟨positive, not_lt.mp top⟩
    rw [fraction_printed _ positive printed.small (printed_point printed)] at found
    split_ifs at found with positional
    · exact ⟨_, (first_decimals_bounds printed positional).2, (Except.ok.inj found).symm⟩
    · exact ⟨_, Nat.mod_lt _ (by decide), (Except.ok.inj found).symm⟩

/-- A value is written in four digits for its integral part and four for its
decimals. -/
theorem to_hex_string_digits (text hex : Text) (encoded : toHexString text = .ok hex) :
    ∃ whole < 16 ^ 4, ∃ decimals < 16 ^ 4,
      hex = filled 4 16 whole ++ filled 4 16 decimals := by
  obtain ⟨value, _, encoded⟩ := bind_ok encoded
  obtain ⟨⟨integral, fraction⟩, parts, encoded⟩ := bind_ok encoded
  obtain ⟨number, found, encoded⟩ := bind_ok encoded
  have nonneg : 0 ≤ fraction := by
    cases value with
    | finite value =>
      obtain ⟨_, rfl⟩ := Prod.mk.inj (Except.ok.inj parts)
      exact abs_nonneg _
    | infinite => cases parts
    | nan => cases parts
  obtain ⟨decimals, four, rfl⟩ := fraction_decimals fraction nonneg number found
  have fits : (clamped integral).natAbs < 2 ^ 15 := by
    rw [clamped]
    split_ifs <;> omega
  refine ⟨(clamped integral).natAbs * 2 + if clamped integral < 0 then 1 else 0, ?_,
    decimals, by omega, (Except.ok.inj encoded).symm.trans ?_⟩
  · split_ifs <;> omega
  · rw [whole_hex_eq _ fits, fraction_hex_eq]

/-- A number below sixteen is written by a lower-case digit, which is what `tolowers`
leaves alone. -/
theorem digit_char_mem : ∀ n < 16, n.digitChar ∈ "0123456789abcdef".toList := by decide

/-- The value of a frame is eight hexadecimal digits, whatever numeral was encoded. -/
theorem value_digits (text hex : Text) (encoded : toHexString text = .ok hex) :
    IsHexDigits 4 hex := by
  obtain ⟨whole, wholeFits, decimals, decimalsFit, rfl⟩ := to_hex_string_digits text hex encoded
  refine ⟨?_, ?_⟩
  · rw [List.length_append, filled_length 4 16 _ (by decide) (by decide) wholeFits,
      filled_length 4 16 _ (by decide) (by decide) decimalsFit]
  · intro c member
    rcases List.mem_append.mp member with first | second
    · exact filled_all 4 16 whole (by decide) _ digit_char_mem c first
    · exact filled_all 4 16 decimals (by decide) _ digit_char_mem c second

/-- The hash of a frame is eight hexadecimal digits: those of the first four bytes of
the digest. -/
theorem hash_eq (sha3 : Sha3) (string : Text) :
    hash sha3 string = hexDigits (sha3 string).toList 4 :=
  hex_digits_take (sha3 string).toList 4 32 (by decide)

/-- An identifier is three digits, as long as its number has no more. -/
theorem pid_text_digits (pid : Nat) (three : pid ≤ 999) :
    (pidText pid).length = 3 ∧ ∀ c ∈ pidText pid, c.isDigit = true := by
  rw [pidText, zero_padded_nat]
  exact ⟨filled_length 3 10 pid (by decide) (by decide) (by omega),
    filled_all 3 10 pid (by decide) (·.isDigit = true) (by decide)⟩

/-- A payload is the identifier and the digits of value and hash, with the separator
between them. -/
theorem payload_eq (sha3 : Sha3) (pid : Nat) (text row : Text)
    (encoded : payload sha3 pid text = .ok row) :
    ∃ value, IsHexDigits 4 value ∧
      row = pidText pid ++ '#' :: (value ++ hexDigits (sha3 (pidText pid ++ value)).toList 4) := by
  obtain ⟨value, hex, written⟩ := bind_ok encoded
  refine ⟨value, value_digits text value hex, (Except.ok.inj written).symm.trans ?_⟩
  rw [hash_eq]
  simp

/-- The characters of a time, among which there is no parenthesis, no blank and no
newline. -/
theorem time_text_chars (time : Time) : ∀ c ∈ timeText time, c ∈ "0123456789.-infa".toList := by
  have digit (number : Nat) : ∀ c ∈ Nat.toDigits 10 number, c ∈ "0123456789.-infa".toList :=
    to_digits_all 10 number (by decide) _ (by decide)
  have decimals (number : Nat) : ∀ c ∈ filled 6 10 number, c ∈ "0123456789.-infa".toList :=
    filled_all 6 10 number (by decide) _ (by decide)
  have signed (negative : Bool) (digits : Text)
      (chars : ∀ c ∈ digits, c ∈ "0123456789.-infa".toList) :
      ∀ c ∈ signedTime negative digits, c ∈ "0123456789.-infa".toList := by
    intro c member
    simp only [signedTime, List.leftpad, List.mem_append, List.mem_replicate] at member
    rcases member with sign | ⟨_, rfl⟩ | behind
    · split_ifs at sign
      · obtain rfl := List.mem_singleton.mp sign
        decide
      · cases sign
    · decide
    · exact chars c behind
  cases time with
  | finite negative magnitude =>
    apply signed
    intro c member
    rcases List.mem_append.mp member with whole | fraction
    · exact digit _ c whole
    · rcases List.mem_cons.mp fraction with rfl | fraction
      · decide
      · exact decimals _ c fraction
  | infinite negative => exact signed negative _ (List.all_iff_forall_prop.mp (by decide))
  | nan => exact signed false _ (List.all_iff_forall_prop.mp (by decide))

/-! ## What the broker scans -/

/-- A conversion reads a token up to the first character it does not accept, if the
token fits its width. -/
theorem scan_set_exact (width : Nat) (accepts : Char → Bool) (token rest : Text)
    (some : token ≠ []) (fits : token.length ≤ width) (inside : ∀ c ∈ token, accepts c = true)
    (boundary : ∀ c ∈ rest.head?, accepts c = false) :
    scanSet width accepts (token ++ rest) = Option.some (token, rest) := by
  have stop : (rest.take (width - token.length)).takeWhile accepts = [] := by
    cases rest with
    | nil => simp
    | cons c rest =>
      have refused := boundary c rfl
      cases width - token.length with
      | zero => rfl
      | succ room => simp [refused]
  have read : ((token ++ rest).take width).takeWhile accepts = token := by
    rw [List.take_append, List.take_of_length_le fits, List.takeWhile_append_of_pos inside, stop,
      List.append_nil]
  simp only [scanSet, read, if_neg some, List.drop_left]

/-- White space in front of a visible character is skipped, and none is there. -/
theorem skip_space_visible (token rest : Text) (some : token ≠ [])
    (visible : ∀ c ∈ token, isspace c = false) :
    skipSpace (token ++ rest) = token ++ rest := by
  obtain ⟨c, others, rfl⟩ := List.exists_cons_of_ne_nil some
  have first := visible c List.mem_cons_self
  simp [skipSpace, first]

/-- A word is read up to the next white space. -/
theorem scan_word_exact (width : Nat) (token rest : Text) (some : token ≠ [])
    (fits : token.length ≤ width) (visible : ∀ c ∈ token, isspace c = false)
    (boundary : ∀ c ∈ rest.head?, isspace c = true) :
    scanWord width (token ++ rest) = Option.some (token, rest) := by
  rw [scanWord, skip_space_visible token rest some visible]
  apply scan_set_exact width _ token rest some fits
  · intro c member
    simp [visible c member]
  · intro c member
    simp [boundary c member]

/-- The text of a line by its parts. -/
def lineText (stamp name id data : Text) : Text :=
  '(' :: (stamp ++ ')' :: ' ' :: (name ++ ' ' :: (id ++ '#' :: data)))

section

variable (stamp name id data : Text)

/-- The parts of a line are texts the scan format fits. -/
structure Scannable : Prop where
  stamped : stamp ≠ [] ∧ stamp.length ≤ canTimestampLength ∧ ')' ∉ stamp
  named : name ≠ [] ∧ ∀ c ∈ name, isspace c = false
  identified : id ≠ [] ∧ id.length ≤ canIdLength ∧ '#' ∉ id ∧ ∀ c ∈ id, isspace c = false
  filled : data ≠ [] ∧ data.length ≤ canDataLength ∧ ∀ c ∈ data, isspace c = false

variable {stamp name id data}

/-- A line with its newline, part by part, as the scan goes over it. -/
theorem line_text_newline : lineText stamp name id data ++ ['\n'] =
    '(' :: (stamp ++ ')' :: ' ' :: (name ++ ' ' :: (id ++ '#' :: (data ++ ['\n'])))) := by
  simp [lineText]

/-- A line without a terminator is scanned up to its newline. -/
theorem c_string_line (printable : nul ∉ lineText stamp name id data) :
    cString (lineText stamp name id data ++ ['\n']) = lineText stamp name id data ++ ['\n'] := by
  apply c_string_eq_self
  rw [List.mem_append]
  rintro (member | newline)
  · exact printable member
  · exact absurd newline (by decide)

/-- The interface is passed over, with the white space on both sides of it. -/
theorem scan_interface_line (fits : Scannable stamp name id data) :
    scanInterface (lineText stamp name id data ++ ['\n']) =
      some (id ++ '#' :: (data ++ ['\n'])) := by
  obtain ⟨stampSome, stampFits, closed⟩ := fits.stamped
  obtain ⟨nameSome, nameVisible⟩ := fits.named
  obtain ⟨idSome, _, _, idVisible⟩ := fits.identified
  have timestamp : scanTimestamp (lineText stamp name id data ++ ['\n']) =
      some (stamp, ')' :: ' ' :: (name ++ ' ' :: (id ++ '#' :: (data ++ ['\n'])))) := by
    rw [line_text_newline]
    apply scan_set_exact canTimestampLength _ stamp _ stampSome stampFits
    · intro c member
      have other : c ≠ ')' := fun same => closed (same ▸ member)
      simpa using other
    · simp
  have interface (width : Nat) (room : name.length ≤ width) :
      scanWord width (' ' :: (name ++ ' ' :: (id ++ '#' :: (data ++ ['\n'])))) =
        some (name, ' ' :: (id ++ '#' :: (data ++ ['\n']))) :=
    scan_word_exact width name _ nameSome room nameVisible (by simp [isspace])
  have identifier : skipSpace (' ' :: (id ++ '#' :: (data ++ ['\n']))) =
      id ++ '#' :: (data ++ ['\n']) := skip_space_visible id _ idSome idVisible
  rw [scanInterface, timestamp]
  change (scanWord _ _).bind _ = _
  rw [interface _ (by simp; omega)]
  exact congrArg some identifier

/-- The identifier is scanned up to the separator, and the data up to the newline. -/
theorem scan_line (fits : Scannable stamp name id data) :
    scanCanId (lineText stamp name id data ++ ['\n']) = some (id, '#' :: (data ++ ['\n'])) ∧
      scanCanData (lineText stamp name id data ++ ['\n']) = some (data, ['\n']) := by
  obtain ⟨idSome, idFits, separated, _⟩ := fits.identified
  obtain ⟨dataSome, dataFits, dataVisible⟩ := fits.filled
  have identifier : scanCanId (lineText stamp name id data ++ ['\n']) =
      some (id, '#' :: (data ++ ['\n'])) := by
    rw [scanCanId, scan_interface_line fits]
    apply scan_set_exact canIdLength _ id _ idSome idFits
    · intro c member
      have other : c ≠ '#' := fun same => separated (same ▸ member)
      simpa using other
    · simp
  refine ⟨identifier, ?_⟩
  rw [scanCanData, identifier]
  exact scan_word_exact canDataLength data _ dataSome dataFits dataVisible (by simp [isspace])

/-- What `can_rcv_msg` leaves of a line whose data leaves room for a terminator: both
strings as they are in the line. -/
theorem can_rcv_line (fits : Scannable stamp name id data)
    (printable : nul ∉ lineText stamp name id data) (idRoom : id.length < canIdLength)
    (dataRoom : data.length < canDataLength) :
    cString (canRcvMsg (lineText stamp name id data ++ ['\n'])).canId = id ∧
      cString (canRcvMsg (lineText stamp name id data ++ ['\n'])).canData = data := by
  obtain ⟨scanId, scanData⟩ := scan_line fits
  have whole := c_string_line printable
  have idPrintable : nul ∉ id := fun member => printable (by simp [lineText, member])
  have dataPrintable : nul ∉ data := fun member => printable (by simp [lineText, member])
  have bytes := can_rcv_msg_bytes (lineText stamp name id data ++ ['\n'])
  dsimp only at bytes
  rw [whole, scanId, scanData] at bytes
  change _ = padded canIdLength id ++ (padded canDataLength data ++ _) at bytes
  constructor
  · rw [CanMsg.canId, bytes]
    exact c_string_padded _ _ _ idRoom.le idPrintable fun full => absurd full idRoom.ne
  · rw [CanMsg.canData, bytes, List.drop_left' (padded_length _ _)]
    exact c_string_padded _ _ _ dataRoom.le dataPrintable fun full => absurd full dataRoom.ne

/-- The frame of such a line, whose data is in lower case. -/
theorem frame_of_line (fits : Scannable stamp name id data)
    (printable : nul ∉ lineText stamp name id data) :
    (frameOf (lineText stamp name id data ++ ['\n'])).canId = id ∧
      (frameOf (lineText stamp name id data ++ ['\n'])).canData = data.map Char.toLower := by
  obtain ⟨scanId, scanData⟩ := scan_line fits
  have whole := c_string_line printable
  simp only [frameOf, whole, scanId, scanData]
  exact ⟨rfl, rfl⟩

end

/-! ## What the broker accepts -/

/-- The data of a payload in upper case, as it arrives at the broker. -/
def upperData (sha3 : Sha3) (pid : Nat) (value : Text) : Text :=
  (value ++ hexDigits (sha3 (pidText pid ++ value)).toList 4).map Char.toUpper

/-- Lower-case digits are the same after they were written in upper case and in lower
case again. -/
theorem lower_upper : ∀ c ∈ "0123456789abcdef".toList, c.toUpper.toLower = c :=
  List.all_iff_forall_prop.mp (by decide)

/-- Upper-case digits are visible, and none of them is a terminator. -/
theorem upper_visible : ∀ c ∈ "0123456789abcdef".toList,
    isspace c.toUpper = false ∧ c.toUpper ≠ nul :=
  List.all_iff_forall_prop.mp (by decide)

section

variable (sha3 : Sha3) (pid : Nat) (value : Text)

/-- Value and hash are sixteen digits together, one fewer than the array of the data has
bytes. -/
theorem frame_digits (digits : IsHexDigits 4 value) :
    IsHexDigits 8 (value ++ hexDigits (sha3 (pidText pid ++ value)).toList 4) := by
  obtain ⟨hashLength, hashDigits⟩ :=
    hex_digits_are_digits (sha3 (pidText pid ++ value)) 4 (by decide)
  refine ⟨?_, ?_⟩
  · rw [List.length_append, digits.1, hashLength]
  · intro c member
    rcases List.mem_append.mp member with inValue | inHash
    · exact digits.2 c inValue
    · exact hashDigits c inHash

/-- The case of the digits does not change their number. -/
theorem upper_data_length (digits : IsHexDigits 4 value) :
    (upperData sha3 pid value).length = 16 := by
  rw [upperData, List.length_map, (frame_digits sha3 pid value digits).1]

/-- The data in upper case is visible throughout, so that the scan reads it whole. -/
theorem upper_data_visible (digits : IsHexDigits 4 value) :
    ∀ c ∈ upperData sha3 pid value, isspace c = false ∧ c ≠ nul := by
  intro c member
  obtain ⟨digit, inside, rfl⟩ := List.mem_map.mp member
  exact upper_visible digit ((frame_digits sha3 pid value digits).2 digit inside)

/-- `tolowers` restores the digits, which the hash was computed of. -/
theorem upper_data_lower (digits : IsHexDigits 4 value) :
    (upperData sha3 pid value).map Char.toLower =
      value ++ hexDigits (sha3 (pidText pid ++ value)).toList 4 := by
  have same : ∀ c ∈ value ++ hexDigits (sha3 (pidText pid ++ value)).toList 4,
      (Char.toLower ∘ Char.toUpper) c = id c := fun c member =>
    lower_upper c ((frame_digits sha3 pid value digits).2 c member)
  rw [upperData, List.map_map, List.map_congr_left same, List.map_id]

omit value in
/-- An identifier has no separator, so that the first one in a payload is the one behind
it. -/
theorem identifier_plain (three : pid ≤ 999) : ∀ c ∈ pidText pid, decide (c ≠ '#') = true := by
  intro c member
  have digit := (pid_text_digits pid three).2 c member
  have other : c ≠ '#' := by
    rintro rfl
    cases digit
  simpa using other

/-- A line of the logger after `candump -L`, by its parts: time, interface, identifier
and data. -/
theorem reemitted_eq (time : Time) (can : Interface) (three : pid ≤ 999) :
    logLine time can (reemitted (pidText pid ++
        '#' :: (value ++ hexDigits (sha3 (pidText pid ++ value)).toList 4))) =
      lineText (timeText time) can.name (pidText pid) (upperData sha3 pid value) := by
  rw [reemitted, List.takeWhile_append_of_pos (identifier_plain pid three),
    List.dropWhile_append_of_pos (identifier_plain pid three)]
  simp [logLine, lineText, upperData]

/-- Such a line fits the format of the broker's scan, part by part. -/
theorem reemitted_scannable (time : Time) (can : Interface) (three : pid ≤ 999)
    (digits : IsHexDigits 4 value) (stamp : (timeText time).length = 17) :
    Scannable (timeText time) can.name (pidText pid) (upperData sha3 pid value) := by
  obtain ⟨idLength, idDigits⟩ := pid_text_digits pid three
  have dataLength := upper_data_length sha3 pid value digits
  refine ⟨⟨?_, ?_, ?_⟩, ⟨can.some, can.visible⟩, ⟨?_, ?_, ?_, ?_⟩, ⟨?_, ?_, ?_⟩⟩
  · exact List.ne_nil_of_length_pos (by omega)
  · rw [stamp]
    decide
  · intro member
    exact absurd (time_text_chars time _ member) (by decide)
  · exact List.ne_nil_of_length_pos (by omega)
  · rw [idLength]
    decide
  · intro member
    cases idDigits _ member
  · exact fun c member => digit_not_space c (idDigits c member)
  · exact List.ne_nil_of_length_pos (by omega)
  · rw [dataLength]
    decide
  · exact fun c member => (upper_data_visible sha3 pid value digits c member).1

/-- It has no terminator and no newline, and fits the buffer of the broker; neither of
the two characters is in any of its parts. -/
theorem reemitted_printable (time : Time) (can : Interface) (three : pid ≤ 999)
    (digits : IsHexDigits 4 value) (other : Char) (control : other = nul ∨ other = '\n') :
    other ∉ lineText (timeText time) can.name (pidText pid) (upperData sha3 pid value) := by
  have name : other ∉ can.name := by
    rcases control with rfl | rfl
    · exact can.printable
    · intro member
      cases can.visible _ member
  have time : other ∉ timeText time := by
    intro member
    have char := time_text_chars time _ member
    rcases control with rfl | rfl
    · exact absurd char (by decide)
    · exact absurd char (by decide)
  have identifier : other ∉ pidText pid := by
    intro member
    have digit := (pid_text_digits pid three).2 _ member
    rcases control with rfl | rfl
    · cases digit
    · cases digit
  have data : other ∉ upperData sha3 pid value := by
    intro member
    obtain ⟨visible, different⟩ := upper_data_visible sha3 pid value digits _ member
    rcases control with rfl | rfl
    · exact different rfl
    · cases visible
  have plain : other ∉ ['(', ')', ' ', '#'] := by
    rcases control with rfl | rfl
    · decide
    · decide
  simp only [List.mem_cons, List.not_mem_nil, or_false, not_or] at plain
  simp [lineText, name, time, identifier, data, plain]

end

/-- Whatever the digest function, every payload the extractor writes is accepted when it
arrives in upper case: the line is one message, its identifier and data are scanned
whole, and its hash is valid.

Proof: the payload is digits by its parts, so that the line fits the buffer and the
format of the scan. What is scanned is the payload again, in lower case, and the check
hashes the identifier and the value just as the extractor did. -/
theorem payload_accepted (sha3 : Sha3) (pid : Nat) (text row : Text) (time : Time)
    (can : Interface) (three : pid ≤ 999)
    (encoded : payload sha3 pid text = .ok row) (stamp : (timeText time).length = 17)
    (short : can.name.length ≤ 6) :
    Accepted sha3 pid row (logLine time can (reemitted row)) := by
  obtain ⟨value, digits, rfl⟩ := payload_eq sha3 pid text row encoded
  have scannable := reemitted_scannable sha3 pid value time can three digits stamp
  have printable := reemitted_printable sha3 pid value time can three digits nul (.inl rfl)
  have newline := reemitted_printable sha3 pid value time can three digits '\n' (.inr rfl)
  have idLength := (pid_text_digits pid three).1
  have dataLength := upper_data_length sha3 pid value digits
  have data : dataText (pidText pid ++
      '#' :: (value ++ hexDigits (sha3 (pidText pid ++ value)).toList 4)) =
      value ++ hexDigits (sha3 (pidText pid ++ value)).toList 4 := by
    rw [dataText, List.dropWhile_append_of_pos (identifier_plain pid three)]
    rfl
  have lineLength : (lineText (timeText time) can.name (pidText pid)
      (upperData sha3 pid value)).length + 1 < canMsgLength := by
    simp only [lineText, List.length_cons, List.length_append, stamp, idLength, dataLength,
      canMsgLength]
    omega
  obtain ⟨canId, canData⟩ := can_rcv_line scannable printable
    (by rw [idLength]; decide) (by rw [dataLength]; decide)
  obtain ⟨frameId, frameData⟩ := frame_of_line scannable printable
  rw [upper_data_lower sha3 pid value digits] at frameData
  rw [reemitted_eq sha3 pid value time can three]
  constructor
  case message =>
    intro lines rest
    rw [messages_behind, can_run_receive_short ⟨_, newline⟩ rest lineLength]
  case canId => exact canId
  case canData =>
    rw [data]
    exact canData
  case width =>
    rw [data]
    exact (frame_digits sha3 pid value digits).1
  case valid =>
    intro before
    have identifier : (frameOf (lineText (timeText time) can.name (pidText pid)
        (upperData sha3 pid value) ++ ['\n'])).canId.length + 1 = canIdLength := by
      rw [frameId, idLength]
      rfl
    have exact := computed_exact sha3 before ⟨_, .succeed⟩ rfl (.inl identifier)
    refine exact.mpr ⟨rfl, ?_⟩
    rw [Frame.hash, Frame.value, frameId, frameData]
    have valueLength : value.length = floatLength := digits.1
    have hashLength := (hex_digits_are_digits (sha3 (pidText pid ++ value)) 4 (by decide)).1
    rw [List.drop_left' valueLength, List.take_left' valueLength]
    exact List.take_of_length_le hashLength.le

/-- A speed of 12.3 is written and accepted, at time zero and on the default interface. -/
theorem speed_accepted : ∃ row, payload zeroSha3 5 "12.3".toList = .ok row ∧
    Accepted zeroSha3 5 row (logLine (.finite false 0) vcan0 (reemitted row)) := by
  have encoded : payload zeroSha3 5 "12.3".toList = .ok "005#00180bb800000000".toList := by
    decide +kernel
  exact ⟨_, encoded, payload_accepted zeroSha3 5 _ _ (.finite false 0) vcan0 (by decide) encoded
    (by decide +kernel) (by decide)⟩

end EventRecorder.GeneratedFrames
