import EventRecorder.DriverAssist
import EventRecorder.FrameAuthentication
import EventRecorder.QuietRuns

/-!
# The channel a frame acts on

The identifier of an accepted frame is read by `atoi` from the start of its
field, narrowed to the one byte of `mail.info`, and cast to a channel by the
three functions of the safety loop. The channel it should reach is the one whose
code the whole identifier text denotes.

What a mail acts on is described by its effects: the buffers that receive a
record, the detector that receives the sample, the driver-assist counters that
may change, and the quantities that are counted while an episode is recorded.
-/

namespace EventRecorder.OwnChannel

open Arithmetic CText CircularMail Detector Sha SafetyStatus DriverAssist Frames
open FrameAuthentication QuietRuns

/-- The text between the interface and the separator `#` of a line, of any length. -/
def identifier (line : Text) : Text :=
  ((scanInterface (cString line)).getD []).takeWhile (· ≠ '#')

/-- The channel whose code an identifier denotes, as a whole numeral. Other texts and
other numbers denote the unknown one. -/
def ownChannel (identifier : Text) : CanData :=
  match denoted identifier with
  | some (.ofNat number) => CanData.ofCode number
  | _ => .unknown

/-- A known channel is an identifier's own when it denotes the channel's code, in
however many digits. -/
theorem own_channel_eq_iff (identifier : Text) (channel : CanData)
    (known : channel ≠ .unknown) :
    ownChannel identifier = channel ↔ denoted identifier = some (channel.code : Int) := by
  unfold ownChannel
  cases denoted identifier with
  | none => simp [known.symm]
  | some number =>
    cases number with
    | ofNat number =>
      rw [Option.some.injEq, Int.ofNat_eq_natCast, Int.natCast_inj]
      exact of_code_eq_iff number channel known
    | negSucc number =>
      simp [known.symm]

/-- The scan takes up to four characters of the identifier, and nothing if there are
none. -/
theorem scan_can_id_eq (msg rest : Text) (interface : scanInterface msg = some rest) :
    scanCanId msg =
      if (rest.takeWhile (· ≠ '#')).take canIdLength = [] then none
      else some ((rest.takeWhile (· ≠ '#')).take canIdLength,
        rest.drop ((rest.takeWhile (· ≠ '#')).take canIdLength).length) := by
  rw [scanCanId, interface, List.take_takeWhile]
  rfl

/-- No data is scanned behind an identifier of more characters, as the separator is not
where the scan expects it. -/
theorem scan_can_data_long (msg rest : Text) (interface : scanInterface msg = some rest)
    (long : canIdLength < (rest.takeWhile (· ≠ '#')).length) : scanCanData msg = none := by
  have taken : ((rest.takeWhile (· ≠ '#')).take canIdLength).length = canIdLength :=
    List.length_take_of_le long.le
  have nonempty : (rest.takeWhile (· ≠ '#')).take canIdLength ≠ [] := by
    apply List.ne_nil_of_length_pos
    rw [taken]
    decide
  obtain ⟨c, more, behind⟩ : ∃ c more, (rest.takeWhile (· ≠ '#')).drop canIdLength = c :: more :=
    List.exists_cons_of_length_pos (by rw [List.length_drop]; exact Nat.sub_pos_of_lt long)
  have other : c ≠ '#' := by
    have member : c ∈ rest.takeWhile (· ≠ '#') :=
      List.mem_of_mem_drop (behind ▸ List.mem_cons_self)
    simpa using List.mem_takeWhile_imp member
  have remaining : rest.drop canIdLength = c :: (more ++ rest.dropWhile (· ≠ '#')) := by
    have whole : rest.takeWhile (· ≠ '#') ++ rest.dropWhile (· ≠ '#') = rest :=
      List.takeWhile_append_dropWhile
    rw [← whole, List.drop_append_of_le_length long.le, whole, behind, List.cons_append]
  rw [scanCanData, scan_can_id_eq msg rest interface, if_neg nonempty, taken, remaining]
  simp [scanChar, other]

section

variable [StringLibrary]

/-- The frame's identifier is what fits `can_id`, by the width of the conversion. -/
theorem can_id_eq (line : Text) : (frameOf line).canId = (identifier line).take canIdLength := by
  have scan : (frameOf line).canId = scanned (scanCanId (cString line)) := rfl
  rw [scan, identifier]
  cases interface : scanInterface (cString line) with
  | none => simp [scanCanId, interface, scanned]
  | some rest =>
    rw [scan_can_id_eq _ _ interface, Option.getD_some]
    split_ifs with empty
    · rw [empty]
      rfl
    · rfl

/-- The frame of a longer identifier has no data, so that its hash digits are missing
too. -/
theorem can_data_long (line : Text) (long : canIdLength < (identifier line).length) :
    (frameOf line).canData = [] := by
  have scan : (frameOf line).canData = (scanned (scanCanData (cString line))).map
    StringLibrary.toLower := rfl
  rw [identifier] at long
  cases interface : scanInterface (cString line) with
  | none =>
    rw [interface] at long
    cases long
  | some rest =>
    rw [interface] at long
    rw [scan, scan_can_data_long _ rest interface long]
    rfl

/-- The text `atoi` finds at `can_id`: the identifier itself, together with the
data when it has four characters, cut when it has more. -/
def shown (line : Text) : Text :=
  if (identifier line).length = canIdLength then identifier line ++ (frameOf line).canData
  else (identifier line).take canIdLength

/-- The string at `can_id` in terms of the line, which the conditions of this module are
about. -/
theorem id_string_eq (line : Text) : (frameOf line).idString = shown line := by
  rw [Frame.idString, can_id_eq, shown, List.length_take]
  by_cases short : (identifier line).length < canIdLength
  · rw [if_pos (by omega), if_neg (by omega)]
  · rw [if_neg (by omega)]
    split_ifs with full
    · rw [List.take_of_length_le full.le]
    · rw [can_data_long line (by omega), List.append_nil]

/-- The known codes that the shown text has as the low byte of its number are
those of the whole identifier. An identifier of four characters that denotes a
code has it as the low byte also with the data behind. -/
def CodesKept (line : Text) : Prop :=
  ∀ channel : CanData, channel ≠ .unknown →
    (atoi (shown line) % 256 = channel.code →
      denoted (identifier line) = some (channel.code : Int)) ∧
    ((identifier line).length = canIdLength →
      denoted (identifier line) = some (channel.code : Int) →
        atoi (shown line) % 256 = channel.code)

end

/-- The codes of the known channels are digits from one on, so that none of them is lost
in a byte. -/
theorem code_bounds (channel : CanData) (known : channel ≠ .unknown) :
    0 < channel.code ∧ channel.code < 10 := by
  cases channel with
  | unknown => exact absurd rfl known
  | _ => decide

/-- Every channel but the unknown one has a quantity, whose records show that it was
acted on. -/
theorem exists_field (channel : CanData) (known : channel ≠ .unknown) :
    ∃ field : LogField, field.channel = channel := by
  cases channel with
  | unknown => exact absurd rfl known
  | brakeSwitchValue => exact ⟨.brake, rfl⟩
  | acceleratorPedalValue => exact ⟨.accPedal, rfl⟩
  | vehicleSpeed => exact ⟨.speed, rfl⟩
  | accelerationSpeedLongitudinal => exact ⟨.accLong, rfl⟩
  | accelerationSpeedLateral => exact ⟨.accLat, rfl⟩

section

variable {F : Type}

/-- The mail of a process id selects a channel by the id modulo 256, which is what one
byte keeps of it. -/
theorem safety_mail_channel (pid : Int) (f : F) :
    (safetyMail pid f).channel = CanData.ofCode (pid % 256).toNat := by
  have small : (pid % 256).toNat < 256 := by omega
  have valid : (pid % 256).toNat.isValidChar := .inl (by omega)
  have byte : (Char.ofNat (pid % 256).toNat).toNat = (pid % 256).toNat := by
    delta Char.ofNat
    rw [dif_pos valid]
    rfl
  rw [Mail.channel, Mail.infoByte, safetyMail, List.headD_cons, byte]

variable [Arithmetic F]

/-- Driver assistance changes only the counters of the mail's channel, in whatever state
it is called. -/
theorem da_counters (status : Status F) (counters : Counters) (mail : Mail F) (f : F) :
    let after := (safetyDaUpdate status counters mail f).2
    (mail.channel ≠ .brakeSwitchValue → after.1.brake = status.brake ∧
        after.2.breakp = counters.breakp ∧ after.2.breakCount = counters.breakCount) ∧
      (mail.channel ≠ .acceleratorPedalValue → after.2.accPedal = counters.accPedal ∧
        after.2.accPedalToggle = counters.accPedalToggle) ∧
      ((∀ axis : Axis, mail.channel ≠ axis.channel) →
        after.2.speedShift = counters.speedShift) := by
  unfold safetyDaUpdate
  cases mail.channel with
  | unknown => simp
  | vehicleSpeed => simp
  | brakeSwitchValue =>
    refine ⟨fun other => absurd rfl other, ?_⟩
    dsimp only
    split_ifs <;> simp
  | acceleratorPedalValue =>
    dsimp only
    split_ifs <;> simp
  | accelerationSpeedLongitudinal =>
    have own : ¬ ∀ axis : Axis, CanData.accelerationSpeedLongitudinal ≠ axis.channel :=
      fun none => none .long rfl
    dsimp only
    split_ifs <;> simp [own]
  | accelerationSpeedLateral =>
    have own : ¬ ∀ axis : Axis, CanData.accelerationSpeedLateral ≠ axis.channel :=
      fun none => none .lat rfl
    dsimp only
    split_ifs <;> simp [own]

/-- The update writes records to the quantities of the mail's channel and to no others. -/
theorem writes_nonempty_iff (status : Status F) (mail : Mail F) (f : F) (proc : Option ProcStat)
    (field : LogField) :
    writesTo field (updateWrites status mail f proc) ≠ [] ↔ field.channel = mail.channel := by
  have visited := (visited_fields status mail f proc).1
  have listed : field ∈ (updateWrites status mail f proc).map Prod.fst ↔
      field.channel = mail.channel := by
    rw [visited, List.mem_filter]
    simp [LogField.mem_all field]
  rw [← listed, writesTo, ne_eq, List.map_eq_nil_iff, List.filter_eq_nil_iff]
  simp

variable [LogHeader]

/-- The effects of a mail are those of a channel, in every state and for every
value. -/
structure ActsOn (channel : CanData) (mail : Mail F) : Prop where
  /-- Records are written to the buffers of the channel's quantities. -/
  buffers : ∀ (status : Status F) f proc field, ∃ records,
    (safetyStatusUpdate status mail f proc).logBefore.buf field =
        List.foldl cbufMailWrite (status.logBefore.buf field) records ∧
      (records ≠ [] ↔ field.channel = channel)
  /-- The sample is fed to the detector of the channel. -/
  detectors : ∀ (status : Status F) f proc axis,
    (safetyStatusUpdate status mail f proc).detector axis =
      if channel = axis.channel then (cusum (status.detector axis) f).1
      else status.detector axis
  /-- The brake counters belong to the brake switch. -/
  brake : channel ≠ .brakeSwitchValue → ∀ (status : Status F) counters f,
    (safetyDaUpdate status counters mail f).2.1.brake = status.brake ∧
      (safetyDaUpdate status counters mail f).2.2.breakp = counters.breakp ∧
      (safetyDaUpdate status counters mail f).2.2.breakCount = counters.breakCount
  /-- The accelerator counters belong to the accelerator pedal. -/
  accelerator : channel ≠ .acceleratorPedalValue → ∀ (status : Status F) counters f,
    (safetyDaUpdate status counters mail f).2.2.accPedal = counters.accPedal ∧
      (safetyDaUpdate status counters mail f).2.2.accPedalToggle = counters.accPedalToggle
  /-- The speed-shift flag belongs to the acceleration channels. -/
  shift : (∀ axis : Axis, channel ≠ axis.channel) → ∀ (status : Status F) counters f,
    (safetyDaUpdate status counters mail f).2.2.speedShift = counters.speedShift
  /-- While an episode is recorded, the channel's quantities are counted. -/
  live : ∀ (status : Status F) f clock, status.crashStatus = 2 → ∀ field,
    (safetyStatusLog status mail f clock).2.logBefore.count field =
      status.logBefore.count field + if field.channel = channel then 1 else 0
  /-- Logging leaves the detectors alone, and unless it dumps them the buffers. -/
  logging : ∀ (status : Status F) f clock,
    (∀ axis, (safetyStatusLog status mail f clock).2.detector axis = status.detector axis) ∧
      (status.crashStatus ≠ 1 →
        (safetyStatusLog status mail f clock).2.logBefore.buf = status.logBefore.buf)

/-- A mail acts on the channel its byte selects, in every part of the safety loop that
looks at channels. -/
theorem acts_on_channel (mail : Mail F) : ActsOn mail.channel mail where
  buffers status f proc field :=
    ⟨_, update_buffers status mail f proc field, writes_nonempty_iff status mail f proc field⟩
  detectors status f proc axis := update_detector status mail f proc axis
  brake other status counters f := (da_counters status counters mail f).1 other
  accelerator other status counters f := (da_counters status counters mail f).2.1 other
  shift other status counters f := (da_counters status counters mail f).2.2 other
  live status f clock recording field := by
    have logged : safetyStatusLog status mail f clock = recordLive status mail f clock := by
      simp [safetyStatusLog, recording]
    rw [logged]
    exact (record_live status mail f clock recording).2.2.2.2.2 field
  logging status f clock := by
    refine ⟨log_detector status mail f clock, fun calm => ?_⟩
    obtain ⟨_, _, _, frame⟩ := log_frame status mail f clock calm
    rw [frame]

/-- The effects tell channels apart: a mail acts on one channel only, and it is the one
its byte selects. -/
theorem acts_on_iff (mail : Mail F) (channel : CanData) :
    ActsOn channel mail ↔ mail.channel = channel := by
  constructor
  · intro acts
    -- In a recording state, the quantities counted are those of both channels.
    let recording : Status F := { (safetyStatusInit (fun _ => true) none).2 with crashStatus := 2 }
    have same : ∀ field : LogField, field.channel = mail.channel ↔ field.channel = channel := by
      intro field
      have own := (acts_on_channel mail).live recording (lit 0) (fun _ => []) rfl field
      have given := acts.live recording (lit 0) (fun _ => []) rfl field
      rw [own] at given
      split_ifs at given <;> simp_all
    by_cases known : mail.channel = .unknown
    · by_contra other
      obtain ⟨field, selected⟩ := exists_field channel
        fun unknown => other (known.trans unknown.symm)
      exact other (((same field).mpr selected).symm.trans selected)
    · obtain ⟨field, selected⟩ := exists_field mail.channel known
      exact selected.symm.trans ((same field).mp selected)
  · rintro rfl
    exact acts_on_channel mail

variable [StringLibrary]

omit [Arithmetic F] [LogHeader] in
/-- A code that another identifier denotes is read, unless the identifier is cut
and reads as zero. -/
theorem code_shown (line : Text) (channel : CanData) (known : channel ≠ .unknown)
    (parsed : atoi (shown line) ≠ 0) (other : (identifier line).length ≠ canIdLength)
    (denotes : denoted (identifier line) = some (channel.code : Int)) :
    atoi (shown line) % 256 = channel.code := by
  obtain ⟨positive, single⟩ := code_bounds channel known
  rw [shown, if_neg other] at parsed ⊢
  by_cases short : (identifier line).length < canIdLength
  · rw [List.take_of_length_le short.le, atoi_denoted _ _ denotes (by omega) (by omega)]
    omega
  · have cut := atoi_cut _ _ canIdLength denotes (by omega) (by omega) (by decide) (by omega)
    exact absurd cut parsed

omit [Arithmetic F] [LogHeader] in
/-- The conversions select the identifier's own channel exactly when the codes are kept. -/
theorem selected_own_iff (line : Text) (parsed : atoi (shown line) ≠ 0) :
    CanData.ofCode (atoi (shown line) % 256).toNat = ownChannel (identifier line) ↔
      CodesKept line := by
  have byte : 0 ≤ atoi (shown line) % 256 := by omega
  have selected : ∀ channel : CanData, channel ≠ .unknown →
      (CanData.ofCode (atoi (shown line) % 256).toNat = channel ↔
        atoi (shown line) % 256 = channel.code) := by
    intro channel known
    rw [of_code_eq_iff _ _ known]
    omega
  constructor
  · intro same channel known
    rw [← selected channel known, ← own_channel_eq_iff _ _ known, same]
    exact ⟨id, fun _ => id⟩
  · intro kept
    by_cases unknown : ownChannel (identifier line) = .unknown
    · rw [unknown]
      by_contra known
      have code := (selected _ known).mp rfl
      have own := (own_channel_eq_iff _ _ known).mpr ((kept _ known).1 code)
      exact known (own.symm.trans unknown)
    · have denotes := (own_channel_eq_iff _ _ unknown).mp rfl
      apply (selected _ unknown).mpr
      by_cases full : (identifier line).length = canIdLength
      · exact (kept _ unknown).2 full denotes
      · exact code_shown line _ unknown parsed full denotes

/-- The safety mail of a line carries the number that `atoi` reads, which is not
zero. -/
theorem sent_safety_mail (sha3 : Sha3) (before : List Reception) (input : Reception)
    (mail : Mail F)
    (sent : mail ∈ (brokerReceive sha3 input.openssl input.line (received sha3 before)).1)
    (safety : mail.type = mtSafety) :
    mail = safetyMail (atoi (shown input.line)) (frameOf input.line).float ∧
      atoi (shown input.line) ≠ 0 := by
  obtain ⟨mails, _⟩ := broker_receive_law (F := F) sha3 input.openssl input.line _
    (received_formed sha3 before).1
  rw [mails, List.mem_singleton, frameMail, id_string_eq] at sent
  split_ifs at sent with accepted zero
  · rw [sent] at safety
    cases safety
  · exact ⟨sent, zero⟩
  · rw [sent] at safety
    cases safety

/-- An accepted frame whose identifier field reads as a number is sent to safety under
that number. -/
theorem accepted_sent (sha3 : Sha3) (before : List Reception) (input : Reception)
    (accepted : (frameOf input.line).hash = storedAfter sha3 input.openssl
      (received sha3 before).hvld (frameOf input.line))
    (parsed : atoi (frameOf input.line).idString ≠ 0) :
    (safetyMail (atoi (frameOf input.line).idString) (frameOf input.line).float : Mail F) ∈
      (brokerReceive sha3 input.openssl input.line (received sha3 before)).1 := by
  obtain ⟨mails, _⟩ := broker_receive_law (F := F) sha3 input.openssl input.line _
    (received_formed sha3 before).1
  rw [mails, frameMail, if_pos accepted, if_neg parsed]
  exact List.mem_singleton.mpr rfl

/-- A safety mail the broker sends for a line, after any lines, acts on the channel its
whole identifier denotes if and only if the codes are kept.

Proof: the mail is the one for the number at `can_id`, which is not zero, and it acts on
the channel that the number modulo 256 selects and on no other; `selected_own_iff`
compares this channel with the identifier's own. -/
theorem own_channel_iff (sha3 : Sha3) (before : List Reception) (input : Reception)
    (mail : Mail F)
    (sent : mail ∈ (brokerReceive sha3 input.openssl input.line (received sha3 before)).1)
    (safety : mail.type = mtSafety) :
    ActsOn (ownChannel (identifier input.line)) mail ↔ CodesKept input.line := by
  obtain ⟨number, parsed⟩ := sent_safety_mail sha3 before input mail sent safety
  rw [acts_on_iff, number, safety_mail_channel, selected_own_iff _ parsed]

end

/-- A frame of the longitudinal channel, with the hash that belongs to it. -/
def ordinaryFrame : Reception :=
  ⟨"(1436509052.249713) vcan0 006#00000000C5D1040C\n".toList, .succeed⟩

/-- The SHA3-256 digest of its identifier and value, which is all that is asked of the
function here. -/
def ordinaryDigest : Sha3 :=
  constantSha3 0xc5d1040c694909c153d2aac925d36e88beec483aeba0c419ae2fdcd041bb7e21

/-- Its safety mail acts on that channel, after no other line. -/
theorem ordinary_frame_own :
    ActsOn (ownChannel (identifier ordinaryFrame.line))
      (safetyMail (atoi (frameOf ordinaryFrame.line).idString)
        (frameOf ordinaryFrame.line).float : Mail ℚ) := by
  have sent := accepted_sent (F := ℚ) ordinaryDigest [] ordinaryFrame (by decide) (by decide)
  apply (own_channel_iff ordinaryDigest [] ordinaryFrame _ sent rfl).mpr
  intro channel known
  cases channel <;> decide

/-- A frame whose identifier is no channel's code, but is one modulo 256. -/
def foreignFrame : Reception :=
  ⟨"(1436509052.249713) vcan0 262#000000009B4390B6\n".toList, .succeed⟩

/-- The SHA3-256 digest of its identifier and value, which is all that is asked of the
function here. -/
def foreignDigest : Sha3 :=
  constantSha3 0x9b4390b6578a689b2c0bccc24bb3591c24d83ad64dd67c9b77c1b9a81ff975be

/-- Its safety mail acts on the longitudinal channel: 262 is 6 modulo 256. -/
theorem foreign_frame_longitudinal :
    ∃ mail : Mail ℚ, mail ∈ (brokerReceive foreignDigest foreignFrame.openssl foreignFrame.line
        (received foreignDigest [])).1 ∧
      mail.type = mtSafety ∧ ¬ ActsOn (ownChannel (identifier foreignFrame.line)) mail ∧
        ActsOn .accelerationSpeedLongitudinal mail := by
  have sent := accepted_sent (F := ℚ) foreignDigest [] foreignFrame (by decide) (by decide)
  refine ⟨_, sent, rfl, ?_, ?_⟩
  · rw [acts_on_iff, safety_mail_channel]
    decide
  · rw [acts_on_iff, safety_mail_channel]
    decide

end EventRecorder.OwnChannel
