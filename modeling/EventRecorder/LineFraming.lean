import EventRecorder.OwnChannel

/-!
# Lines and messages

`can_run_receive` hands each text that `fgets` reads to `broker_receive`. The
buffer holds 49 characters of a line, newline included; a longer line is read in
several parts, each of them a message.

The lines are arbitrary texts without a newline, and the outcomes of OpenSSL are
given for the messages in the order in which they are received.
-/

namespace EventRecorder.LineFraming

open CText Sha Frames FrameAuthentication OwnChannel

/-- A line of the stream, without its newline, so that lines are told apart by the
newlines behind them. -/
structure Line where
  text : Text
  whole : '\n' ∉ text

/-- The stream that consists of some lines, each with its newline. -/
def stream (lines : List Line) : Text := lines.flatMap fun line => line.text ++ ['\n']

/-- The loop of `can_run_receive`: the messages it hands on until the end of the stream.
One byte of the buffer is left for the terminator. -/
def canRunReceive (input : Text) : List Text :=
  if input = [] then []
  else
    let message := fgets (canMsgLength - 1) input
    message.1 :: canRunReceive message.2
termination_by input.length
decreasing_by exact fgets_rest_length 48 input ‹_›

/-- At the end of the stream there is no message, as `fgets` then returns none. -/
@[simp] theorem can_run_receive_nil : canRunReceive [] = [] := by
  rw [canRunReceive, if_pos rfl]

/-- The loop reads the lines that fit the buffer as they are, newline included. -/
theorem can_run_receive_short (line : Line) (rest : Text)
    (fits : line.text.length + 1 < canMsgLength) :
    canRunReceive (line.text ++ '\n' :: rest) =
      (line.text ++ ['\n']) :: canRunReceive rest := by
  have nonempty : line.text ++ '\n' :: rest ≠ [] := by simp
  have read := fgets_whole (canMsgLength - 1) line.text rest line.whole (by omega)
  rw [canRunReceive, if_neg nonempty, read]

/-- Of a longer line the first message is what fits, and the rest is read like a line of
its own. -/
theorem can_run_receive_long (text rest : Text) (whole : '\n' ∉ text)
    (long : canMsgLength ≤ text.length + 1) :
    canRunReceive (text ++ '\n' :: rest) = text.take (canMsgLength - 1) ::
      canRunReceive (text.drop (canMsgLength - 1) ++ '\n' :: rest) := by
  have nonempty : text ++ '\n' :: rest ≠ [] := by simp
  have read := fgets_part (canMsgLength - 1) text ('\n' :: rest) whole (by omega)
  rw [canRunReceive, if_neg nonempty, read]

/-- A line is read in as many messages as it takes to hold it. The proof is by strong
induction on its length. -/
theorem messages_of_line (text rest : Text) (whole : '\n' ∉ text) :
    (canRunReceive (text ++ '\n' :: rest)).length =
      text.length / (canMsgLength - 1) + 1 + (canRunReceive rest).length := by
  by_cases fits : text.length + 1 < canMsgLength
  · have none : text.length / (canMsgLength - 1) = 0 := Nat.div_eq_of_lt (by omega)
    rw [can_run_receive_short ⟨text, whole⟩ rest fits, List.length_cons, none]
    omega
  · have remaining : '\n' ∉ text.drop (canMsgLength - 1) := fun member =>
      whole (List.mem_of_mem_drop member)
    have rounds : text.length / (canMsgLength - 1) =
        (text.length - (canMsgLength - 1)) / (canMsgLength - 1) + 1 :=
      Nat.div_eq_sub_div (by decide) (by omega)
    rw [can_run_receive_long text rest whole (by omega), List.length_cons,
      messages_of_line (text.drop (canMsgLength - 1)) rest remaining, List.length_drop, rounds]
    omega
termination_by text.length
decreasing_by
  simp only [List.length_drop, canMsgLength] at fits ⊢
  omega

/-- What follows a newline is read from its beginning, however long the line before it
was. -/
theorem messages_behind_line (text rest : Text) (whole : '\n' ∉ text) :
    canRunReceive (text ++ '\n' :: rest) =
      canRunReceive (text ++ ['\n']) ++ canRunReceive rest := by
  by_cases fits : text.length + 1 < canMsgLength
  · have alone := can_run_receive_short ⟨text, whole⟩ [] fits
    rw [can_run_receive_short ⟨text, whole⟩ rest fits, alone, can_run_receive_nil]
    rfl
  · have remaining : '\n' ∉ text.drop (canMsgLength - 1) := fun member =>
      whole (List.mem_of_mem_drop member)
    rw [can_run_receive_long text rest whole (by omega),
      can_run_receive_long text [] whole (by omega), List.cons_append,
      messages_behind_line (text.drop (canMsgLength - 1)) rest remaining]
termination_by text.length
decreasing_by
  simp only [List.length_drop, canMsgLength] at fits ⊢
  omega

/-- What follows some lines is read from its beginning, by induction on these lines. -/
theorem messages_behind (lines : List Line) (rest : Text) :
    canRunReceive (stream lines ++ rest) = canRunReceive (stream lines) ++ canRunReceive rest := by
  induction lines with
  | nil => simp [stream]
  | cons line lines inductionHypothesis =>
    have split : stream (line :: lines) = line.text ++ '\n' :: stream lines := by simp [stream]
    rw [split, List.append_assoc, List.cons_append, messages_behind_line _ _ line.whole,
      inductionHypothesis, messages_behind_line _ (stream lines) line.whole, List.append_assoc]

/-- The stream is read in at least one message for each line, and in just one
for each only when every line fits the buffer. -/
theorem messages_count (lines : List Line) :
    lines.length ≤ (canRunReceive (stream lines)).length ∧
      ((canRunReceive (stream lines)).length = lines.length →
        ∀ line ∈ lines, line.text.length + 1 < canMsgLength) := by
  induction lines with
  | nil => simp [stream]
  | cons line lines inductionHypothesis =>
    obtain ⟨enough, exact⟩ := inductionHypothesis
    have first := messages_of_line line.text (stream lines) line.whole
    have split : stream (line :: lines) = line.text ++ '\n' :: stream lines := by simp [stream]
    generalize parts : line.text.length / (canMsgLength - 1) = further at first
    rw [split, first, List.length_cons]
    refine ⟨by omega, ?_⟩
    intro same
    have none : further = 0 := by omega
    have fits : line.text.length < canMsgLength - 1 :=
      (Nat.div_eq_zero_iff_lt (by decide)).mp (parts.trans none)
    rw [List.forall_mem_cons]
    exact ⟨by omega, exact (by omega)⟩

/-- Lines that fit the buffer are the messages, one by one. -/
theorem messages_eq (lines : List Line)
    (fit : ∀ line ∈ lines, line.text.length + 1 < canMsgLength) :
    canRunReceive (stream lines) = lines.map fun line => line.text ++ ['\n'] := by
  induction lines with
  | nil => simp [stream]
  | cons line lines inductionHypothesis =>
    obtain ⟨first, others⟩ := List.forall_mem_cons.mp fit
    have split : stream (line :: lines) = line.text ++ '\n' :: stream lines := by simp [stream]
    rw [split, can_run_receive_short line _ first, inductionHypothesis others, List.map_cons]

/-- Each message is one line exactly when every line fits the buffer: a line that does
not adds a message, which no other line makes up for. -/
theorem messages_eq_iff (lines : List Line) :
    canRunReceive (stream lines) = (lines.map fun line => line.text ++ ['\n']) ↔
      ∀ line ∈ lines, line.text.length + 1 < canMsgLength := by
  constructor
  · intro same
    exact (messages_count lines).2 (by rw [same, List.length_map])
  · exact messages_eq lines

/-- The messages with the outcomes of OpenSSL for them, by their position among the
messages. -/
def receptions (openssl : Nat → MdCalls) (messages : List Text) : List Reception :=
  messages.mapIdx fun position message => ⟨message, openssl position⟩

section

variable {F : Type} [Arithmetic F] [LogHeader] [StringLibrary]

/-- The mails `broker_receive` sends for a message, on what the earlier ones left in the
static buffers. -/
def mails (sha3 : Sha3) (state : BrokerState) (input : Reception) : List (Mail F) :=
  (brokerReceive sha3 input.openssl input.line state).1

/-- The mails sent while a stream is received, from process start to the end of the
stream. -/
def sentMails (sha3 : Sha3) (openssl : Nat → MdCalls) (input : Text) : List (Mail F) :=
  Runs.emitted
    (fun state input => (brokerReceive (F := F) sha3 input.openssl input.line state).2)
    (mails sha3) .initial (receptions openssl (canRunReceive input))

/-- The buffers in this run are those the verdicts are about, so that what is known of a
verdict applies to it. -/
theorem sent_mails_eq (sha3 : Sha3) (openssl : Nat → MdCalls) (input : Text) :
    (sentMails sha3 openssl input : List (Mail F)) =
      Runs.emitted (next sha3) (mails sha3) .initial
        (receptions openssl (canRunReceive input)) := rfl

/-- The mail a line asks for: the value of the frame when the hash is accepted
and the whole identifier reads as a number other than zero, else the error that
describes the line. -/
def LineMail (sha3 : Sha3) (before : List Reception) (input : Reception) (mail : Mail F) :
    Prop :=
  if verdict sha3 (received sha3 before) input = 0 then
    if atoi (identifier input.line) = 0 then
      mail = brokerError .invldPid
        ("Brocker: Unable to parse pid: ".toList ++ (frameOf input.line).canId)
    else mail.type = mtSafety ∧ mail.data = .float (frameOf input.line).float
  else
    mail = brokerError .invldHsh
      ("Invalid message hash: '".toList ++ (frameOf input.line).canData ++ "'".toList)

/-- Each line is one message, and for each in order one mail is sent, the one it
asks for. -/
def OneMailPerLine (sha3 : Sha3) (openssl : Nat → MdCalls) (lines : List Line) : Prop :=
  let messages := lines.map fun line => line.text ++ ['\n']
  let sent : List (Mail F) := sentMails sha3 openssl (stream lines)
  canRunReceive (stream lines) = messages ∧ sent.length = lines.length ∧
    ∀ before input rest, receptions openssl messages = before ++ input :: rest →
      ∃ mail, sent[before.length]? = some mail ∧ LineMail sha3 before input mail

/-- An identifier of at least four characters reads as zero together with the
text shown of it. -/
def ReadsAlike (line : Text) : Prop :=
  canIdLength ≤ (identifier line).length →
    (atoi (shown line) = 0 ↔ atoi (identifier line) = 0)

omit [LogHeader] in
/-- The number at `can_id` and that of the whole identifier are zero together exactly
then, by the digits that are cut off. -/
theorem reads_alike_iff (line : Text) :
    ReadsAlike line ↔ (atoi (frameOf line).idString = 0 ↔ atoi (identifier line) = 0) := by
  rw [ReadsAlike, id_string_eq]
  by_cases short : (identifier line).length < canIdLength
  · rw [shown, if_neg short.ne, List.take_of_length_le short.le]
    simp
  · simp [not_lt.mp short]

/-- One mail is sent for each message, whichever branch it takes. -/
theorem mails_single (sha3 : Sha3) (state : BrokerState) (input : Reception) :
    ∃ mail : Mail F, mails sha3 state input = [mail] := by
  unfold mails brokerReceive brokerMails
  dsimp only
  split_ifs
  · exact ⟨_, rfl⟩
  · exact ⟨_, rfl⟩
  · exact ⟨_, rfl⟩

/-- The mail sent for a message is the one it asks for, unless its hash is
accepted and its identifier is zero in one reading only. -/
theorem line_mail_iff (sha3 : Sha3) (before : List Reception) (input : Reception) :
    ∃ mail : Mail F, mails sha3 (received sha3 before) input = [mail] ∧
      (LineMail sha3 before input mail ↔
        (verdict sha3 (received sha3 before) input = 0 → ReadsAlike input.line)) := by
  obtain ⟨sent, _⟩ := broker_receive_law (F := F) sha3 input.openssl input.line _
    (received_formed sha3 before).1
  refine ⟨_, sent, ?_⟩
  have accepts := verdict_zero_iff sha3 before input
  rw [LineMail, frameMail, reads_alike_iff]
  by_cases accepted : verdict sha3 (received sha3 before) input = 0
  · rw [if_pos accepted, if_pos (accepts.mp accepted)]
    by_cases zero : atoi (frameOf input.line).idString = 0
    · by_cases whole : atoi (identifier input.line) = 0
      · simp [zero, whole]
      · simp [zero, whole, accepted, brokerError, storageMail, mtStorage, mtSafety]
    · by_cases whole : atoi (identifier input.line) = 0
      · simp [zero, whole, accepted, brokerError, storageMail, safetyMail]
      · simp [zero, whole, safetyMail]
  · rw [if_neg accepted, if_neg (mt accepts.mpr accepted)]
    simp [accepted]

/-- Whatever the lines and the outcomes of OpenSSL, there is one mail for each line, the
right one, if and only if every line fits the buffer and no accepted line has an
identifier that is zero in one reading only.

Proof: as every message gives one mail, the numbers agree exactly if the lines are the
messages. Then the mail of each line is compared with the one it should be: both are
decided by the same verdict and differ only where the two readings of the identifier do. -/
theorem one_mail_iff (sha3 : Sha3) (openssl : Nat → MdCalls) (lines : List Line) :
    OneMailPerLine (F := F) sha3 openssl lines ↔
      (∀ line ∈ lines, line.text.length + 1 < canMsgLength) ∧
        ∀ before input rest,
          receptions openssl (lines.map fun line => line.text ++ ['\n']) =
              before ++ input :: rest →
            verdict sha3 (received sha3 before) input = 0 → ReadsAlike input.line := by
  unfold OneMailPerLine
  dsimp only
  rw [messages_eq_iff]
  apply and_congr_right
  intro fit
  have messages := messages_eq lines fit
  have count : (sentMails sha3 openssl (stream lines) : List (Mail F)).length = lines.length := by
    rw [sent_mails_eq, Runs.emitted_one _ _ _ (mails_single sha3), messages]
    simp [receptions]
  rw [and_iff_right count]
  refine forall₄_congr ?_
  intro before input rest split
  obtain ⟨mail, sent, exact⟩ := line_mail_iff (F := F) sha3 before input
  have position := Runs.emitted_at (next sha3) (mails (F := F) sha3) .initial (mails_single sha3)
    before input rest
  rw [← split, ← messages, ← sent_mails_eq] at position
  have found : (sentMails sha3 openssl (stream lines) : List (Mail F))[before.length]? =
      some mail := position.trans (congrArg List.head? sent)
  rw [found, ← exact]
  simp

end

/-- A frame with a 29-bit identifier, which is written in eight digits. -/
def extendedLine : Line where
  text := "(1436509052.249713) vcan0 00000006#0000000000000000".toList
  whole := by decide

/-- Its line does not fit the buffer, and is read as two messages. -/
theorem extended_line_fragmented :
    ¬ OneMailPerLine (F := ℚ) zeroSha3 (fun _ => .succeed) [extendedLine] := by
  rintro ⟨messages, _⟩
  have fits := (messages_eq_iff [extendedLine]).mp messages extendedLine (by simp)
  revert fits
  decide

end EventRecorder.LineFraming
