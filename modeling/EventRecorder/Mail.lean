import EventRecorder.Arithmetic

/-!
# Mails, log records and CAN channels

A mail carries a message, a number or a log record. The members of `log_t` are
those its users read and write; the numeric values of its enumerators belong to
a header outside the repository and enter only where a function compares them.
-/

namespace EventRecorder

open CText

universe u

/-- `can_data_t`: the CAN channels the recorder knows, and one for all others. -/
inductive CanData where
  | unknown
  | acceleratorPedalValue
  | brakeSwitchValue
  | vehicleSpeed
  | accelerationSpeedLongitudinal
  | accelerationSpeedLateral
  deriving DecidableEq, Repr

/-- The value of each enumerator, as the header counts them. Between the known channels
there are gaps. -/
def CanData.code : CanData → Nat
  | .unknown => 0
  | .acceleratorPedalValue => 2
  | .brakeSwitchValue => 3
  | .vehicleSpeed => 5
  | .accelerationSpeedLongitudinal => 6
  | .accelerationSpeedLateral => 7

/-- The case a `switch` over `(can_data_t) n` takes. Numbers that are no
enumerator share the default case with `CAN_DATA_UNKNOWN`. -/
def CanData.ofCode : Nat → CanData
  | 2 => .acceleratorPedalValue
  | 3 => .brakeSwitchValue
  | 5 => .vehicleSpeed
  | 6 => .accelerationSpeedLongitudinal
  | 7 => .accelerationSpeedLateral
  | _ => .unknown

/-- `CAN_DATA_SIZE`: the number of enumerators, and not one more than the largest. -/
def canDataSize : Nat := 6

/-- A known channel is selected by its own code and by no other number, since the
numbers that are no enumerator all select the unknown one. -/
theorem of_code_eq_iff (number : Nat) (channel : CanData) (known : channel ≠ .unknown) :
    CanData.ofCode number = channel ↔ number = channel.code := by
  constructor
  · intro selected
    subst channel
    unfold CanData.ofCode at known ⊢
    split at known <;> simp_all [CanData.code]
  · intro same
    subst number
    cases channel <;> rfl

/-- The log types the modelled functions use. Their numeric values are in a header
outside the repository. -/
inductive LogType where
  | eventCrashStart
  | eventCrashMid
  | eventCrashEnd
  | eventError
  | data
  | ui
  | error
  | dbError
  deriving DecidableEq, Repr

/-- The error codes the modelled functions use, and any other by its number. -/
inductive DbErrorC where
  | log
  | invldPid
  | invldHsh
  | restrPrcs
  | other (code : Int)
  deriving DecidableEq, Repr

/-- What `log/log.h` fixes: the size of the text arrays inside `log_t` and the
numeric values of the enumerators. -/
class LogHeader where
  /-- `LOG_DATA_SIZE`. -/
  logDataSize : Nat
  logCode : LogType → Int
  errorCode : DbErrorC → Int
  /-- `DB_DATA_FLOAT`. -/
  dbDataFloat : Int

/-- The union inside `log_t`. Every data record is a float (`DB_DATA_FLOAT`). -/
inductive LogData (F : Type u) where
  | log (text : Text)
  | error (errc : DbErrorC) (errs : Text)
  | data (pid : Int) (f : F)
  deriving DecidableEq

/-- `log_t`; of `db_time` only the rendered timestamp is read, and that only for data
records. -/
structure Log (F : Type u) where
  type : LogType
  data : LogData F
  dbTime : Text
  deriving DecidableEq

/-- The union inside `mail_t`, tagged by its `data_e`, so that a member is read only
when it was written. -/
inductive MailData (F : Type u) where
  | msg (text : Text)
  | float (f : F)
  | int (i : Int)
  | log (record : Log F)
  deriving DecidableEq

/-- `mail_t`. The info array holds a text, or a channel number in its first byte. -/
structure Mail (F : Type u) where
  priority : Int
  type : Int
  data : MailData F
  info : Text
  deriving DecidableEq

/-- `MT_STORAGE`: a record for the logger. -/
def mtStorage : Int := 2 ^ 4

/-- `MT_ASSIST`: a notification or a request for assistance. -/
def mtAssist : Int := 2 ^ 7

/-- `MT_SAFETY`: a value from the broker. -/
def mtSafety : Int := 2 ^ 8

variable {F : Type u}

/-- `*in->info`: the first byte of the array, which is the terminator if the text is
empty. -/
def Mail.infoByte (mail : Mail F) : Char := mail.info.headD nul

/-- `(int) *in->info`, the character being signed: from 128 on it is negative. -/
def Mail.pid (mail : Mail F) : Int :=
  if mail.infoByte.toNat < 128 then mail.infoByte.toNat else mail.infoByte.toNat - 256

/-- `(can_data_t) *in->info`. A negative character is no enumerator, as its byte is
none. -/
def Mail.channel (mail : Mail F) : CanData := CanData.ofCode mail.infoByte.toNat

/-- The value of a mail the safety loop handles: one of type `MT_SAFETY` that
carries a float. The loop ignores every other mail. -/
def Mail.sample (mail : Mail F) : Option F :=
  match mail.data with
  | .float f => if mail.type = mtSafety then some f else none
  | _ => none

/-- A mail for the logger, with a record and no further text. -/
def storageMail (record : Log F) : Mail F := ⟨1, mtStorage, .log record, []⟩

/-- `data_log` and `cusum_mail` with their process id and value set. Both are data
records of one value. -/
def dataLog (pid : Int) (f : F) (dbTime : Text) : Mail F :=
  storageMail ⟨.data, .data pid f, dbTime⟩

/-- `notif_mail` with its type and text set: the announcement of a part of a crash. -/
def notifMail (type : LogType) (text : Text) : Mail F := storageMail ⟨type, .log text, []⟩

/-- The process id and the value of a data record, if the mail carries one. -/
def Mail.reading : Mail F → Option (Int × F)
  | ⟨_, _, .log ⟨_, .data pid f, _⟩, _⟩ => some (pid, f)
  | _ => none

/-- The log type of a mail for the logger, if the mail carries a record. -/
def Mail.logType : Mail F → Option LogType
  | ⟨_, _, .log record, _⟩ => some record.type
  | _ => none

/-- Copy a time into `data.data.log.db_time`. Of a mail without a record the union is
left alone. -/
def Mail.stamp (mail : Mail F) (time : Text) : Mail F :=
  match mail.data with
  | .log record => { mail with data := .log { record with dbTime := time } }
  | _ => mail

/-- A stamp replaces the time of a data record and nothing else. -/
@[simp] theorem data_log_stamp (pid : Int) (f : F) (dbTime time : Text) :
    (dataLog pid f dbTime).stamp time = dataLog pid f time := rfl

/-- A data record reads as what it was set to, whatever its time. -/
@[simp] theorem data_log_reading (pid : Int) (f : F) (dbTime : Text) :
    (dataLog pid f dbTime).reading = some (pid, f) := rfl

/-- A data record has the type of data. -/
@[simp] theorem data_log_type (pid : Int) (f : F) (dbTime : Text) :
    (dataLog pid f dbTime).logType = some .data := rfl

/-- An announcement is no reading, so that the values of a run are not mixed with its
texts. -/
@[simp] theorem notif_mail_reading (type : LogType) (text : Text) :
    (notifMail type text : Mail F).reading = none := rfl

/-- An announcement has the type it was set to. -/
@[simp] theorem notif_mail_type (type : LogType) (text : Text) :
    (notifMail type text : Mail F).logType = some type := rfl

end EventRecorder
