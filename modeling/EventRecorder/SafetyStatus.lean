import EventRecorder.CircularMail
import EventRecorder.Detector
import EventRecorder.Mail

/-!
# The crash recorder's state

`safety_status_update` keeps the last 200 records of twelve quantities in
circular buffers and runs a detector on each acceleration channel. Once a
detector has reported a shift, `safety_status_log` dumps the buffers and then
sends records live until every quantity has been sent 300 times.

The twelve pairs of a buffer and a counter in `status_log_t` are two functions
of the field name the source's macros receive. The members `str_wheel_speed`,
`gear` and `log_size` are never used beyond their allocation and are left out.
The stale `db_time` that a record carries into a buffer is overwritten before
the record is sent, so buffered records have none.
-/

namespace EventRecorder.SafetyStatus

open Arithmetic CText CircularMail Detector

universe u

/-- The buffered quantities, by their member names in `status_log_t`. -/
inductive LogField where
  | speed
  | brake
  | accPedal
  | accLong
  | accLat
  | cusumHAccLong
  | cusumHAccLat
  | cusumLAccLong
  | cusumLAccLat
  | cusumAccLatEstStdDev
  | cusumAccLongEstStdDev
  | cpuTime
  deriving DecidableEq, Repr

/-- The CAN channel whose mails produce a quantity. Each acceleration channel has four,
of which three are members of its detector. -/
def LogField.channel : LogField → CanData
  | .speed | .cpuTime => .vehicleSpeed
  | .brake => .brakeSwitchValue
  | .accPedal => .acceleratorPedalValue
  | .accLong | .cusumHAccLong | .cusumLAccLong | .cusumAccLongEstStdDev =>
    .accelerationSpeedLongitudinal
  | .accLat | .cusumHAccLat | .cusumLAccLat | .cusumAccLatEstStdDev =>
    .accelerationSpeedLateral

/-- `STATUS_LOG_BEFORE_SIZE`: the slots of each buffer. -/
def statusLogBeforeSize : Nat := 200

/-- `STATUS_LOG_AFTER_SIZE`: the records of each quantity that are sent live. -/
def statusLogAfterSize : Nat := 300

/-- One line of `/proc/stat`: the times that the processor has spent in each kind of
work. -/
structure ProcStat where
  user : Int
  nice : Int
  system : Int
  idle : Int
  iowait : Int
  irq : Int
  softirq : Int

/-- `cpu_time_t`: the totals read last, the usage computed from them, and a counter of
the calls. -/
structure CpuTime (F : Type u) where
  ttime : Int
  itime : Int
  calcp : Nat
  usage : F
  times : Nat

/-- `status_log_t`: a buffer and a counter (the `_i` members) per quantity. -/
structure StatusLog (F : Type u) where
  buf : LogField → CbufMail (Mail F)
  count : LogField → Nat
  indicator : Nat

/-- The detectors `mean_i` can point into: one for each acceleration channel. -/
inductive Axis where
  | long
  | lat
  deriving DecidableEq, Repr

/-- `safety_status`. `meanI` names the detector whose `mean_i` is pointed to;
the null pointer is `none`. -/
structure Status (F : Type u) where
  brake : Int
  cusLong : Cusum F
  cusLat : Cusum F
  meanI : Option Axis
  sftResp : Int
  crashStatus : Nat
  cpu : CpuTime F
  logBefore : StatusLog F

variable {F : Type u} [Arithmetic F]

/-- `*status->mean_i`. The null pointer has no value to show. -/
def Status.meanCount (status : Status F) : Nat :=
  match status.meanI with
  | some .long => status.cusLong.meanI
  | some .lat => status.cusLat.meanI
  | none => 0

/-- `cpu_upd`, given what reading `/proc/stat` yields, if it can be opened. The counter
lets one call in 51 read it; the others count. -/
def cpuUpd (cpu : CpuTime F) (proc : Option ProcStat) : CpuTime F :=
  if 1 < cpu.times then
    { cpu with times := if 2 + 50 ≤ cpu.times + 1 then 1 else cpu.times + 1 }
  else
    let cpu := { cpu with times := cpu.times + 1 }
    match proc with
    | none => cpu
    | some stat =>
      let total := stat.user + stat.nice + stat.system + stat.idle + stat.irq + stat.softirq
      if cpu.calcp = 0 then { cpu with ttime := total, itime := stat.idle, calcp := 1 }
      else
        let totalDiff := total - cpu.ttime
        let idleDiff := stat.idle - cpu.itime
        { cpu with
          usage := div (mul (lit 100) (lit ((totalDiff - idleDiff : Int) : ℚ))) (lit totalDiff)
          ttime := total
          itime := stat.idle }

/-- The order in which `safety_status_init_log` allocates. The fourth allocation
is `str_wheel_speed`, and `acc_pedal` is allocated twice. -/
def initOrder : List (Option LogField) :=
  [some .speed, some .brake, some .accPedal, none, some .accPedal, some .accLong, some .accLat,
    some .cusumHAccLong, some .cusumLAccLong, some .cusumHAccLat, some .cusumLAccLat,
    some .cusumAccLongEstStdDev, some .cusumAccLatEstStdDev, some .cpuTime]

/-- Allocate the listed buffers; `mallocp` tells which allocations succeed. The
first failure returns 1. -/
def initFields (mallocp : Nat → Bool) (size : Nat) :
    Nat → List (Option LogField) → StatusLog F → Nat × StatusLog F
  | _, [], log => (0, log)
  | call, none :: rest, log =>
    if mallocp call then initFields mallocp size (call + 1) rest log else (1, log)
  | call, some field :: rest, log =>
    let (ret, cbuf) := cbufMailInit (mallocp call) (log.buf field) size
    if ret = 0 then
      initFields mallocp size (call + 1) rest
        { log with buf := fun other => if other = field then cbuf else log.buf other }
    else (1, log)

/-- `safety_status_init_log`: the indicator is set to zero, and the buffers are
allocated in their order. -/
def safetyStatusInitLog (mallocp : Nat → Bool) (log : StatusLog F) (size : Nat) :
    Nat × StatusLog F :=
  initFields mallocp size 0 initOrder { log with indicator := 0 }

/-- `safety_status_init`: the returned code and the status. All of it is zero but for
the constants of the detectors and the buffers, and a first reading of the processor. -/
def safetyStatusInit (mallocp : Nat → Bool) (proc : Option ProcStat) : Nat × Status F :=
  let zero : StatusLog F := ⟨fun _ => .zero, fun _ => 0, 0⟩
  let (ret, log) := safetyStatusInitLog mallocp zero statusLogBeforeSize
  (ret,
    { brake := 0
      cusLong := safetyStatusCusum Cusum.zero
      cusLat := safetyStatusCusum Cusum.zero
      meanI := none
      sftResp := 0
      crashStatus := 0
      cpu := cpuUpd ⟨0, 0, 0, lit 0, 0⟩ proc
      logBefore := log })

/-- `cbuf_mail_write (&status->log_before.field, mail)`. The buffers of the other
quantities stay as they are. -/
def Status.write (status : Status F) (field : LogField) (mail : Mail F) : Status F :=
  { status with logBefore := { status.logBefore with
      buf := fun other => if other = field then cbufMailWrite (status.logBefore.buf field) mail
        else status.logBefore.buf other } }

/-- `safety_status_update` on a mail that carries `f`: the value goes to its buffer, and
on an acceleration channel also to the detector, whose members go to theirs. An upward
shift starts an episode if none is open. -/
def safetyStatusUpdate (status : Status F) (mail : Mail F) (f : F) (proc : Option ProcStat) :
    Status F :=
  let log := dataLog mail.pid f []
  match mail.channel with
  | .brakeSwitchValue => status.write .brake log
  | .acceleratorPedalValue => status.write .accPedal log
  | .vehicleSpeed =>
    let status := status.write .speed log
    let status := { status with cpu := cpuUpd status.cpu proc }
    status.write .cpuTime (dataLog 200 (toFloat status.cpu.usage) [])
  | .accelerationSpeedLongitudinal =>
    let status := status.write .accLong log
    let (cus, response) := cusum status.cusLong f
    let status := { status with cusLong := cus, sftResp := response }
    let status := status.write .cusumHAccLong (dataLog 100 cus.shPrev [])
    let status := status.write .cusumLAccLong (dataLog 101 cus.slPrev [])
    let status := status.write .cusumAccLongEstStdDev (dataLog 102 cus.estStdDev [])
    if response = 1 ∧ status.crashStatus = 0 then
      { status with crashStatus := 1, meanI := some .long }
    else status
  | .accelerationSpeedLateral =>
    let status := status.write .accLat log
    let (cus, response) := cusum status.cusLat f
    let status := { status with cusLat := cus, sftResp := response }
    let status := status.write .cusumHAccLat (dataLog 103 cus.shPrev [])
    let status := status.write .cusumLAccLat (dataLog 104 cus.slPrev [])
    let status := status.write .cusumAccLatEstStdDev (dataLog 105 cus.estStdDev [])
    if response = 1 ∧ status.crashStatus = 0 then
      { status with crashStatus := 1, meanI := some .lat }
    else status
  | .unknown => status

/-- `SAFETY_STATUS_LOG_T`: count the quantity, and send it while it has been
counted fewer than 300 times. -/
def safetyStatusLogT (status : Status F) (field : LogField) (pid : Int) (value : F)
    (time : Text) : List (Mail F) × Status F :=
  let log := status.logBefore
  let counted := fun other => if other = field then log.count field + 1 else log.count other
  if log.count field = statusLogAfterSize then
    ([], { status with logBefore := { log with count := counted, indicator := log.indicator + 1 } })
  else
    (if log.count field < statusLogAfterSize then [dataLog pid value time] else [],
      { status with logBefore := { log with count := counted } })

/-- The macro calls of the `switch` in `safety_status_log`, in order: field,
process id and value. The first call of each channel is `SAFETY_STATUS_LOG`,
which sends what the mail carries. The last lateral call reads the longitudinal
detector, as the source does. -/
def liveCalls (status : Status F) (mail : Mail F) (f : F) : List (LogField × Int × F) :=
  match mail.channel with
  | .brakeSwitchValue => [(.brake, mail.pid, f)]
  | .acceleratorPedalValue => [(.accPedal, mail.pid, f)]
  | .vehicleSpeed => [(.speed, mail.pid, f), (.cpuTime, 200, toFloat status.cpu.usage)]
  | .accelerationSpeedLongitudinal =>
    [(.accLong, mail.pid, f), (.cusumHAccLong, 100, status.cusLong.shPrev),
      (.cusumLAccLong, 101, status.cusLong.slPrev),
      (.cusumAccLongEstStdDev, 102, status.cusLong.estStdDev)]
  | .accelerationSpeedLateral =>
    [(.accLat, mail.pid, f), (.cusumHAccLat, 103, status.cusLat.shPrev),
      (.cusumLAccLat, 104, status.cusLat.slPrev),
      (.cusumAccLatEstStdDev, 105, status.cusLong.estStdDev)]
  | .unknown => []

/-- Run the macro calls in order; the clock is read once per record. -/
def runLive (clock : Nat → Text) :
    Nat → List (LogField × Int × F) → Status F → List (Mail F) × Status F
  | _, [], status => ([], status)
  | reading, (field, pid, value) :: rest, status =>
    let (sent, status) := safetyStatusLogT status field pid value (clock reading)
    let (later, status) := runLive clock (reading + 1) rest status
    (sent ++ later, status)

/-- `SAFETY_STATUS_LOG_BUFFER`: rewind the buffer by one turn and one slot, then
send what each step ahead reads, stamped with the given time. -/
def safetyStatusLogBuffer (cbuf : CbufMail (Mail F)) (time : Text) :
    List (Read (Mail F)) × CbufMail (Mail F) :=
  let rewound := cbufMailMoveIndex cbuf (statusLogBeforeSize + 1)
  let (reads, last) := readsAhead rewound.size rewound
  (reads.map (Read.map fun mail => mail.stamp time), last)

/-- The buffers in the order `safety_status_log` dumps them, which is not that in which
it allocates them. -/
def dumpOrder : List LogField :=
  [.brake, .accPedal, .speed, .accLong, .accLat, .cusumHAccLong, .cusumLAccLong, .cusumHAccLat,
    .cusumLAccLat, .cusumAccLatEstStdDev, .cpuTime, .cusumAccLongEstStdDev]

variable [LogHeader]

/-- The text of `LOG_EVENT_CRASH_START`: the number of the sample, both thresholds and
the time. -/
def startedText (status : Status F) (time : Text) : Text :=
  snprintf LogHeader.logDataSize ("Crash Started ".toList ++ decimal status.meanCount ++
    ' ' :: render status.cusLong.h ++ ' ' :: render status.cusLat.h ++ ' ' :: time)

/-- The text of `LOG_EVENT_CRASH_MID`, to which the logger adds the time. -/
def midText (status : Status F) : Text :=
  snprintf LogHeader.logDataSize ("Crash Mid ".toList ++ decimal status.meanCount)

/-- The text of `LOG_EVENT_CRASH_END`, to which the logger adds the time. -/
def endedText (status : Status F) : Text :=
  snprintf LogHeader.logDataSize ("Crash Ended ".toList ++ decimal status.meanCount)

/-- The branch of `safety_status_log` taken right after a detection: announce
the crash, dump every buffer, and enter the recording state. -/
def dumpCrash (status : Status F) (clock : Nat → Text) : List (Read (Mail F)) × Status F :=
  (.value (notifMail .eventCrashStart (startedText status (clock 0))) ::
      dumpOrder.flatMap (fun field =>
        (safetyStatusLogBuffer (status.logBefore.buf field) (clock 1)).1) ++
      [.value (notifMail .eventCrashMid (midText status))],
    { status with
      crashStatus := status.crashStatus + 1
      logBefore := { status.logBefore with buf := fun field =>
        (safetyStatusLogBuffer (status.logBefore.buf field) (clock 1)).2 } })

/-- The branch of `safety_status_log` taken while recording: the live records of
the mail, and the end of the episode once the indicator counts every quantity
(`CAN_DATA_SIZE - 1 + 7`). -/
def recordLive (status : Status F) (mail : Mail F) (f : F) (clock : Nat → Text) :
    List (Read (Mail F)) × Status F :=
  let (sent, status) := runLive clock 0 (liveCalls status mail f) status
  if canDataSize - 1 + 7 ≤ status.logBefore.indicator then
    ((sent ++ [notifMail .eventCrashEnd (endedText status)]).map .value,
      { status with
        crashStatus := 0
        logBefore := { status.logBefore with indicator := 0 } })
  else (sent.map .value, status)

/-- `safety_status_log` on a mail that carries `f`: the mails sent, in order. An idle
recorder sends nothing; the turn of the crash dumps the buffers; later turns record. -/
def safetyStatusLog (status : Status F) (mail : Mail F) (f : F) (clock : Nat → Text) :
    List (Read (Mail F)) × Status F :=
  if status.crashStatus = 0 then ([], status)
  else if status.crashStatus = 1 then dumpCrash status clock
  else recordLive status mail f clock

end EventRecorder.SafetyStatus
