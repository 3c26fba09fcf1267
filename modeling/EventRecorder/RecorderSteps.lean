import EventRecorder.SafetyStatus

/-!
# What one mail does to the recorder

Every later result about the recorder rests on the laws of this module and not
on the definitions below it: which records `safety_status_update` writes, what
the macro calls of `safety_status_log` count and send, and which members either
function leaves alone. The twelve quantities are listed once, channel by
channel in the order both functions visit them.
-/

namespace EventRecorder.SafetyStatus

open Arithmetic CText CircularMail Detector

universe u

/-- The twelve quantities, grouped by channel in the order of the `switch` cases. -/
def LogField.all : List LogField :=
  [.brake, .accPedal, .speed, .cpuTime,
    .accLong, .cusumHAccLong, .cusumLAccLong, .cusumAccLongEstStdDev,
    .accLat, .cusumHAccLat, .cusumLAccLat, .cusumAccLatEstStdDev]

/-- Every quantity is among the twelve, so that what is checked of the list holds of
all. -/
theorem LogField.mem_all (field : LogField) : field ∈ LogField.all := by
  cases field <;> decide

/-- Each of them is listed once, so that a count over the list counts quantities. -/
theorem LogField.all_nodup : LogField.all.Nodup := by decide

/-- The process id under which a quantity is recorded: the code of its channel for a
sample, and a number from 100 on for what is computed. -/
def LogField.pid : LogField → Int
  | .brake => 3
  | .accPedal => 2
  | .speed => 5
  | .cpuTime => 200
  | .accLong => 6
  | .cusumHAccLong => 100
  | .cusumLAccLong => 101
  | .cusumAccLongEstStdDev => 102
  | .accLat => 7
  | .cusumHAccLat => 103
  | .cusumLAccLat => 104
  | .cusumAccLatEstStdDev => 105

/-- Different quantities are recorded under different process ids, so that the rows of a
quantity can be selected by its own. -/
theorem LogField.pid_injective (left right : LogField) (same : left.pid = right.pid) :
    left = right := by
  cases left <;> cases right <;> first | rfl | exact absurd same (by decide)

/-- No quantity belongs to the unknown channel: mails of that one are neither buffered
nor recorded. -/
theorem LogField.channel_known (field : LogField) : field.channel ≠ .unknown := by
  cases field <;> decide

variable {F : Type u}

/-- A mail of a known channel carries that channel's code as its process id, since only
that byte selects the channel. -/
theorem pid_of_channel (mail : Mail F) (known : mail.channel ≠ .unknown) :
    mail.pid = mail.channel.code := by
  have selected : mail.infoByte.toNat = mail.channel.code :=
    (of_code_eq_iff _ _ known).mp rfl
  have small : mail.channel.code < 128 := by cases mail.channel <;> decide
  simp [Mail.pid, selected, small]

/-- The process ids and values of the data records among sent mails. Reads from outside
a buffer and slots never written have none. -/
def readings (sent : List (Read (Mail F))) : List (Int × F) :=
  sent.filterMap fun
    | .value mail => mail.reading
    | _ => none

/-- Whether a log mail of the given type is among the sent mails. -/
def announces (type : LogType) (sent : List (Read (Mail F))) : Bool :=
  sent.any fun
    | .value mail => mail.logType = some type
    | _ => false

/-- Something is announced among two groups of mails if it is among the one or the
other. -/
@[simp] theorem announces_append (type : LogType) (earlier later : List (Read (Mail F))) :
    announces type (earlier ++ later) = (announces type earlier || announces type later) := by
  simp [announces]

/-- The readings of two groups of mails follow each other. -/
@[simp] theorem readings_append (earlier later : List (Read (Mail F))) :
    readings (earlier ++ later) = readings earlier ++ readings later := by
  simp [readings]

/-- One macro call counts its quantity; the indicator grows when the count was
exactly at the limit, and a record is sent while it was below. -/
theorem log_call (status : Status F) (field : LogField) (pid : Int) (value : F) (time : Text) :
    safetyStatusLogT status field pid value time =
      (if status.logBefore.count field < statusLogAfterSize then [dataLog pid value time] else [],
        { status with logBefore := { status.logBefore with
            count := fun other => if other = field then status.logBefore.count field + 1
              else status.logBefore.count other
            indicator := status.logBefore.indicator +
              if status.logBefore.count field = statusLogAfterSize then 1 else 0 } }) := by
  unfold safetyStatusLogT
  by_cases limit : status.logBefore.count field = statusLogAfterSize
  · simp [limit]
  · simp [limit]

/-- A call leaves the counts of the other quantities as they were, which are those of
the calls that follow it. -/
theorem log_call_others (clock : Text) (calls : List (LogField × Int × F)) (status : Status F)
    (field : LogField) (pid : Int) (value : F) (fresh : field ∉ calls.map Prod.fst) :
    ∀ call ∈ calls,
      (safetyStatusLogT status field pid value clock).2.logBefore.count call.1 =
        status.logBefore.count call.1 := by
  intro call member
  have other : call.1 ≠ field := by
    intro same
    exact fresh (same ▸ List.mem_map_of_mem member)
  simp [log_call, other]

/-- Nor does it change which of them have a count of some kind, such as one below the
limit. -/
theorem log_call_filter (clock : Text) (calls : List (LogField × Int × F)) (status : Status F)
    (field : LogField) (pid : Int) (value : F) (fresh : field ∉ calls.map Prod.fst)
    (kind : Nat → Bool) :
    calls.filter (fun call =>
        kind ((safetyStatusLogT status field pid value clock).2.logBefore.count call.1)) =
      calls.filter (fun call => kind (status.logBefore.count call.1)) := by
  apply List.filter_congr
  intro call member
  rw [log_call_others clock calls status field pid value fresh call member]

/-- The macro calls of one mail, each for a different quantity: every visited
quantity is counted once, and the indicator grows by the number of visited
quantities that stood at the limit. Nothing else changes.

The first call leaves the counts of the remaining quantities as they were, so
the induction compares every later call with the initial counts. -/
theorem run_live_status (clock : Nat → Text) (calls : List (LogField × Int × F))
    (distinct : (calls.map Prod.fst).Nodup) (reading : Nat) (status : Status F) :
    (runLive clock reading calls status).2 =
      { status with logBefore := { status.logBefore with
          count := fun field => status.logBefore.count field +
            if field ∈ calls.map Prod.fst then 1 else 0
          indicator := status.logBefore.indicator + calls.countP
            (fun call => status.logBefore.count call.1 = statusLogAfterSize) } } := by
  induction calls generalizing reading status with
  | nil => simp [runLive]
  | cons call rest inductionHypothesis =>
    obtain ⟨field, pid, value⟩ := call
    obtain ⟨fresh, restDistinct⟩ := List.nodup_cons.mp distinct
    have standing : rest.countP (fun call =>
          (safetyStatusLogT status field pid value (clock reading)).2.logBefore.count call.1 =
            statusLogAfterSize) =
        rest.countP (fun call => status.logBefore.count call.1 = statusLogAfterSize) := by
      rw [List.countP_eq_length_filter, List.countP_eq_length_filter,
        log_call_filter (clock reading) rest status field pid value fresh (· = statusLogAfterSize)]
    rw [runLive, inductionHypothesis restDistinct, standing]
    simp only [log_call, List.countP_cons, List.map_cons, List.mem_cons, Status.mk.injEq,
      StatusLog.mk.injEq, true_and, decide_eq_true_eq]
    constructor
    · funext other
      by_cases same : other = field
      · subst same
        have gone : other ∉ rest.map Prod.fst := fresh
        simp [gone]
      · by_cases later : other ∈ rest.map Prod.fst <;> simp [same, later]
    · omega

/-- The records sent are those of the visited quantities below the limit, in order. As
before, every call is compared with the initial counts. -/
theorem run_live_sent (clock : Nat → Text) (calls : List (LogField × Int × F))
    (distinct : (calls.map Prod.fst).Nodup) (reading : Nat) (status : Status F) :
    (runLive clock reading calls status).1.filterMap Mail.reading =
      (calls.filter (fun call => status.logBefore.count call.1 < statusLogAfterSize)).map
        Prod.snd := by
  induction calls generalizing reading status with
  | nil => simp [runLive]
  | cons call rest inductionHypothesis =>
    obtain ⟨field, pid, value⟩ := call
    obtain ⟨fresh, restDistinct⟩ := List.nodup_cons.mp distinct
    have below := log_call_filter (clock reading) rest status field pid value fresh
      (· < statusLogAfterSize)
    simp only [runLive, List.filterMap_append]
    rw [inductionHypothesis restDistinct, below]
    by_cases limit : status.logBefore.count field < statusLogAfterSize
    · simp [log_call, limit]
    · simp [log_call, limit]

/-- They are data records, each with the process id and the value of its call. -/
theorem run_live_records (clock : Nat → Text) (calls : List (LogField × Int × F)) (reading : Nat)
    (status : Status F) :
    ∀ mail ∈ (runLive clock reading calls status).1, ∃ pid f time, mail = dataLog pid f time := by
  induction calls generalizing reading status with
  | nil => simp [runLive]
  | cons call rest inductionHypothesis =>
    obtain ⟨field, pid, value⟩ := call
    intro mail member
    simp only [runLive, List.mem_append] at member
    rcases member with first | later
    · by_cases limit : status.logBefore.count field < statusLogAfterSize
      · exact ⟨pid, value, clock reading, by simpa [log_call, limit] using first⟩
      · simp [log_call, limit] at first
    · exact inductionHypothesis _ _ mail later

variable [Arithmetic F]

omit [Arithmetic F] in
/-- Allocating the buffers counts nothing, however far the allocations come. -/
theorem init_fields_counters (mallocp : Nat → Bool) (size call : Nat)
    (fields : List (Option LogField)) (log : StatusLog F) :
    (initFields mallocp size call fields log).2.count = log.count ∧
      (initFields mallocp size call fields log).2.indicator = log.indicator := by
  induction fields generalizing call log with
  | nil => exact ⟨rfl, rfl⟩
  | cons field rest inductionHypothesis =>
    cases field with
    | none =>
      simp only [initFields]
      split_ifs
      · exact inductionHypothesis _ _
      · exact ⟨rfl, rfl⟩
    | some field =>
      simp only [initFields]
      split_ifs
      · exact inductionHypothesis _ _
      · exact ⟨rfl, rfl⟩

/-- Whether or not every allocation succeeds, initialisation leaves the recorder
idle with nothing counted. -/
theorem init_idle (mallocp : Nat → Bool) (proc : Option ProcStat) :
    (safetyStatusInit mallocp proc : Nat × Status F).2.crashStatus = 0 ∧
      (safetyStatusInit mallocp proc : Nat × Status F).2.logBefore.count = (fun _ => 0) ∧
      (safetyStatusInit mallocp proc : Nat × Status F).2.logBefore.indicator = 0 := by
  have counters := init_fields_counters mallocp statusLogBeforeSize 0 initOrder
    (⟨fun _ => .zero, fun _ => 0, 0⟩ : StatusLog F)
  exact ⟨rfl, counters.1, counters.2⟩

/-- The records `safety_status_update` writes for a mail that carries `f`, in order:
field, process id and value. What a detector gives is that of the detector after the
sample. -/
def updateWrites (status : Status F) (mail : Mail F) (f : F) (proc : Option ProcStat) :
    List (LogField × Int × F) :=
  match mail.channel with
  | .brakeSwitchValue => [(.brake, mail.pid, f)]
  | .acceleratorPedalValue => [(.accPedal, mail.pid, f)]
  | .vehicleSpeed =>
    [(.speed, mail.pid, f), (.cpuTime, 200, toFloat (cpuUpd status.cpu proc).usage)]
  | .accelerationSpeedLongitudinal =>
    let cus := (cusum status.cusLong f).1
    [(.accLong, mail.pid, f), (.cusumHAccLong, 100, cus.shPrev),
      (.cusumLAccLong, 101, cus.slPrev), (.cusumAccLongEstStdDev, 102, cus.estStdDev)]
  | .accelerationSpeedLateral =>
    let cus := (cusum status.cusLat f).1
    [(.accLat, mail.pid, f), (.cusumHAccLat, 103, cus.shPrev),
      (.cusumLAccLat, 104, cus.slPrev), (.cusumAccLatEstStdDev, 105, cus.estStdDev)]
  | .unknown => []

/-- The mails written to one quantity by a list of writes. -/
def writesTo (field : LogField) (writes : List (LogField × Int × F)) : List (Mail F) :=
  (writes.filter (fun write => write.1 = field)).map
    (fun write => dataLog write.2.1 write.2.2 [])

/-- The update changes each buffer by exactly the writes listed for its quantity, and so
those of other channels not at all. -/
theorem update_buffers (status : Status F) (mail : Mail F) (f : F) (proc : Option ProcStat)
    (field : LogField) :
    (safetyStatusUpdate status mail f proc).logBefore.buf field =
      (writesTo field (updateWrites status mail f proc)).foldl cbufMailWrite
        (status.logBefore.buf field) := by
  unfold safetyStatusUpdate updateWrites
  cases mail.channel with
  | unknown => rfl
  | brakeSwitchValue => cases field <;> rfl
  | acceleratorPedalValue => cases field <;> rfl
  | vehicleSpeed => cases field <;> rfl
  | accelerationSpeedLongitudinal => dsimp only; split_ifs <;> cases field <;> rfl
  | accelerationSpeedLateral => dsimp only; split_ifs <;> cases field <;> rfl

/-- The update neither counts nor ends an episode: the counts and the indicator are
those before. -/
theorem update_counters (status : Status F) (mail : Mail F) (f : F) (proc : Option ProcStat) :
    (safetyStatusUpdate status mail f proc).logBefore.count = status.logBefore.count ∧
      (safetyStatusUpdate status mail f proc).logBefore.indicator =
        status.logBefore.indicator := by
  unfold safetyStatusUpdate
  cases mail.channel with
  | unknown => exact ⟨rfl, rfl⟩
  | brakeSwitchValue => exact ⟨rfl, rfl⟩
  | acceleratorPedalValue => exact ⟨rfl, rfl⟩
  | vehicleSpeed => exact ⟨rfl, rfl⟩
  | accelerationSpeedLongitudinal => dsimp only; split_ifs <;> exact ⟨rfl, rfl⟩
  | accelerationSpeedLateral => dsimp only; split_ifs <;> exact ⟨rfl, rfl⟩

/-- The detector of an axis, so that the two can be spoken of at once. -/
def Status.detector (status : Status F) : Axis → Cusum F
  | .long => status.cusLong
  | .lat => status.cusLat

/-- The channel whose samples feed a detector. Each of the two has one. -/
def Axis.channel : Axis → CanData
  | .long => .accelerationSpeedLongitudinal
  | .lat => .accelerationSpeedLateral

/-- The decision of the detector that a mail feeds, if it feeds one. It is a function of
the status before the update. -/
def shiftDecision (status : Status F) (mail : Mail F) (f : F) : Option Int :=
  match mail.channel with
  | .accelerationSpeedLongitudinal => some (cusum status.cusLong f).2
  | .accelerationSpeedLateral => some (cusum status.cusLat f).2
  | _ => none

/-- The update starts an episode when the mail's detector reports an upward shift and
no episode is open, and points at the detector; otherwise it keeps both members. -/
theorem update_episode (status : Status F) (mail : Mail F) (f : F) (proc : Option ProcStat) :
    if shiftDecision status mail f = some 1 ∧ status.crashStatus = 0 then
      (safetyStatusUpdate status mail f proc).crashStatus = 1 ∧
        ∃ axis : Axis, mail.channel = axis.channel ∧
          (safetyStatusUpdate status mail f proc).meanI = some axis
    else
      (safetyStatusUpdate status mail f proc).crashStatus = status.crashStatus ∧
        (safetyStatusUpdate status mail f proc).meanI = status.meanI := by
  unfold safetyStatusUpdate shiftDecision
  cases mail.channel with
  | unknown => simp
  | brakeSwitchValue => simp [Status.write]
  | acceleratorPedalValue => simp [Status.write]
  | vehicleSpeed => simp [Status.write]
  | accelerationSpeedLongitudinal =>
    dsimp only
    simp only [Option.some.injEq]
    by_cases starts : (cusum status.cusLong f).2 = 1 ∧ status.crashStatus = 0
    · rw [if_pos starts, if_pos (by exact starts)]
      exact ⟨rfl, .long, rfl, rfl⟩
    · rw [if_neg starts, if_neg (by exact starts)]
      exact ⟨rfl, rfl⟩
  | accelerationSpeedLateral =>
    dsimp only
    simp only [Option.some.injEq]
    by_cases starts : (cusum status.cusLat f).2 = 1 ∧ status.crashStatus = 0
    · rw [if_pos starts, if_pos (by exact starts)]
      exact ⟨rfl, .lat, rfl, rfl⟩
    · rw [if_neg starts, if_neg (by exact starts)]
      exact ⟨rfl, rfl⟩

/-- The crash status after the update, as one value: that of a detected crash, or what
it was. -/
theorem update_crash_status (status : Status F) (mail : Mail F) (f : F)
    (proc : Option ProcStat) :
    (safetyStatusUpdate status mail f proc).crashStatus =
      if shiftDecision status mail f = some 1 ∧ status.crashStatus = 0 then 1
      else status.crashStatus := by
  have episode := update_episode status mail f proc
  split_ifs at episode ⊢
  · exact episode.1
  · exact episode.1

/-- A mail of a detector's channel is judged by that detector, as it stands before the
mail. -/
theorem shift_decision_of_channel (status : Status F) (mail : Mail F) (f : F) (axis : Axis)
    (fed : mail.channel = axis.channel) :
    shiftDecision status mail f = some (cusum (status.detector axis) f).2 := by
  unfold shiftDecision
  cases axis with
  | long => rw [fed]; rfl
  | lat => rw [fed]; rfl

/-- Only the channels of the two detectors are judged: with a decision comes the
detector that took it. -/
theorem shift_decision_some (status : Status F) (mail : Mail F) (f : F) (decision : Int)
    (decided : shiftDecision status mail f = some decision) :
    ∃ axis : Axis, mail.channel = axis.channel ∧
      (cusum (status.detector axis) f).2 = decision := by
  unfold shiftDecision at decided
  split at decided
  · exact ⟨.long, ‹_›, Option.some.inj decided⟩
  · exact ⟨.lat, ‹_›, Option.some.inj decided⟩
  · cases decided

/-- The update feeds a sample to the detector of its channel and to no other, so that
each detector sees one channel alone. -/
theorem update_detector (status : Status F) (mail : Mail F) (f : F) (proc : Option ProcStat)
    (axis : Axis) :
    (safetyStatusUpdate status mail f proc).detector axis =
      if mail.channel = axis.channel then (cusum (status.detector axis) f).1
      else status.detector axis := by
  unfold safetyStatusUpdate
  cases mail.channel with
  | accelerationSpeedLongitudinal =>
    cases axis <;> simp only [Axis.channel, ↓reduceIte, reduceCtorEq] <;> split <;> rfl
  | accelerationSpeedLateral =>
    cases axis <;> simp only [Axis.channel, ↓reduceIte, reduceCtorEq] <;> split <;> rfl
  | _ => cases axis <;> rfl

/-- The update reads the CPU statistics on mails of the speed channel only, so that the
two quantities of that channel are written together. -/
theorem update_cpu (status : Status F) (mail : Mail F) (f : F) (proc : Option ProcStat) :
    (safetyStatusUpdate status mail f proc).cpu =
      if mail.channel = .vehicleSpeed then cpuUpd status.cpu proc else status.cpu := by
  unfold safetyStatusUpdate
  cases mail.channel with
  | accelerationSpeedLongitudinal => simp only [reduceCtorEq, ↓reduceIte]; split <;> rfl
  | accelerationSpeedLateral => simp only [reduceCtorEq, ↓reduceIte]; split <;> rfl
  | _ => rfl

/-- Both functions visit exactly the quantities of the mail's channel, in the same
order, although each has a `switch` of its own. -/
theorem visited_fields (status : Status F) (mail : Mail F) (f : F) (proc : Option ProcStat) :
    (updateWrites status mail f proc).map Prod.fst =
        LogField.all.filter (fun field => field.channel = mail.channel) ∧
      (liveCalls status mail f).map Prod.fst =
        LogField.all.filter (fun field => field.channel = mail.channel) := by
  unfold updateWrites liveCalls
  cases mail.channel <;> exact ⟨rfl, rfl⟩

/-- Every live record carries the process id of its quantity, which for a sample is the
number of its channel. -/
theorem live_pid (status : Status F) (mail : Mail F) (f : F) (call : LogField × Int × F)
    (visited : call ∈ liveCalls status mail f) : call.2.1 = call.1.pid := by
  by_cases known : mail.channel = .unknown
  · simp [liveCalls, known] at visited
  · have code := pid_of_channel mail known
    unfold liveCalls at visited
    cases channel : mail.channel <;> simp only [channel, List.mem_cons, List.not_mem_nil,
      or_false, CanData.code] at visited code
    all_goals rcases visited with rfl | rfl | rfl | rfl
    all_goals first | exact code | rfl

/-- The quantities of a mail's channel that stand at the limit are those whose macro
calls raise the indicator. A count over the calls so becomes one over all quantities. -/
theorem live_calls_at_limit (status : Status F) (mail : Mail F) (f : F) :
    (liveCalls status mail f).countP
        (fun call => status.logBefore.count call.1 = statusLogAfterSize) =
      LogField.all.countP (fun field => field.channel = mail.channel ∧
        status.logBefore.count field = statusLogAfterSize) := by
  have mapped : (liveCalls status mail f).countP
        (fun call => status.logBefore.count call.1 = statusLogAfterSize) =
      ((liveCalls status mail f).map Prod.fst).countP
        (fun field => status.logBefore.count field = statusLogAfterSize) := by
    rw [List.countP_map]
    rfl
  rw [mapped, (visited_fields status mail f none).2, List.countP_filter]
  apply List.countP_congr
  intro field _
  simp [and_comm]

/-- The macro calls of a mail count the quantities of its channel. They send data
records only: those of the quantities below the limit. -/
theorem run_live_calls (status : Status F) (mail : Mail F) (f : F) (clock : Nat → Text) :
    let ran := runLive clock 0 (liveCalls status mail f) status
    ran.2 = { status with logBefore := { status.logBefore with
        count := fun field => status.logBefore.count field +
          if field.channel = mail.channel then 1 else 0
        indicator := status.logBefore.indicator + LogField.all.countP (fun field =>
          field.channel = mail.channel ∧ status.logBefore.count field = statusLogAfterSize) } } ∧
      readings (ran.1.map .value) = ((liveCalls status mail f).filter (fun call =>
        status.logBefore.count call.1 < statusLogAfterSize)).map Prod.snd ∧
      ∀ type, type ≠ .data → announces type (ran.1.map .value) = false := by
  have visited := (visited_fields status mail f none).2
  have distinct : ((liveCalls status mail f).map Prod.fst).Nodup := by
    rw [visited]
    exact LogField.all_nodup.filter _
  have lived := run_live_status clock (liveCalls status mail f) distinct 0 status
  have sent := run_live_sent clock (liveCalls status mail f) distinct 0 status
  have records := run_live_records clock (liveCalls status mail f) 0 status
  have counted : ∀ field, status.logBefore.count field +
        (if field ∈ (liveCalls status mail f).map Prod.fst then 1 else 0) =
      status.logBefore.count field + if field.channel = mail.channel then 1 else 0 := by
    intro field
    simp [visited, LogField.mem_all field]
  refine ⟨?_, ?_, ?_⟩
  · rw [lived, live_calls_at_limit, funext counted]
  · rw [← sent, readings, List.filterMap_map]
    rfl
  · intro type different
    simp only [announces, List.any_eq_false, List.mem_map]
    rintro _ ⟨mail, member, rfl⟩
    obtain ⟨_, _, _, rfl⟩ := records mail member
    simp [different.symm]

variable [LogHeader]

/-- Unless it dumps the buffers, logging changes the crash status, the counters
and the indicator, and nothing else. -/
theorem log_frame (status : Status F) (mail : Mail F) (f : F) (clock : Nat → Text)
    (calm : status.crashStatus ≠ 1) :
    ∃ crashStatus count indicator, (safetyStatusLog status mail f clock).2 =
      { status with
        crashStatus := crashStatus
        logBefore := { status.logBefore with count := count, indicator := indicator } } := by
  obtain ⟨lived, _⟩ := run_live_calls status mail f clock
  unfold safetyStatusLog
  split_ifs
  · exact ⟨_, _, _, rfl⟩
  · cases live : runLive clock 0 (liveCalls status mail f) status with
    | mk sent last =>
      rw [live] at lived
      dsimp only at lived
      simp only [recordLive, live]
      split_ifs <;> rw [lived] <;> exact ⟨_, _, _, rfl⟩

/-- Logging leaves the detectors alone, also when it dumps the buffers. -/
theorem log_detector (status : Status F) (mail : Mail F) (f : F) (clock : Nat → Text)
    (axis : Axis) :
    (safetyStatusLog status mail f clock).2.detector axis = status.detector axis := by
  by_cases dumps : status.crashStatus = 1
  · have dumped : safetyStatusLog status mail f clock = dumpCrash status clock := by
      simp [safetyStatusLog, dumps]
    rw [dumped]
    cases axis <;> rfl
  · obtain ⟨_, _, _, frame⟩ := log_frame status mail f clock dumps
    rw [frame]
    cases axis <;> rfl

/-- A mail while recording: each quantity of its channel is counted once, the
records of those below the limit are sent, and the episode ends when the
indicator, raised by the quantities that stood at the limit, reaches twelve. -/
theorem record_live (status : Status F) (mail : Mail F) (f : F) (clock : Nat → Text)
    (recording : status.crashStatus = 2) :
    let counted := status.logBefore.indicator + LogField.all.countP (fun field =>
      field.channel = mail.channel ∧ status.logBefore.count field = statusLogAfterSize)
    let recorded := recordLive status mail f clock
    readings recorded.1 = ((liveCalls status mail f).filter (fun call =>
        status.logBefore.count call.1 < statusLogAfterSize)).map Prod.snd ∧
      (announces .eventCrashEnd recorded.1 = true ↔ 12 ≤ counted) ∧
      announces .eventCrashStart recorded.1 = false ∧
      recorded.2.crashStatus = (if 12 ≤ counted then 0 else 2) ∧
      recorded.2.logBefore.indicator = (if 12 ≤ counted then 0 else counted) ∧
      ∀ field, recorded.2.logBefore.count field = status.logBefore.count field +
        if field.channel = mail.channel then 1 else 0 := by
  intro counted
  obtain ⟨lived, sentReadings, sentTypes⟩ := run_live_calls status mail f clock
  cases live : runLive clock 0 (liveCalls status mail f) status with
  | mk sent last =>
    rw [live] at lived sentReadings sentTypes
    dsimp only at lived sentReadings sentTypes
    have reached : last.logBefore.indicator = counted := by rw [lived]
    have lastCount : ∀ field, last.logBefore.count field = status.logBefore.count field +
        if field.channel = mail.channel then 1 else 0 := by
      intro field
      rw [lived]
    by_cases ends : 12 ≤ counted
    · have ended : recordLive status mail f clock =
          ((sent ++ [notifMail .eventCrashEnd (endedText last)]).map .value,
            { last with
              crashStatus := 0
              logBefore := { last.logBefore with indicator := 0 } }) := by
        simp [recordLive, live, reached, canDataSize, ends]
      rw [ended, if_pos ends, if_pos ends]
      refine ⟨?_, ?_, ?_, rfl, rfl, lastCount⟩
      · rw [List.map_append, readings_append, sentReadings]
        simp [readings]
      · simp [announces, ends]
      · have silent := sentTypes .eventCrashStart (by decide)
        rw [List.map_append, announces_append, silent]
        rfl
    · have continued : recordLive status mail f clock = (sent.map .value, last) := by
        simp [recordLive, live, reached, canDataSize, ends]
      rw [continued, if_neg ends, if_neg ends]
      refine ⟨sentReadings, ?_, sentTypes .eventCrashStart (by decide), ?_, reached, lastCount⟩
      · simp [sentTypes .eventCrashEnd (by decide), ends]
      · rw [lived]
        exact recording

end EventRecorder.SafetyStatus
