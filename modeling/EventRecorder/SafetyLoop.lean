import EventRecorder.DriverAssist
import EventRecorder.RecorderSteps
import EventRecorder.Runs

/-!
# The safety loop

One turn of the loop receives a mail and, when it is a safety mail that carries
a float, calls `safety_status_update`, `safety_da_update` and
`safety_status_log` in this order. A turn also sees what `/proc/stat` and the
clock read while it runs.

Between two turns the crash status is 0 (idle) or 2 (recording); the middle
value exists only inside the turn whose mail starts an episode. The three laws
`turn_idle`, `turn_crash` and `turn_recording` describe every turn by the crash
status that the update leaves.
-/

namespace EventRecorder.SafetyLoop

open Arithmetic CText CircularMail Detector SafetyStatus DriverAssist

universe u

/-- The mail of one turn and its readings of the environment. -/
structure Turn (F : Type u) where
  mail : Mail F
  proc : Option ProcStat
  clock : Nat → Text

/-- The static status and the static driver-assist variables, which are all that a turn
leaves to the next. -/
structure LoopState (F : Type u) where
  status : Status F
  counters : Counters

variable {F : Type u}

/-- The number of safety mails of a channel among the turns. Mails that the loop ignores
are not counted. -/
def received (channel : CanData) (turns : List (Turn F)) : Nat :=
  turns.countP fun turn => turn.mail.sample.isSome ∧ turn.mail.channel = channel

/-- One more turn adds at most its own mail to a channel, and only if the loop handles
it. -/
theorem received_snoc (channel : CanData) (turns : List (Turn F)) (turn : Turn F) :
    received channel (turns ++ [turn]) = received channel turns +
      if turn.mail.sample.isSome ∧ turn.mail.channel = channel then 1 else 0 := by
  simp [received, List.countP_append, List.countP_singleton]

variable [Arithmetic F]

/-- The state of a process whose safety thread has just run `safety_status_init`,
whether or not this has succeeded: a failure is printed, and the loop goes on. -/
def start (mallocp : Nat → Bool) (proc : Option ProcStat) : LoopState F :=
  ⟨(safetyStatusInit mallocp proc).2, Counters.initial⟩

/-- The status that `safety_status_log` receives in a turn whose mail carries `f`. -/
def LoopState.assisted (state : LoopState F) (turn : Turn F) (f : F) : Status F :=
  (safetyDaUpdate (safetyStatusUpdate state.status turn.mail f turn.proc) state.counters
    turn.mail f).2.1

/-- Driver assistance passes on the updated status but for its brake counter, which
nothing that is logged depends on. -/
theorem assisted_status (state : LoopState F) (turn : Turn F) (f : F) :
    state.assisted turn f =
      { safetyStatusUpdate state.status turn.mail f turn.proc with
        brake := (state.assisted turn f).brake } :=
  da_status _ _ _ _

/-- The crash status that reaches `safety_status_log`: one if the mail has just shown a
shift to an idle recorder, and else what it was. -/
theorem assisted_crash_status (state : LoopState F) (turn : Turn F) (f : F) :
    (state.assisted turn f).crashStatus =
      if shiftDecision state.status turn.mail f = some 1 ∧ state.status.crashStatus = 0 then 1
      else state.status.crashStatus := by
  rw [assisted_status]
  apply update_crash_status

/-- The counters and the indicator that reach `safety_status_log` are those before the
turn: neither function before it counts. -/
theorem assisted_counters (state : LoopState F) (turn : Turn F) (f : F) :
    (state.assisted turn f).logBefore.count = state.status.logBefore.count ∧
      (state.assisted turn f).logBefore.indicator = state.status.logBefore.indicator := by
  rw [assisted_status]
  apply update_counters

/-- The buffers that reach `safety_status_log` hold the update's writes, so that a dump
has the value of the crash itself. -/
theorem assisted_buffers (state : LoopState F) (turn : Turn F) (f : F) (field : LogField) :
    (state.assisted turn f).logBefore.buf field =
      (writesTo field (updateWrites state.status turn.mail f turn.proc)).foldl cbufMailWrite
        (state.status.logBefore.buf field) := by
  rw [assisted_status]
  apply update_buffers

variable [LogHeader]

/-- One iteration of the `while` loop in `safety`: the mails for the logger, the
mails for the user interface, and the state afterwards. -/
def safetyTurn (state : LoopState F) (turn : Turn F) :
    List (Read (Mail F)) × List (Mail F) × LoopState F :=
  match turn.mail.sample with
  | none => ([], [], state)
  | some f =>
    let status := safetyStatusUpdate state.status turn.mail f turn.proc
    let (assist, status, counters) := safetyDaUpdate status state.counters turn.mail f
    let (storage, status) := safetyStatusLog status turn.mail f turn.clock
    (storage, assist, ⟨status, counters⟩)

/-- The state after one turn, whatever it has sent. -/
def next (state : LoopState F) (turn : Turn F) : LoopState F := (safetyTurn state turn).2.2

/-- The mails one turn sends to the logger, as they are read from the buffers or made. -/
def storage (state : LoopState F) (turn : Turn F) : List (Read (Mail F)) :=
  (safetyTurn state turn).1

/-- The state after a list of turns, which are taken in one after the other. -/
def after (state : LoopState F) (turns : List (Turn F)) : LoopState F :=
  Runs.after next state turns

/-- The mails a list of turns sends to the logger, in order: those of each turn behind
those of the turns before it. -/
def stored (state : LoopState F) (turns : List (Turn F)) : List (Read (Mail F)) :=
  Runs.emitted next storage state turns

/-- A run over two lists of turns goes on from where the first has led. -/
theorem after_append (state : LoopState F) (turns later : List (Turn F)) :
    after state (turns ++ later) = after (after state turns) later :=
  Runs.after_append ..

/-- What the second list sends comes behind what the first does. -/
theorem stored_append (state : LoopState F) (turns later : List (Turn F)) :
    stored state (turns ++ later) = stored state turns ++ stored (after state turns) later := by
  simp [stored, after]

/-- One more turn is taken from the state after the others. -/
@[simp] theorem after_snoc (state : LoopState F) (turns : List (Turn F)) (turn : Turn F) :
    after state (turns ++ [turn]) = next (after state turns) turn :=
  Runs.after_append ..

/-- What it sends comes last. -/
@[simp] theorem stored_snoc (state : LoopState F) (turns : List (Turn F)) (turn : Turn F) :
    stored state (turns ++ [turn]) = stored state turns ++ storage (after state turns) turn := by
  simp [stored, after]

/-- A turn whose mail carries no sample changes and sends nothing, as the loop tests the
type and the tag first. -/
theorem turn_ignored (state : LoopState F) (turn : Turn F) (ignored : turn.mail.sample = none) :
    next state turn = state ∧ storage state turn = [] := by
  simp [next, storage, safetyTurn, ignored]

/-- A turn logs the status that the update and the driver assistance leave, and its own
status is what logging leaves. -/
theorem turn_logs (state : LoopState F) (turn : Turn F) (f : F)
    (sampled : turn.mail.sample = some f) :
    storage state turn = (safetyStatusLog (state.assisted turn f) turn.mail f turn.clock).1 ∧
      (next state turn).status =
        (safetyStatusLog (state.assisted turn f) turn.mail f turn.clock).2 := by
  simp [next, storage, safetyTurn, sampled, LoopState.assisted]

/-- A sample reaches the detector of its channel and no other, since nothing behind the
update touches the detectors. -/
theorem turn_detector (state : LoopState F) (turn : Turn F) (f : F)
    (sampled : turn.mail.sample = some f) (axis : Axis) :
    (next state turn).status.detector axis =
      if turn.mail.channel = axis.channel then (cusum (state.status.detector axis) f).1
      else state.status.detector axis := by
  obtain ⟨_, status⟩ := turn_logs state turn f sampled
  have passed : (state.assisted turn f).detector axis =
      (safetyStatusUpdate state.status turn.mail f turn.proc).detector axis := by
    rw [assisted_status]
    cases axis <;> rfl
  rw [status, log_detector, passed]
  exact update_detector ..

/-- A turn starts an episode when its mail feeds a detector that then reports an
upward shift while the recorder is idle. -/
def Starts (state : LoopState F) (turn : Turn F) : Prop :=
  ∃ f, turn.mail.sample = some f ∧ shiftDecision state.status turn.mail f = some 1 ∧
    state.status.crashStatus = 0

/-- An idle turn that starts no episode sends nothing and stays idle. Its counters and
the indicator stay as they were. -/
theorem turn_idle (state : LoopState F) (turn : Turn F) (idle : state.status.crashStatus = 0)
    (quiet : ¬ Starts state turn) :
    storage state turn = [] ∧ (next state turn).status.crashStatus = 0 ∧
      (next state turn).status.logBefore.count = state.status.logBefore.count ∧
      (next state turn).status.logBefore.indicator = state.status.logBefore.indicator := by
  cases sampled : turn.mail.sample with
  | none =>
    obtain ⟨same, silent⟩ := turn_ignored state turn sampled
    exact ⟨silent, by rw [same]; exact idle, by rw [same], by rw [same]⟩
  | some f =>
    obtain ⟨sent, status⟩ := turn_logs state turn f sampled
    obtain ⟨count, indicator⟩ := assisted_counters state turn f
    have undecided : ¬ (shiftDecision state.status turn.mail f = some 1 ∧
        state.status.crashStatus = 0) := by
      intro decided
      exact quiet ⟨f, sampled, decided⟩
    have idleLog : (state.assisted turn f).crashStatus = 0 := by
      rw [assisted_crash_status, if_neg undecided, idle]
    have nothing : safetyStatusLog (state.assisted turn f) turn.mail f turn.clock =
        ([], state.assisted turn f) := by simp [safetyStatusLog, idleLog]
    rw [nothing] at sent status
    exact ⟨sent, by rw [status]; exact idleLog, by rw [status]; exact count,
      by rw [status]; exact indicator⟩

/-- The turn that starts an episode announces it and dumps the buffers the
update has just written; it counts nothing. -/
theorem turn_crash (state : LoopState F) (turn : Turn F) (f : F)
    (sampled : turn.mail.sample = some f)
    (decided : shiftDecision state.status turn.mail f = some 1)
    (idle : state.status.crashStatus = 0) :
    storage state turn = (dumpCrash (state.assisted turn f) turn.clock).1 ∧
      (next state turn).status = (dumpCrash (state.assisted turn f) turn.clock).2 ∧
      (next state turn).status.crashStatus = 2 ∧
      (next state turn).status.logBefore.count = state.status.logBefore.count ∧
      (next state turn).status.logBefore.indicator = state.status.logBefore.indicator := by
  obtain ⟨sent, status⟩ := turn_logs state turn f sampled
  obtain ⟨count, indicator⟩ := assisted_counters state turn f
  have crashed : (state.assisted turn f).crashStatus = 1 := by
    rw [assisted_crash_status, if_pos ⟨decided, idle⟩]
  have dumped : safetyStatusLog (state.assisted turn f) turn.mail f turn.clock =
      dumpCrash (state.assisted turn f) turn.clock := by simp [safetyStatusLog, crashed]
  rw [dumped] at sent status
  refine ⟨sent, status, ?_, ?_, ?_⟩
  · rw [status]
    simp [dumpCrash, crashed]
  · rw [status]
    exact count
  · rw [status]
    exact indicator

/-- A turn while recording counts each quantity of its channel once and sends
the records of those below the limit. It ends the episode when the indicator,
raised by the quantities that stood at the limit, reaches twelve. -/
theorem turn_recording (state : LoopState F) (turn : Turn F) (f : F)
    (sampled : turn.mail.sample = some f) (recording : state.status.crashStatus = 2) :
    let counted := state.status.logBefore.indicator + LogField.all.countP (fun field =>
      field.channel = turn.mail.channel ∧
        state.status.logBefore.count field = statusLogAfterSize)
    readings (storage state turn) =
        ((liveCalls (state.assisted turn f) turn.mail f).filter (fun call =>
          state.status.logBefore.count call.1 < statusLogAfterSize)).map Prod.snd ∧
      (announces .eventCrashEnd (storage state turn) = true ↔ 12 ≤ counted) ∧
      announces .eventCrashStart (storage state turn) = false ∧
      (next state turn).status.crashStatus = (if 12 ≤ counted then 0 else 2) ∧
      (next state turn).status.logBefore.indicator = (if 12 ≤ counted then 0 else counted) ∧
      ∀ field, (next state turn).status.logBefore.count field =
        state.status.logBefore.count field +
          if field.channel = turn.mail.channel then 1 else 0 := by
  intro counted
  obtain ⟨sent, status⟩ := turn_logs state turn f sampled
  obtain ⟨count, indicator⟩ := assisted_counters state turn f
  have recordingLog : (state.assisted turn f).crashStatus = 2 := by
    rw [assisted_crash_status, recording]
    simp
  have logged : safetyStatusLog (state.assisted turn f) turn.mail f turn.clock =
      recordLive (state.assisted turn f) turn.mail f turn.clock := by
    simp [safetyStatusLog, recordingLog]
  have law := record_live (state.assisted turn f) turn.mail f turn.clock recordingLog
  rw [count, indicator] at law
  rw [sent, status, logged]
  exact law

/-- A turn from an idle or recording state announces a crash exactly when it starts an
episode: the other branches send no such mail. -/
theorem announces_start_iff (state : LoopState F) (turn : Turn F)
    (settled : state.status.crashStatus = 0 ∨ state.status.crashStatus = 2) :
    announces .eventCrashStart (storage state turn) = true ↔ Starts state turn := by
  rcases settled with idle | recording
  · by_cases starts : Starts state turn
    · obtain ⟨f, sampled, decided, _⟩ := starts
      obtain ⟨sent, _⟩ := turn_crash state turn f sampled decided idle
      have announced : announces .eventCrashStart (storage state turn) = true := by
        rw [sent]
        simp [dumpCrash, announces]
      exact ⟨fun _ => ⟨f, sampled, decided, idle⟩, fun _ => announced⟩
    · obtain ⟨silent, _⟩ := turn_idle state turn idle starts
      simp [silent, announces, starts]
  · have never : ¬ Starts state turn := by
      rintro ⟨_, _, _, idle⟩
      omega
    cases sampled : turn.mail.sample with
    | none =>
      obtain ⟨_, silent⟩ := turn_ignored state turn sampled
      simp [silent, announces, never]
    | some f =>
      obtain ⟨_, _, quiet, _⟩ := turn_recording state turn f sampled recording
      simp [quiet, never]

end EventRecorder.SafetyLoop
