import EventRecorder.CrashBrackets
import EventRecorder.TakenRecords

/-!
# The announcements of the first crash

Of the mails that the safety loop sends in a run, the logger takes those up to the first
end of a crash. Among these the start, the middle and the end of one crash are announced,
and the number that the first two carry is that of the samples that the detector had seen
when it found the shift.
-/

namespace EventRecorder.FirstCrash

open Arithmetic CText Detector SafetyStatus DriverAssist SafetyLoop SentMails CrashBrackets
open LoggerRoutes Shutdown TakenRecords PreCrashWindow

/-- The records that announce something about a crash: its start, its middle and its
end. -/
def isAnnouncement : LogType → Bool
  | .eventCrashStart | .eventCrashMid | .eventCrashEnd => true
  | _ => false

section

variable {F : Type}

/-- A mail of safety ends a crash if its record does, as the type of a record is looked
at through the mail. -/
theorem ends_storage (record : Log F) :
    ends (storageMail record) = decide (record.type = .eventCrashEnd) := by
  simp [ends, storageMail, Mail.logType]

/-- A record taken from a mail has the mail's type, so that what a mail announces can be
told of either. -/
theorem record_type (mail : Mail F) (record : Log F) (found : recordOf mail = some record) :
    mail.logType = some record.type := by
  obtain ⟨_, type, data, _⟩ := mail
  cases data <;> by_cases storage : type = mtStorage <;> simp_all [recordOf, Mail.logType]

/-- Mails that log no event neither end a crash nor announce one, which holds of all
that safety sends outside of a crash. -/
theorem no_event (mails : List (Mail F))
    (others : ∀ mail ∈ mails, ∀ type, mail.logType = some type → isEvent type = false) :
    (∀ mail ∈ mails, ends mail = false) ∧ taken isAnnouncement mails = [] := by
  have running : ∀ mail ∈ mails, ends mail = false := by
    intro mail member
    by_contra ended
    have last : mail.type = mtStorage ∧ mail.logType = some .eventCrashEnd := by
      simpa [ends] using ended
    have none := others mail member .eventCrashEnd last.2
    cases none
  refine ⟨running, ?_⟩
  rw [taken, until_end_none mails running, List.filter_eq_nil_iff]
  intro record member announces
  obtain ⟨mail, sent, found⟩ := List.mem_filterMap.mp member
  have none := others mail sent record.type (record_type mail record found)
  cases type : record.type <;> rw [type] at none announces <;> simp_all [isEvent, isAnnouncement]

/-- The pointer points to a counter: that of the detector of the axis on which the shift
was found. -/
theorem mean_count (status : Status F) (axis : Axis) (pointer : status.meanI = some axis) :
    status.meanCount = (status.detector axis).meanI := by
  cases axis <;> simp [Status.meanCount, pointer, Status.detector]

end

/-! ## What the detectors have counted -/

section

variable {F : Type} [Arithmetic F]

/-- What reaches the logging of the detectors is what the turn leaves, since nothing
between them touches a detector. -/
theorem assisted_detector [LogHeader] (state : LoopState F) (turn : Turn F) (f : F)
    (sampled : turn.mail.sample = some f) (axis : Axis) :
    (state.assisted turn f).detector axis = (next state turn).status.detector axis := by
  obtain ⟨_, status⟩ := turn_logs state turn f sampled
  rw [status, log_detector]

/-- A detector has counted the samples of its channel, and its threshold is five. The
count goes on over crashes. -/
theorem detector_counts [LogHeader] (mallocp : Nat → Bool) (proc : Option ProcStat)
    (turns : List (Turn F)) (axis : Axis) :
    ((after (start mallocp proc) turns).status.detector axis).meanI =
        received axis.channel turns ∧
      ((after (start mallocp proc) turns).status.detector axis).h = flit 5 := by
  induction turns using List.reverseRecOn with
  | nil => cases axis <;> exact ⟨rfl, rfl⟩
  | append_singleton turns turn inductionHypothesis =>
    obtain ⟨counted, threshold⟩ := inductionHypothesis
    rw [after_snoc, received_snoc, ← counted]
    cases sampled : turn.mail.sample with
    | none =>
      rw [(turn_ignored _ turn sampled).1]
      simpa using threshold
    | some f =>
      rw [turn_detector _ turn f sampled axis]
      by_cases own : turn.mail.channel = axis.channel
      · simpa [own, cusum] using threshold
      · simpa [own] using threshold

variable [LogHeader]

/-- So they have when a moment is logged, its own sample included. -/
theorem assisted_counts (mallocp : Nat → Bool) (proc : Option ProcStat)
    (before : List (Moment F)) (moment : Moment F) (f : F)
    (sampled : moment.turn.mail.sample = some f) (axis : Axis) :
    let status := (Runs.after step (start mallocp proc) before).assisted moment.turn f
    (status.detector axis).meanI = received axis.channel ((before ++ [moment]).map Moment.turn) ∧
      (status.detector axis).h = flit 5 := by
  intro status
  rw [assisted_detector _ _ f sampled axis, after_moments, ← after_snoc, List.map_append]
  exact detector_counts mallocp proc _ axis

/-- The first crash opens an episode with nothing counted, as nothing has been stored
before. -/
theorem opened_recording (mallocp : Nat → Bool) (proc : Option ProcStat)
    (before : List (Turn F)) (trigger : Turn F)
    (first : announces .eventCrashStart (stored (start mallocp proc) before) = false)
    (starts : Starts (after (start mallocp proc) before) trigger) :
    PostCrashWindow.Recording [] (after (start mallocp proc) (before ++ [trigger])) := by
  rw [after_snoc]
  rcases PostCrashWindow.run_phase mallocp proc before with ⟨_, untouched⟩ | ⟨started, _⟩
  · exact PostCrashWindow.first_crash _ trigger untouched starts
  · rw [first] at started
    cases started

/-! ## The run -/

/-- `LOG_EVENT_CRASH_START` with its text: the number of the sample, the thresholds and
the time. -/
def startedLog (number : Nat) (time : Text) : Log F where
  type := .eventCrashStart
  data := .log (snprintf LogHeader.logDataSize ("Crash Started ".toList ++ decimal number ++
    ' ' :: render (flit 5 : F) ++ ' ' :: render (flit 5 : F) ++ ' ' :: time))
  dbTime := []

/-- `LOG_EVENT_CRASH_MID` with its text, to which the time is added when it is logged. -/
def midLog (number : Nat) : Log F where
  type := .eventCrashMid
  data := .log (snprintf LogHeader.logDataSize ("Crash Mid ".toList ++ decimal number))
  dbTime := []

/-- `LOG_EVENT_CRASH_END` with its text, likewise. The number in it is that of the last
sample. -/
def endedLog (number : Nat) : Log F where
  type := .eventCrashEnd
  data := .log (snprintf LogHeader.logDataSize ("Crash Ended ".toList ++ decimal number))
  dbTime := []

/-- The first shift of a run: a mail of the channel of an axis shows it at some time, and
with this mail the channel has got so many samples. -/
def FirstShift (first : LoopState F) (moments : List (Moment F)) (axis : Axis) (number : Nat)
    (time : Text) : Prop :=
  ∃ before trigger later, moments = before ++ trigger :: later ∧ sent first before = [] ∧
    Starts (Runs.after step first before) trigger.turn ∧
    trigger.turn.mail.channel = axis.channel ∧
    number = received axis.channel ((before ++ [trigger]).map Moment.turn) ∧
    time = trigger.turn.clock 0

/-- The first end of a run: when it is announced, the channel has got so many samples. -/
def FirstEnd (first : LoopState F) (moments : List (Moment F)) (axis : Axis) (number : Nat) :
    Prop :=
  ∃ before final later, moments = before ++ final :: later ∧
    (∀ mail ∈ sent first before, ends mail = false) ∧
    (∃ mail ∈ sentAt (Runs.after step first before) final, ends mail = true) ∧
    number = received axis.channel ((before ++ [final]).map Moment.turn)

/-- A later moment changes neither the axis of the first shift nor its number and time. -/
theorem FirstShift.later {first : LoopState F} {moments : List (Moment F)} {axis : Axis}
    {number : Nat} {time : Text} (shift : FirstShift first moments axis number time)
    (moment : Moment F) : FirstShift first (moments ++ [moment]) axis number time := by
  obtain ⟨before, trigger, later, rfl, rest⟩ := shift
  exact ⟨before, trigger, later ++ [moment], by simp, rest⟩

/-- A later moment does not change the first end either. -/
theorem FirstEnd.later {first : LoopState F} {moments : List (Moment F)} {axis : Axis}
    {number : Nat} (last : FirstEnd first moments axis number) (moment : Moment F) :
    FirstEnd first (moments ++ [moment]) axis number := by
  obtain ⟨before, final, later, rfl, rest⟩ := last
  exact ⟨before, final, later ++ [moment], by simp, rest⟩

/-- An end has been announced among the mails of the run. -/
theorem FirstEnd.announced {first : LoopState F} {moments : List (Moment F)} {axis : Axis}
    {number : Nat} (last : FirstEnd first moments axis number) :
    ∃ mail ∈ sent first moments, ends mail = true := by
  obtain ⟨before, final, later, rfl, _, ⟨mail, member, ended⟩, _⟩ := last
  refine ⟨mail, ?_, ended⟩
  rw [sent, Runs.emitted_append, Runs.emitted_cons]
  exact List.mem_append_right _ (List.mem_append_left _ member)

/-- The announcements of a status whose pointer and detectors are known are the records
of the three texts. -/
theorem announcement_texts (status : Status F) (axis : Axis) (time : Text)
    (pointer : status.meanI = some axis) (threshold : ∀ axis, (status.detector axis).h = flit 5) :
    (notifMail .eventCrashStart (startedText status time) : Mail F) =
        storageMail (startedLog (status.detector axis).meanI time) ∧
      (notifMail .eventCrashMid (midText status) : Mail F) =
        storageMail (midLog (status.detector axis).meanI) := by
  have count := mean_count status axis pointer
  have long : status.cusLong.h = flit 5 := threshold .long
  have lat : status.cusLat.h = flit 5 := threshold .lat
  simp [notifMail, storageMail, startedLog, midLog, startedText, midText, count, long, lat]

/-- How far the first crash of a run has come: nothing was announced yet, the recording
is going on, or its end has been announced. -/
inductive Progress (first : LoopState F) (moments : List (Moment F)) (state : LoopState F) : Prop
  | quiet (idle : state.status.crashStatus = 0) (silent : sent first moments = [])
  | running (axis : Axis) (number : Nat) (time : Text)
      (recording : state.status.crashStatus = 2) (pointer : state.status.meanI = some axis)
      (shift : FirstShift first moments axis number time)
      (goesOn : ∀ mail ∈ sent first moments, ends mail = false)
      (records : taken isAnnouncement (sent first moments) =
        [startedLog number time, midLog number])
  | finished (axis : Axis) (number last : Nat) (time : Text)
      (shift : FirstShift first moments axis number time)
      (ended : FirstEnd first moments axis last)
      (records : taken isAnnouncement (sent first moments) =
        [startedLog number time, midLog number, endedLog last])

/-- The moment of the first shift takes the run from quiet to recording, and announces
the start and, with the dump, the middle. -/
theorem opens_progress (mallocp : Nat → Bool) (proc : Option ProcStat)
    (before : List (Moment F)) (moment : Moment F)
    (silent : sent (start mallocp proc) before = [])
    (starts : Starts (Runs.after step (start mallocp proc) before) moment.turn)
    (recorded : ∀ field,
      Recorded ((Runs.after step (start mallocp proc) before).status.logBefore.buf field))
    (clean : NoEventShown (Runs.after step (start mallocp proc) before) moment) :
    Progress (start mallocp proc) (before ++ [moment])
      (step (Runs.after step (start mallocp proc) before) moment) := by
  obtain ⟨_, _, crash, axis, fed, pointer, _⟩ :=
    opening (Runs.after step (start mallocp proc) before) moment starts recorded clean
  obtain ⟨f, sampled, _⟩ := id starts
  have mails := sent_crash _ moment f sampled starts
  have shown := dumps_shown _ moment starts recorded
  generalize resolved moment.memory 1 _ = dumped at mails shown
  obtain ⟨running, none⟩ := no_event dumped (by
    intro mail member type same
    rcases shown mail member with ⟨_, _, _, rfl⟩ | ⟨position, exposed, rfl⟩
    · rw [← Option.some.inj same]
      rfl
    · exact clean position exposed type same)
  have counts := assisted_counts mallocp proc before moment f sampled
  obtain ⟨started, mid⟩ := announcement_texts _ axis (moment.turn.clock 0)
    (by rwa [step_mean _ moment f sampled] at pointer)
    fun axis => (counts axis).2
  rw [started, mid, (counts axis).1] at mails
  have shift : FirstShift (start mallocp proc) (before ++ [moment]) axis
      (received axis.channel ((before ++ [moment]).map Moment.turn)) (moment.turn.clock 0) :=
    ⟨before, moment, [], rfl, silent, starts, fed, rfl, rfl⟩
  generalize received axis.channel ((before ++ [moment]).map Moment.turn) = number
    at mails shift
  have split : sent (start mallocp proc) (before ++ [moment]) =
      [storageMail (startedLog number (moment.turn.clock 0))] ++
        (dumped ++ [storageMail (midLog number)]) := by
    rw [sent_snoc, silent, mails]
    rfl
  refine .running axis number _ crash pointer shift ?_ ?_
  · rw [split, List.forall_mem_append, List.forall_mem_append]
    refine ⟨?_, running, ?_⟩ <;> simp [ends_storage, startedLog, midLog]
  · rw [split, taken_append _ _ (by simp [ends_storage, startedLog]),
      taken_append _ _ running, none]
    rfl

/-- A moment while the crash is recorded leaves the run recording, or completes the
window and announces the end. -/
theorem records_progress (mallocp : Nat → Bool) (proc : Option ProcStat)
    (before : List (Moment F)) (moment : Moment F) (axis : Axis) (number : Nat) (time : Text)
    (runs : (Runs.after step (start mallocp proc) before).status.crashStatus = 2)
    (pointer : (Runs.after step (start mallocp proc) before).status.meanI = some axis)
    (shift : FirstShift (start mallocp proc) before axis number time)
    (goesOn : ∀ mail ∈ sent (start mallocp proc) before, ends mail = false)
    (records : taken isAnnouncement (sent (start mallocp proc) before) =
      [startedLog number time, midLog number]) :
    Progress (start mallocp proc) (before ++ [moment])
      (step (Runs.after step (start mallocp proc) before) moment) := by
  cases sampled : moment.turn.mail.sample with
  | none =>
    obtain ⟨silent, same, _⟩ := ignored _ moment sampled
    have still : sent (start mallocp proc) (before ++ [moment]) =
        sent (start mallocp proc) before := by
      rw [sent_snoc, silent, List.append_nil]
    exact .running axis number time (by rwa [same]) (by rwa [same]) (shift.later moment)
      (by rwa [still]) (by rwa [still])
  | some f =>
    obtain ⟨_, _, kept, _⟩ := recording _ moment f sampled runs
    obtain ⟨mails, data, crash, mean, ranMean⟩ := sent_recording _ moment f sampled runs
    obtain ⟨lived, _⟩ := run_live_calls
      ((Runs.after step (start mallocp proc) before).assisted moment.turn f) moment.turn.mail f
      moment.turn.clock
    obtain ⟨counted, _⟩ := assisted_counts mallocp proc before moment f sampled axis
    generalize runLive moment.turn.clock 0 _ _ = ran at mails data crash ranMean lived
    obtain ⟨running, none⟩ := no_event ran.1 fun mail member type same => by
      obtain ⟨_, _, _, rfl⟩ := data mail member
      rw [← Option.some.inj same]
      rfl
    have count : ran.2.meanCount =
        received axis.channel ((before ++ [moment]).map Moment.turn) := by
      have same : ran.2.detector axis = _ := congrArg (Status.detector · axis) lived
      rw [mean_count ran.2 axis (by rw [ranMean, ← mean, kept, pointer]), same, ← counted]
      cases axis <;> rfl
    by_cases ended : 12 ≤ ran.2.logBefore.indicator
    · rw [if_pos ended, endedText, count] at mails
      refine .finished axis number _ time (shift.later moment)
        ⟨before, moment, [], rfl, goesOn, ?_, rfl⟩ ?_
      · rw [mails]
        exact ⟨_, List.mem_append_right _ List.mem_cons_self, rfl⟩
      · rw [sent_snoc, mails, taken_append _ _ goesOn, taken_append _ _ running, records,
          none]
        rfl
    · rw [if_neg ended, List.append_nil] at mails
      refine .running axis number time (crash.trans (if_neg ended)) (kept.trans pointer)
        (shift.later moment) ?_ ?_
      · rw [sent_snoc, mails, List.forall_mem_append]
        exact ⟨goesOn, running⟩
      · rw [sent_snoc, mails, taken_append _ _ goesOn, records, none]
        rfl

/-- In every run in which memory shows no event, the progress is known, by induction on
the moments. -/
theorem run_progress (mallocp : Nat → Bool) (proc : Option ProcStat) (moments : List (Moment F))
    (success : (safetyStatusInit mallocp proc : Nat × Status F).1 = 0)
    (clean : Runs.EveryStep step (start mallocp proc) moments
      fun _ state moment => NoEventShown state moment) :
    Progress (start mallocp proc) moments (Runs.after step (start mallocp proc) moments) := by
  induction moments using List.reverseRecOn with
  | nil => exact .quiet (init_idle mallocp proc).1 rfl
  | append_singleton before moment inductionHypothesis =>
    obtain ⟨earlier, now⟩ := (Runs.every_step_append step _ before [moment] _).mp clean
    rw [Runs.after_append]
    rcases inductionHypothesis earlier with ⟨idle, silent⟩ |
      ⟨axis, number, time, runs, pointer, shift, goesOn, records⟩ |
      ⟨axis, number, last, time, shift, ended, records⟩
    · by_cases starts : Starts (Runs.after step (start mallocp proc) before) moment.turn
      · exact opens_progress mallocp proc before moment silent starts
          (moments_recorded mallocp proc before success) (now [] moment [] rfl)
      · obtain ⟨none, still⟩ := sent_idle _ moment idle starts
        exact .quiet still (by rw [sent_snoc, silent, none, List.append_nil])
    · exact records_progress mallocp proc before moment axis number time runs pointer shift
        goesOn records
    · refine .finished axis number last time (shift.later moment) (ended.later moment) ?_
      rw [sent_snoc, taken, until_end_ended _ _ ended.announced]
      exact records

/-- Where a crash has ended, its three announcements are what the logger takes, since it
takes the mails up to the first end only. -/
theorem first_crash (mallocp : Nat → Bool) (proc : Option ProcStat) (moments : List (Moment F))
    (success : (safetyStatusInit mallocp proc : Nat × Status F).1 = 0)
    (clean : Runs.EveryStep step (start mallocp proc) moments
      fun _ state moment => NoEventShown state moment)
    (ended : ∃ mail ∈ sent (start mallocp proc) moments, ends mail = true) :
    ∃ axis number last time, FirstShift (start mallocp proc) moments axis number time ∧
      FirstEnd (start mallocp proc) moments axis last ∧
      taken isAnnouncement (sent (start mallocp proc) moments) =
        [startedLog number time, midLog number, endedLog last] := by
  obtain ⟨mail, member, ends⟩ := ended
  rcases run_progress mallocp proc moments success clean with ⟨_, silent⟩ |
    ⟨_, _, _, _, _, _, goesOn, _⟩ | ⟨axis, number, last, time, shift, final, records⟩
  · rw [silent] at member
    cases member
  · rw [goesOn mail member] at ends
    cases ends
  · exact ⟨axis, number, last, time, shift, final, records⟩

end

end EventRecorder.FirstCrash
