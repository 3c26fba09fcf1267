import EventRecorder.SentMails

/-!
# Crash episodes

The events of a crash come in threes, and the records of a crash between the first
and the last of them. Between two turns the crash status tells how far an episode
has come, and the pointer to the sample counter of the detector that opened it is
set from then on.

A dump that shows memory may show anything there, another event included. Apart
from that the episodes are well bracketed.
-/

namespace EventRecorder.CrashBrackets

open Arithmetic CText CircularMail Detector SafetyStatus DriverAssist SafetyLoop QuietRuns
open PostCrashWindow PreCrashWindow SentMails

/-- The types of the records that log an event: the start, the middle and the end of a
crash, and an error that is one. -/
def isEvent : LogType → Bool
  | .eventCrashStart | .eventCrashMid | .eventCrashEnd | .eventError => true
  | _ => false

/-- The events of some episodes, each of them whole and one behind the other. -/
def episodes (count : Nat) : List LogType :=
  (List.replicate count [.eventCrashStart, .eventCrashMid, .eventCrashEnd]).flatten

/-- After some events an episode is open: it was started and has not ended since. -/
def Open (events : List LogType) : Prop :=
  ∃ earlier later, events = earlier ++ .eventCrashStart :: later ∧ .eventCrashEnd ∉ later

section

variable {F : Type}

/-- The events among some mails, in order; mails without a record and records of values
are passed over. -/
def events (mails : List (Mail F)) : List LogType := (mails.filterMap Mail.logType).filter isEvent

/-- Each data record among some mails is sent while an episode is open, the mails
having been sent after some events. -/
def Inside (before : List LogType) (mails : List (Mail F)) : Prop :=
  ∀ earlier mail later, mails = earlier ++ mail :: later → mail.logType = some .data →
    Open (before ++ events earlier)

variable [Arithmetic F]

/-- A mail of an acceleration channel on which `cusum` returns 1, whether or not an
episode is open. -/
def Shifts (state : LoopState F) (turn : Turn F) : Prop :=
  ∃ axis : Axis, ∃ f, turn.mail.sample = some f ∧ turn.mail.channel = axis.channel ∧
    (cusum (state.status.detector axis) f).2 = 1

/-- The values of `status->mean_i` that `safety_status_log` dereferences in a turn, so
that a null pointer among them would be seen. -/
def dereferenced (state : LoopState F) (turn : Turn F) : List (Option Axis) :=
  match turn.mail.sample with
  | none => []
  | some f =>
    let status := state.assisted turn f
    if status.crashStatus = 0 then []
    else if status.crashStatus = 1 then [status.meanI, status.meanI]
    else
      let status := (runLive turn.clock 0 (liveCalls status turn.mail f) status).2
      if canDataSize - 1 + 7 ≤ status.logBefore.indicator then [status.meanI] else []

variable [LogHeader]

/-- A moment opens an episode: the start of a crash is among the mails it sends, however
it got there. -/
def Opens (state : LoopState F) (moment : Moment F) : Prop :=
  .eventCrashStart ∈ events (sentAt state moment)

/-- The last episode was opened by a mail that feeds the detector of an axis, and none
was opened since. -/
def Triggered (first : LoopState F) (moments : List (Moment F)) (axis : Axis) : Prop :=
  ∃ before trigger later, moments = before ++ trigger :: later ∧
    Opens (Runs.after step first before) trigger ∧
    trigger.turn.mail.channel = axis.channel ∧
    .eventCrashStart ∉ events (sent (Runs.after step first (before ++ [trigger])) later)

/-- The episodes of a run are well bracketed: in their events, in what opens them, in
what is sent inside them, and in the counter they show. -/
structure WellBracketed (first : LoopState F) (moments : List (Moment F)) : Prop where
  /-- The events form a prefix of whole episodes. -/
  bracketed : ∃ count, events (sent first moments) <+: episodes count
  /-- An episode is opened by each mail that shows a shift while none is open, and by
  no other. -/
  opens : ∀ before moment rest, moments = before ++ moment :: rest →
    (Opens (Runs.after step first before) moment ↔
      Shifts (Runs.after step first before) moment.turn ∧ ¬ Open (events (sent first before)))
  /-- Data records are sent inside an episode. -/
  inside : Inside [] (sent first moments)
  /-- The pointer that is dereferenced points to the counter of the detector that
  opened the last episode. -/
  pointer : ∀ before moment rest, moments = before ++ moment :: rest →
    ∀ pointer ∈ dereferenced (Runs.after step first before) moment.turn,
      ∃ axis, pointer = some axis ∧ Triggered first (before ++ [moment]) axis

/-- What memory shows to a dump is no event. It is a condition on the exposed positions
alone. -/
def NoEventShown (state : LoopState F) (moment : Moment F) : Prop :=
  ∀ position, Exposed state moment.turn position →
    ∀ type, (moment.memory position).logType = some type → isEvent type = false

end

/-! ## Events -/

section

variable {F : Type}

/-- The events of mails in two groups follow each other. -/
@[simp] theorem events_append (earlier later : List (Mail F)) :
    events (earlier ++ later) = events earlier ++ events later := by
  simp [events]

/-- Mails that are no events do not count, whatever else they are. -/
theorem events_none (mails : List (Mail F))
    (others : ∀ mail ∈ mails, ∀ type, mail.logType = some type → isEvent type = false) :
    events mails = [] := by
  rw [events, List.filter_eq_nil_iff]
  intro type member
  obtain ⟨mail, sent, same⟩ := List.mem_filterMap.mp member
  simp [others mail sent type same]

/-- Data records are no events. -/
theorem events_records (mails : List (Mail F))
    (records : ∀ mail ∈ mails, IsRecord mail) : events mails = [] := by
  apply events_none
  intro mail member type same
  obtain ⟨_, _, _, rfl⟩ := records mail member
  rw [← Option.some.inj same]
  rfl

/-- One episode more comes behind the others, with its three events. -/
theorem episodes_succ (count : Nat) : episodes (count + 1) =
    episodes count ++ [.eventCrashStart, .eventCrashMid, .eventCrashEnd] := by
  rw [episodes, List.replicate_succ', List.flatten_concat]
  rfl

/-- After whole episodes none is open, since the last start has its end behind it. -/
theorem not_open_episodes (count : Nat) : ¬ Open (episodes count) := by
  rintro ⟨earlier, later, split, running⟩
  cases count with
  | zero => simp [episodes] at split
  | succ count =>
    rw [episodes_succ] at split
    cases later using List.reverseRecOn with
    | nil =>
      have last := congrArg List.getLast? split
      simp at last
    | append_singleton later type =>
      have shape : episodes count ++ [.eventCrashStart, .eventCrashMid, .eventCrashEnd] =
          episodes count ++ [.eventCrashStart, .eventCrashMid] ++ [.eventCrashEnd] := by simp
      rw [shape, ← List.cons_append, ← List.append_assoc] at split
      obtain ⟨_, last⟩ := List.append_inj' split rfl
      rw [← last] at running
      exact running (List.mem_append_right _ List.mem_cons_self)

/-- After a start an episode is open until it ends, whatever other events come. -/
theorem open_started (earlier later : List LogType) (running : .eventCrashEnd ∉ later) :
    Open (earlier ++ .eventCrashStart :: later) := ⟨earlier, later, rfl, running⟩

/-- Behind the start of an episode mails are inside as long as it does not end. -/
theorem inside_started (before : List LogType) (started : Mail F) (mails : List (Mail F))
    (type : started.logType = some .eventCrashStart) (running : .eventCrashEnd ∉ events mails) :
    Inside before (started :: mails) := by
  intro earlier mail later split record
  cases earlier with
  | nil =>
    obtain ⟨rfl, _⟩ := List.cons.inj split
    rw [type] at record
    cases record
  | cons first earlier =>
    obtain ⟨rfl, rest⟩ := List.cons.inj split
    have start : events [started] = [.eventCrashStart] := by simp [events, type, isEvent]
    rw [← List.singleton_append, events_append, start]
    apply open_started
    intro member
    have all : events mails = events earlier ++ events (mail :: later) := by
      rw [← events_append, rest]
      rfl
    rw [all] at running
    exact running (List.mem_append_left _ member)

/-- Without mails there is none outside an episode. -/
theorem inside_nil (before : List LogType) : Inside before ([] : List (Mail F)) := by
  intro earlier mail later split
  simp at split

/-- The mails of a further step are judged after the events before, those of the first
step included. -/
theorem inside_append (before : List LogType) (earlier later : List (Mail F))
    (first : Inside before earlier) (second : Inside (before ++ events earlier) later) :
    Inside before (earlier ++ later) := by
  intro left mail right split record
  rcases List.append_eq_append_iff.mp split with ⟨between, rest, same⟩ | ⟨between, rest, same⟩
  · have opened := second between mail right same record
    rwa [rest, events_append, ← List.append_assoc]
  · cases between with
    | nil =>
      have opened := second [] mail right same.symm record
      rw [List.append_nil] at rest
      rw [← rest]
      simpa [events] using opened
    | cons other between =>
      obtain ⟨rfl, _⟩ := List.cons.inj same
      exact first left mail between rest record

end

/-! ## One turn -/

section

variable {F : Type} [Arithmetic F]

/-- A turn starts an episode when its mail shows a shift and the recorder is idle. -/
theorem starts_iff (state : LoopState F) (turn : Turn F) :
    Starts state turn ↔ Shifts state turn ∧ state.status.crashStatus = 0 := by
  constructor
  · rintro ⟨f, sampled, decided, idle⟩
    obtain ⟨axis, fed, shift⟩ := shift_decision_some _ _ _ _ decided
    exact ⟨⟨axis, f, sampled, fed, shift⟩, idle⟩
  · rintro ⟨⟨axis, f, sampled, fed, shift⟩, idle⟩
    exact ⟨f, sampled, by rw [shift_decision_of_channel _ _ _ axis fed, shift], idle⟩

/-- The update sets the pointer when it starts an episode, to the detector of the
mail's channel, and else keeps it. -/
theorem update_mean (status : Status F) (mail : Mail F) (f : F) (proc : Option ProcStat) :
    if shiftDecision status mail f = some 1 ∧ status.crashStatus = 0 then
      ∃ axis : Axis, mail.channel = axis.channel ∧
        (safetyStatusUpdate status mail f proc).meanI = some axis
    else (safetyStatusUpdate status mail f proc).meanI = status.meanI := by
  have episode := update_episode status mail f proc
  split_ifs at episode ⊢
  · exact episode.2
  · exact episode.2

/-- Driver assistance leaves the pointer as the update has set it. -/
theorem assisted_mean (state : LoopState F) (turn : Turn F) (f : F) :
    (state.assisted turn f).meanI =
      (safetyStatusUpdate state.status turn.mail f turn.proc).meanI := by
  rw [assisted_status]

variable [LogHeader]

/-- What a turn leaves of the pointer is what the update does: logging only reads it. -/
theorem step_mean (state : LoopState F) (moment : Moment F) (f : F)
    (sampled : moment.turn.mail.sample = some f) :
    (step state moment).status.meanI = (state.assisted moment.turn f).meanI := by
  obtain ⟨_, status⟩ := turn_logs state moment.turn f sampled
  have next : (step state moment).status = _ := status
  rw [next]
  by_cases dumps : (state.assisted moment.turn f).crashStatus = 1
  · have dumped : safetyStatusLog (state.assisted moment.turn f) moment.turn.mail f
        moment.turn.clock = dumpCrash (state.assisted moment.turn f) moment.turn.clock := by
      simp [safetyStatusLog, dumps]
    rw [dumped]
    rfl
  · obtain ⟨_, _, _, frame⟩ := log_frame (state.assisted moment.turn f) moment.turn.mail f
      moment.turn.clock dumps
    rw [frame]

/-- What the moment that opens an episode does: it announces the start and the middle,
sends data records between them, and sets the pointer before it is dereferenced. -/
theorem opening (state : LoopState F) (moment : Moment F) (starts : Starts state moment.turn)
    (recorded : ∀ field, Recorded (state.status.logBefore.buf field))
    (clean : NoEventShown state moment) :
    events (sentAt state moment) = [.eventCrashStart, .eventCrashMid] ∧
      (∀ before, Inside before (sentAt state moment)) ∧
      (step state moment).status.crashStatus = 2 ∧
      ∃ axis : Axis, moment.turn.mail.channel = axis.channel ∧
        (step state moment).status.meanI = some axis ∧
        ∀ pointer ∈ dereferenced state moment.turn, pointer = some axis := by
  obtain ⟨f, sampled, decided, idle⟩ := id starts
  have sent := sent_crash state moment f sampled starts
  have shown := dumps_shown state moment starts recorded
  generalize resolved moment.memory 1 (dumps state moment.turn) = dumped at sent shown
  obtain ⟨_, _, crash, _⟩ := turn_crash state moment.turn f sampled decided idle
  have mean := update_mean state.status moment.turn.mail f moment.turn.proc
  rw [if_pos ⟨decided, idle⟩, ← assisted_mean] at mean
  obtain ⟨axis, fed, pointer⟩ := mean
  have quiet : events dumped = [] := by
    apply events_none
    intro mail member type same
    rcases shown mail member with ⟨_, _, _, rfl⟩ | ⟨position, exposed, rfl⟩
    · rw [← Option.some.inj same]
      rfl
    · exact clean position exposed type same
  have behind (text : Text) : events (dumped ++ [notifMail .eventCrashMid text]) =
      [.eventCrashMid] := by
    rw [events_append, quiet]
    rfl
  have crashed : (state.assisted moment.turn f).crashStatus = 1 := by
    rw [assisted_crash_status, if_pos ⟨decided, idle⟩]
  refine ⟨?_, ?_, crash, axis, fed, ?_, ?_⟩
  · rw [sent, ← List.singleton_append, events_append, behind]
    rfl
  · intro before
    rw [sent]
    exact inside_started before _ _ rfl (by simp [behind])
  · rw [step_mean state moment f sampled, pointer]
  · intro other member
    simp only [dereferenced, sampled, crashed, Nat.one_ne_zero, ↓reduceIte, List.mem_cons,
      List.not_mem_nil, or_false, or_self] at member
    rw [member, pointer]

/-- What a moment while recording does: it sends data records and may announce the
end behind them, and it keeps the pointer. -/
theorem recording (state : LoopState F) (moment : Moment F) (f : F)
    (sampled : moment.turn.mail.sample = some f) (runs : state.status.crashStatus = 2) :
    (events (sentAt state moment) = [] ∧ (step state moment).status.crashStatus = 2 ∨
        events (sentAt state moment) = [.eventCrashEnd] ∧
          (step state moment).status.crashStatus = 0) ∧
      (∀ before, Open before → Inside before (sentAt state moment)) ∧
      (step state moment).status.meanI = state.status.meanI ∧
      ∀ pointer ∈ dereferenced state moment.turn, pointer = state.status.meanI := by
  obtain ⟨sent, records, crash, mean, ranMean⟩ := sent_recording state moment f sampled runs
  have kept : (state.assisted moment.turn f).meanI = state.status.meanI := by
    have law := update_mean state.status moment.turn.mail f moment.turn.proc
    rwa [if_neg (by rintro ⟨_, idle⟩; omega), ← assisted_mean] at law
  have crashed : (state.assisted moment.turn f).crashStatus = 2 := by
    rw [assisted_crash_status, runs]
    simp
  have silent := events_records _ records
  refine ⟨?_, ?_, mean.trans kept, ?_⟩
  · rw [sent, crash, events_append, silent]
    split_ifs
    · exact .inr ⟨rfl, rfl⟩
    · exact .inl ⟨rfl, rfl⟩
  · intro before opened earlier mail later split record
    have live : earlier ++ [mail] <+: (runLive moment.turn.clock 0
        (liveCalls (state.assisted moment.turn f) moment.turn.mail f)
          (state.assisted moment.turn f)).1 := by
      have whole : earlier ++ [mail] <+: sentAt state moment := ⟨later, by simp [split]⟩
      rw [sent] at whole
      split_ifs at whole
      · rcases List.prefix_concat_iff.mp whole with all | fewer
        · obtain ⟨_, last⟩ := List.append_inj' all rfl
          rw [(List.cons.inj last).1] at record
          cases record
        · exact fewer
      · rwa [List.append_nil] at whole
    have none : events earlier = [] := events_records earlier fun other member =>
      records other (live.subset (List.mem_append_left _ member))
    rwa [none, List.append_nil]
  · intro pointer member
    simp only [dereferenced, sampled, crashed, OfNat.ofNat_ne_zero, OfNat.ofNat_ne_one,
      ↓reduceIte] at member
    split_ifs at member
    · rw [List.mem_singleton.mp member, ranMean, kept]
    · cases member

/-- A moment whose mail is no sample does nothing, and dereferences nothing. -/
theorem ignored (state : LoopState F) (moment : Moment F)
    (none : moment.turn.mail.sample = none) :
    sentAt state moment = [] ∧ step state moment = state ∧ dereferenced state moment.turn = [] := by
  obtain ⟨same, silent⟩ := turn_ignored state moment.turn none
  refine ⟨by rw [sentAt, silent]; rfl, same, ?_⟩
  simp only [dereferenced, none]

/-- An idle moment that opens no episode does nothing either, and does not look at the
pointer. -/
theorem quiet (state : LoopState F) (moment : Moment F) (idle : state.status.crashStatus = 0)
    (calm : ¬ Starts state moment.turn) :
    sentAt state moment = [] ∧ (step state moment).status.crashStatus = 0 ∧
      dereferenced state moment.turn = [] := by
  obtain ⟨silent, still⟩ := sent_idle state moment idle calm
  refine ⟨silent, still, ?_⟩
  unfold dereferenced
  cases sampled : moment.turn.mail.sample with
  | none => rfl
  | some f =>
    have undecided : ¬ (shiftDecision state.status moment.turn.mail f = some 1 ∧
        state.status.crashStatus = 0) := fun both => calm ⟨f, sampled, both⟩
    have crash : (state.assisted moment.turn f).crashStatus = 0 := by
      rw [assisted_crash_status, if_neg undecided, idle]
    simp only [crash, ↓reduceIte]

/-! ## Runs -/

/-- How far the last episode of a run has come: none is open behind whole ones, or one
is with its first two events and a pointer to the detector that opened it. -/
def Phase (first : LoopState F) (before : List (Moment F)) (state : LoopState F) : Prop :=
  (∃ count, state.status.crashStatus = 0 ∧ events (sent first before) = episodes count) ∨
    ∃ count axis, state.status.crashStatus = 2 ∧
      events (sent first before) = episodes count ++ [.eventCrashStart, .eventCrashMid] ∧
      state.status.meanI = some axis ∧ Triggered first before axis

/-- An episode is open exactly while the recorder records, so that the events and the
crash status say the same. -/
theorem Phase.open_iff {first : LoopState F} {before : List (Moment F)} {state : LoopState F}
    (phase : Phase first before state) :
    Open (events (sent first before)) ↔ state.status.crashStatus ≠ 0 := by
  rcases phase with ⟨count, idle, whole⟩ | ⟨count, _, runs, part, _⟩
  · rw [whole, idle]
    exact iff_of_false (not_open_episodes count) (by simp)
  · rw [part, runs]
    exact iff_of_true (open_started _ _ (by decide)) (by decide)

/-- The last episode stays the one it was while none is opened, also behind its end. -/
theorem triggered_later (first : LoopState F) (before : List (Moment F)) (moment : Moment F)
    (axis : Axis) (triggered : Triggered first before axis)
    (none : ¬ Opens (Runs.after step first before) moment) :
    Triggered first (before ++ [moment]) axis := by
  obtain ⟨earlier, trigger, later, rfl, opens, fed, others⟩ := triggered
  refine ⟨earlier, trigger, later ++ [moment], by simp, opens, fed, ?_⟩
  have behind : Runs.after step first (earlier ++ trigger :: later) =
      Runs.after step (Runs.after step first (earlier ++ [trigger])) later := by simp
  rw [behind] at none
  rw [sent_snoc, events_append, List.mem_append]
  exact not_or.mpr ⟨others, none⟩

/-- The moment that opens an episode is its trigger, with nothing behind it yet. -/
theorem triggered_now (first : LoopState F) (before : List (Moment F)) (moment : Moment F)
    (axis : Axis) (opens : Opens (Runs.after step first before) moment)
    (fed : moment.turn.mail.channel = axis.channel) :
    Triggered first (before ++ [moment]) axis :=
  ⟨before, moment, [], rfl, opens, fed, by simp [sent, events]⟩

/-- What holds at a moment of a run: the same as of a whole run, said of its one step
and after the events before. -/
structure MomentSound (first : LoopState F) (before : List (Moment F)) (state : LoopState F)
    (moment : Moment F) : Prop where
  opens : Opens state moment ↔ Shifts state moment.turn ∧ ¬ Open (events (sent first before))
  inside : Inside (events (sent first before)) (sentAt state moment)
  pointer : ∀ pointer ∈ dereferenced state moment.turn,
    ∃ axis, pointer = some axis ∧ Triggered first (before ++ [moment]) axis
  phase : Phase first (before ++ [moment]) (step state moment)

/-- A moment at which nothing is sent leaves the events as they are, so that the phase
stays. -/
theorem silent_snoc (first : LoopState F) (before : List (Moment F)) (moment : Moment F)
    (silent : sentAt (Runs.after step first before) moment = []) :
    events (sent first (before ++ [moment])) = events (sent first before) := by
  rw [sent_snoc, silent, List.append_nil]

/-- A moment between two episodes opens the next or does nothing. It opens one exactly
if its mail shows a shift, and both announcements stand around the dumps. -/
theorem idle_sound (first : LoopState F) (before : List (Moment F)) (moment : Moment F)
    (count : Nat) (idle : (Runs.after step first before).status.crashStatus = 0)
    (whole : events (sent first before) = episodes count)
    (recorded : ∀ field, Recorded ((Runs.after step first before).status.logBefore.buf field))
    (clean : NoEventShown (Runs.after step first before) moment) :
    MomentSound first before (Runs.after step first before) moment := by
  have between : ¬ Open (events (sent first before)) := by
    rw [whole]
    exact not_open_episodes count
  have started := starts_iff (Runs.after step first before) moment.turn
  by_cases starts : Starts (Runs.after step first before) moment.turn
  · obtain ⟨types, inside, crash, axis, fed, pointer, read⟩ :=
      opening (Runs.after step first before) moment starts recorded clean
    have opens : Opens (Runs.after step first before) moment := by
      rw [Opens, types]
      exact List.mem_cons_self
    have now : Triggered first (before ++ [moment]) axis :=
      triggered_now first before moment axis opens fed
    constructor
    case opens => exact iff_of_true opens ⟨(started.mp starts).1, between⟩
    case inside => exact inside _
    case pointer => exact fun other member => ⟨axis, read other member, now⟩
    case phase =>
      refine .inr ⟨count, axis, crash, ?_, pointer, now⟩
      rw [sent_snoc, events_append, whole, types]
  · obtain ⟨silent, still, unread⟩ := quiet (Runs.after step first before) moment idle starts
    constructor
    case opens =>
      refine iff_of_false ?_ fun both => starts (started.mpr ⟨both.1, idle⟩)
      simp [Opens, silent, events]
    case inside =>
      rw [silent]
      exact inside_nil _
    case pointer => simp [unread]
    case phase => exact .inl ⟨count, still, by rw [silent_snoc _ _ _ silent, whole]⟩

/-- A moment of an open episode goes on with it or ends it. It opens none, as the status
is not idle, and sends its records inside. -/
theorem open_sound (first : LoopState F) (before : List (Moment F)) (moment : Moment F)
    (count : Nat) (axis : Axis) (runs : (Runs.after step first before).status.crashStatus = 2)
    (part : events (sent first before) = episodes count ++ [.eventCrashStart, .eventCrashMid])
    (mean : (Runs.after step first before).status.meanI = some axis)
    (triggered : Triggered first before axis)
    (opened : Open (events (sent first before))) :
    MomentSound first before (Runs.after step first before) moment := by
  have never (closed : ¬ Opens (Runs.after step first before) moment) :
      Triggered first (before ++ [moment]) axis :=
    triggered_later first before moment axis triggered closed
  cases sampled : moment.turn.mail.sample with
  | none =>
    obtain ⟨silent, same, unread⟩ := ignored (Runs.after step first before) moment sampled
    have closed : ¬ Opens (Runs.after step first before) moment := by
      simp [Opens, silent, events]
    constructor
    case opens => exact iff_of_false closed fun both => both.2 opened
    case inside =>
      rw [silent]
      exact inside_nil _
    case pointer => simp [unread]
    case phase =>
      refine .inr ⟨count, axis, ?_, ?_, ?_, never closed⟩
      · rw [same]
        exact runs
      · rw [silent_snoc _ _ _ silent, part]
      · rw [same]
        exact mean
  | some f =>
    obtain ⟨types, inside, kept, read⟩ :=
      recording (Runs.after step first before) moment f sampled runs
    have closed : ¬ Opens (Runs.after step first before) moment := by
      rcases types with ⟨types, _⟩ | ⟨types, _⟩ <;> simp [Opens, types]
    constructor
    case opens => exact iff_of_false closed fun both => both.2 opened
    case inside => exact inside _ opened
    case pointer => exact fun other member => ⟨axis, (read other member).trans mean, never closed⟩
    case phase =>
      rcases types with ⟨types, crash⟩ | ⟨types, crash⟩
      · refine .inr ⟨count, axis, crash, ?_, kept.trans mean, never closed⟩
        rw [sent_snoc, events_append, part, types, List.append_nil]
      · refine .inl ⟨count + 1, crash, ?_⟩
        rw [sent_snoc, events_append, part, types, episodes_succ, List.append_assoc]
        rfl

/-- A moment takes an episode one step further, if memory shows no event, and leaves the
next phase. -/
theorem moment_sound (first : LoopState F) (before : List (Moment F)) (moment : Moment F)
    (phase : Phase first before (Runs.after step first before))
    (recorded : ∀ field,
      Recorded ((Runs.after step first before).status.logBefore.buf field))
    (clean : NoEventShown (Runs.after step first before) moment) :
    MomentSound first before (Runs.after step first before) moment := by
  have running := phase.open_iff
  rcases phase with ⟨count, idle, whole⟩ | ⟨count, axis, runs, part, mean, triggered⟩
  · exact idle_sound first before moment count idle whole recorded clean
  · exact open_sound first before moment count axis runs part mean triggered
      (running.mpr (by omega))

/-- In every run in which memory shows no event, the phase is known at each moment, and
every record so far was sent inside an episode. -/
theorem run_sound (mallocp : Nat → Bool) (proc : Option ProcStat) (moments : List (Moment F))
    (success : (safetyStatusInit mallocp proc : Nat × Status F).1 = 0)
    (clean : Runs.EveryStep step (start mallocp proc) moments
      fun _ state moment => NoEventShown state moment)
    (before rest : List (Moment F)) (split : moments = before ++ rest) :
    Phase (start mallocp proc) before (Runs.after step (start mallocp proc) before) ∧
      Inside [] (sent (start mallocp proc) before) := by
  induction before using List.reverseRecOn generalizing rest with
  | nil =>
    refine ⟨.inl ⟨0, (init_idle mallocp proc).1, rfl⟩, ?_⟩
    exact inside_nil []
  | append_singleton before moment inductionHypothesis =>
    have earlier : moments = before ++ moment :: rest := by simpa using split
    obtain ⟨phase, inside⟩ := inductionHypothesis (moment :: rest) earlier
    have sound := moment_sound (start mallocp proc) before moment phase
      (moments_recorded mallocp proc before success)
      (clean before moment rest earlier)
    refine ⟨?_, ?_⟩
    · rw [Runs.after_append]
      exact sound.phase
    · rw [sent_snoc]
      exact inside_append _ _ _ inside (by simpa using sound.inside)

/-- In every run in which no dump shows an event where it reads no written mail, the
episodes are well bracketed.

Proof: the phase of the last episode is an invariant of the run, together with buffers
that hold data records only. By the phase each moment is one between episodes or one of
an open episode, and what holds at every moment makes up what holds of the run. -/
theorem episodes_bracketed (mallocp : Nat → Bool) (proc : Option ProcStat)
    (moments : List (Moment F))
    (success : (safetyStatusInit mallocp proc : Nat × Status F).1 = 0)
    (clean : Runs.EveryStep step (start mallocp proc) moments
      fun _ state moment => NoEventShown state moment) :
    WellBracketed (start mallocp proc) moments := by
  have sound (before : List (Moment F)) (moment : Moment F) (rest : List (Moment F))
      (split : moments = before ++ moment :: rest) :
      MomentSound (start mallocp proc) before (Runs.after step (start mallocp proc) before)
        moment :=
    moment_sound (start mallocp proc) before moment
      (run_sound mallocp proc moments success clean before (moment :: rest) split).1
      (moments_recorded mallocp proc before success)
      (clean before moment rest split)
  obtain ⟨phase, inside⟩ :=
    run_sound mallocp proc moments success clean moments [] (List.append_nil _).symm
  constructor
  case bracketed =>
    rcases phase with ⟨count, _, whole⟩ | ⟨count, _, _, part, _⟩
    · exact ⟨count, whole ▸ List.prefix_rfl⟩
    · exact ⟨count + 1, [.eventCrashEnd], by rw [part, episodes_succ, List.append_assoc]; rfl⟩
  case opens => exact fun before moment rest split => (sound before moment rest split).opens
  case inside => exact inside
  case pointer => exact fun before moment rest split => (sound before moment rest split).pointer

end

/-- Where memory shows data records the crash of that run is well bracketed, although
its dumps read slots that were never written. -/
theorem quiet_crash_bracketed :
    WellBracketed (start (fun _ => true) none) (quietMoments (dataLog 0 0 [])) := by
  refine episodes_bracketed (fun _ => true) none _ rfl ?_
  intro before moment rest split position _ type same
  have member : moment ∈ quietMoments (dataLog 0 0 []) := by simp [split]
  obtain ⟨turn, _, rfl⟩ := List.mem_map.mp member
  obtain rfl := Option.some.inj same
  rfl

/-- Its dump begins outside the buffer of the brake channel. Where memory shows the end
of a crash there, that is the second event. -/
theorem shown_end_not_bracketed :
    ¬ WellBracketed (start (fun _ => true) none)
      (quietMoments (notifMail .eventCrashEnd [])) := by
  rintro ⟨⟨count, bracketed⟩, _⟩
  obtain ⟨text, rest, crash⟩ := quiet_sent (notifMail .eventCrashEnd [])
  have types : events (sent (start (fun _ => true) none)
      (quietMoments (notifMail .eventCrashEnd []))) =
        .eventCrashStart :: .eventCrashEnd :: events rest := by
    rw [crash]
    rfl
  obtain ⟨more, whole⟩ := bracketed
  rw [types] at whole
  cases count with
  | zero => simp [episodes] at whole
  | succ count => simp [episodes, List.replicate_succ] at whole

end EventRecorder.CrashBrackets
