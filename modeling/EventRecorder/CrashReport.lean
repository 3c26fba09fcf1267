import EventRecorder.FirstCrash
import EventRecorder.Plots
import EventRecorder.Rearming
import EventRecorder.RecordedCrash

/-!
# The crash as it is plotted

The texts in which the recorder announces a crash are read by another program. What this
reads is what was seen, whatever threads ran between, if the texts fit, every record was
inserted and no other thread announces a crash.
-/

namespace EventRecorder.CrashReport

open Arithmetic CText PreparedStatements Durability LoggerRoutes Shutdown
open Database hiding dbGetTime
open SafetyStatus (safetyStatusInit init_idle Status ProcStat)
open SafetyLoop (LoopState Turn start)
open SentMails (Moment sent)
open FirstCrash TakenRecords Formats Timestamps Plots
open Sqlite (Row Connection connected ofConnection)

/-- The codes of the log types as `sqlite.py` takes them: those of the three
announcements are the numbers in its queries, and no other type has one of these. -/
structure Selectable [LogHeader] : Prop where
  started : LogHeader.logCode .eventCrashStart = 32
  mid : LogHeader.logCode .eventCrashMid = 64
  ended : LogHeader.logCode .eventCrashEnd = 128
  apart : ∀ type other, isAnnouncement type = true →
    LogHeader.logCode other = LogHeader.logCode type → other = type
  below : ∀ type, isAnnouncement type = true →
    LogHeader.logCode type < LogHeader.logCode .error

/-- The texts of the announcements have room, up to a number of samples, and the threshold
of the detectors is printed as a word. -/
structure Fits (F : Type) [Arithmetic F] [LogHeader] (samples : Nat) : Prop where
  word : render (flit 5 : F) ≠ [] ∧ ' ' ∉ render (flit 5 : F)
  room : ∀ number ≤ samples,
    (decimal number).length + 2 * (render (flit 5 : F)).length + 40 < LogHeader.logDataSize

/-- A time that the clock reads while records are logged, in whatever state of the world
it is asked. -/
def Reads {W F : Type} (env : Environment W F) (clock : Clock) : Prop :=
  ∃ world, (env.clock world).1 = dbGetTime clock

/-! ## What is selected -/

section

variable {W F : Type} [Arithmetic F] [LogHeader]

omit [Arithmetic F] in
/-- The time behind a record does not change its type, so that it is selected by the
same query. -/
theorem prepared_type (env : Environment W F) (record log : Log F)
    (prepared : Prepared env record log) : log.type = record.type := by
  obtain ⟨world, rfl⟩ := prepared
  unfold timed
  split_ifs <;> rfl

/-- By the code of an announcement the rows of its type are selected, and of those the
column with the text is returned. -/
theorem selected_row (codes : Selectable) (sha3 : Sha.Sha3) (type : LogType)
    (announces : isAnnouncement type = true) (log : Log F) (timestamp : Text) :
    selected (LogHeader.logCode type) (entryType log, recordRow sha3 log timestamp) =
      if log.type = type then some (LogData.text log.data) else none := by
  by_cases same : log.type = type
  · subst same
    have below := codes.below log.type announces
    have other : log.type ≠ .data := by
      intro data
      rw [data] at announces
      cases announces
    have logs : entryType log = .logs := by
      rw [entryType, Log.code, if_pos below, if_neg other]
    simp [selected, recordRow, hashedRow, recordColumns, logs, Log.code]
  · have differs : LogHeader.logCode log.type ≠ LogHeader.logCode type := fun equal =>
      same (codes.apart type log.type announces equal)
    rw [if_neg same]
    cases table : entryType log <;>
      simp [selected, recordRow, hashedRow, recordColumns, table, Log.code, differs]

/-- So from the rows of the calls the texts of that type are selected, in order. -/
theorem select_rows (codes : Selectable) (sha3 : Sha.Sha3) (type : LogType)
    (announces : isAnnouncement type = true) (calls : List (Log F × Nat))
    (groups : List (List (Row F))) (rows : List.Forall₂ (RecordsRow sha3) calls groups)
    (success : ∀ call ∈ calls, call.2 = 0) :
    select (LogHeader.logCode type) groups.flatten =
      (calls.filter fun call => call.1.type = type).map fun call => LogData.text call.1.data := by
  induction rows with
  | nil => rfl
  | cons row _ inductionHypothesis =>
    obtain ⟨first, others⟩ := List.forall_mem_cons.mp success
    obtain ⟨timestamp, rfl⟩ := row first
    have later := inductionHypothesis others
    rw [List.flatten_cons, List.singleton_append, select, List.filterMap_cons,
      selected_row codes sha3 type announces, List.filter_cons]
    rw [select] at later
    split_ifs with same <;> simp_all

/-- If one record of a type comes before the end of the crash or with it, its text as
logged is all that is selected. -/
theorem select_single (codes : Selectable) (env : Environment W F) (type : LogType)
    (announces : isAnnouncement type = true) (records : List (Log F)) (record : Log F)
    (single : records.filter (fun record => record.type = type) = [record])
    (calls : List (Log F × Nat)) (groups : List (List (Row F)))
    (logged : List.Forall₂ (fun record call => Prepared env record call.1) records calls)
    (rows : List.Forall₂ (RecordsRow env.sha3) calls groups)
    (success : ∀ call ∈ calls, call.2 = 0) (stored : List (Row F))
    (order : stored.Perm groups.flatten) :
    ∃ log, Prepared env record log ∧
      select (LogHeader.logCode type) stored = [LogData.text log.data] := by
  have alike : List.Forall₂ (fun record call => Prepared env record call.1)
      (records.filter fun record => record.type = type)
      (calls.filter fun call => call.1.type = type) := by
    apply List.rel_filter _ logged
    intro record call prepared
    simp [prepared_type env record call.1 prepared]
  rw [single] at alike
  obtain ⟨call, others, prepared, none, filtered⟩ := List.forall₂_cons_left_iff.mp alike
  obtain rfl := List.forall₂_nil_left_iff.mp none
  refine ⟨call.1, prepared, ?_⟩
  have same := order.filterMap (selected (LogHeader.logCode type))
  have all := select_rows codes env.sha3 type announces calls groups rows success
  rw [filtered] at all
  rw [select] at all ⊢
  rw [all] at same
  exact List.perm_singleton.mp same

end

/-! ## What is read -/

section

variable {W F : Type} [Arithmetic F] [LogHeader]

/-- The message that announces the start, with the number of the sample and the
thresholds of the two detectors. It is not cut, as it fits. -/
theorem started_message (env : Environment W F) (samples number : Nat) (fits : Fits F samples)
    (seen : number ≤ samples) (clock : Clock) (log : Log F)
    (prepared : Prepared env (startedLog number (dbGetTime clock)) log) :
    LogData.text log.data = "Crash Started ".toList ++ decimal number ++
      ' ' :: render (flit 5 : F) ++ ' ' :: render (flit 5 : F) ++ ' ' :: dbGetTime clock := by
  obtain ⟨world, rfl⟩ := prepared
  have room := fits.room number seen
  have length := timestamp_length clock
  have head : "Crash Started ".toList.length = 14 := rfl
  change snprintf _ _ = _
  apply List.take_of_length_le
  simp only [List.length_append, List.length_cons, length, head]
  omega

/-- The messages that announce the middle and the end, with the time behind them that is
read when they are logged. -/
theorem later_message (env : Environment W F) (samples number : Nat) (fits : Fits F samples)
    (seen : number ≤ samples) (times : ∀ world, ∃ clock, (env.clock world).1 = dbGetTime clock)
    (record log : Log F) (head : Text) (short : head.length ≤ 12)
    (type : record.type = .eventCrashMid ∨ record.type = .eventCrashEnd)
    (data : record.data = .log (snprintf LogHeader.logDataSize (head ++ decimal number)))
    (prepared : Prepared env record log) :
    ∃ clock, Reads env clock ∧
      LogData.text log.data = head ++ decimal number ++ ' ' :: dbGetTime clock := by
  obtain ⟨world, rfl⟩ := prepared
  obtain ⟨clock, read⟩ := times world
  have room := fits.room number seen
  have length := timestamp_length clock
  have whole : snprintf LogHeader.logDataSize (head ++ decimal number) =
      head ++ decimal number := by
    apply List.take_of_length_le
    simp only [List.length_append]
    omega
  have behind : snprintf LogHeader.logDataSize (' ' :: dbGetTime clock) =
      ' ' :: dbGetTime clock := by
    apply List.take_of_length_le
    simp only [List.length_cons, length]
    omega
  refine ⟨clock, ⟨world, read⟩, ?_⟩
  rw [timed, if_pos type]
  simp only [LogData.text, data, whole, read, behind]

omit [LogHeader] [Arithmetic F] in
/-- No more samples of a channel are seen than there are moments, which bounds the
digits of their number. -/
theorem received_le (channel : CanData) (before later : List (Moment F)) (moment : Moment F) :
    SafetyLoop.received channel ((before ++ [moment]).map Moment.turn) ≤
      (before ++ moment :: later).length := by
  refine List.countP_le_length.trans ?_
  simp

/-- Three announcements, logged and inserted, are taken apart into what they announce.

Proof: each type has one row, which the query for its code finds, and of its message the
fields are read back, since none was cut. -/
theorem plotted (codes : Selectable) (parse : Text → Text → Option (List Text))
    (parses : ParsesFields parse) (samples : Nat) (fits : Fits F samples) (number last : Nat)
    (seen : number ≤ samples) (later : last ≤ samples) (started : Clock) (env : Environment W F)
    (times : ∀ world, ∃ clock, (env.clock world).1 = dbGetTime clock)
    (records : List (Log F)) (announcements : (records.filter fun record =>
      isAnnouncement record.type) = [startedLog number (dbGetTime started), midLog number,
        endedLog last])
    (calls : List (Log F × Nat)) (groups : List (List (Row F)))
    (logged : List.Forall₂ (fun record call => Prepared env record call.1) records calls)
    (rows : List.Forall₂ (RecordsRow env.sha3) calls groups)
    (inserted : ∀ call ∈ calls, call.2 = 0) (stored : List (Row F))
    (order : stored.Perm groups.flatten) :
    ∃ mid ended : Clock, Reads env mid ∧ Reads env ended ∧
      plotGetTime parse stored =
        some (decimal number, render (flit 5 : F), render (flit 5 : F)) ∧
      plotGetTotalTime parse stored =
        some (timedelta (mid.time.truncated.since started.time.truncated),
          timedelta (ended.time.truncated.since mid.time.truncated)) := by
  have single (type : LogType) (announces : isAnnouncement type = true) :
      records.filter (fun record => record.type = type) =
        [startedLog number (dbGetTime started), midLog number, endedLog last].filter
          fun record => record.type = type := by
    rw [← announcements, List.filter_filter]
    apply List.filter_congr
    intro record _
    by_cases same : record.type = type
    · simp [same, announces]
    · simp [same]
  have chosen (type : LogType) (announces : isAnnouncement type = true) (record : Log F)
      (only : [startedLog number (dbGetTime started), midLog number, endedLog last].filter
        (fun record => record.type = type) = [record]) :=
    select_single codes env type announces records record
      ((single type announces).trans only) calls groups logged rows inserted stored order
  obtain ⟨first, firstPrepared, firstSelected⟩ := chosen .eventCrashStart rfl
    (startedLog number (dbGetTime started)) rfl
  obtain ⟨second, secondPrepared, secondSelected⟩ := chosen .eventCrashMid rfl (midLog number) rfl
  obtain ⟨third, thirdPrepared, thirdSelected⟩ := chosen .eventCrashEnd rfl (endedLog last) rfl
  have start := started_message env samples number fits seen started first firstPrepared
  obtain ⟨mid, midRead, middle⟩ := later_message env samples number fits seen times _ second
    "Crash Mid ".toList (by decide) (.inl rfl) rfl secondPrepared
  obtain ⟨ended, endedRead, final⟩ := later_message env samples last fits later times _ third
    "Crash Ended ".toList (by decide) (.inr rfl) rfl thirdPrepared
  rw [codes.started, start] at firstSelected
  rw [codes.mid, middle] at secondSelected
  rw [codes.ended, final] at thirdSelected
  exact ⟨mid, ended, midRead, endedRead, plot_messages parse parses stored number last _ fits.word
    started mid ended firstSelected secondSelected thirdSelected⟩

end

/-! ## A crash that ends -/

/-- A schedule that lets the logger take each mail as soon as it is sent, up to an end. -/
theorem direct_stops {F : Type} [Arithmetic F] (types : LogType → Bool) (mailDataSize : Nat)
    (office : PostOffice.Office) (mails : List (Mail F)) (state : Routes F)
    (pending : state.pending = mails) (empty : state.fromSafety = [])
    (goesOn : state.stopped = false) (whole : state.broken = false)
    (ended : ∃ mail ∈ mails, ends mail = true) :
    ∃ actions : List (Action F), (∀ action ∈ actions, Calm types action) ∧
      (Runs.after (step mailDataSize office .direct) state actions).stopped = true := by
  induction mails generalizing state with
  | nil => simp at ended
  | cons mail mails inductionHypothesis =>
    have taken : Runs.after (step mailDataSize office .direct) state [.safety, .logger true] =
        loggerTakes { state with pending := mails, fromSafety := [] } ⟨mail, true⟩ := by
      simp [step, pending, empty, goesOn, whole]
    by_cases last : ends mail = true
    · refine ⟨[.safety, .logger true], by simp [Calm], ?_⟩
      rw [taken]
      exact last
    · obtain ⟨actions, calm, stopped⟩ := inductionHypothesis
        (loggerTakes { state with pending := mails, fromSafety := [] } ⟨mail, true⟩) rfl rfl
        (by simpa [loggerTakes] using last) whole
        (by simpa [last] using ended)
      refine ⟨[.safety, .logger true] ++ actions, ?_, ?_⟩
      · simpa [Calm] using calm
      · rw [Runs.after_append, taken]
        exact stopped

/-- The beginning of a year, a time that can be read and written. -/
def epoch : Clock where
  time := ⟨2024, 1, 1, 0, 0, 0, 0⟩
  valid := by decide
  four := by decide

/-- A turn at that time, and with everything else as it was. -/
def stamp (turn : Turn ℚ) : Turn ℚ := { turn with clock := fun _ => dbGetTime epoch }

/-- The run of a first crash and its whole window at that time, where memory shows data
records. -/
def stampedMoments (turns : List (Turn ℚ)) : List (Moment ℚ) :=
  turns.map fun turn => ⟨stamp turn, fun _ => dataLog 0 0 []⟩

/-- The turns of stamped moments are the stamped turns. -/
theorem stamped_turns (turns : List (Turn ℚ)) :
    (stampedMoments turns).map Moment.turn = turns.map stamp := by
  simp [stampedMoments]

/-- The time does not matter for what is received, so that the counts of the unstamped
run can be used. -/
theorem received_stamped (channel : CanData) (turns : List (Turn ℚ)) :
    SafetyLoop.received channel (turns.map stamp) = SafetyLoop.received channel turns := by
  rw [SafetyLoop.received, List.countP_map]
  rfl

/-- A stamped jump behind enough zeros opens an episode with nothing counted, as the
unstamped one does. -/
theorem stamped_jump (zeros : List (Turn ℚ)) (silent : ∀ turn ∈ zeros, turn.mail.sample = some 0)
    (many : 80 ≤ SafetyLoop.received .accelerationSpeedLongitudinal zeros) :
    SafetyLoop.stored (start (fun _ => true) none) (zeros.map stamp) = [] ∧
      SafetyLoop.Starts (SafetyLoop.after (start (fun _ => true) none) (zeros.map stamp))
        (stamp QuietRuns.jump) ∧
      PostCrashWindow.Recording [] (SafetyLoop.after (start (fun _ => true) none)
        ((zeros ++ [QuietRuns.jump]).map stamp)) := by
  have stamped : ∀ turn ∈ zeros.map stamp, turn.mail.sample = some 0 := by
    intro turn member
    obtain ⟨zero, among, rfl⟩ := List.mem_map.mp member
    exact silent zero among
  have atRest := QuietRuns.start_at_rest (fun _ => true) none
  obtain ⟨nothing, idle⟩ := QuietRuns.zeros_silent (zeros.map stamp) stamped atRest
    (init_idle (fun _ => true) none).1
  have starts := QuietRuns.jump_starts (stamp QuietRuns.jump) rfl rfl
    (QuietRuns.zeros_at_rest _ stamped (atRest .long))
    (by rw [Nat.zero_add]; exact many.trans (received_stamped _ _).ge) idle
  refine ⟨nothing, starts, ?_⟩
  rw [List.map_append]
  exact opened_recording (fun _ => true) none _ _ (by rw [nothing]; rfl) starts

/-- The prelude has enough zeros, and the jump behind it starts the recording of the
first episode. -/
theorem prelude_recording : PostCrashWindow.Recording []
    (SafetyLoop.after (start (fun _ => true) none)
      ((QuietRuns.prelude ++ [QuietRuns.jump]).map stamp)) := by
  refine (stamped_jump QuietRuns.prelude (fun turn member => ?_) ?_).2.2
  · rw [List.eq_of_mem_replicate member]
    rfl
  · rw [QuietRuns.prelude, QuietRuns.received_replicate, if_pos rfl]

/-- Where a recording stops, the end of a crash is announced, which is what the runs of
a logger have to be closed by. -/
theorem closing_ends {F : Type} [Arithmetic F] [LogHeader] (first : LoopState F)
    (moments : List (Moment F)) (moment : Moment F) (f : F)
    (sampled : moment.turn.mail.sample = some f)
    (recording : (Runs.after SentMails.step first moments).status.crashStatus = 2)
    (closed : (SentMails.step (Runs.after SentMails.step first moments) moment).status.crashStatus =
      0) :
    ∃ mail ∈ sent first (moments ++ [moment]), ends mail = true := by
  obtain ⟨mails, _, crash, _⟩ := SentMails.sent_recording _ moment f sampled recording
  rw [closed] at crash
  split_ifs at crash with full
  rw [if_pos full] at mails
  rw [SentMails.sent_snoc, mails]
  exact ⟨_, List.mem_append_right _ (List.mem_append_right _ List.mem_cons_self), rfl⟩

/-- The mail that completes a window announces the end. The window is the one behind the
opening, in which the recording began. -/
theorem window_ends (opening window : List (Turn ℚ)) (last : Turn ℚ) (f : ℚ)
    (sampled : last.mail.sample = some f)
    (recording : PostCrashWindow.Recording []
      (SafetyLoop.after (start (fun _ => true) none) (opening.map stamp)))
    (incomplete : ¬ PostCrashWindow.Complete window)
    (complete : PostCrashWindow.Complete (window ++ [last])) :
    ∃ mail ∈ sent (start (fun _ => true) none) (stampedMoments (opening ++ window ++ [last])),
      ends mail = true := by
  have alike (turns : List (Turn ℚ)) :
      PostCrashWindow.Complete (turns.map stamp) ↔ PostCrashWindow.Complete turns := by
    simp only [PostCrashWindow.Complete, received_stamped]
  obtain ⟨before, _⟩ := PostCrashWindow.recording_run _ recording (window.map stamp)
    ((alike _).not.mpr incomplete)
  obtain ⟨_, _, closes, _⟩ := PostCrashWindow.recording_turn _ _ (stamp last) before
    ((alike _).not.mpr incomplete)
  have closed := (closes (by
    rw [← List.map_singleton, ← List.map_append]
    exact (alike _).mpr complete)).1
  have split : stampedMoments (opening ++ window ++ [last]) =
      stampedMoments (opening ++ window) ++ [⟨stamp last, fun _ => dataLog 0 0 []⟩] :=
    List.map_append
  have state : Runs.after SentMails.step (start (fun _ => true) none)
      (stampedMoments (opening ++ window)) =
      SafetyLoop.after (SafetyLoop.after (start (fun _ => true) none) (opening.map stamp))
        (window.map stamp) := by
    rw [SentMails.after_moments, stamped_turns, List.map_append, SafetyLoop.after_append]
  rw [split]
  refine closing_ends _ _ _ f sampled ?_ ?_
  · rw [state]
    exact before.recording
  · rw [SentMails.step, state]
    exact closed

/-- So does that of the first episode, whose run is an instance of the theorem about
reports on account of this. -/
theorem stamped_ended :
    ∃ mail ∈ sent (start (fun _ => true) none) (stampedMoments Rearming.firstEpisode),
      ends mail = true :=
  window_ends (QuietRuns.prelude ++ [QuietRuns.jump]) Rearming.almostEpisode
    (QuietRuns.sampleTurn .brakeSwitchValue 0) 0 rfl prelude_recording
    Rearming.almost_complete.1 Rearming.almost_complete.2

/-- A database in which nothing fails, at that time: every call succeeds and leaves the
world as it is. -/
def willingDatabase : Environment Unit ℚ where
  exec _ world := (true, world)
  bind _ _ _ world := (true, world)
  step _ world := (true, world)
  reset _ world := (true, world)
  clock world := (dbGetTime epoch, world)
  openssl world := (.succeed, world)
  sha3 := Sha.zeroSha3

/-- Every call succeeds there, by definition. -/
theorem willing_database : Willing willingDatabase :=
  ⟨fun _ _ _ _ => rfl, fun _ _ => rfl, fun _ _ => rfl, fun _ => rfl⟩

/-- What SQLite shows of it: the rows that were inserted, none of which is ever undone. -/
def willingSqlite : Sqlite (connected willingDatabase fun _ => false) :=
  ofConnection willingDatabase fun _ => false

/-- Where memory shows data records, all mails of a run are for the storage, and their
type has a row in the table. -/
theorem record_routable (moments : List (Moment ℚ))
    (shown : ∀ moment ∈ moments, ∀ position, moment.memory position = dataLog 0 0 []) :
    ∀ mail ∈ sent (start (fun _ => true) none) moments, Routable mail.type := by
  have storage : Routable mtStorage := by decide
  intro mail member
  rcases RecordedCrash.sent_types (fun _ => true) none _ rfl mail member with
    type | ⟨before, moment, rest, position, split, _, rfl⟩
  · rwa [type]
  · rw [shown moment (by simp [split]) position]
    exact storage

/-- The memory of stamped moments shows data records everywhere. -/
theorem stamped_shown (turns : List (Turn ℚ)) :
    ∀ moment ∈ stampedMoments turns, ∀ position, moment.memory position = dataLog 0 0 [] := by
  intro moment member position
  obtain ⟨_, _, rfl⟩ := List.mem_map.mp member
  rfl

/-- Mails among which there is an end are recorded in some recording: the threads run one
after the other, and each call of the database succeeds. -/
theorem direct_recording (types : LogType → Bool) (mails : List (Mail ℚ))
    (routable : ∀ mail ∈ mails, Routable mail.type) (ended : ∃ mail ∈ mails, ends mail = true) :
    Nonempty (Recording willingSqlite types mails) := by
  obtain ⟨actions, calm, stopped⟩ := direct_stops types 256 Routing.twoOffice mails (begin mails)
    rfl rfl rfl rfl ended
  obtain ⟨calls, last, returned, inserted⟩ :=
    (willing_database.connected fun _ => false).logger 10
      ((reached 256 Routing.twoOffice .direct mails actions).handled.map Letter.mail)
      (DbState.initial (Connection.fresh ())) (initial_room _)
  have reliable : EndsSucceed willingSqlite := by
    intro connection inside
    simp [connected, willingDatabase, show connection.ledger.isOpen = true from inside]
  exact ⟨⟨Routing.twoCallers, Routing.twoOffice, ⟨Routing.two_built, by decide, by decide⟩, 256,
    .direct, routable, actions, calm, stopped, 10, 1, Connection.fresh (), rfl, calls, last,
    returned, inserted, reliable⟩⟩

/-- The header of the examples has the codes that the queries take. -/
theorem sample_header_selectable : Selectable where
  started := rfl
  mid := rfl
  ended := rfl
  apart := by
    rintro ⟨⟩ ⟨⟩ <;> decide
  below := by
    rintro ⟨⟩ <;> decide

/-- The thresholds are printed with six decimals. -/
theorem threshold_text : render (flit 5 : ℚ) = "5.000000".toList := by decide +kernel

/-- Numbers of four digits have room in every message, so that runs of fewer than ten
thousand moments fit. -/
theorem sample_fits (samples : Nat) (few : samples < 10 ^ 4) : Fits ℚ samples where
  word := by
    rw [threshold_text]
    decide
  room := by
    intro number seen
    have short : (Nat.toDigits 10 number).length ≤ 4 :=
      (Nat.length_toDigits_le_iff (by decide) (by decide)).mpr (by omega)
    have eight : "5.000000".toList.length = 8 := rfl
    have size : LogHeader.logDataSize = 256 := rfl
    rw [decimal_nat, threshold_text, eight, size]
    omega

/-! ## The report -/

section

variable {W F : Type} [Arithmetic F] [LogHeader]

/-- Of a recording in which a crash is logged, the plots begin twenty samples before the
one at which the crash was found, the thresholds are those of the detectors, and the
durations before and after are those between the times that were read when the crash was
found and when its middle and its end were logged, each to a millisecond. The recording
is one of any run of the safety loop in which memory shows no event to the dump, under
any schedule in which no other thread announces a crash.

Proof: the announcements that the logger takes are three of safety, by `first_crash`.
Every call returned 0 and the last `END` succeeded, so that each has left its row.
`plotted` selects the three rows again, in whatever order the query returns them, and
takes the fields apart; cutting the times to milliseconds costs less than one of them. -/
theorem crash_reported (codes : Selectable) (parse : Text → Text → Option (List Text))
    (parses : ParsesFields parse) (mallocp : Nat → Bool) (proc : Option ProcStat)
    (moments : List (Moment F)) (fits : Fits F moments.length)
    (success : (safetyStatusInit mallocp proc : Nat × Status F).1 = 0)
    (clean : Runs.EveryStep SentMails.step (start mallocp proc) moments
      fun _ state moment => CrashBrackets.NoEventShown state moment)
    (clocks : ∀ moment ∈ moments, ∃ clock, moment.turn.clock 0 = dbGetTime clock)
    {env : Environment W F} (sqlite : Sqlite env)
    (times : ∀ world, ∃ clock, (env.clock world).1 = dbGetTime clock)
    (recording : Recording sqlite isAnnouncement (sent (start mallocp proc) moments))
    (stored : List (Row F)) (order : stored.Perm recording.rows) :
    ∃ axis number, ∃ started mid ended : Clock,
      FirstShift (start mallocp proc) moments axis number (dbGetTime started) ∧
      startTime parse stored = some ((number : Int) - 20) ∧
      plotGetTime parse stored =
        some (decimal number, render (flit 5 : F), render (flit 5 : F)) ∧
      Reads env mid ∧ Reads env ended ∧ ∃ pre post : Int,
        plotGetTotalTime parse stored = some (timedelta pre, timedelta post) ∧
        |pre - mid.time.since started.time| < 1000 ∧
        |post - ended.time.since mid.time| < 1000 := by
  have announcements := recording.taken rfl
  obtain ⟨axis, number, last, time, shift, final, found⟩ :=
    first_crash mallocp proc moments success clean recording.ended
  obtain ⟨started, read⟩ : ∃ clock, time = dbGetTime clock := by
    obtain ⟨before, trigger, later, rfl, _, _, _, _, rfl⟩ := shift
    exact clocks trigger (by simp)
  subst read
  have seen : number ≤ moments.length := by
    obtain ⟨before, trigger, later, rfl, _, _, _, rfl, _⟩ := shift
    exact received_le _ before later trigger
  have lastSeen : last ≤ moments.length := by
    obtain ⟨before, final, later, rfl, _, _, rfl⟩ := final
    exact received_le _ before later final
  obtain ⟨logged, groups, rows, kept⟩ := recording.kept
  rw [kept] at order
  obtain ⟨mid, ended, midRead, endedRead, time, total⟩ := plotted codes parse parses
    moments.length fits number last seen lastSeen started env times _
    (announcements.trans found) recording.calls groups logged rows recording.inserted stored order
  exact ⟨axis, number, started, mid, ended, shift, start_time_eq parse stored number _ _ time, time,
    midRead, endedRead, _, _, total, since_truncated _ _, since_truncated _ _⟩

end

/-- The crash of that run is reported: the recording is that of the run at the one time,
by the logger without the postman. -/
theorem stamped_crash_reported :
    ∃ stored : List (Row ℚ), ∃ axis number, ∃ started mid ended : Clock,
      FirstShift (start (fun _ => true) none) (stampedMoments Rearming.firstEpisode) axis number
        (dbGetTime started) ∧
      startTime Formats.parse stored = some ((number : Int) - 20) ∧
      plotGetTime Formats.parse stored =
        some (decimal number, render (flit 5 : ℚ), render (flit 5 : ℚ)) ∧
      Reads (connected willingDatabase fun _ => false) mid ∧
      Reads (connected willingDatabase fun _ => false) ended ∧ ∃ pre post : Int,
        plotGetTotalTime Formats.parse stored = some (timedelta pre, timedelta post) ∧
        |pre - mid.time.since started.time| < 1000 ∧
        |post - ended.time.since mid.time| < 1000 := by
  obtain ⟨recording⟩ := direct_recording isAnnouncement
    (sent (start (fun _ => true) none) (stampedMoments Rearming.firstEpisode))
    (record_routable _ (stamped_shown _)) stamped_ended
  refine ⟨_, crash_reported sample_header_selectable Formats.parse parses_fields (fun _ => true)
    none (stampedMoments Rearming.firstEpisode) (sample_fits _ ?_) rfl ?_ ?_ willingSqlite
    (fun _ => ⟨epoch, rfl⟩) recording _ (List.Perm.refl _)⟩
  · simp only [stampedMoments, Rearming.firstEpisode, Rearming.almostEpisode, QuietRuns.prelude,
      List.length_map, List.length_append, List.length_replicate, List.length_singleton]
    decide
  · intro before moment rest split position _ type same
    have among : moment ∈ stampedMoments Rearming.firstEpisode := by simp [split]
    obtain ⟨_, _, rfl⟩ := List.mem_map.mp among
    obtain rfl := Option.some.inj same
    rfl
  · intro moment among
    obtain ⟨_, _, rfl⟩ := List.mem_map.mp among
    exact ⟨epoch, rfl⟩

end EventRecorder.CrashReport
