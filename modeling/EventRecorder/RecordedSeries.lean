import EventRecorder.CrashReport
import EventRecorder.WarmUp

/-!
# The series as they are plotted

The dump of a crash and the records behind it make up a series for each quantity, by its
process id. The program that plots selects it from the database and splits it behind the
number of slots of a buffer. For the first crash of a run, with every buffer filled and none
just turned over, what comes before the split was seen before the crash and what comes
behind it after the crash, whatever threads ran between.
-/

namespace EventRecorder.RecordedSeries

open Arithmetic CText CircularMail SafetyStatus SafetyLoop PreCrashWindow PostCrashWindow
open SentMails PreparedStatements Durability LoggerRoutes Shutdown TakenRecords Plots
open Database hiding dbGetTime
open QuietRuns (sampleTurn jump received_replicate)
open Sqlite (Row)
open FirstCrash (opened_recording)
open CrashReport (stamp stampedMoments stamped_turns received_stamped stamped_jump window_ends
  stamped_shown record_routable willingSqlite direct_recording)
open WarmUp (channelValues valuesOf channel_values_single values_of_snoc)

/-- The type of the data records, which are the ones that the plots of a series select. -/
def isData : LogType → Bool
  | .data => true
  | _ => false

/-! ## What is selected -/

section

variable {W F : Type} [Arithmetic F]

/-- The value of a record with a process id, if it has that id. -/
def drawn (pid : Int) (record : Log F) : Option F :=
  if LogData.pid record.data = pid then some (LogData.float record.data) else none

/-- The values of a process id among readings, in order. -/
def ofPid (pid : Int) (read : List (Int × F)) : List F :=
  (read.filter fun reading => reading.1 = pid).map Prod.snd

omit [Arithmetic F] in
/-- The values come in the order of the readings. -/
@[simp] theorem of_pid_append (pid : Int) (earlier later : List (Int × F)) :
    ofPid pid (earlier ++ later) = ofPid pid earlier ++ ofPid pid later := by
  simp [ofPid]

variable [LogHeader]

/-- Of the row of a record its value is selected, if it is a data record. -/
theorem selected_data_row (below : LogHeader.logCode .data < LogHeader.logCode .error)
    (sha3 : Sha.Sha3) (pid : Int) (log : Log F) (timestamp : Text) :
    selectedData pid (entryType log, recordRow sha3 log timestamp) =
      if isData log.type then drawn pid log else none := by
  by_cases data : log.type = .data
  · have table : entryType log = .data := by
      rw [entryType, Log.code, data, if_pos below, if_pos rfl]
    simp [selectedData, recordRow, hashedRow, recordColumns, table, data, isData, drawn]
  · have table : entryType log ≠ .data := by
      unfold entryType
      split_ifs <;> simp
    have other : isData log.type = false := by
      cases type : log.type <;> first | rfl | exact absurd type data
    rw [other]
    cases found : entryType log
    · simp [selectedData]
    · simp [selectedData]
    · exact absurd found table

/-- So from the rows of the calls those of the data records are selected, in order. -/
theorem select_data (below : LogHeader.logCode .data < LogHeader.logCode .error)
    (sha3 : Sha.Sha3) (pid : Int) (calls : List (Log F × Nat)) (groups : List (List (Row F)))
    (rows : List.Forall₂ (RecordsRow sha3) calls groups)
    (success : ∀ call ∈ calls, call.2 = 0) :
    plotData pid groups.flatten =
      ((calls.map Prod.fst).filter fun log => isData log.type).filterMap (drawn pid) := by
  induction rows with
  | nil => rfl
  | @cons call _ _ _ row _ inductionHypothesis =>
    obtain ⟨first, others⟩ := List.forall_mem_cons.mp success
    obtain ⟨timestamp, rfl⟩ := row first
    have later := inductionHypothesis others
    rw [plotData] at later
    rw [List.flatten_cons, List.singleton_append, plotData, List.filterMap_cons,
      selected_data_row below, later, List.map_cons, List.filter_cons]
    cases isData call.1.type <;> simp [List.filterMap_cons]

omit [Arithmetic F] in
/-- The time is put behind other texts only, so that a data record is logged as it was
taken. -/
theorem prepared_data (env : Environment W F) (records : List (Log F))
    (calls : List (Log F × Nat))
    (logged : List.Forall₂ (fun record call => Prepared env record call.1) records calls) :
    (calls.map Prod.fst).filter (fun log => isData log.type) =
      records.filter fun record => isData record.type := by
  induction logged with
  | nil => rfl
  | @cons record call _ _ prepared _ inductionHypothesis =>
    have type := CrashReport.prepared_type env record call.1 prepared
    rw [List.map_cons, List.filter_cons, List.filter_cons, inductionHypothesis, type]
    split_ifs with data
    · obtain ⟨world, same⟩ := prepared
      have unchanged : call.1 = record := by
        rw [same, timed, if_neg]
        rintro (mid | ended)
        · rw [mid] at data
          cases data
        · rw [ended] at data
          cases data
      rw [unchanged]
    · rfl

/-- So from the rows of a recording the values of the data records of safety are selected. -/
theorem recording_data (below : LogHeader.logCode .data < LogHeader.logCode .error)
    {env : Environment W F} {sqlite : Sqlite env} {mails : List (Mail F)}
    (recording : Recording sqlite isData mails) (pid : Int) :
    plotData pid recording.rows = (taken isData mails).filterMap (drawn pid) := by
  obtain ⟨logged, groups, rows, kept⟩ := recording.kept
  rw [kept, select_data below env.sha3 pid recording.calls groups rows recording.inserted,
    prepared_data env _ recording.calls logged, ← recording.taken rfl, taken]

end

/-! ## Before the crash -/

section

variable {F : Type}

/-- A data record ends nothing, and the logger goes on behind it. -/
theorem record_running (mail : Mail F) (record : IsRecord mail) : ends mail = false := by
  obtain ⟨_, _, _, rfl⟩ := record
  rfl

variable [Arithmetic F]

/-- All data records are taken, each with its reading, as long as nothing among them
ends a crash. -/
theorem taken_records (mails : List (Mail F)) (records : ∀ mail ∈ mails, IsRecord mail)
    (pid : Int) :
    (taken isData mails).filterMap (drawn pid) = ofPid pid (mails.filterMap Mail.reading) := by
  induction mails with
  | nil => rfl
  | cons mail mails inductionHypothesis =>
    obtain ⟨first, others⟩ := List.forall_mem_cons.mp records
    have running := record_running mail first
    obtain ⟨other, f, time, rfl⟩ := first
    have single : taken isData [dataLog other f time] = [⟨.data, .data other f, time⟩] := rfl
    rw [taken_cons, running, if_neg (by decide), single, List.filterMap_append,
      inductionHypothesis others]
    by_cases same : other = pid <;>
      simp [drawn, LogData.pid, LogData.float, ofPid, same]

/-- What a turn writes to the buffer of a quantity carries its process id, so that the
series can be told apart again. -/
theorem written_pid (field : LogField) (state : LoopState F) (turn : Turn F) :
    ∀ mail ∈ written field state turn, ∃ f, mail = dataLog field.pid f [] := by
  intro mail member
  unfold written at member
  cases sampled : turn.mail.sample with
  | none =>
    rw [sampled] at member
    cases member
  | some f =>
    rw [sampled] at member
    obtain ⟨write, among, rfl⟩ := List.mem_map.mp member
    obtain ⟨visited, same⟩ := List.mem_filter.mp among
    obtain rfl : write.1 = field := by simpa using same
    have pid : write.2.1 = write.1.pid := by
      by_cases known : turn.mail.channel = .unknown
      · simp [updateWrites, known] at visited
      · have code := pid_of_channel turn.mail known
        unfold updateWrites at visited
        cases channel : turn.mail.channel <;> simp only [channel, List.mem_cons, List.not_mem_nil,
          or_false, CanData.code] at visited code
        all_goals rcases visited with rfl | rfl | rfl | rfl
        all_goals first | exact code | rfl
    exact ⟨write.2.2, by rw [pid]⟩

variable [LogHeader]

/-- What is received of a channel is written to the buffer of each of its quantities. -/
theorem history_received (field : LogField) (state : LoopState F) (turns : List (Turn F)) :
    (history field state turns).length = received field.channel turns := by
  induction turns using List.reverseRecOn with
  | nil => rfl
  | append_singleton turns turn inductionHypothesis =>
    rw [history_snoc, List.length_append, inductionHypothesis, received_snoc,
      WarmUp.written_length, channel_values_single]
    by_cases own : turn.mail.channel = field.channel <;>
      cases turn.mail.sample <;> simp [own]

/-- So does all that has been written to it. -/
theorem history_pid (field : LogField) (state : LoopState F) (turns : List (Turn F)) :
    ∀ mail ∈ history field state turns, ∃ f, mail = dataLog field.pid f [] := by
  intro mail member
  obtain ⟨before, turn, _, _, sent⟩ := (Runs.mem_emitted _ _ _ _ _).mp member
  exact written_pid field _ turn mail sent

/-- The last values of a quantity that fit its buffer, which are those the dump sends. -/
def preCrash (field : LogField) (first : LoopState F) (turns : List (Turn F)) : List F :=
  ((retained (history field first turns)).filterMap Mail.reading).map Prod.snd

/-- They are as many as the buffer has slots, if there are enough. -/
theorem pre_crash_length (field : LogField) (first : LoopState F) (turns : List (Turn F))
    (filled : statusLogBeforeSize ≤ (history field first turns).length) :
    (preCrash field first turns).length = statusLogBeforeSize := by
  have values : ∀ mail ∈ retained (history field first turns), mail.reading.isSome := by
    intro mail member
    obtain ⟨f, rfl⟩ := history_pid field _ _ mail (List.mem_of_mem_drop member)
    rfl
  rw [preCrash, List.length_map, List.length_filterMap_eq_countP,
    List.countP_eq_length.mpr values, retained, List.length_drop]
  omega

/-- The values of a quantity among the dumps of all are its own, as the others carry
other ids. -/
theorem of_pid_dumps (field : LogField) (first : LoopState F) (turns : List (Turn F))
    (time : Text) :
    ofPid field.pid ((dumpOrder.flatMap fun other =>
        (retained (history other first turns)).map fun mail => mail.stamp time).filterMap
          Mail.reading) =
      preCrash field first turns := by
  have own (other : LogField) :
      ofPid field.pid (((retained (history other first turns)).map
          fun mail => mail.stamp time).filterMap Mail.reading) =
        if other = field then preCrash field first turns else [] := by
    have pids : ∀ mail ∈ retained (history other first turns), ∃ f,
        mail = dataLog other.pid f [] := fun mail member =>
      history_pid other first turns mail (List.mem_of_mem_drop member)
    have stamped : ((retained (history other first turns)).map
        fun mail => mail.stamp time).filterMap Mail.reading =
          (retained (history other first turns)).filterMap Mail.reading := by
      rw [List.filterMap_map]
      apply List.filterMap_congr
      intro mail member
      obtain ⟨f, rfl⟩ := pids mail member
      rfl
    rw [stamped, ofPid]
    split_ifs with same
    · subst same
      rw [List.filter_eq_self.mpr, preCrash]
      intro reading member
      obtain ⟨mail, among, read⟩ := List.mem_filterMap.mp member
      obtain ⟨f, rfl⟩ := pids mail among
      obtain rfl := Option.some.inj read
      simp
    · rw [List.filter_eq_nil_iff.mpr, List.map_nil]
      intro reading member
      obtain ⟨mail, among, read⟩ := List.mem_filterMap.mp member
      obtain ⟨f, rfl⟩ := pids mail among
      obtain rfl := Option.some.inj read
      simpa using fun equal => same (LogField.pid_injective _ _ equal)
  have each : (dumpOrder.flatMap fun other => ofPid field.pid
      (((retained (history other first turns)).map fun mail => mail.stamp time).filterMap
        Mail.reading)) = preCrash field first turns := by
    simp only [own]
    cases field <;> simp [dumpOrder]
  rw [← each, List.filterMap_flatMap, ofPid, List.filter_flatMap, List.map_flatMap]
  rfl

/-- The buffer of a quantity is filled, and its next write is not that of its first slot. -/
def WholeWindow (history : List (Mail F)) : Prop :=
  statusLogBeforeSize ≤ history.length ∧ ¬ statusLogBeforeSize ∣ history.length

/-- At a first crash with whole windows the dumps read nothing but what was written, and
in its order. -/
theorem whole_dumps (mallocp : Nat → Bool) (proc : Option ProcStat) (before : List (Turn F))
    (trigger : Turn F) (success : (safetyStatusInit mallocp proc : Nat × Status F).1 = 0)
    (first : announces .eventCrashStart (stored (start mallocp proc) before) = false)
    (whole : ∀ field, WholeWindow (history field (start mallocp proc) (before ++ [trigger]))) :
    dumps (after (start mallocp proc) before) trigger =
      (dumpOrder.flatMap fun field =>
        (retained (history field (start mallocp proc) (before ++ [trigger]))).map
          fun mail => mail.stamp (trigger.clock 1)).map .value := by
  rw [dumps, List.map_flatMap]
  refine congrArg (dumpOrder.flatMap ·) (funext fun field => ?_)
  have tracked := writes_track (written field (after (start mallocp proc) before) trigger)
    (by decide) (run_tracks mallocp proc before success first field)
  rw [← history_snoc] at tracked
  rw [updated, (tracked_dump_exact_iff _ _ (trigger.clock 1) tracked).mpr (whole field),
    List.map_map]
  rfl

/-- The data records of the moment of the crash are the windows, and nothing ends there. -/
theorem crash_drawn (mallocp : Nat → Bool) (proc : Option ProcStat) (before : List (Turn F))
    (trigger : Moment F) (success : (safetyStatusInit mallocp proc : Nat × Status F).1 = 0)
    (first : announces .eventCrashStart (stored (start mallocp proc) before) = false)
    (starts : Starts (after (start mallocp proc) before) trigger.turn)
    (whole : ∀ field,
      WholeWindow (history field (start mallocp proc) (before ++ [trigger.turn]))) :
    (∀ mail ∈ sentAt (after (start mallocp proc) before) trigger, ends mail = false) ∧
      ∀ field, (taken isData (sentAt (after (start mallocp proc) before) trigger)).filterMap
        (drawn field.pid) = preCrash field (start mallocp proc) (before ++ [trigger.turn]) := by
  obtain ⟨f, sampled, _⟩ := id starts
  have mails := sent_crash _ trigger f sampled starts
  rw [whole_dumps mallocp proc before trigger.turn success first whole, resolved_values] at mails
  have dumped := fun field => of_pid_dumps field (start mallocp proc) (before ++ [trigger.turn])
    (trigger.turn.clock 1)
  have records : ∀ mail ∈ (dumpOrder.flatMap fun field =>
      (retained (history field (start mallocp proc) (before ++ [trigger.turn]))).map
        fun mail => mail.stamp (trigger.turn.clock 1)), IsRecord mail := by
    intro mail member
    obtain ⟨field, _, among⟩ := List.mem_flatMap.mp member
    obtain ⟨written, inside, rfl⟩ := List.mem_map.mp among
    obtain ⟨value, rfl⟩ := history_pid field _ _ written (List.mem_of_mem_drop inside)
    exact ⟨_, _, _, rfl⟩
  generalize (dumpOrder.flatMap fun field => _) = windows at mails dumped records
  have running : ∀ mail ∈ windows, ends mail = false := fun mail member =>
    record_running mail (records mail member)
  have silent (type : LogType) (text : Text) (other : type ≠ .data) :
      taken isData [(notifMail type text : Mail F)] = [] := by
    cases type <;> first | rfl | exact absurd rfl other
  rw [mails, ← List.singleton_append]
  constructor
  · simp only [List.forall_mem_append]
    exact ⟨by simp [ends, notifMail, storageMail, Mail.logType], running,
      by simp [ends, notifMail, storageMail, Mail.logType]⟩
  · intro field
    rw [taken_append _ _ (by simp [ends, notifMail, storageMail, Mail.logType]),
      taken_append _ _ running, silent _ _ (by simp), silent _ _ (by simp), List.nil_append,
      List.append_nil, taken_records _ records, dumped field]

/-! ## After the crash -/

/-- The value that a turn has of a quantity, as it is recorded after a crash. -/
def live (field : LogField) (state : LoopState F) (turn : Turn F) : List F :=
  match turn.mail.sample with
  | none => []
  | some f => ((liveCalls (state.assisted turn f) turn.mail f).filter
      fun call => call.1 = field).map fun call => call.2.2

omit [LogHeader] in
/-- There is one for each mail of its channel, and none for other mails. -/
theorem live_length (field : LogField) (state : LoopState F) (turn : Turn F) :
    (live field state turn).length =
      if turn.mail.sample.isSome ∧ turn.mail.channel = field.channel then 1 else 0 := by
  unfold live
  cases sampled : turn.mail.sample with
  | none => simp
  | some f =>
    have visited := (visited_fields (state.assisted turn f) turn.mail f turn.proc).2
    have once := listed_once field turn.mail.channel fun _ => True
    rw [List.length_map, ← List.countP_eq_length_filter]
    have mapped : (liveCalls (state.assisted turn f) turn.mail f).countP
        (fun call => call.1 = field) =
          ((liveCalls (state.assisted turn f) turn.mail f).map Prod.fst).countP
            fun other => other = field := by
      rw [List.countP_map]
      rfl
    rw [mapped, visited]
    simpa [eq_comm] using once

/-- What is received of a channel, there is of each of its quantities. -/
theorem live_run_length (field : LogField) (state : LoopState F) (turns : List (Turn F)) :
    (Runs.emitted next (live field) state turns).length = received field.channel turns := by
  induction turns using List.reverseRecOn with
  | nil => rfl
  | append_singleton turns turn inductionHypothesis =>
    rw [Runs.emitted_append, List.length_append, inductionHypothesis, received_snoc]
    simp [live_length]

omit [LogHeader] in
/-- Of the macro calls that send, those with the process id of a quantity are its own. -/
theorem of_pid_calls (field : LogField) (status : Status F) (mail : Mail F) (f : F)
    (count : LogField → Nat) :
    ofPid field.pid (((liveCalls status mail f).filter fun call =>
        count call.1 < statusLogAfterSize).map Prod.snd) =
      if count field < statusLogAfterSize then
        ((liveCalls status mail f).filter fun call => call.1 = field).map fun call => call.2.2
      else [] := by
  have own : ∀ call ∈ liveCalls status mail f,
      (decide (call.2.1 = field.pid) && decide (count call.1 < statusLogAfterSize)) =
        (decide (call.1 = field) && decide (count field < statusLogAfterSize)) := by
    intro call member
    rw [live_pid status mail f call member]
    by_cases same : call.1 = field
    · rw [same]
      simp
    · have other : call.1.pid ≠ field.pid := fun equal =>
        same (LogField.pid_injective _ _ equal)
      simp [same, other]
  rw [ofPid, List.filter_map, List.map_map, List.filter_filter]
  have filtered := List.filter_congr own
  simp only [Function.comp_def]
  rw [filtered]
  split_ifs with limit
  · simp [limit]
  · simp [limit]

/-- While a crash is recorded a moment sends data records, the live value of each quantity
that is below its limit, and nothing else unless it closes the recording. -/
theorem recorded_moment (state : LoopState F) (moment : Moment F)
    (recording : state.status.crashStatus = 2) :
    ∃ mails, (∀ mail ∈ mails, IsRecord mail) ∧
      (∀ field, ofPid field.pid (mails.filterMap Mail.reading) =
        if state.status.logBefore.count field < statusLogAfterSize then
          live field state moment.turn else []) ∧
      ((SentMails.step state moment).status.crashStatus = 2 → sentAt state moment = mails) ∧
      ((SentMails.step state moment).status.crashStatus = 0 →
        ∃ text, sentAt state moment = mails ++ [notifMail .eventCrashEnd text]) := by
  cases sampled : moment.turn.mail.sample with
  | none =>
    obtain ⟨same, silent⟩ := turn_ignored state moment.turn sampled
    have still : (SentMails.step state moment).status.crashStatus = 2 := by
      rw [SentMails.step, same, recording]
    refine ⟨[], by simp, ?_, fun _ => by rw [sentAt, silent]; rfl, fun closed => ?_⟩
    · intro field
      simp [ofPid, live, sampled]
    · rw [still] at closed
      cases closed
  | some f =>
    obtain ⟨mails, records, crash, _⟩ := sent_recording state moment f sampled recording
    have distinct : ((liveCalls (state.assisted moment.turn f) moment.turn.mail f).map
        Prod.fst).Nodup := by
      rw [(visited_fields _ _ f none).2]
      exact LogField.all_nodup.filter _
    have readings := run_live_sent moment.turn.clock _ distinct 0 (state.assisted moment.turn f)
    rw [(assisted_counters state moment.turn f).1] at readings
    generalize runLive moment.turn.clock 0 _ _ = ran at mails records crash readings
    refine ⟨ran.1, records, ?_, ?_, ?_⟩
    · intro field
      rw [readings, live, sampled]
      exact of_pid_calls field _ moment.turn.mail f _
    · intro open'
      rw [crash] at open'
      split_ifs at open' with closes
      rw [mails, if_neg closes, List.append_nil]
    · intro closed
      rw [crash] at closed
      split_ifs at closed with closes
      exact ⟨_, by rw [mails, if_pos closes]⟩

omit [Arithmetic F] [LogHeader] in
/-- The first values of a list, one value further, until the limit is reached. -/
theorem take_further (earlier one : List F) (limit : Nat) (single : one.length ≤ 1) :
    earlier.take limit ++ (if earlier.length < limit then one else []) =
      (earlier ++ one).take limit := by
  split_ifs with below
  · rw [List.take_of_length_le below.le, List.take_of_length_le]
    rw [List.length_append]
    omega
  · rw [List.append_nil, List.take_append_of_le_length (by omega)]

/-- The first values of a quantity after a crash that are recorded, from the sample
behind the crash on. -/
def postCrash (field : LogField) (state : LoopState F) (turns : List (Turn F)) : List F :=
  (Runs.emitted next (live field) state turns).take statusLogAfterSize

/-- Until the channels are complete, those are what is sent, and nothing ends the crash. -/
theorem recorded_run (state : LoopState F) (recording : Recording [] state)
    (moments : List (Moment F)) (incomplete : ¬ Complete (moments.map Moment.turn)) :
    (∀ mail ∈ sent state moments, IsRecord mail) ∧
      ∀ field, ofPid field.pid ((sent state moments).filterMap Mail.reading) =
        postCrash field state (moments.map Moment.turn) := by
  induction moments using List.reverseRecOn with
  | nil => exact ⟨by simp [sent], fun _ => rfl⟩
  | append_singleton moments moment inductionHypothesis =>
    rw [List.map_append, List.map_singleton] at incomplete
    have earlier : ¬ Complete (moments.map Moment.turn) := fun complete =>
      incomplete (complete_append _ [moment.turn] complete)
    obtain ⟨records, values⟩ := inductionHypothesis earlier
    obtain ⟨before, _⟩ := recording_run state recording (moments.map Moment.turn) earlier
    obtain ⟨_, continues, _⟩ := recording_turn _ _ moment.turn before earlier
    rw [← after_moments] at before continues
    obtain ⟨mails, now, lives, open', _⟩ := recorded_moment _ moment before.recording
    have sends := open' (continues incomplete).recording
    rw [sent_snoc, sends]
    refine ⟨List.forall_mem_append.mpr ⟨records, now⟩, fun field => ?_⟩
    rw [List.filterMap_append, of_pid_append, values, lives, before.counts,
      ← live_run_length field state, postCrash, postCrash, List.map_append, List.map_singleton,
      Runs.emitted_append, take_further _ _ _ _]
    · simp [after_moments, after]
    · rw [live_length]
      split_ifs <;> simp

omit [Arithmetic F] [LogHeader] in
/-- The moment that completes the channels, with what comes before it and behind it. -/
theorem first_full (moments : List (Moment F)) (complete : Complete (moments.map Moment.turn)) :
    ∃ window last rest, moments = window ++ last :: rest ∧
      ¬ Complete (window.map Moment.turn) ∧ Complete (window.map Moment.turn ++ [last.turn]) := by
  induction moments using List.reverseRecOn with
  | nil => exact absurd complete not_complete_nil
  | append_singleton moments moment inductionHypothesis =>
    by_cases earlier : Complete (moments.map Moment.turn)
    · obtain ⟨window, last, rest, rfl, incomplete, full⟩ := inductionHypothesis earlier
      exact ⟨window, last, rest ++ [moment], by simp, incomplete, full⟩
    · exact ⟨moments, moment, [], rfl, earlier, by simpa using complete⟩

/-- Before a crash is announced nothing is sent to the storage. -/
theorem unannounced_silent (mallocp : Nat → Bool) (proc : Option ProcStat)
    (before : List (Turn F))
    (first : announces .eventCrashStart (stored (start mallocp proc) before) = false) :
    stored (start mallocp proc) before = [] := by
  induction before using List.reverseRecOn with
  | nil => rfl
  | append_singleton before turn inductionHypothesis =>
    rw [stored_snoc, announces_append, Bool.or_eq_false_iff] at first
    rcases run_phase mallocp proc before with ⟨_, untouched⟩ | ⟨started, _⟩
    · have quiet : ¬ Starts (after (start mallocp proc) before) turn := by
        rw [← announces_start_iff _ turn (.inl untouched.idle), first.2]
        decide
      rw [stored_snoc, inductionHypothesis first.1, (turn_idle _ turn untouched.idle quiet).1]
      rfl
    · rw [first.1] at started
      cases started

/-- An end is sent once the channels are complete, and not earlier. -/
theorem ended_complete (state : LoopState F) (recording : Recording [] state)
    (moments : List (Moment F)) (ended : ∃ mail ∈ sent state moments, ends mail = true) :
    Complete (moments.map Moment.turn) := by
  by_contra incomplete
  obtain ⟨records, _⟩ := recorded_run state recording moments incomplete
  obtain ⟨mail, member, ends⟩ := ended
  rw [record_running mail (records mail member)] at ends
  cases ends

/-- A complete window is recorded in full: its records are the first values of each
quantity, three hundred of each, and the end of the crash comes behind them. -/
theorem closed_run (state : LoopState F) (recording : Recording [] state)
    (moments : List (Moment F)) (complete : Complete (moments.map Moment.turn)) :
    ∃ mails text behind, sent state moments = mails ++ notifMail .eventCrashEnd text :: behind ∧
      (∀ mail ∈ mails, IsRecord mail) ∧
      ∀ field, ofPid field.pid (mails.filterMap Mail.reading) =
          postCrash field state (moments.map Moment.turn) ∧
        (postCrash field state (moments.map Moment.turn)).length = statusLogAfterSize := by
  obtain ⟨window, last, rest, rfl, incomplete, full⟩ := first_full moments complete
  obtain ⟨records, values⟩ := recorded_run state recording window incomplete
  obtain ⟨before, _⟩ := recording_run state recording (window.map Moment.turn) incomplete
  obtain ⟨_, _, closes, _⟩ := recording_turn _ _ last.turn before incomplete
  rw [← after_moments] at before closes
  obtain ⟨mails, now, lives, _, closed⟩ := recorded_moment _ last before.recording
  obtain ⟨text, sends⟩ := closed (closes full).1
  have split : sent state (window ++ last :: rest) =
      sent state window ++ mails ++ notifMail .eventCrashEnd text ::
        sent (SentMails.step (Runs.after SentMails.step state window) last) rest := by
    simp only [sent] at sends ⊢
    rw [Runs.emitted_append, Runs.emitted_cons, sends]
    simp
  refine ⟨_, text, _, split, List.forall_mem_append.mpr ⟨records, now⟩, fun field => ?_⟩
  have enough : statusLogAfterSize <
      (Runs.emitted next (live field) state (window.map Moment.turn ++ [last.turn])).length := by
    rw [live_run_length]
    exact (complete_iff _).mp full field
  have turns : (window ++ last :: rest).map Moment.turn =
      (window.map Moment.turn ++ [last.turn]) ++ rest.map Moment.turn := by simp
  have first : postCrash field state ((window ++ last :: rest).map Moment.turn) =
      (Runs.emitted next (live field) state
        (window.map Moment.turn ++ [last.turn])).take statusLogAfterSize := by
    rw [postCrash, turns, Runs.emitted_append, List.take_append_of_le_length enough.le]
  rw [first, List.length_take, Nat.min_eq_left enough.le]
  refine ⟨?_, rfl⟩
  rw [List.filterMap_append, of_pid_append, values, lives, before.counts,
    ← live_run_length field state, postCrash, Runs.emitted_append, take_further _ _ _ _]
  · simp [after_moments, after]
  · rw [live_length]
    split_ifs <;> simp

/-- What the logger takes of the data records of a first crash with whole windows: of each
quantity the last two hundred values up to the crash, and the first three hundred behind. -/
theorem recorded_series (mallocp : Nat → Bool) (proc : Option ProcStat)
    (before later : List (Moment F)) (trigger : Moment F)
    (success : (safetyStatusInit mallocp proc : Nat × Status F).1 = 0)
    (first : announces .eventCrashStart
      (stored (start mallocp proc) (before.map Moment.turn)) = false)
    (starts : Starts (after (start mallocp proc) (before.map Moment.turn)) trigger.turn)
    (whole : ∀ field, WholeWindow
      (history field (start mallocp proc) (before.map Moment.turn ++ [trigger.turn])))
    (ended : ∃ mail ∈ sent (start mallocp proc) (before ++ trigger :: later), ends mail = true)
    (field : LogField) :
    (taken isData (sent (start mallocp proc) (before ++ trigger :: later))).filterMap
        (drawn field.pid) =
      preCrash field (start mallocp proc) (before.map Moment.turn ++ [trigger.turn]) ++
        postCrash field (after (start mallocp proc) (before.map Moment.turn ++ [trigger.turn]))
          (later.map Moment.turn) ∧
      (postCrash field (after (start mallocp proc) (before.map Moment.turn ++ [trigger.turn]))
        (later.map Moment.turn)).length = statusLogAfterSize := by
  have silent := sent_silent _ before (unannounced_silent mallocp proc _ first)
  obtain ⟨running, windows⟩ := crash_drawn mallocp proc _ trigger success first starts whole
  have opened := opened_recording mallocp proc _ trigger.turn first starts
  have split : sent (start mallocp proc) (before ++ trigger :: later) =
      sentAt (after (start mallocp proc) (before.map Moment.turn)) trigger ++
        sent (after (start mallocp proc) (before.map Moment.turn ++ [trigger.turn])) later := by
    rw [sent, Runs.emitted_append, ← sent, silent, List.nil_append, Runs.emitted_cons,
      after_moments, after_snoc]
    rfl
  have behind : ∃ mail ∈ sent (after (start mallocp proc)
      (before.map Moment.turn ++ [trigger.turn])) later, ends mail = true := by
    obtain ⟨mail, member, ends⟩ := ended
    rw [split] at member
    rcases List.mem_append.mp member with now | then'
    · rw [running mail now] at ends
      cases ends
    · exact ⟨mail, then', ends⟩
  obtain ⟨mails, text, rest, sends, records, values⟩ :=
    closed_run _ opened later (ended_complete _ opened later behind)
  obtain ⟨lives, length⟩ := values field
  have last : taken isData (notifMail .eventCrashEnd text :: rest) = [] := rfl
  refine ⟨?_, length⟩
  rw [split, sends, taken_append _ _ running, taken_append _ _ fun mail member =>
    record_running mail (records mail member), last, List.append_nil, List.filterMap_append,
    windows, taken_records mails records, lives]

/-! ## The samples -/

/-- The quantities whose values are the samples of their channels, and not what the
detectors make of them. -/
def isSample : LogField → Bool
  | .brake | .accPedal | .speed | .accLong | .accLat => true
  | _ => false

omit [LogHeader] in
/-- Their buffers are written with the samples, one for each mail of the channel. -/
theorem written_sample (field : LogField) (samples : isSample field = true) (state : LoopState F)
    (turn : Turn F) :
    written field state turn =
      (channelValues field.channel [turn.mail]).map fun f => dataLog field.pid f [] := by
  by_cases own : turn.mail.channel = field.channel
  · rw [channel_values_single, if_pos own]
    have code := pid_of_channel turn.mail (own ▸ field.channel_known)
    cases sampled : turn.mail.sample with
    | none => simp [written, sampled]
    | some f =>
      have pid : turn.mail.pid = field.pid := by
        rw [code, own]
        cases field <;> first | rfl | cases samples
      simp only [written, sampled, updateWrites, own, Option.toList_some, List.map_singleton]
      cases field <;> first | (rw [← pid]; rfl) | cases samples
  · rw [written_other field state turn own, channel_values_single, if_neg own]
    rfl

omit [LogHeader] in
/-- And the samples are recorded live, behind the crash. -/
theorem live_sample (field : LogField) (samples : isSample field = true) (state : LoopState F)
    (turn : Turn F) : live field state turn = channelValues field.channel [turn.mail] := by
  rw [channel_values_single, live]
  cases sampled : turn.mail.sample with
  | none => simp
  | some f =>
    dsimp only
    by_cases own : turn.mail.channel = field.channel
    · rw [if_pos own, liveCalls, own]
      cases field <;> first | rfl | cases samples
    · have length := live_length field state turn
      rw [if_neg (by simp [own]), live, sampled] at length
      rw [if_neg own]
      exact List.eq_nil_of_length_eq_zero length

/-- What has been written to such a buffer are the values of its channel. -/
theorem history_samples (field : LogField) (samples : isSample field = true)
    (state : LoopState F) (turns : List (Turn F)) :
    history field state turns =
      (valuesOf field.channel turns).map fun f => dataLog field.pid f [] := by
  induction turns using List.reverseRecOn with
  | nil => rfl
  | append_singleton turns turn inductionHypothesis =>
    rw [history_snoc, inductionHypothesis, written_sample field samples, values_of_snoc,
      List.map_append]

/-- So the windows are the last samples of the channel up to the crash. -/
theorem pre_crash_samples (field : LogField) (samples : isSample field = true)
    (state : LoopState F) (turns : List (Turn F)) :
    preCrash field state turns =
      (valuesOf field.channel turns).drop
        ((valuesOf field.channel turns).length - statusLogBeforeSize) := by
  rw [preCrash, retained, history_samples field samples, List.length_map, ← List.map_drop,
    List.filterMap_map, List.map_filterMap]
  simp

/-- And the first samples follow, as many as are recorded. -/
theorem post_crash_samples (field : LogField) (samples : isSample field = true)
    (state : LoopState F) (turns : List (Turn F)) :
    postCrash field state turns = (valuesOf field.channel turns).take statusLogAfterSize := by
  rw [postCrash]
  congr 1
  induction turns using List.reverseRecOn with
  | nil => rfl
  | append_singleton turns turn inductionHypothesis =>
    rw [Runs.emitted_append, inductionHypothesis, values_of_snoc]
    simp [live_sample field samples]

end

/-! ## The plots -/

section

variable {W F : Type} [Arithmetic F] [LogHeader]

/-- What is plotted of a quantity: as many values as a buffer has slots from before the
crash, up to the split, and three hundred from behind it. Where the values are samples, they
are the last of the channel up to the one at which the crash was found, and the next ones. -/
structure SeriesPlotted (field : LogField) (first : LoopState F) (turns later : List (Turn F))
    (rows : List (Row F)) : Prop where
  series : plotData field.pid rows =
    preCrash field first turns ++ postCrash field (after first turns) later
  window : (preCrash field first turns).length = statusLogBeforeSize
  behind : (postCrash field (after first turns) later).length = statusLogAfterSize
  sides : plotStatic 200 (plotData field.pid rows) =
    (preCrash field first turns,
      (preCrash field first turns).drop 199 ++ postCrash field (after first turns) later)
  samples : isSample field = true →
    preCrash field first turns = (valuesOf field.channel turns).drop
        ((valuesOf field.channel turns).length - statusLogBeforeSize) ∧
      postCrash field (after first turns) later =
        (valuesOf field.channel later).take statusLogAfterSize

/-- Of a recording in which a first crash is logged, every quantity is plotted so, if at
the crash each buffer was filled and none just turned over. The recording is one of any
run of the safety loop, under any schedule in which no other thread sends data records.

Proof: the records that the logger takes are those of safety, the dump first and the
live ones behind it. As every call returned 0 and the last `END` succeeded, each has
left its row, and of these the values of one process id are selected in the order in
which they were sent. -/
theorem series_plotted (below : LogHeader.logCode .data < LogHeader.logCode .error)
    (mallocp : Nat → Bool) (proc : Option ProcStat) (before later : List (Moment F))
    (trigger : Moment F) (success : (safetyStatusInit mallocp proc : Nat × Status F).1 = 0)
    (first : announces .eventCrashStart
      (stored (start mallocp proc) (before.map Moment.turn)) = false)
    (crash : announces .eventCrashStart
      (storage (after (start mallocp proc) (before.map Moment.turn)) trigger.turn) = true)
    (whole : ∀ field, WholeWindow
      (history field (start mallocp proc) (before.map Moment.turn ++ [trigger.turn])))
    {env : Environment W F} (sqlite : Sqlite env)
    (recording : Recording sqlite isData (sent (start mallocp proc) (before ++ trigger :: later)))
    (field : LogField) :
    SeriesPlotted field (start mallocp proc) (before.map Moment.turn ++ [trigger.turn])
      (later.map Moment.turn) recording.rows := by
  have starts := (announces_start_iff _ trigger.turn
    (run_settled mallocp proc (before.map Moment.turn))).mp crash
  obtain ⟨drawn, behind⟩ := recorded_series mallocp proc before later trigger success first starts
    whole recording.ended field
  have series := (recording_data below recording field.pid).trans drawn
  have window := pre_crash_length field (start mallocp proc) _ (whole field).1
  have split : (preCrash field (start mallocp proc)
      (before.map Moment.turn ++ [trigger.turn])).length = 200 := window
  refine ⟨series, window, behind, ?_, fun samples =>
    ⟨pre_crash_samples field samples _ _, post_crash_samples field samples _ _⟩⟩
  rw [series, plotStatic, List.take_left' split, List.drop_append_of_le_length (by omega)]

end

/-- 201 zeros on each channel, enough to fill the buffers and not enough to turn them
over. -/
def fullPrelude : List (Turn ℚ) :=
  List.replicate 201 (sampleTurn .acceleratorPedalValue 0) ++
    List.replicate 201 (sampleTurn .vehicleSpeed 0) ++
    List.replicate 201 (sampleTurn .accelerationSpeedLongitudinal 0) ++
    List.replicate 201 (sampleTurn .accelerationSpeedLateral 0) ++
    List.replicate 201 (sampleTurn .brakeSwitchValue 0)

/-- Of every channel as many samples are received. -/
theorem full_received (channel : CanData) :
    received channel fullPrelude = if channel = .unknown then 0 else 201 := by
  have joined : ∀ earlier later : List (Turn ℚ),
      received channel (earlier ++ later) = received channel earlier + received channel later := by
    intro earlier later
    simp [received]
  simp only [fullPrelude, joined, received_replicate]
  cases channel <;> rfl

/-- All samples are zeros, so that nothing is detected. -/
theorem full_zeros : ∀ turn ∈ fullPrelude, turn.mail.sample = some 0 := by
  intro turn member
  simp only [fullPrelude, List.mem_append, List.mem_replicate] at member
  rcases member with (((⟨_, rfl⟩ | ⟨_, rfl⟩) | ⟨_, rfl⟩) | ⟨_, rfl⟩) | ⟨_, rfl⟩ <;> rfl

/-- At the jump behind them the windows are whole, of every quantity. -/
theorem full_windows (state : LoopState ℚ) (field : LogField) :
    WholeWindow (history field state (fullPrelude.map stamp ++ [stamp jump])) := by
  have length : (history field state (fullPrelude.map stamp ++ [stamp jump])).length =
      201 + if field.channel = .accelerationSpeedLongitudinal then 1 else 0 := by
    have jumps : (stamp jump).mail.channel = .accelerationSpeedLongitudinal := rfl
    rw [history_received, received_snoc, received_stamped, full_received,
      if_neg field.channel_known, jumps]
    simp [eq_comm, stamp, jump]
  rw [WholeWindow, length, statusLogBeforeSize]
  split_ifs <;> decide

/-- The moments of a run that such a prelude, a jump and a whole window make up. -/
theorem full_split (window : List (Turn ℚ)) :
    stampedMoments (fullPrelude ++ [jump] ++ window) =
      stampedMoments fullPrelude ++ ⟨stamp jump, fun _ => dataLog 0 0 []⟩ ::
        stampedMoments window := by
  simp [stampedMoments]

/-- The series of that run are plotted, from the rows that its recording leaves. -/
theorem full_series_plotted :
    ∃ rows : List (Row ℚ), ∀ field, SeriesPlotted field (start (fun _ => true) none)
      ((stampedMoments fullPrelude).map Moment.turn ++ [stamp jump])
      ((stampedMoments (Rearming.almostEpisode ++
        [sampleTurn .brakeSwitchValue 0])).map Moment.turn) rows := by
  obtain ⟨silent, starts, opened⟩ := stamped_jump fullPrelude full_zeros (by
    rw [full_received, if_neg (by decide)]
    decide)
  have ended := window_ends (fullPrelude ++ [jump]) Rearming.almostEpisode
    (sampleTurn .brakeSwitchValue 0) 0 rfl opened Rearming.almost_complete.1
    Rearming.almost_complete.2
  have routable := record_routable _ (stamped_shown
    (fullPrelude ++ [jump] ++ Rearming.almostEpisode ++ [sampleTurn .brakeSwitchValue 0]))
  rw [List.append_assoc _ Rearming.almostEpisode, full_split] at ended routable
  obtain ⟨recording⟩ := direct_recording isData _ routable ended
  have before := stamped_turns fullPrelude
  refine ⟨recording.rows, series_plotted (by decide) (fun _ => true) none
    (stampedMoments fullPrelude) _ ⟨stamp jump, fun _ => dataLog 0 0 []⟩ rfl ?_ ?_ ?_
    willingSqlite recording⟩
  · rw [before, silent]
    rfl
  · rw [before]
    exact (announces_start_iff _ _ (run_settled (fun _ => true) none _)).mpr starts
  · rw [before]
    exact full_windows _

end EventRecorder.RecordedSeries
