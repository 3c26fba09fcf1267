import EventRecorder.PreCrashWindow

/-!
# The mails a turn sends

A dump sends what it reads, also where it reads a slot that was never written or
memory beyond the buffer. The mail sent there is what that memory shows. It is an
input of the turn: the mail shown at each position among the mails the turn sends.

Everything else in the buffers is a data record.
-/

namespace EventRecorder.SentMails

open Arithmetic CText CircularMail Detector SafetyStatus DriverAssist SafetyLoop QuietRuns
open PostCrashWindow PreCrashWindow

section

variable {F : Type}

/-- A turn, and the mails that memory shows while it sends, by their position among the
mails of the turn. -/
structure Moment (F : Type) where
  turn : Turn F
  memory : Nat → Mail F

/-- The mail that is sent for a read: the mail itself, or what memory shows in its
place. -/
def sentFor (memory : Mail F) : Read (Mail F) → Mail F
  | .value mail => mail
  | _ => memory

/-- The mails that are sent for some reads, the first of which stands at a position
among the mails of its turn. -/
def resolved (memory : Nat → Mail F) : Nat → List (Read (Mail F)) → List (Mail F)
  | _, [] => []
  | position, read :: rest =>
    sentFor (memory position) read :: resolved memory (position + 1) rest

/-- Reads in two groups: the second group stands behind the first. -/
@[simp] theorem resolved_append (memory : Nat → Mail F) (position : Nat)
    (reads later : List (Read (Mail F))) :
    resolved memory position (reads ++ later) =
      resolved memory position reads ++ resolved memory (position + reads.length) later := by
  induction reads generalizing position with
  | nil => rfl
  | cons read reads inductionHypothesis =>
    have behind : position + 1 + reads.length = position + (reads.length + 1) := by omega
    rw [List.cons_append, resolved, resolved, inductionHypothesis, List.length_cons, behind]
    rfl

/-- Where only mails are sent, memory shows nothing: they are sent as they are. -/
@[simp] theorem resolved_values (memory : Nat → Mail F) (position : Nat) (mails : List (Mail F)) :
    resolved memory position (mails.map .value) = mails := by
  induction mails generalizing position with
  | nil => rfl
  | cons mail mails inductionHypothesis =>
    rw [List.map_cons, resolved, inductionHypothesis]
    rfl

/-- The mail sent for a read stands where the read does. -/
theorem resolved_at (memory : Nat → Mail F) (position : Nat) (reads : List (Read (Mail F)))
    (place : Nat) (read : Read (Mail F)) (found : reads[place]? = some read) :
    (resolved memory position reads)[place]? = some (sentFor (memory (position + place)) read) := by
  induction reads generalizing position place with
  | nil => cases found
  | cons first reads inductionHypothesis =>
    cases place with
    | zero =>
      obtain rfl := Option.some.inj found
      rfl
    | succ place =>
      have later := inductionHypothesis (position + 1) place found
      have behind : position + 1 + place = position + (place + 1) := by omega
      rwa [behind] at later

/-- A mail sent is a mail read or one that memory shows in place of a read that is none. -/
theorem mem_resolved (memory : Nat → Mail F) (position : Nat) (reads : List (Read (Mail F)))
    (mail : Mail F) (sent : mail ∈ resolved memory position reads) :
    .value mail ∈ reads ∨ ∃ place read, reads[place]? = some read ∧
      (∀ other, read ≠ .value other) ∧ mail = memory (position + place) := by
  induction reads generalizing position with
  | nil => cases sent
  | cons read reads inductionHypothesis =>
    rcases List.mem_cons.mp sent with here | later
    · cases read with
      | value other => exact .inl (List.mem_cons.mpr (.inl (congrArg Read.value here)))
      | outside => exact .inr ⟨0, _, rfl, by simp, here⟩
      | unwritten => exact .inr ⟨0, _, rfl, by simp, here⟩
    · rcases inductionHypothesis (position + 1) later with found | ⟨place, read, found, junk, same⟩
      · exact .inl (List.mem_cons_of_mem _ found)
      · refine .inr ⟨place + 1, read, found, junk, ?_⟩
        rw [same]
        congr 1
        omega

/-- A dump of the buffer finds a written mail at a step: it visits the slots from
the index on, if that is not zero. -/
def Stored (cbuf : CbufMail (Mail F)) (step : Nat) : Prop :=
  (1 ≤ cbuf.index ∧ cbuf.index ≤ statusLogBeforeSize) ∧
    ∃ mail, cbuf.buf[(cbuf.index.toNat + step) % statusLogBeforeSize]? = some (some mail)

/-- A data record as the safety loop sends it, with some process id, value and time. -/
def IsRecord (mail : Mail F) : Prop := ∃ pid f time, mail = dataLog pid f time

/-- A buffer of full size whose mails are data records. Its index may be anything, as a
dump can leave it. -/
structure Recorded (cbuf : CbufMail (Mail F)) : Prop where
  length : cbuf.buf.length = cbuf.size
  sized : cbuf.size = statusLogBeforeSize
  records : ∀ mail, some mail ∈ cbuf.buf → IsRecord mail

/-- An empty buffer holds no mail, and so none that is not a record. -/
theorem tracks_recorded (cbuf : CbufMail (Mail F)) (tracks : Tracks statusLogBeforeSize [] cbuf) :
    Recorded cbuf := by
  have inside := tracks.in_range (by decide)
  refine ⟨inside.allocated, tracks.sized, ?_⟩
  intro mail member
  obtain ⟨slot, found⟩ := List.mem_iff_getElem?.mp member
  obtain ⟨bound, _⟩ := List.getElem?_eq_some_iff.mp found
  have empty := tracks.holds.unwritten slot (Nat.zero_le _)
    (by rw [← tracks.sized, ← inside.allocated]; exact bound)
  rw [empty] at found
  cases found

/-- Writing a data record keeps the buffer so, also where the write is outside and
stores nothing. -/
theorem write_recorded (cbuf : CbufMail (Mail F)) (mail : Mail F) (recorded : Recorded cbuf)
    (record : IsRecord mail) : Recorded (cbufMailWrite cbuf mail) := by
  refine ⟨?_, recorded.sized, ?_⟩
  · simp only [cbufMailWrite]
    split_ifs <;> simp [recorded.length]
  · intro other member
    simp only [cbufMailWrite] at member
    split_ifs at member
    · exact recorded.records other member
    · rcases List.mem_or_eq_of_mem_set member with older | newest
      · exact recorded.records other older
      · rw [Option.some.inj newest]
        exact record

/-- So does writing several. -/
theorem writes_recorded (mails : List (Mail F)) (cbuf : CbufMail (Mail F))
    (recorded : Recorded cbuf) (records : ∀ mail ∈ mails, IsRecord mail) :
    Recorded (mails.foldl cbufMailWrite cbuf) := by
  induction mails generalizing cbuf with
  | nil => exact recorded
  | cons mail mails inductionHypothesis =>
    obtain ⟨first, others⟩ := List.forall_mem_cons.mp records
    exact inductionHypothesis _ (write_recorded cbuf mail recorded first) others

/-- A dump moves the index only, and leaves the mails of the buffer as they are. -/
theorem dump_recorded (cbuf : CbufMail (Mail F)) (time : Text) (recorded : Recorded cbuf) :
    Recorded (safetyStatusLogBuffer cbuf time).2 := by
  obtain ⟨cells, size⟩ := reads_ahead_frame
    (cbufMailMoveIndex cbuf (statusLogBeforeSize + 1)).size
    (cbufMailMoveIndex cbuf (statusLogBeforeSize + 1))
  have buf : (safetyStatusLogBuffer cbuf time).2.buf = cbuf.buf := cells
  refine ⟨?_, size.trans recorded.sized, ?_⟩
  · rw [buf]
    exact recorded.length.trans size.symm
  · rw [buf]
    exact recorded.records

/-- A dump reads a record of the buffer at the steps at which there is one, and else no
mail. -/
theorem dump_step (cbuf : CbufMail (Mail F)) (time : Text) (recorded : Recorded cbuf)
    (step : Nat) (short : step < statusLogBeforeSize) :
    ∃ read, (safetyStatusLogBuffer cbuf time).1[step]? = some read ∧
      ((∃ mail, read = .value mail ∧ IsRecord mail ∧ Stored cbuf step) ∨
        (∀ mail, read ≠ .value mail) ∧ ¬ Stored cbuf step) := by
  have junk (outside : ¬ (1 ≤ cbuf.index ∧ cbuf.index ≤ statusLogBeforeSize))
      (reads : (safetyStatusLogBuffer cbuf time).1 = List.replicate statusLogBeforeSize .outside) :
      ∃ read, (safetyStatusLogBuffer cbuf time).1[step]? = some read ∧
        ((∃ mail, read = .value mail ∧ IsRecord mail ∧ Stored cbuf step) ∨
          (∀ mail, read ≠ .value mail) ∧ ¬ Stored cbuf step) := by
    refine ⟨.outside, ?_, .inr ⟨by simp, fun stored => outside stored.1⟩⟩
    rw [reads, List.getElem?_replicate, if_pos short]
  rcases Int.lt_or_le cbuf.index 1 with below | lower
  · exact junk (by omega) (dump_below cbuf time recorded.length recorded.sized below).1
  rcases Int.lt_or_le statusLogBeforeSize cbuf.index with beyond | upper
  · exact junk (by omega) (dump_beyond cbuf time recorded.length recorded.sized beyond).1
  obtain ⟨reads, _⟩ := dump_inside cbuf time recorded.length recorded.sized lower upper
  have cell : (safetyStatusLogBuffer cbuf time).1[step]? =
      some ((Read.ofCell cbuf.buf[(cbuf.index.toNat + step) % statusLogBeforeSize]?).map
        fun mail => mail.stamp time) := by
    rw [reads, Ring.window, List.getElem?_map, List.getElem?_map, List.getElem?_range short]
    rfl
  refine ⟨_, cell, ?_⟩
  cases found : cbuf.buf[(cbuf.index.toNat + step) % statusLogBeforeSize]? with
  | none =>
    refine .inr ⟨by simp [Read.ofCell, Read.map], ?_⟩
    rintro ⟨_, mail, same⟩
    rw [found] at same
    cases same
  | some cell =>
    cases cell with
    | none =>
      refine .inr ⟨by simp [Read.ofCell, Read.map], ?_⟩
      rintro ⟨_, mail, same⟩
      rw [found] at same
      cases same
    | some mail =>
      obtain ⟨pid, f, _, rfl⟩ := recorded.records mail (List.mem_of_getElem? found)
      exact .inl ⟨_, rfl, ⟨pid, f, time, rfl⟩, ⟨lower, upper⟩, _, found⟩

/-- Reading ahead reads as often as it is told, whatever it reads. -/
theorem reads_ahead_length (count : Nat) (cbuf : CbufMail (Mail F)) :
    (readsAhead count cbuf).1.length = count := by
  induction count generalizing cbuf with
  | zero => rfl
  | succ count inductionHypothesis =>
    simp only [readsAhead, List.length_cons]
    rw [inductionHypothesis]

/-- A dump reads once for each slot, so that the dumps of several buffers have one
width. -/
theorem dump_length (cbuf : CbufMail (Mail F)) (time : Text)
    (sized : cbuf.size = statusLogBeforeSize) :
    (safetyStatusLogBuffer cbuf time).1.length = statusLogBeforeSize := by
  have size : (cbufMailMoveIndex cbuf (statusLogBeforeSize + 1)).size = statusLogBeforeSize := sized
  simp only [safetyStatusLogBuffer, List.length_map, reads_ahead_length, size]

/-- Pieces of one width are found by quotient and remainder of a position: the quotient
is the piece, the remainder the place in it. -/
theorem flat_map_at {α β : Type} (pieces : α → List β) (width : Nat) (items : List α)
    (same : ∀ item ∈ items, (pieces item).length = width) (order step : Nat)
    (short : step < width) :
    (items.flatMap pieces)[order * width + step]? =
      items[order]?.bind fun item => (pieces item)[step]? := by
  induction items generalizing order with
  | nil => simp
  | cons item items inductionHypothesis =>
    obtain ⟨first, others⟩ := List.forall_mem_cons.mp same
    rw [List.flatMap_cons]
    cases order with
    | zero =>
      rw [List.getElem?_append_left (by rw [first]; omega)]
      simp
    | succ order =>
      have behind : (order + 1) * width + step - width = order * width + step := by
        rw [Nat.add_mul, Nat.one_mul]
        omega
      rw [List.getElem?_append_right (by rw [first, Nat.add_mul]; omega), first, behind,
        inductionHypothesis others]
      rfl

end

section

variable {F : Type} [Arithmetic F]

/-- The read of a turn at a position finds no written mail: it belongs to the dump
of a quantity whose buffer holds none there. -/
def Exposed (state : LoopState F) (turn : Turn F) (position : Nat) : Prop :=
  Starts state turn ∧ ∃ order step field, step < statusLogBeforeSize ∧
    dumpOrder[order]? = some field ∧ position = order * statusLogBeforeSize + step + 1 ∧
    ¬ Stored (updated field state turn) step

/-- The mails a turn writes are data records, so that its buffers hold nothing else when
they are dumped. -/
theorem updated_recorded (state : LoopState F) (turn : Turn F) (field : LogField)
    (recorded : Recorded (state.status.logBefore.buf field)) :
    Recorded (updated field state turn) := by
  apply writes_recorded _ _ recorded
  intro mail member
  unfold written at member
  cases sampled : turn.mail.sample with
  | none =>
    rw [sampled] at member
    cases member
  | some f =>
    rw [sampled] at member
    obtain ⟨write, _, rfl⟩ := List.mem_map.mp member
    exact ⟨_, _, _, rfl⟩

/-- What the dumps of a turn read, one buffer after the other in the order in which they
are dumped. -/
def dumps (state : LoopState F) (turn : Turn F) : List (Read (Mail F)) :=
  dumpOrder.flatMap fun field =>
    (safetyStatusLogBuffer (updated field state turn) (turn.clock 1)).1

/-- The reads of the dumps, by quantity and step: each dump takes up as many positions
as the buffers have slots. -/
theorem dumps_at (state : LoopState F) (turn : Turn F)
    (recorded : ∀ field, Recorded (state.status.logBefore.buf field)) (order step : Nat)
    (short : step < statusLogBeforeSize) :
    (dumps state turn)[order * statusLogBeforeSize + step]? = dumpOrder[order]?.bind fun field =>
      (safetyStatusLogBuffer (updated field state turn) (turn.clock 1)).1[step]? := by
  refine flat_map_at _ _ _ ?_ _ _ short
  intro field _
  exact dump_length _ _ (updated_recorded state turn field (recorded field)).sized

/-- The read at a position of the dumps is a data record, or the position is
exposed. -/
theorem dumps_sound (state : LoopState F) (turn : Turn F) (starts : Starts state turn)
    (recorded : ∀ field, Recorded (state.status.logBefore.buf field)) (place : Nat)
    (read : Read (Mail F)) (found : (dumps state turn)[place]? = some read) :
    (∃ mail, read = .value mail ∧ IsRecord mail) ∨
      (∀ mail, read ≠ .value mail) ∧ Exposed state turn (place + 1) := by
  have short : place % statusLogBeforeSize < statusLogBeforeSize := Nat.mod_lt _ (by decide)
  have whole : place / statusLogBeforeSize * statusLogBeforeSize + place % statusLogBeforeSize =
      place := Nat.div_add_mod' _ _
  rw [← whole, dumps_at state turn recorded _ _ short] at found
  obtain ⟨field, order, found⟩ := Option.bind_eq_some_iff.mp found
  obtain ⟨other, same, cases⟩ := dump_step (updated field state turn) (turn.clock 1)
    (updated_recorded state turn field (recorded field)) _ short
  obtain rfl := Option.some.inj (found.symm.trans same)
  rcases cases with ⟨mail, value, record, _⟩ | ⟨junk, missing⟩
  · exact .inl ⟨mail, value, record⟩
  · exact .inr ⟨junk, starts, _, _, field, short, order, by rw [whole], missing⟩

/-- An exposed position is read without a mail, and it stands one place behind the
announcement of the crash. -/
theorem dumps_exposed (state : LoopState F) (turn : Turn F)
    (recorded : ∀ field, Recorded (state.status.logBefore.buf field)) (position : Nat)
    (exposed : Exposed state turn position) :
    ∃ place read, position = place + 1 ∧ (dumps state turn)[place]? = some read ∧
      ∀ mail, read ≠ .value mail := by
  obtain ⟨_, order, step, field, short, found, rfl, missing⟩ := exposed
  obtain ⟨read, same, cases⟩ := dump_step (updated field state turn) (turn.clock 1)
    (updated_recorded state turn field (recorded field)) _ short
  refine ⟨_, read, rfl, ?_, ?_⟩
  · rw [dumps_at state turn recorded _ _ short, found]
    exact same
  · rcases cases with ⟨_, _, _, stored⟩ | ⟨junk, _⟩
    · exact absurd stored missing
    · exact junk

variable [LogHeader]

/-- The state after a moment, which does not depend on what memory shows. -/
def step (state : LoopState F) (moment : Moment F) : LoopState F := next state moment.turn

/-- The mails sent to the logger at a moment: what the turn reads or makes, with memory
in place of what is no mail. -/
def sentAt (state : LoopState F) (moment : Moment F) : List (Mail F) :=
  resolved moment.memory 0 (storage state moment.turn)

/-- The mails sent to the logger at some moments, in order: what the rest of the
recorder sees of the safety thread. -/
def sent (state : LoopState F) (moments : List (Moment F)) : List (Mail F) :=
  Runs.emitted step sentAt state moments

/-- One more moment sends its mails behind the others. -/
@[simp] theorem sent_snoc (first : LoopState F) (before : List (Moment F)) (moment : Moment F) :
    sent first (before ++ [moment]) =
      sent first before ++ sentAt (Runs.after step first before) moment := by
  simp [sent]

/-- The states are those of the turns, so that all that is known of runs holds of
moments. -/
theorem after_moments (state : LoopState F) (moments : List (Moment F)) :
    Runs.after step state moments = after state (moments.map Moment.turn) := by
  induction moments generalizing state with
  | nil => rfl
  | cons moment moments inductionHypothesis => exact inductionHypothesis _

/-- Where the reads are no mails to be sent, none is sent, whatever memory would show. -/
theorem sent_silent (state : LoopState F) (moments : List (Moment F))
    (silent : stored state (moments.map Moment.turn) = []) : sent state moments = [] := by
  induction moments generalizing state with
  | nil => rfl
  | cons moment moments inductionHypothesis =>
    obtain ⟨first, others⟩ := List.append_eq_nil_iff.mp silent
    have none : sentAt state moment = [] := by
      rw [sentAt, first]
      rfl
    rw [sent, Runs.emitted_cons, none]
    exact inductionHypothesis _ others

/-- Every buffer of a run is of full size and holds data records, dumps and turns
between them included. -/
theorem run_recorded (mallocp : Nat → Bool) (proc : Option ProcStat) (before : List (Turn F))
    (success : (safetyStatusInit mallocp proc : Nat × Status F).1 = 0) (field : LogField) :
    Recorded ((after (start mallocp proc) before).status.logBefore.buf field) := by
  induction before using List.reverseRecOn with
  | nil =>
    have first : announces .eventCrashStart (stored (start mallocp proc) ([] : List (Turn F))) =
        false := rfl
    exact tracks_recorded _ (run_tracks mallocp proc [] success first field)
  | append_singleton before turn inductionHypothesis =>
    have recorded := updated_recorded _ turn field inductionHypothesis
    rw [after_snoc]
    by_cases starts : Starts (after (start mallocp proc) before) turn
    · rw [(crash_turn _ turn starts).2 field]
      exact dump_recorded _ _ recorded
    · rw [turn_buffer _ turn (run_settled mallocp proc before) starts field]
      exact recorded

/-- So it is after some moments, whose states are those of their turns. -/
theorem moments_recorded (mallocp : Nat → Bool) (proc : Option ProcStat)
    (before : List (Moment F))
    (success : (safetyStatusInit mallocp proc : Nat × Status F).1 = 0) (field : LogField) :
    Recorded ((Runs.after step (start mallocp proc) before).status.logBefore.buf field) := by
  rw [after_moments]
  exact run_recorded mallocp proc _ success field

/-- The turn that starts an episode sends the dumps between its announcements, which
memory does not touch. -/
theorem sent_crash (state : LoopState F) (moment : Moment F) (f : F)
    (sampled : moment.turn.mail.sample = some f) (starts : Starts state moment.turn) :
    sentAt state moment =
      notifMail .eventCrashStart
          (startedText (state.assisted moment.turn f) (moment.turn.clock 0)) ::
        (resolved moment.memory 1 (dumps state moment.turn) ++
          [notifMail .eventCrashMid (midText (state.assisted moment.turn f))]) := by
  obtain ⟨value, carried, decided, idle⟩ := starts
  obtain rfl := Option.some.inj (sampled.symm.trans carried)
  obtain ⟨storage, _⟩ := turn_crash state moment.turn f sampled decided idle
  have buffers : ∀ field, (state.assisted moment.turn f).logBefore.buf field =
      updated field state moment.turn := by
    intro field
    rw [assisted_buffers, updated, written, sampled]
  rw [dumpCrash] at storage
  simp only [buffers] at storage
  rw [← dumps] at storage
  rw [sentAt, storage, List.cons_append, resolved, resolved_append]
  rfl

omit [LogHeader] in
/-- The dumps are data records and what memory shows at the exposed positions, and
nothing else. -/
theorem dumps_shown (state : LoopState F) (moment : Moment F) (starts : Starts state moment.turn)
    (recorded : ∀ field, Recorded (state.status.logBefore.buf field)) :
    ∀ mail ∈ resolved moment.memory 1 (dumps state moment.turn), IsRecord mail ∨
      ∃ position, Exposed state moment.turn position ∧ mail = moment.memory position := by
  intro mail member
  have sound := dumps_sound state moment.turn starts recorded
  rcases mem_resolved _ _ _ _ member with read | ⟨place, read, found, junk, same⟩
  · obtain ⟨place, found⟩ := List.mem_iff_getElem?.mp read
    rcases sound place _ found with ⟨other, same, record⟩ | ⟨junk, _⟩
    · rw [Read.value.inj same]
      exact .inl record
    · exact absurd rfl (junk mail)
  · rcases sound place read found with ⟨other, value, _⟩ | ⟨_, exposed⟩
    · exact absurd value (junk other)
    · exact .inr ⟨place + 1, exposed, by rw [same, Nat.add_comm]⟩

omit [LogHeader] in
/-- What memory shows at an exposed position is among the dumps, and so reaches the
logger. -/
theorem memory_dumped (state : LoopState F) (moment : Moment F)
    (recorded : ∀ field, Recorded (state.status.logBefore.buf field)) (position : Nat)
    (exposed : Exposed state moment.turn position) :
    moment.memory position ∈ resolved moment.memory 1 (dumps state moment.turn) := by
  obtain ⟨place, read, rfl, found, junk⟩ :=
    dumps_exposed state moment.turn recorded position exposed
  have shown := resolved_at moment.memory 1 _ place read found
  have same : sentFor (moment.memory (1 + place)) read = moment.memory (1 + place) := by
    cases read with
    | value mail => exact absurd rfl (junk mail)
    | outside => rfl
    | unwritten => rfl
  rw [same, Nat.add_comm] at shown
  exact List.mem_of_getElem? shown

/-- A turn while recording sends data records, and the end of the episode behind them
when every quantity has been counted. -/
theorem sent_recording (state : LoopState F) (moment : Moment F) (f : F)
    (sampled : moment.turn.mail.sample = some f) (recording : state.status.crashStatus = 2) :
    let ran := runLive moment.turn.clock 0
      (liveCalls (state.assisted moment.turn f) moment.turn.mail f) (state.assisted moment.turn f)
    sentAt state moment = ran.1 ++
        (if 12 ≤ ran.2.logBefore.indicator then
          [notifMail .eventCrashEnd (endedText ran.2)] else []) ∧
      (∀ mail ∈ ran.1, IsRecord mail) ∧
      (step state moment).status.crashStatus = (if 12 ≤ ran.2.logBefore.indicator then 0 else 2) ∧
      (step state moment).status.meanI = (state.assisted moment.turn f).meanI ∧
      ran.2.meanI = (state.assisted moment.turn f).meanI := by
  intro ran
  obtain ⟨sent, status⟩ := turn_logs state moment.turn f sampled
  have recordingLog : (state.assisted moment.turn f).crashStatus = 2 := by
    rw [assisted_crash_status, recording]
    simp
  have logged : safetyStatusLog (state.assisted moment.turn f) moment.turn.mail f
      moment.turn.clock = recordLive (state.assisted moment.turn f) moment.turn.mail f
        moment.turn.clock := by
    simp [safetyStatusLog, recordingLog]
  obtain ⟨lived, _⟩ := run_live_calls (state.assisted moment.turn f) moment.turn.mail f
    moment.turn.clock
  have mean : ran.2.meanI = (state.assisted moment.turn f).meanI := by
    change (runLive _ _ _ _).2.meanI = _
    rw [lived]
  have crash : ran.2.crashStatus = 2 := by
    change (runLive _ _ _ _).2.crashStatus = _
    rw [lived]
    exact recordingLog
  have types := run_live_records moment.turn.clock
    (liveCalls (state.assisted moment.turn f) moment.turn.mail f) 0 (state.assisted moment.turn f)
  have next : (step state moment).status = _ := status
  rw [logged] at sent next
  rw [sentAt, sent, next]
  by_cases ends : 12 ≤ ran.2.logBefore.indicator
  · have ended : recordLive (state.assisted moment.turn f) moment.turn.mail f moment.turn.clock =
        ((ran.1 ++ [notifMail .eventCrashEnd (endedText ran.2)]).map .value,
          { ran.2 with
            crashStatus := 0
            logBefore := { ran.2.logBefore with indicator := 0 } }) := by
      exact if_pos ends
    rw [ended, if_pos ends, if_pos ends, resolved_values]
    exact ⟨rfl, types, rfl, mean, mean⟩
  · have continued : recordLive (state.assisted moment.turn f) moment.turn.mail f
        moment.turn.clock = (ran.1.map .value, ran.2) := if_neg ends
    rw [continued, if_neg ends, if_neg ends, resolved_values, List.append_nil]
    exact ⟨rfl, types, crash, mean, mean⟩

/-- An idle turn that starts no episode sends nothing and stays idle, as its storage
does. -/
theorem sent_idle (state : LoopState F) (moment : Moment F)
    (idle : state.status.crashStatus = 0) (quiet : ¬ Starts state moment.turn) :
    sentAt state moment = [] ∧ (step state moment).status.crashStatus = 0 := by
  obtain ⟨silent, still, _⟩ := turn_idle state moment.turn idle quiet
  rw [sentAt, silent]
  exact ⟨rfl, still⟩

end

/-- The quiet run up to its crash, with a mail that memory shows throughout, at whatever
position it is read. -/
def quietMoments (shown : Mail ℚ) : List (Moment ℚ) :=
  (prelude ++ [jump]).map fun turn => ⟨turn, fun _ => shown⟩

/-- Its dump begins outside the buffer of the brake channel, so that the second mail of
the run is the one that memory shows. -/
theorem quiet_sent (shown : Mail ℚ) :
    ∃ text rest, sent (start (fun _ => true) none) (quietMoments shown) =
      notifMail .eventCrashStart text :: shown :: rest := by
  obtain ⟨silent, _, starts⟩ := prelude_jump (fun _ => true) none
  have turns : (prelude.map fun turn => (⟨turn, fun _ => shown⟩ : Moment ℚ)).map Moment.turn =
      prelude := by
    rw [List.map_map]
    exact List.map_id _
  have before : sent (start (fun _ => true) none)
      (prelude.map fun turn => ⟨turn, fun _ => shown⟩) = [] :=
    sent_silent _ _ (by rw [turns]; exact silent)
  have reached : Runs.after step (start (fun _ => true) none)
      (prelude.map fun turn => ⟨turn, fun _ => shown⟩) =
        after (start (fun _ => true) none) prelude := by
    rw [after_moments, turns]
  have split : dumps (after (start (fun _ => true) none) prelude) jump = .outside ::
      (dumps (after (start (fun _ => true) none) prelude) jump).tail := by
    rw [dumps, dumpOrder, List.flatMap_cons, quiet_brake_dump]
    rfl
  have crash := sent_crash _ ⟨jump, fun _ => shown⟩ 9 rfl starts
  rw [split] at crash
  rw [quietMoments, List.map_append, List.map_singleton, sent_snoc, before, reached,
    List.nil_append, crash]
  exact ⟨_, _, rfl⟩

end EventRecorder.SentMails
