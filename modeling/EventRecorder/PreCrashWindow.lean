import EventRecorder.PostCrashWindow

/-!
# The pre-crash window

The turn that starts an episode dumps every buffer: it rewinds the index by a
full turn and one slot and reads ahead once per slot. From an index above zero
the dump visits the slots in order from the next write position, the unwritten
ones included, and leaves the index one slot before where it was. From index
zero the rewind leaves the allocation, and so does every read.

Up to the first dump each buffer tracks the history of its quantity, so the
records of that dump are known from the number of values written.
-/

namespace EventRecorder.PreCrashWindow

open Arithmetic CText CircularMail Detector SafetyStatus DriverAssist SafetyLoop QuietRuns
open PostCrashWindow

section

variable {F : Type}

/-- The dump's rewind of an allocated buffer. Below index one it adds to the size
what it should subtract from it. -/
theorem rewind (cbuf : CbufMail (Mail F)) (sized : cbuf.size = statusLogBeforeSize) :
    cbufMailMoveIndex cbuf (statusLogBeforeSize + 1) =
      { cbuf with index := if cbuf.index < 1 then 201 - cbuf.index else cbuf.index - 1 } := by
  have turns : (statusLogBeforeSize + 1) % statusLogBeforeSize = 1 := rfl
  rw [cbufMailMoveIndex, sized, turns]
  simp only [CbufMail.mk.injEq, true_and, statusLogBeforeSize]
  split_ifs <;> omega

/-- A dump from an index inside the allocation visits one full turn from the next
write position and ends one slot before it. -/
theorem dump_inside (cbuf : CbufMail (Mail F)) (time : Text)
    (length : cbuf.buf.length = cbuf.size) (sized : cbuf.size = statusLogBeforeSize)
    (lower : 1 ≤ cbuf.index) (upper : cbuf.index ≤ statusLogBeforeSize) :
    (safetyStatusLogBuffer cbuf time).1 =
        (Ring.window statusLogBeforeSize cbuf.buf cbuf.index.toNat statusLogBeforeSize).map
          (fun cell => (Read.ofCell cell).map fun mail => mail.stamp time) ∧
      (safetyStatusLogBuffer cbuf time).2.index = cbuf.index - 1 := by
  have rewound : cbufMailMoveIndex cbuf (statusLogBeforeSize + 1) =
      { cbuf with index := cbuf.index - 1 } := by
    rw [rewind cbuf sized, if_neg (by omega)]
  have valid : InRange { cbuf with index := cbuf.index - 1 } := by
    refine ⟨length, ?_, ?_⟩
    · simp only
      omega
    · simp only [sized]
      omega
  obtain ⟨reads, last⟩ := reads_ahead_in_range statusLogBeforeSize _ valid
  have next : (cbuf.index - 1).toNat + 1 = cbuf.index.toNat := by omega
  have back : (cbuf.index - 1).toNat % statusLogBeforeSize = (cbuf.index - 1).toNat :=
    Nat.mod_eq_of_lt (by omega)
  simp only [sized, next, Nat.add_mod_right, back] at reads last
  simp only [safetyStatusLogBuffer, rewound, sized]
  refine ⟨?_, ?_⟩
  · rw [reads, List.map_map]
    rfl
  · rw [last]
    exact Int.toNat_of_nonneg (by omega)

/-- A dump from an index below one reads outside the allocation only: the rewind has
taken the index behind it, and reading ahead never comes back. -/
theorem dump_below (cbuf : CbufMail (Mail F)) (time : Text)
    (length : cbuf.buf.length = cbuf.size) (sized : cbuf.size = statusLogBeforeSize)
    (upper : cbuf.index < 1) :
    (safetyStatusLogBuffer cbuf time).1 = List.replicate statusLogBeforeSize .outside ∧
      (safetyStatusLogBuffer cbuf time).2.index = 401 - cbuf.index := by
  have rewound : cbufMailMoveIndex cbuf (statusLogBeforeSize + 1) =
      { cbuf with index := 201 - cbuf.index } := by
    rw [rewind cbuf sized, if_pos upper]
  have reads := reads_ahead_beyond statusLogBeforeSize { cbuf with index := 201 - cbuf.index }
    length (by simp only [sized, statusLogBeforeSize]; omega)
  simp only [safetyStatusLogBuffer, rewound, sized]
  rw [sized] at reads
  rw [reads]
  refine ⟨by simp [Read.map], ?_⟩
  simp only [statusLogBeforeSize]
  omega

/-- A dump from an index behind the allocation, where an earlier dump may have left it,
reads outside as well. -/
theorem dump_beyond (cbuf : CbufMail (Mail F)) (time : Text)
    (length : cbuf.buf.length = cbuf.size) (sized : cbuf.size = statusLogBeforeSize)
    (beyond : statusLogBeforeSize < cbuf.index) :
    (safetyStatusLogBuffer cbuf time).1 = List.replicate statusLogBeforeSize .outside ∧
      (safetyStatusLogBuffer cbuf time).2.index = cbuf.index + 199 := by
  have rewound : cbufMailMoveIndex cbuf (statusLogBeforeSize + 1) =
      { cbuf with index := cbuf.index - 1 } := by
    rw [rewind cbuf sized, if_neg (by omega)]
  have reads := reads_ahead_beyond statusLogBeforeSize { cbuf with index := cbuf.index - 1 }
    length (by simp only [sized]; omega)
  simp only [safetyStatusLogBuffer, rewound, sized]
  rw [sized] at reads
  rw [reads]
  refine ⟨by simp [Read.map], ?_⟩
  simp only [statusLogBeforeSize]
  omega

/-- Dumping a buffer never leaves its index where it was.

An index the buffer operations can reach lies in the allocation or beyond it
after an earlier dump; the cases follow the two branches of the rewind. -/
theorem dump_moves (cbuf : CbufMail (Mail F)) (time : Text)
    (allocated : Allocated statusLogBeforeSize cbuf) :
    (safetyStatusLogBuffer cbuf time).2.index ≠ cbuf.index := by
  obtain ⟨length, empty | sized⟩ := allocated
  · have rewound : (cbufMailMoveIndex cbuf (statusLogBeforeSize + 1)).size = 0 := empty
    rw [safetyStatusLogBuffer]
    simp only [rewound, readsAhead]
    rw [cbufMailMoveIndex, empty]
    simp only [statusLogBeforeSize]
    split_ifs <;> omega
  · rcases Int.lt_or_le cbuf.index 1 with below | lower
    · rw [(dump_below cbuf time length sized below).2]
      omega
    · rcases Int.lt_or_le statusLogBeforeSize cbuf.index with beyond | upper
      · rw [(dump_beyond cbuf time length sized beyond).2]
        omega
      · rw [(dump_inside cbuf time length sized lower upper).2]
        omega

/-- A dump keeps the allocation, since it moves the index only. -/
theorem dump_allocated (cbuf : CbufMail (Mail F)) (time : Text)
    (allocated : Allocated statusLogBeforeSize cbuf) :
    Allocated statusLogBeforeSize (safetyStatusLogBuffer cbuf time).2 :=
  reads_ahead_allocated _ _ ⟨allocated.length, allocated.sized⟩

/-- The last values of a history that fit a buffer, which are all of them while there is
room. -/
def retained (history : List (Mail F)) : List (Mail F) :=
  history.drop (history.length - statusLogBeforeSize)

/-- The dump of a buffer that tracks a history. Where the number of values is a
multiple of the size, the index is zero and nothing is read from the buffer;
otherwise the slots no value has reached come first, then the retained values. -/
theorem tracked_dump (history : List (Mail F)) (cbuf : CbufMail (Mail F)) (time : Text)
    (tracks : Tracks statusLogBeforeSize history cbuf) :
    (safetyStatusLogBuffer cbuf time).1 =
      if statusLogBeforeSize ∣ history.length then List.replicate statusLogBeforeSize .outside
      else List.replicate (statusLogBeforeSize - history.length) .unwritten ++
        (retained history).map fun mail => .value (mail.stamp time) := by
  have positive : 0 < statusLogBeforeSize := by decide
  have length : cbuf.buf.length = cbuf.size := (tracks.in_range positive).allocated
  have position := tracks.position
  have bound := Nat.mod_lt history.length positive
  split_ifs with multiple
  · have first : history.length % statusLogBeforeSize = 0 := Nat.mod_eq_zero_of_dvd multiple
    exact (dump_below cbuf time length tracks.sized (by omega)).1
  · have inside : history.length % statusLogBeforeSize ≠ 0 := fun first =>
      multiple (Nat.dvd_of_mod_eq_zero first)
    have slot : cbuf.index.toNat = history.length % statusLogBeforeSize := by omega
    rw [(dump_inside cbuf time length tracks.sized (by omega) (by omega)).1, slot,
      Ring.full_turn positive tracks.holds, List.map_append, List.map_replicate, List.map_map]
    rfl

/-- The dump of such a buffer is its retained values, and nothing else, exactly
when the buffer is full and the number of values is no multiple of its size. -/
theorem tracked_dump_exact_iff (history : List (Mail F)) (cbuf : CbufMail (Mail F)) (time : Text)
    (tracks : Tracks statusLogBeforeSize history cbuf) :
    (safetyStatusLogBuffer cbuf time).1 =
        (retained history).map (fun mail => .value (mail.stamp time)) ↔
      statusLogBeforeSize ≤ history.length ∧ ¬ statusLogBeforeSize ∣ history.length := by
  rw [tracked_dump history cbuf time tracks]
  split_ifs with multiple
  · have outside : List.replicate statusLogBeforeSize (Read.outside : Read (Mail F)) ≠
        (retained history).map (fun mail => .value (mail.stamp time)) := by
      intro same
      have member : Read.outside ∈ (retained history).map fun mail =>
          (Read.value (mail.stamp time) : Read (Mail F)) := by
        rw [← same]
        exact List.mem_replicate.mpr ⟨Nat.succ_ne_zero _, rfl⟩
      simp at member
    simp [outside, multiple]
  · rw [and_iff_left multiple]
    constructor
    · intro same
      have lengths := congrArg List.length same
      simp only [List.length_append, List.length_replicate, List.length_map] at lengths
      omega
    · intro filled
      rw [Nat.sub_eq_zero_of_le filled, List.replicate_zero, List.nil_append]

/-- A successful initialisation leaves every listed buffer empty with its index at
zero. The index of a buffer not yet reached is zero, and the lists of the
remaining allocations name it. -/
theorem init_fields_track (mallocp : Nat → Bool) (size call : Nat)
    (fields : List (Option LogField)) (log : StatusLog F)
    (ready : ∀ field, Tracks size [] (log.buf field) ∨
      ((log.buf field).index = 0 ∧ some field ∈ fields))
    (success : (initFields mallocp size call fields log).1 = 0) (field : LogField) :
    Tracks size [] ((initFields mallocp size call fields log).2.buf field) := by
  induction fields generalizing call log with
  | nil =>
    rcases ready field with tracks | ⟨_, absent⟩
    · exact tracks
    · cases absent
  | cons first rest inductionHypothesis =>
    cases first with
    | none =>
      simp only [initFields] at success ⊢
      split_ifs at success ⊢ with allocated
      apply inductionHypothesis _ _ _ success
      intro other
      rcases ready other with tracks | ⟨zero, listed⟩
      · exact Or.inl tracks
      · exact Or.inr ⟨zero, by simpa using listed⟩
    | some first =>
      simp only [initFields, cbufMailInit] at success ⊢
      cases allocated : mallocp call with
      | false => simp [allocated] at success
      | true =>
        simp only [allocated, ↓reduceIte] at success ⊢
        apply inductionHypothesis _ _ _ success
        intro other
        by_cases same : other = first
        · subst same
          have index : (log.buf other).index = 0 := by
            rcases ready other with tracks | ⟨zero, _⟩
            · rw [tracks.position]
              simp
            · exact zero
          simp only [↓reduceIte, index]
          exact Or.inl ⟨rfl, Ring.empty_holds size, by simp⟩
        · simp only [same, ↓reduceIte]
          rcases ready other with tracks | ⟨zero, listed⟩
          · exact Or.inl tracks
          · have later : some other ∈ rest := by simpa [same] using listed
            exact Or.inr ⟨zero, later⟩

/-- Whether or not it succeeds, initialisation leaves every buffer allocated as a
whole or not at all. -/
theorem init_fields_allocated (mallocp : Nat → Bool) (size call : Nat)
    (fields : List (Option LogField)) (log : StatusLog F)
    (allocated : ∀ field, Allocated size (log.buf field)) (field : LogField) :
    Allocated size ((initFields mallocp size call fields log).2.buf field) := by
  induction fields generalizing call log with
  | nil => exact allocated field
  | cons first rest inductionHypothesis =>
    cases first with
    | none =>
      simp only [initFields]
      split_ifs
      · exact inductionHypothesis _ _ allocated
      · exact allocated field
    | some first =>
      simp only [initFields, cbufMailInit]
      cases mallocp call with
      | false => exact allocated field
      | true =>
        simp only [↓reduceIte]
        apply inductionHypothesis
        intro other
        by_cases same : other = first
        · simp only [same, ↓reduceIte]
          exact ⟨List.length_replicate, Or.inr rfl⟩
        · simp only [same, ↓reduceIte]
          exact allocated other

variable [Arithmetic F]

/-- The mails a turn writes to the buffer of a quantity: none if the loop ignores its
mail or this is of another channel. -/
def written (field : LogField) (state : LoopState F) (turn : Turn F) : List (Mail F) :=
  match turn.mail.sample with
  | none => []
  | some f => writesTo field (updateWrites state.status turn.mail f turn.proc)

/-- The buffer of a quantity as the update of a turn leaves it, in which a dump of the
same turn finds it. -/
def updated (field : LogField) (state : LoopState F) (turn : Turn F) : CbufMail (Mail F) :=
  (written field state turn).foldl cbufMailWrite (state.status.logBefore.buf field)

/-- A turn of another channel writes nothing to the buffer of a quantity, since each
quantity is listed under one channel. -/
theorem written_other (field : LogField) (state : LoopState F) (turn : Turn F)
    (other : turn.mail.channel ≠ field.channel) : written field state turn = [] := by
  unfold written
  cases turn.mail.sample with
  | none => rfl
  | some f =>
    have visited := (visited_fields state.status turn.mail f turn.proc).1
    have absent : field ∉ (updateWrites state.status turn.mail f turn.proc).map Prod.fst := by
      rw [visited]
      simp [other.symm]
    simp only [writesTo, List.map_eq_nil_iff, List.filter_eq_nil_iff, decide_eq_true_eq]
    rintro write member rfl
    exact absent (List.mem_map_of_mem member)

variable [LogHeader]

/-- Everything written to the buffer of a quantity in a list of turns, in order,
whatever has become of it since. -/
def history (field : LogField) (state : LoopState F) (turns : List (Turn F)) : List (Mail F) :=
  Runs.emitted next (written field) state turns

/-- One more turn adds what it writes, from the state after the others. -/
@[simp] theorem history_snoc (field : LogField) (state : LoopState F) (turns : List (Turn F))
    (turn : Turn F) : history field state (turns ++ [turn]) =
      history field state turns ++ written field (after state turns) turn := by
  simp [history, after]

/-- Turns of other channels leave no history, however many they are. -/
theorem history_other (field : LogField) (state : LoopState F) (turns : List (Turn F))
    (others : ∀ turn ∈ turns, turn.mail.channel ≠ field.channel) :
    history field state turns = [] := by
  induction turns using List.reverseRecOn with
  | nil => rfl
  | append_singleton turns turn inductionHypothesis =>
    have earlier := inductionHypothesis fun turn member => others turn (by simp [member])
    rw [history_snoc, earlier, written_other field _ turn (others turn (by simp))]
    rfl

/-- A turn that starts no episode changes the buffers by its writes only; those of other
quantities stay as they are. -/
theorem turn_buffer (state : LoopState F) (turn : Turn F)
    (settled : state.status.crashStatus = 0 ∨ state.status.crashStatus = 2)
    (quiet : ¬ Starts state turn) (field : LogField) :
    (next state turn).status.logBefore.buf field = updated field state turn := by
  unfold updated written
  cases sampled : turn.mail.sample with
  | none =>
    rw [(turn_ignored state turn sampled).1]
    rfl
  | some f =>
    obtain ⟨_, status⟩ := turn_logs state turn f sampled
    have calm : (state.assisted turn f).crashStatus ≠ 1 := by
      have undecided : ¬ (shiftDecision state.status turn.mail f = some 1 ∧
          state.status.crashStatus = 0) := by
        rintro ⟨decided, idle⟩
        exact quiet ⟨f, sampled, decided, idle⟩
      rw [assisted_crash_status, if_neg undecided]
      omega
    obtain ⟨_, _, _, frame⟩ := log_frame (state.assisted turn f) turn.mail f turn.clock calm
    rw [status, frame]
    exact assisted_buffers state turn f field

/-- The turn that starts an episode sends the dumps of the updated buffers
between its two announcements and leaves each buffer as its dump does. -/
theorem crash_turn (state : LoopState F) (turn : Turn F) (starts : Starts state turn) :
    (∃ opening closing, opening.reading = none ∧ closing.reading = none ∧
      storage state turn = .value opening :: dumpOrder.flatMap (fun field =>
        (safetyStatusLogBuffer (updated field state turn) (turn.clock 1)).1) ++
          [.value closing]) ∧
      ∀ field, (next state turn).status.logBefore.buf field =
        (safetyStatusLogBuffer (updated field state turn) (turn.clock 1)).2 := by
  obtain ⟨f, sampled, decided, idle⟩ := starts
  obtain ⟨sent, status, _⟩ := turn_crash state turn f sampled decided idle
  have buffers : ∀ field, (state.assisted turn f).logBefore.buf field =
      updated field state turn := by
    intro field
    rw [assisted_buffers, updated, written, sampled]
  constructor
  · refine ⟨notifMail .eventCrashStart (startedText (state.assisted turn f) (turn.clock 0)),
      notifMail .eventCrashMid (midText (state.assisted turn f)), rfl, rfl, ?_⟩
    rw [sent, dumpCrash]
    simp only [buffers]
  · intro field
    rw [status, dumpCrash]
    simp only [buffers]

/-- Every buffer of a run is allocated as a whole or not at all, whatever the
allocations do. By induction on the turns, dumps included. -/
theorem run_allocated (mallocp : Nat → Bool) (proc : Option ProcStat) (before : List (Turn F))
    (field : LogField) : Allocated statusLogBeforeSize
      ((after (start mallocp proc) before).status.logBefore.buf field) := by
  induction before using List.reverseRecOn with
  | nil =>
    have unallocated : ∀ other, Allocated statusLogBeforeSize
        ((⟨fun _ => .zero, fun _ => 0, 0⟩ : StatusLog F).buf other) :=
      fun _ => ⟨rfl, Or.inl rfl⟩
    exact init_fields_allocated mallocp _ 0 initOrder _ unallocated field
  | append_singleton before turn inductionHypothesis =>
    rw [after_snoc]
    have written : Allocated statusLogBeforeSize
        (updated field (after (start mallocp proc) before) turn) :=
      writes_allocated _ _ inductionHypothesis
    by_cases starts : Starts (after (start mallocp proc) before) turn
    · rw [(crash_turn _ turn starts).2 field]
      exact dump_allocated _ _ written
    · rw [turn_buffer _ turn (run_settled mallocp proc before) starts field]
      exact written

/-- Before the first crash of a run every buffer tracks its history: nothing but writes
has touched it since its allocation. -/
theorem run_tracks (mallocp : Nat → Bool) (proc : Option ProcStat) (before : List (Turn F))
    (success : (safetyStatusInit mallocp proc : Nat × Status F).1 = 0)
    (first : announces .eventCrashStart (stored (start mallocp proc) before) = false)
    (field : LogField) :
    Tracks statusLogBeforeSize (history field (start mallocp proc) before)
      ((after (start mallocp proc) before).status.logBefore.buf field) := by
  induction before using List.reverseRecOn with
  | nil =>
    have ready : ∀ other, Tracks statusLogBeforeSize []
          ((⟨fun _ => .zero, fun _ => 0, 0⟩ : StatusLog F).buf other) ∨
        ((⟨fun _ => .zero, fun _ => 0, 0⟩ : StatusLog F).buf other).index = 0 ∧
          some other ∈ initOrder := by
      intro other
      exact Or.inr ⟨rfl, by cases other <;> decide⟩
    exact init_fields_track mallocp _ 0 initOrder _ ready success field
  | append_singleton before turn inductionHypothesis =>
    rw [stored_snoc, announces_append, Bool.or_eq_false_iff] at first
    have settled := run_settled mallocp proc before
    have quiet : ¬ Starts (after (start mallocp proc) before) turn := by
      intro starts
      rw [(announces_start_iff _ turn settled).mpr starts] at first
      cases first.2
    rw [after_snoc, history_snoc, turn_buffer _ turn settled quiet field]
    exact writes_track _ (by decide) (inductionHypothesis first.1)

/-- The records of the first crash of a run: the dump of a quantity is its last
200 values exactly when more than 200 were written and their number is no
multiple of 200. -/
theorem first_dump_exact_iff (mallocp : Nat → Bool) (proc : Option ProcStat)
    (before : List (Turn F)) (trigger : Turn F)
    (success : (safetyStatusInit mallocp proc : Nat × Status F).1 = 0)
    (first : announces .eventCrashStart (stored (start mallocp proc) before) = false)
    (field : LogField) :
    (safetyStatusLogBuffer (updated field (after (start mallocp proc) before) trigger)
        (trigger.clock 1)).1 =
      (retained (history field (start mallocp proc) (before ++ [trigger]))).map
        (fun mail => .value (mail.stamp (trigger.clock 1))) ↔
    statusLogBeforeSize ≤ (history field (start mallocp proc) (before ++ [trigger])).length ∧
      ¬ statusLogBeforeSize ∣
        (history field (start mallocp proc) (before ++ [trigger])).length := by
  have tracked := run_tracks mallocp proc before success first field
  have updatedTracks := writes_track (written field (after (start mallocp proc) before) trigger)
    (by decide) tracked
  rw [← history_snoc] at updatedTracks
  exact tracked_dump_exact_iff _ _ _ updatedTracks

/-- What the dump of a crash is documented to do: every quantity's records are
its last 200 values, oldest first, every position read holds a written mail of
its buffer, and every buffer's next write position is where it was. -/
structure WindowExact (first : LoopState F) (before : List (Turn F)) (trigger : Turn F) :
    Prop where
  records : ∀ field, (readings (storage (after first before) trigger)).filter
      (fun reading => reading.1 = field.pid) =
    (retained (history field first (before ++ [trigger]))).filterMap Mail.reading
  inside : ∀ read ∈ storage (after first before) trigger, ∃ mail, read = .value mail
  position : ∀ field, ((next (after first before) trigger).status.logBefore.buf field).index =
    (updated field (after first before) trigger).index

/-- No crash of any run leaves the next write positions where they were, and so none has
the documented window.

Proof: a crash is dumped from buffers that are allocated as a whole or not at all. In
either case the rewind and the reads ahead do not add up to a full turn, which shows on
any of the twelve; the brake's is taken. -/
theorem window_never_exact (mallocp : Nat → Bool) (proc : Option ProcStat)
    (before : List (Turn F)) (trigger : Turn F)
    (crash : announces .eventCrashStart
      (storage (after (start mallocp proc) before) trigger) = true) :
    ¬ WindowExact (start mallocp proc) before trigger := by
  intro documented
  have starts := (announces_start_iff _ trigger (run_settled mallocp proc before)).mp crash
  have allocated : Allocated statusLogBeforeSize
      (updated .brake (after (start mallocp proc) before) trigger) :=
    writes_allocated _ _ (run_allocated mallocp proc before .brake)
  have kept := documented.position .brake
  rw [(crash_turn _ trigger starts).2 .brake] at kept
  exact dump_moves _ _ allocated kept

end

/-- The quiet run's crash is no exception: its dump moves the next write positions too. -/
theorem quiet_window_moved : ¬ WindowExact (start (fun _ => true) none) prelude jump := by
  obtain ⟨_, crash⟩ := prelude_crash (fun _ => true) none
  exact window_never_exact _ _ _ _ crash

/-- In that run the brake channel has received nothing, and its dump reads outside the
buffer throughout. -/
theorem quiet_brake_dump :
    (safetyStatusLogBuffer (updated .brake (after (start (fun _ => true) none) prelude) jump)
      (jump.clock 1)).1 = List.replicate statusLogBeforeSize .outside := by
  obtain ⟨first, _⟩ := prelude_crash (fun _ => true) none
  have others : ∀ turn ∈ prelude ++ [jump], turn.mail.channel ≠ LogField.brake.channel := by
    intro turn member
    simp only [prelude, List.mem_append, List.mem_replicate, List.mem_singleton] at member
    rcases member with ⟨_, rfl⟩ | rfl <;> decide
  have tracked := writes_track (written .brake (after (start (fun _ => true) none) prelude) jump)
    (by decide) (run_tracks (fun _ => true) none prelude rfl first .brake)
  rw [← history_snoc, history_other _ _ _ others] at tracked
  have dumped := tracked_dump [] _ (jump.clock 1) tracked
  have multiple : statusLogBeforeSize ∣ ([] : List (Mail ℚ)).length := Nat.dvd_zero _
  rwa [if_pos multiple] at dumped

/-- So the records of that crash are not the last values. Some of them were read from
outside the buffers. -/
theorem quiet_dump_outside :
    Read.outside ∈ storage (after (start (fun _ => true) none) prelude) jump ∧
      ¬ WindowExact (start (fun _ => true) none) prelude jump := by
  obtain ⟨_, _, starts⟩ := prelude_jump (fun _ => true) none
  have outside : Read.outside ∈ storage (after (start (fun _ => true) none) prelude) jump := by
    obtain ⟨⟨opening, closing, _, _, sent⟩, _⟩ := crash_turn _ jump starts
    rw [sent]
    apply List.mem_append_left
    apply List.mem_cons_of_mem
    refine List.mem_flatMap.mpr ⟨.brake, by decide, ?_⟩
    rw [quiet_brake_dump]
    exact List.mem_replicate.mpr ⟨Nat.succ_ne_zero _, rfl⟩
  refine ⟨outside, ?_⟩
  intro documented
  obtain ⟨mail, impossible⟩ := documented.inside _ outside
  cases impossible

end EventRecorder.PreCrashWindow
