import EventRecorder.PreCrashWindow
import EventRecorder.Replay
import EventRecorder.SteadySamples

/-!
# The warm-up of a replayed table

The extractor puts two hundred copies of the first value in front of every column, as
many as a buffer of the recorder has slots. Equal samples are not reported, so no crash
starts before a column of accelerations has left its warm-up, and because the log goes
through the columns in rounds, every other column has by then filled its buffer too: the
dump of the first crash reads no slot that was never written.
-/

namespace EventRecorder.WarmUp

open Arithmetic CText CircularMail Detector SafetyStatus SafetyLoop PreCrashWindow
open PostCrashWindow Python Extractor GeneratedFrames Columns RandomLog Replay Frames Sha
open LineFraming OwnChannel QuietRuns FrameAuthentication ExactDetector SteadySamples

section

variable {F : Type}

/-- The values of a channel among some mails, in order. -/
def channelValues (channel : CanData) (mails : List (Mail F)) : List F :=
  (mails.filter fun mail => mail.channel = channel).filterMap Mail.sample

/-- The values of a channel among the mails of some turns, in order. -/
def valuesOf (channel : CanData) (turns : List (Turn F)) : List F :=
  channelValues channel (turns.map Turn.mail)

/-- The values come in the order of the mails. -/
@[simp] theorem channel_values_append (channel : CanData) (mails later : List (Mail F)) :
    channelValues channel (mails ++ later) =
      channelValues channel mails ++ channelValues channel later := by
  simp [channelValues]

/-- One more turn adds the value of its mail, if it is of the channel. -/
@[simp] theorem values_of_snoc (channel : CanData) (turns : List (Turn F)) (turn : Turn F) :
    valuesOf channel (turns ++ [turn]) =
      valuesOf channel turns ++ channelValues channel [turn.mail] := by
  simp [valuesOf]

/-- One mail has at most one value, and for its own channel only. -/
theorem channel_values_single (channel : CanData) (mail : Mail F) :
    channelValues channel [mail] =
      if mail.channel = channel then mail.sample.toList else [] := by
  by_cases own : mail.channel = channel
  · cases sampled : mail.sample <;> simp [channelValues, own, sampled]
  · simp [channelValues, own]

/-- The mails of the turns that carry a sample. Turns may take in others between them. -/
def carried (turns : List (Turn F)) : List (Mail F) :=
  (turns.filter fun turn => turn.mail.sample.isSome).map Turn.mail

/-- The others have no values, and can be left out. -/
theorem values_of_carried (channel : CanData) (turns : List (Turn F)) :
    valuesOf channel turns = channelValues channel (carried turns) := by
  induction turns using List.reverseRecOn with
  | nil => rfl
  | append_singleton turns turn inductionHypothesis =>
    rw [values_of_snoc, inductionHypothesis]
    cases sampled : turn.mail.sample with
    | none => simp [carried, channel_values_single, sampled]
    | some f => simp [carried, sampled]

/-- The first values of a list of which enough are the same are the same. -/
theorem replicate_of_prefix (value : F) (front list rest others : List F) (count : Nat)
    (whole : list = List.replicate count value ++ others) (split : list = front ++ rest)
    (few : front.length ≤ count) : front = List.replicate front.length value := by
  have start : front <+: List.replicate count value ++ others := ⟨rest, by rw [← split, whole]⟩
  have inside : front <+: List.replicate count value :=
    List.prefix_of_prefix_length_le start (List.prefix_append _ _) (by simpa using few)
  obtain ⟨remaining, same⟩ := inside
  obtain ⟨_, all, _⟩ := List.append_eq_replicate_iff.mp same
  exact all

variable [Arithmetic F]

/-- A detector that has seen one value only does not report it. Without rounding this is
so if zero is its own root. -/
def EqualUnreported (F : Type) [Arithmetic F] : Prop :=
  ∀ (value : F) (count : Nat), (cusum (Runs.after (fun cus x => (cusum cus x).1)
    (safetyStatusCusum Cusum.zero) (List.replicate count value)) value).2 = 0

/-- Each value of its channel is written once to the buffer of a quantity. -/
theorem written_length (field : LogField) (state : LoopState F) (turn : Turn F) :
    (written field state turn).length = (channelValues field.channel [turn.mail]).length := by
  rw [channel_values_single]
  by_cases own : turn.mail.channel = field.channel
  · rw [if_pos own, written]
    cases turn.mail.sample with
    | none => rfl
    | some f =>
      unfold updateWrites
      rw [own]
      cases field <;> rfl
  · rw [if_neg own, written_other field state turn own]
    rfl

/-- The mails of frames of the table have the values of their channel, decoded and in
order. -/
theorem column_values (df : Text → List Text) (frames : List DataFrame)
    (arranged : Arranged df frames) (some : List DataFrame) (within : some ⊆ frames)
    (column : Nat × Text) (known : column ∈ csvCols) :
    channelValues (CanData.ofCode column.1) (some.map (DataFrame.mail (F := F))) =
      (some.filter fun frame => frame.pid = column.1).map fun frame => hexGetFloat frame.hex := by
  induction some with
  | nil => rfl
  | cons frame some inductionHypothesis =>
    obtain ⟨here, others⟩ := List.cons_subset.mp within
    have own := mail_channel (F := F) frame column known (arranged.known frame here)
    have single : channelValues (CanData.ofCode column.1) [frame.mail (F := F)] =
        if frame.pid = column.1 then [hexGetFloat frame.hex] else [] := by
      rw [channel_values_single]
      simp only [own]
      rfl
    rw [List.map_cons, ← List.singleton_append, channel_values_append,
      inductionHypothesis others, single, List.filter_cons]
    by_cases same : frame.pid = column.1 <;> simp [same]

/-- A column starts with its first value, once more often than a warm-up takes. -/
theorem column_starts (df : Text → List Text) (column : Nat × Text) (hexes : List Text)
    (finished : encoded (nlist df column.2) = .ok hexes) :
    ∃ first others, hexes = List.replicate (warmUpTime + 1) first ++ others ∧
      warmUpTime + coolDownTime ≤ hexes.length := by
  obtain ⟨values, first, last, _, firstValue, _, rfl⟩ := encoded_parts _ _ finished
  obtain ⟨rest, rfl⟩ := List.head?_eq_some_iff.mp firstValue
  refine ⟨first, rest ++ List.replicate coolDownTime last, ?_, ?_⟩
  · rw [List.replicate_succ']
    simp
  · simp only [List.length_append, List.length_replicate]
    omega

/-- The quantities are those of the columns, each of which has at least one. -/
theorem field_column (field : LogField) :
    ∃ column ∈ csvCols, field.channel = CanData.ofCode column.1 := by
  cases field <;> decide

/-- Turns that take in the mails of frames have taken in a front of them, up to the one
of the turn in question. -/
theorem arrived_split (frames : List DataFrame) (before rest : List (Turn F)) (trigger : Turn F)
    (arrived : carried (before ++ trigger :: rest) = frames.map DataFrame.mail)
    (sampled : trigger.mail.sample.isSome) :
    ∃ front frame later, frames = front ++ frame :: later ∧
      carried before = front.map DataFrame.mail ∧ trigger.mail = frame.mail := by
  have split : carried (before ++ trigger :: rest) =
      carried before ++ (trigger.mail :: carried rest) := by
    simp [carried, sampled]
  rw [split] at arrived
  obtain ⟨front, behind, rfl, frontMails, behindMails⟩ := List.map_eq_append_iff.mp arrived.symm
  obtain ⟨frame, later, rfl, own, _⟩ := List.map_eq_cons_iff.mp behindMails
  exact ⟨front, frame, later, rfl, frontMails.symm, own.symm⟩

/-- A column of which not all values that have come are the same has left its warm-up. -/
theorem warm_up_left (df : Text → List Text) (front later : List DataFrame) (frame : DataFrame)
    (arranged : Arranged df (front ++ frame :: later)) (column : Nat × Text)
    (known : column ∈ csvCols) (changed : ∀ (value : F) (count : Nat),
      channelValues (CanData.ofCode column.1) ((front ++ [frame]).map DataFrame.mail) ≠
        List.replicate count value) :
    warmUpTime + 1 ≤ (front.filter fun frame => frame.pid = column.1).length := by
  by_contra few
  obtain ⟨hexes, finished, ordered⟩ := arranged.ordered column known
  obtain ⟨first, others, start, _⟩ := column_starts df column hexes finished
  have within : front ++ [frame] ⊆ front ++ frame :: later :=
    List.append_subset.mpr ⟨List.subset_append_left _ _, by simp⟩
  have short : ((front ++ [frame]).filter fun frame => frame.pid = column.1).length ≤
      warmUpTime + 1 := by
    have last := List.length_filter_le (fun frame => frame.pid = column.1) [frame]
    rw [List.filter_append, List.length_append]
    rw [List.length_singleton] at last
    omega
  rw [← List.singleton_append, ← List.append_assoc, List.filter_append] at ordered
  have same := replicate_of_prefix ⟨column.1, first⟩ _ _ _
    (others.map fun hex => ⟨column.1, hex⟩) (warmUpTime + 1)
    (by rw [start, List.map_append, List.map_replicate]) ordered.symm short
  apply changed (hexGetFloat first) _
  rw [column_values df _ arranged _ within column known, same, List.map_replicate]

variable [LogHeader]

/-- What has been written to the buffer of a quantity is as much as its channel has had
values. -/
theorem history_length (field : LogField) (state : LoopState F) (turns : List (Turn F)) :
    (history field state turns).length = (valuesOf field.channel turns).length := by
  induction turns using List.reverseRecOn with
  | nil => rfl
  | append_singleton turns turn inductionHypothesis =>
    rw [history_snoc, values_of_snoc, List.length_append, List.length_append,
      inductionHypothesis, written_length]

/-- A detector has seen the values of its channel, and nothing else has changed it. -/
theorem detector_run (mallocp : Nat → Bool) (proc : Option ProcStat) (turns : List (Turn F))
    (axis : Axis) :
    (after (start mallocp proc) turns).status.detector axis =
      Runs.after (fun cus x => (cusum cus x).1) (safetyStatusCusum Cusum.zero)
        (valuesOf axis.channel turns) := by
  induction turns using List.reverseRecOn with
  | nil => cases axis <;> rfl
  | append_singleton turns turn inductionHypothesis =>
    rw [after_snoc, values_of_snoc, Runs.after_append, ← inductionHypothesis,
      channel_values_single]
    cases sampled : turn.mail.sample with
    | none =>
      rw [(turn_ignored _ turn sampled).1]
      simp
    | some f =>
      rw [turn_detector _ turn f sampled axis]
      by_cases own : turn.mail.channel = axis.channel <;> simp [own]

/-- Where equal samples are not reported, a crash starts on an axis whose values are not
all the same. -/
theorem crash_changes (steady : EqualUnreported F)
    (mallocp : Nat → Bool) (proc : Option ProcStat) (before : List (Turn F)) (trigger : Turn F)
    (starts : Starts (after (start mallocp proc) before) trigger) :
    ∃ axis : Axis, ∀ (value : F) (count : Nat),
      valuesOf axis.channel (before ++ [trigger]) ≠ List.replicate count value := by
  obtain ⟨f, sampled, decided, _⟩ := starts
  obtain ⟨axis, own, reported⟩ := shift_decision_some _ _ _ _ decided
  refine ⟨axis, ?_⟩
  intro value count same
  rw [values_of_snoc, channel_values_single, if_pos own, sampled] at same
  have length := congrArg List.length same
  simp only [Option.toList_some, List.length_append, List.length_singleton,
    List.length_replicate] at length
  subst count
  rw [List.replicate_succ'] at same
  obtain ⟨earlier, last⟩ := List.append_inj' same rfl
  obtain rfl := List.singleton_inj.mp last
  rw [detector_run, earlier, steady] at reported
  cases reported

/-- When the first crash starts, every quantity has filled its buffer.

Proof: the column of the detector that reports has left its warm-up, since equal samples
are not reported. Because the log is even, the other columns have come almost as far,
and a column starts with one copy more than a warm-up. -/
theorem filled_before_crash (df : Text → List Text) (frames : List DataFrame)
    (arranged : Arranged df frames) (steady : EqualUnreported F)
    (mallocp : Nat → Bool) (proc : Option ProcStat) (before rest : List (Turn F))
    (trigger : Turn F) (arrived : carried (before ++ trigger :: rest) = frames.map DataFrame.mail)
    (starts : Starts (after (start mallocp proc) before) trigger) (field : LogField) :
    statusLogBeforeSize ≤ (history field (start mallocp proc) before).length := by
  obtain ⟨axis, changed⟩ := crash_changes steady mallocp proc before trigger starts
  have sampled : trigger.mail.sample.isSome := by
    obtain ⟨f, sampled, _⟩ := starts
    rw [sampled]
    rfl
  obtain ⟨front, frame, later, rfl, frontMails, own⟩ :=
    arrived_split frames before rest trigger arrived sampled
  -- The axis that reports is behind its warm-up, so the rounds have filled the others.
  obtain ⟨axisColumn, axisKnown, axisChannel⟩ : ∃ column ∈ csvCols,
      axis.channel = CanData.ofCode column.1 := by cases axis <;> decide
  have left := warm_up_left df front later frame arranged axisColumn axisKnown (by
    intro value count same
    apply changed value count
    rw [values_of_snoc, values_of_carried, frontMails, own, axisChannel,
      ← channel_values_append, ← same, List.map_append, List.map_singleton])
  obtain ⟨column, known, channel⟩ := field_column field
  obtain ⟨hexes, finished, ordered⟩ := arranged.ordered column known
  obtain ⟨_, _, _, whole⟩ := column_starts df column hexes finished
  have sizes : warmUpTime = statusLogBeforeSize := warm_up_time
  rw [history_length, channel, values_of_carried, frontMails,
    column_values df _ arranged front (List.subset_append_left _ _) column known,
    List.length_map]
  by_cases some : (front.filter fun frame => frame.pid = column.1).length <
      ((front ++ frame :: later).filter fun frame => frame.pid = column.1).length
  · have even := arranged.even front (frame :: later) rfl column known some axisColumn axisKnown
    omega
  · rw [ordered, List.length_map] at some
    omega

/-- The dump of buffers that are filled reads no slot that was never written, wherever
their indices are. -/
theorem filled_dump (mallocp : Nat → Bool) (proc : Option ProcStat) (before : List (Turn F))
    (trigger : Turn F) (success : (safetyStatusInit mallocp proc : Nat × Status F).1 = 0)
    (first : announces .eventCrashStart (stored (start mallocp proc) before) = false)
    (starts : Starts (after (start mallocp proc) before) trigger)
    (filled : ∀ field, statusLogBeforeSize ≤ (history field (start mallocp proc) before).length) :
    Read.unwritten ∉ storage (after (start mallocp proc) before) trigger := by
  obtain ⟨⟨opening, closing, _, _, sent⟩, _⟩ := crash_turn _ trigger starts
  rw [sent]
  intro member
  simp only [List.mem_append, List.mem_cons, reduceCtorEq, List.mem_flatMap, false_or,
    List.not_mem_nil, or_false] at member
  obtain ⟨field, _, inside⟩ := member
  have tracked := writes_track (written field (after (start mallocp proc) before) trigger)
    (by decide) (run_tracks mallocp proc before success first field)
  have dumped := tracked_dump _ _ (trigger.clock 1) tracked
  rw [updated, dumped, List.length_append] at inside
  have full := filled field
  split_ifs at inside with multiple
  · cases List.eq_of_mem_replicate inside
  · rw [Nat.sub_eq_zero_of_le (by omega)] at inside
    simp at inside

end

/-! ## A table with a jump -/

/-- A table of zeros whose longitudinal acceleration jumps to nine in its second row and
stays there for some more. -/
def jumpTable (more : Nat) (cols : Text) : List Text :=
  "0".toList :: List.replicate (more + 1)
    (if cols = "longitudinal_accel".toList then "9".toList else "0".toList)

/-- The rationals report no equal samples, whose deviations are exactly zero. -/
theorem rational_unreported : EqualUnreported ℚ := by
  have exact (cus : Cusum ℚ) (x : ℚ) : exactCusum sixDigitSqrt cus x = cusum cus x := by
    unfold exactCusum cusum
    rfl
  intro value count
  have silent := steady_unreported sixDigitSqrt (by decide +kernel) value count
  rw [exactAfter, exact] at silent
  simp only [exact] at silent
  exact silent

/-- The frame of the jump, whose value is nine. -/
def jumpFrame : DataFrame := ⟨6, "00120000".toList⟩

/-- Its columns, encoded, with their warm-up and their cool-down. -/
theorem jump_encoded (more : Nat) (column : Nat × Text) (known : column ∈ csvCols) :
    encoded (nlist (jumpTable more) column.2) =
      .ok (List.replicate (warmUpTime + 1) "00000000".toList ++
        List.replicate (more + 1 + coolDownTime)
          (if column.1 = 6 then "00120000".toList else "00000000".toList)) := by
  have zero : toHexString "0".toList = .ok "00000000".toList := by decide +kernel
  have nine : toHexString "9".toList = .ok "00120000".toList := by decide +kernel
  have plain : pointedCell "0".toList = "0".toList ∧ pointedCell "9".toList = "9".toList := by
    decide
  have jumping : ∀ column ∈ csvCols,
      column.2 = "longitudinal_accel".toList ↔ column.1 = 6 := by decide
  have row : toHexString (if column.1 = 6 then "9".toList else "0".toList) =
      .ok (if column.1 = 6 then "00120000".toList else "00000000".toList) := by
    split_ifs <;> assumption
  have cell : pointedCell (if column.1 = 6 then "9".toList else "0".toList) =
      if column.1 = 6 then "9".toList else "0".toList := by
    split_ifs
    · exact plain.2
    · exact plain.1
  rw [nlist, jumpTable]
  simp only [jumping column known]
  rw [List.map_cons, List.map_replicate, plain.1, cell]
  generalize (if column.1 = 6 then "9".toList else "0".toList) = value at row
  generalize (if column.1 = 6 then "00120000".toList else "00000000".toList) = hex at row ⊢
  have all : ("0".toList :: List.replicate (more + 1) value).mapM toHexString =
      .ok ("00000000".toList :: List.replicate (more + 1) hex) :=
    (all_succeed _ _ _).mpr (.cons zero ((all_succeed _ _ _).mp
      (all_replicate toHexString _ _ row (more + 1))))
  rw [encoded_of_parts _ _ "00000000".toList hex all rfl
      (by rw [List.replicate_succ', ← List.cons_append, List.getLast?_concat]),
    List.replicate_succ' (n := warmUpTime), ← List.replicate_append_replicate (n := more + 1)]
  simp only [List.append_assoc, List.cons_append, List.nil_append]

/-- All other frames of the table are zeros, and a warm-up of them comes before it. -/
theorem jump_columns (more : Nat) (column : Nat × Text) (known : column ∈ csvCols)
    (hexes : List Text) (finished : encoded (nlist (jumpTable more) column.2) = .ok hexes) :
    (∀ hex ∈ hexes, hex = "00000000".toList ∨ DataFrame.mk column.1 hex = jumpFrame) ∧
      (column.1 = 6 → ∃ others, hexes = List.replicate (warmUpTime + 1) "00000000".toList ++
        "00120000".toList :: others) := by
  rw [jump_encoded more column known] at finished
  obtain rfl := Except.ok.inj finished
  constructor
  · intro hex member
    rcases List.mem_append.mp member with front | back
    · exact .inl (List.eq_of_mem_replicate front)
    · rw [List.eq_of_mem_replicate back]
      split_ifs with jumps
      · exact .inr (by rw [jumps, jumpFrame])
      · exact .inl rfl
  · intro jumps
    refine ⟨List.replicate (more + coolDownTime) "00120000".toList, ?_⟩
    rw [if_pos jumps, Nat.add_right_comm more, List.replicate_succ (n := more + coolDownTime)]

/-- The turn that takes in a frame, without readings of the processor and at no
particular time. -/
def frameTurn (frame : DataFrame) : Turn ℚ := ⟨frame.mail, none, fun _ => []⟩

/-- The jump comes behind zeros, and its column has then left its warm-up. -/
theorem jump_arranged (more : Nat) (frames : List DataFrame)
    (arranged : Arranged (jumpTable more) frames) :
    ∃ front later, frames = front ++ jumpFrame :: later ∧
      (∀ frame ∈ front, frame.hex = "00000000".toList) ∧
      (front.filter fun frame => frame.pid = 6).length = warmUpTime + 1 := by
  have known : ((6, "longitudinal_accel".toList) : Nat × Text) ∈ csvCols := by decide
  obtain ⟨hexes, finished, ordered⟩ := arranged.ordered _ known
  obtain ⟨_, starts⟩ := jump_columns more _ known hexes finished
  obtain ⟨others, rfl⟩ := starts rfl
  have member : jumpFrame ∈ frames := by
    have inside : jumpFrame ∈ frames.filter fun frame => frame.pid = 6 := by
      rw [ordered, List.mem_map]
      exact ⟨"00120000".toList, by simp, rfl⟩
    exact List.mem_of_mem_filter inside
  obtain ⟨front, later, rfl, first⟩ := List.eq_append_cons_of_mem member
  have zeros : ∀ frame ∈ front, frame.hex = "00000000".toList := by
    intro frame inside
    obtain ⟨column, own, pid⟩ := arranged.known frame (List.mem_append_left _ inside)
    obtain ⟨values, encoded, column_frames⟩ := arranged.ordered column own
    have place : frame ∈ (front ++ jumpFrame :: later).filter fun frame =>
        frame.pid = column.1 := by simp [inside, pid]
    rw [column_frames] at place
    obtain ⟨hex, found, rfl⟩ := List.mem_map.mp place
    rcases (jump_columns more column own values encoded).1 hex found with zero | jumps
    · exact zero
    · rw [jumps] at inside
      exact absurd inside first
  refine ⟨front, later, rfl, zeros, ?_⟩
  -- Both lists have their first jump at the same place.
  have jumps : (jumpFrame :: later).filter (fun frame => frame.pid = 6) =
      jumpFrame :: later.filter fun frame => frame.pid = 6 := rfl
  rw [List.filter_append, jumps, List.map_append, List.map_replicate, List.map_cons] at ordered
  have apart : DataFrame.mk 6 "00000000".toList ≠ jumpFrame := fun same =>
    absurd (congrArg DataFrame.hex same) (by decide)
  rcases List.append_eq_append_iff.mp ordered with ⟨between, zero, same⟩ | ⟨between, early, same⟩
  · cases between with
    | nil => simpa using (congrArg List.length zero).symm
    | cons next between =>
      obtain ⟨rfl, _⟩ := List.cons.inj same
      have inside := List.eq_of_mem_replicate (zero ▸ List.mem_append_right _ List.mem_cons_self)
      exact absurd inside.symm apart
  · cases between with
    | nil => simpa using congrArg List.length early
    | cons next between =>
      obtain ⟨rfl, _⟩ := List.cons.inj same
      have inside : DataFrame.mk 6 "00120000".toList ∈ front := List.mem_of_mem_filter
        (early ▸ List.mem_append_right _ List.mem_cons_self)
      exact absurd inside first

/-- Frames of zeros and then a jump start a crash, the first one, if there are enough
zeros. -/
theorem jump_crash (front : List DataFrame) (zeros : ∀ frame ∈ front, frame.hex = "00000000".toList)
    (many : 80 ≤ (front.filter fun frame => frame.pid = 6).length) :
    stored (start (fun _ => true) none) (front.map frameTurn) = [] ∧
      Starts (after (start (fun _ => true) none) (front.map frameTurn)) (frameTurn jumpFrame) := by
  have samples : ∀ turn ∈ front.map frameTurn, turn.mail.sample = some 0 := by
    intro turn member
    obtain ⟨frame, inside, rfl⟩ := List.mem_map.mp member
    have value : (hexGetFloat "00000000".toList : ℚ) = 0 := by decide +kernel
    change some (hexGetFloat frame.hex) = some 0
    rw [zeros frame inside, value]
  have nine : (frameTurn jumpFrame).mail.sample = some 9 := by decide +kernel
  obtain ⟨silent, idle⟩ := zeros_silent (front.map frameTurn) samples
    (start_at_rest (fun _ => true) none) (init_idle (F := ℚ) (fun _ => true) none).1
  have seen := zeros_at_rest (front.map frameTurn) samples
    (start_at_rest (fun _ => true) none .long)
  refine ⟨silent, jump_starts _ nine (by decide +kernel) seen ?_ idle⟩
  have counted : (front.filter fun frame => frame.pid = 6).length ≤
      SafetyLoop.received Axis.long.channel (front.map frameTurn) := by
    rw [SafetyLoop.received, List.countP_map, ← List.countP_eq_length_filter]
    apply List.countP_mono_left
    intro frame _ own
    have pid := of_decide_eq_true own
    have channel : (frameTurn frame).mail.channel = Axis.long.channel := by
      change (safetyMail (F := ℚ) frame.pid _).channel = _
      rw [safety_mail_channel, pid]
      rfl
    simp only [Function.comp_apply, channel]
    rfl
  omega

section

variable {F : Type} [Arithmetic F] [LogHeader]

end

end EventRecorder.WarmUp
