import EventRecorder.QuietRuns

/-!
# The post-crash window

While an episode is open, every quantity counts the mails of its channel. The
first 300 are sent live; the mail that finds the count at 300 raises the
indicator instead. Twelve quantities contribute once each, so the indicator
reaches twelve on exactly the mail that completes the 301st mail of the last
channel.

The counters are cleared only by `safety_status_init`. They stand above the
limit when the first episode ends, and from then on no quantity is sent live and
the indicator never moves again: a later episode records nothing and stays open.
-/

namespace EventRecorder.PostCrashWindow

open Arithmetic CText CircularMail Detector SafetyStatus DriverAssist SafetyLoop QuietRuns

universe u
variable {F : Type u}

/-- Each of the five channels has received at least 301 mails: 300 that are sent live,
and one that finds the count at the limit. -/
def Complete (turns : List (Turn F)) : Prop :=
  ∀ channel, channel ≠ .unknown → statusLogAfterSize < received channel turns

/-- The number of data records of a quantity among sent mails, which are known by its
process id. -/
def liveCount (field : LogField) (sent : List (Read (Mail F))) : Nat :=
  (readings sent).countP fun reading => reading.1 = field.pid

/-- The records in two groups of mails are those in the one and those in the other. -/
@[simp] theorem live_count_append (field : LogField) (earlier later : List (Read (Mail F))) :
    liveCount field (earlier ++ later) = liveCount field earlier + liveCount field later := by
  simp [liveCount]

/-- How many of the twelve counters exceed the limit. This is what the indicator counts,
as long as an episode is open. -/
def exceeding (status : Status F) : Nat :=
  LogField.all.countP fun field => statusLogAfterSize < status.logBefore.count field

/-- The state of an open first episode: the counters count the mails received
since the trigger and the indicator counts the counters above the limit. -/
structure Recording (turns : List (Turn F)) (state : LoopState F) : Prop where
  recording : state.status.crashStatus = 2
  counts : ∀ field, state.status.logBefore.count field = received field.channel turns
  indicator : state.status.logBefore.indicator = exceeding state.status

/-- Every quantity of a channel exceeds the limit exactly when the channels have
all received 301 mails. -/
theorem complete_iff (turns : List (Turn F)) :
    Complete turns ↔ ∀ field : LogField, statusLogAfterSize < received field.channel turns := by
  constructor
  · intro complete field
    exact complete field.channel field.channel_known
  · intro every channel known
    cases channel with
    | unknown => exact absurd rfl known
    | acceleratorPedalValue => exact every .accPedal
    | brakeSwitchValue => exact every .brake
    | vehicleSpeed => exact every .speed
    | accelerationSpeedLongitudinal => exact every .accLong
    | accelerationSpeedLateral => exact every .accLat

/-- Channels that are complete stay so, whatever comes behind. -/
theorem complete_append (turns later : List (Turn F)) (complete : Complete turns) :
    Complete (turns ++ later) := by
  intro channel known
  have enough := complete channel known
  simp only [received, List.countP_append] at enough ⊢
  omega

/-- No channel is complete before any mail, so that an episode is open when it begins. -/
theorem not_complete_nil : ¬ Complete ([] : List (Turn F)) := by
  intro complete
  have enough := complete .vehicleSpeed (by decide)
  simp [received] at enough

/-- Counting the quantities of one channel once more lifts above the limit those
that stood at it. -/
theorem exceeding_step (fields : List LogField) (count : LogField → Nat) (channel : CanData) :
    fields.countP (fun field => statusLogAfterSize <
        count field + if field.channel = channel then 1 else 0) =
      fields.countP (fun field => statusLogAfterSize < count field) +
        fields.countP (fun field => field.channel = channel ∧
          count field = statusLogAfterSize) := by
  induction fields with
  | nil => rfl
  | cons field rest inductionHypothesis =>
    simp only [List.countP_cons, inductionHypothesis, decide_eq_true_eq]
    by_cases member : field.channel = channel
    · simp only [member, ↓reduceIte, true_and]
      split_ifs <;> omega
    · simp only [member, ↓reduceIte, false_and, Nat.add_zero]
      omega

/-- Twelve counters exceed the limit exactly when all do, there being twelve of them. -/
theorem twelve_iff (count : LogField → Nat) :
    12 ≤ LogField.all.countP (fun field => statusLogAfterSize < count field) ↔
      ∀ field, statusLogAfterSize < count field := by
  have total : LogField.all.length = 12 := rfl
  have bound := List.countP_le_length
    (p := fun field => decide (statusLogAfterSize < count field)) (l := LogField.all)
  constructor
  · intro twelve field
    have every := List.countP_eq_length.mp (Nat.le_antisymm bound (total ▸ twelve))
    simpa using every field (LogField.mem_all field)
  · intro every
    rw [List.countP_eq_length.mpr (by simpa using fun field _ => every field), total]

/-- Among the quantities of one channel, one that belongs to it is listed once, and one
that does not is not. -/
theorem listed_once (field : LogField) (channel : CanData) (condition : LogField → Prop)
    [DecidablePred condition] :
    (LogField.all.filter (fun other => other.channel = channel)).countP
        (fun other => other = field ∧ condition other) =
      if field.channel = channel ∧ condition field then 1 else 0 := by
  have once : LogField.all.count field = 1 :=
    (List.Nodup.count LogField.all_nodup).trans (if_pos (LogField.mem_all field))
  rw [List.countP_filter]
  by_cases meets : field.channel = channel ∧ condition field
  · rw [if_pos meets, ← once, List.count]
    apply List.countP_congr
    intro other _
    simp only [Bool.and_eq_true, decide_eq_true_eq, beq_iff_eq]
    constructor
    · rintro ⟨⟨same, _⟩, _⟩
      exact same
    · rintro rfl
      exact ⟨⟨rfl, meets.2⟩, meets.1⟩
  · rw [if_neg meets, List.countP_eq_zero]
    intro other _
    simp only [Bool.and_eq_true, decide_eq_true_eq]
    rintro ⟨⟨rfl, holds⟩, member⟩
    exact meets ⟨member, holds⟩

section

variable [Arithmetic F] [LogHeader]

/-- A turn while recording sends one live record of each quantity of its channel
that is still below the limit, and none of any other. -/
theorem turn_live_count (state : LoopState F) (turn : Turn F) (f : F)
    (sampled : turn.mail.sample = some f) (recording : state.status.crashStatus = 2)
    (field : LogField) :
    liveCount field (storage state turn) =
      if field.channel = turn.mail.channel ∧
        state.status.logBefore.count field < statusLogAfterSize then 1 else 0 := by
  obtain ⟨sent, _⟩ := turn_recording state turn f sampled recording
  have visited := (visited_fields (state.assisted turn f) turn.mail f turn.proc).2
  have byField : (liveCalls (state.assisted turn f) turn.mail f).countP (fun call =>
        call.2.1 = field.pid ∧ state.status.logBefore.count call.1 < statusLogAfterSize) =
      ((liveCalls (state.assisted turn f) turn.mail f).map Prod.fst).countP (fun other =>
        other = field ∧ state.status.logBefore.count other < statusLogAfterSize) := by
    rw [List.countP_map]
    apply List.countP_congr
    intro call member
    have pid := live_pid _ _ _ call member
    simp only [Function.comp_apply, decide_eq_true_eq, pid]
    constructor
    · rintro ⟨same, below⟩
      exact ⟨LogField.pid_injective _ _ same, below⟩
    · rintro ⟨same, below⟩
      exact ⟨congrArg LogField.pid same, below⟩
  rw [liveCount, sent, List.countP_map, List.countP_filter]
  rw [visited, listed_once] at byField
  rw [← byField]
  apply List.countP_congr
  intro call _
  simp

/-- An open episode, one turn further: unless the turn completes the channels,
the episode stays open with its counters and its indicator in step; if it does,
the end is announced, the recorder is idle and every counter exceeds the limit. -/
theorem recording_turn (turns : List (Turn F)) (state : LoopState F) (turn : Turn F)
    (recording : Recording turns state) (incomplete : ¬ Complete turns) :
    (announces .eventCrashEnd (storage state turn) = true ↔ Complete (turns ++ [turn])) ∧
      (¬ Complete (turns ++ [turn]) → Recording (turns ++ [turn]) (next state turn)) ∧
      (Complete (turns ++ [turn]) → (next state turn).status.crashStatus = 0 ∧
        (next state turn).status.logBefore.indicator = 0) ∧
      ∀ field, (next state turn).status.logBefore.count field =
        received field.channel (turns ++ [turn]) := by
  obtain ⟨open', counts, indicator⟩ := recording
  cases sampled : turn.mail.sample with
  | none =>
    obtain ⟨same, silent⟩ := turn_ignored state turn sampled
    have unchanged : ∀ channel, received channel (turns ++ [turn]) = received channel turns := by
      intro channel
      simp [received_snoc, sampled]
    have still : ¬ Complete (turns ++ [turn]) := by
      simpa only [Complete, unchanged] using incomplete
    refine ⟨by simp [silent, announces, still], ?_, fun complete => absurd complete still, ?_⟩
    · intro _
      rw [same]
      exact ⟨open', by simpa only [unchanged] using counts, indicator⟩
    · intro field
      rw [same, unchanged, counts]
  | some f =>
    obtain ⟨_, ends, _, crashStatus, nextIndicator, nextCounts⟩ :=
      turn_recording state turn f sampled open'
    have counted : ∀ field, (next state turn).status.logBefore.count field =
        received field.channel (turns ++ [turn]) := by
      intro field
      rw [nextCounts, counts, received_snoc]
      simp [sampled, eq_comm]
    have reached : state.status.logBefore.indicator + LogField.all.countP (fun field =>
          field.channel = turn.mail.channel ∧
            state.status.logBefore.count field = statusLogAfterSize) =
        exceeding (next state turn).status := by
      rw [indicator]
      simp only [exceeding, nextCounts, exceeding_step]
    have complete : 12 ≤ exceeding (next state turn).status ↔ Complete (turns ++ [turn]) := by
      rw [exceeding, twelve_iff, complete_iff]
      simp only [counted]
    rw [reached] at ends crashStatus nextIndicator
    refine ⟨ends.trans complete, ?_, ?_, counted⟩
    · intro still
      have short : ¬ 12 ≤ exceeding (next state turn).status := fun done => still (complete.mp done)
      rw [if_neg short] at crashStatus nextIndicator
      exact ⟨crashStatus, counted, nextIndicator⟩
    · intro done
      rw [if_pos (complete.mpr done)] at crashStatus nextIndicator
      exact ⟨crashStatus, nextIndicator⟩

/-- The number of records of a quantity sent so far, one turn further: it grows with the
mails received, up to the limit and no more. -/
theorem live_count_turn (turns : List (Turn F)) (state : LoopState F) (turn : Turn F)
    (recording : Recording turns state) (field : LogField) :
    min statusLogAfterSize (received field.channel turns) + liveCount field (storage state turn) =
      min statusLogAfterSize (received field.channel (turns ++ [turn])) := by
  cases sampled : turn.mail.sample with
  | none =>
    obtain ⟨_, silent⟩ := turn_ignored state turn sampled
    simp [silent, liveCount, readings, received_snoc, sampled]
  | some f =>
    rw [turn_live_count state turn f sampled recording.recording field, recording.counts,
      received_snoc]
    by_cases member : field.channel = turn.mail.channel
    · simp only [member, sampled, Option.isSome_some, and_self, ↓reduceIte, true_and]
      split_ifs <;> omega
    · have other : turn.mail.channel ≠ field.channel := fun same => member same.symm
      simp [member, other]

/-- The post-crash phase that starts in a state is the documented one: as long
as the channels are not complete, the episode stays open with its indicator
counting the exceeded counters, the next mail ends it exactly when it completes
the channels, and through that mail every quantity has been sent as often as its
channel received a mail, 300 times at most. -/
def PostCrashExact (state : LoopState F) : Prop :=
  ∀ turns, ¬ Complete turns →
    announces .eventCrashEnd (stored state turns) = false ∧
      (after state turns).status.logBefore.indicator = exceeding (after state turns).status ∧
      ∀ turn,
        (announces .eventCrashEnd (storage (after state turns) turn) = true ↔
          Complete (turns ++ [turn])) ∧
        ∀ field, liveCount field (stored state (turns ++ [turn])) =
          min statusLogAfterSize (received field.channel (turns ++ [turn]))

/-- While the channels are not complete, an episode that starts with cleared
counters and indicator stays open, its end is not announced, and every quantity
has been sent once for each of the first 300 mails of its channel.

The induction is on the turns since the trigger. Every prefix of an incomplete
list is incomplete, so the episode is still open before each of its turns. -/
theorem recording_run (state : LoopState F) (recording : Recording [] state)
    (turns : List (Turn F)) (incomplete : ¬ Complete turns) :
    Recording turns (after state turns) ∧
      announces .eventCrashEnd (stored state turns) = false ∧
      ∀ field, liveCount field (stored state turns) =
        min statusLogAfterSize (received field.channel turns) := by
  induction turns using List.reverseRecOn with
  | nil => exact ⟨recording, rfl, fun _ => rfl⟩
  | append_singleton turns turn inductionHypothesis =>
    have earlier : ¬ Complete turns := fun complete =>
      incomplete (complete_append turns [turn] complete)
    obtain ⟨before, silent, counted⟩ := inductionHypothesis earlier
    obtain ⟨ends, continues, _⟩ := recording_turn turns _ turn before earlier
    have quiet : announces .eventCrashEnd (storage (after state turns) turn) = false :=
      Bool.eq_false_of_not_eq_true fun announced => incomplete (ends.mp announced)
    refine ⟨?_, ?_, ?_⟩
    · rw [after_snoc]
      exact continues incomplete
    · rw [stored_snoc, announces_append, silent, quiet]
      rfl
    · intro field
      rw [stored_snoc, live_count_append, counted field]
      exact live_count_turn turns _ turn before field

/-- A recording state with cleared counters and indicator starts a documented post-crash
phase. By induction on the turns, with the counters and the indicator in step up to the
end. -/
theorem recording_exact (state : LoopState F) (recording : Recording [] state) :
    PostCrashExact state := by
  intro turns incomplete
  obtain ⟨before, silent, counted⟩ := recording_run state recording turns incomplete
  refine ⟨silent, before.indicator, ?_⟩
  intro turn
  refine ⟨(recording_turn turns _ turn before incomplete).1, ?_⟩
  intro field
  rw [stored_snoc, live_count_append, counted field]
  exact live_count_turn turns _ turn before field

/-- After the first episode: nothing is open or an episode is, the indicator is
cleared and every counter is above the limit. -/
structure Spent (state : LoopState F) : Prop where
  settled : state.status.crashStatus = 0 ∨ state.status.crashStatus = 2
  indicator : state.status.logBefore.indicator = 0
  counts : ∀ field, statusLogAfterSize < state.status.logBefore.count field

/-- With every counter above the limit no quantity stands at it, so an open
episode stays open, its mails are not sent live and the indicator stays cleared. -/
theorem spent_recording (state : LoopState F) (turn : Turn F) (spent : Spent state)
    (recording : state.status.crashStatus = 2) :
    (next state turn).status.crashStatus = 2 ∧ Spent (next state turn) ∧
      announces .eventCrashEnd (storage state turn) = false ∧
      ∀ field, liveCount field (storage state turn) = 0 := by
  cases sampled : turn.mail.sample with
  | none =>
    obtain ⟨same, silent⟩ := turn_ignored state turn sampled
    rw [same, silent]
    exact ⟨recording, spent, rfl, fun _ => rfl⟩
  | some f =>
    obtain ⟨_, ends, _, crashStatus, indicator, counts⟩ :=
      turn_recording state turn f sampled recording
    have none_standing : LogField.all.countP (fun field =>
        field.channel = turn.mail.channel ∧
          state.status.logBefore.count field = statusLogAfterSize) = 0 := by
      rw [List.countP_eq_zero]
      intro field _
      have above := spent.counts field
      simp only [decide_eq_true_eq]
      omega
    rw [none_standing, spent.indicator] at ends crashStatus indicator
    have stillAbove : ∀ field,
        statusLogAfterSize < (next state turn).status.logBefore.count field := by
      intro field
      rw [counts]
      exact Nat.lt_add_right _ (spent.counts field)
    refine ⟨by simpa using crashStatus, ⟨Or.inr (by simpa using crashStatus),
      by simpa using indicator, stillAbove⟩, by simpa using ends, ?_⟩
    intro field
    have above := spent.counts field
    rw [turn_live_count state turn f sampled recording field, if_neg (by omega)]

/-- Every turn keeps the counters above the limit and the indicator cleared, as a
counter is only ever raised. -/
theorem spent_turn (state : LoopState F) (turn : Turn F) (spent : Spent state) :
    Spent (next state turn) := by
  rcases spent.settled with idle | recording
  · by_cases starts : Starts state turn
    · obtain ⟨f, sampled, decided, _⟩ := starts
      obtain ⟨_, _, crashStatus, counts, indicator⟩ :=
        turn_crash state turn f sampled decided idle
      exact ⟨Or.inr crashStatus, indicator.trans spent.indicator,
        by rw [counts]; exact spent.counts⟩
    · obtain ⟨_, crashStatus, counts, indicator⟩ := turn_idle state turn idle starts
      exact ⟨Or.inl crashStatus, indicator.trans spent.indicator,
        by rw [counts]; exact spent.counts⟩
  · exact (spent_recording state turn spent recording).2.1

/-- Nothing was ever counted: the recorder is idle as after initialisation, with all
counters cleared. -/
structure Untouched (state : LoopState F) : Prop where
  idle : state.status.crashStatus = 0
  counts : state.status.logBefore.count = fun _ => 0
  indicator : state.status.logBefore.indicator = 0

/-- Where a run stands: before its first crash, in the open first episode, or
after the first episode. -/
def Phase (started : Bool) (state : LoopState F) : Prop :=
  (started = false ∧ Untouched state) ∨
    (started = true ∧ ((∃ turns, Recording turns state ∧ ¬ Complete turns) ∨ Spent state))

/-- The turn that starts the first episode leaves it open with nothing counted: the mail
of the crash itself is dumped and not counted. -/
theorem first_crash (state : LoopState F) (turn : Turn F) (untouched : Untouched state)
    (starts : Starts state turn) : Recording [] (next state turn) := by
  obtain ⟨f, sampled, decided, idle⟩ := starts
  obtain ⟨_, _, crashStatus, counts, indicator⟩ := turn_crash state turn f sampled decided idle
  refine ⟨crashStatus, ?_, ?_⟩
  · intro field
    rw [counts, untouched.counts]
    rfl
  · rw [indicator, untouched.indicator, exceeding, counts, untouched.counts]
    rfl

/-- Every state of a run is in the phase that its announced crashes tell: untouched
before the first, and behind it recording or spent. -/
theorem run_phase (mallocp : Nat → Bool) (proc : Option ProcStat) (before : List (Turn F)) :
    Phase (announces .eventCrashStart (stored (start mallocp proc) before))
      (after (start mallocp proc) before) := by
  induction before using List.reverseRecOn with
  | nil =>
    obtain ⟨idle, counts, indicator⟩ := init_idle (F := F) mallocp proc
    exact Or.inl ⟨rfl, idle, counts, indicator⟩
  | append_singleton before turn inductionHypothesis =>
    rw [stored_snoc, announces_append, after_snoc]
    generalize after (start mallocp proc) before = state at inductionHypothesis ⊢
    rcases inductionHypothesis with ⟨silent, untouched⟩ | ⟨started, open' | spent⟩
    · have law := announces_start_iff state turn (Or.inl untouched.idle)
      by_cases starts : Starts state turn
      · rw [silent, law.mpr starts]
        exact Or.inr ⟨rfl, Or.inl ⟨[], first_crash state turn untouched starts, not_complete_nil⟩⟩
      · obtain ⟨quiet, crashStatus, counts, indicator⟩ :=
          turn_idle state turn untouched.idle starts
        rw [silent, quiet]
        exact Or.inl ⟨rfl, crashStatus, counts.trans untouched.counts,
          indicator.trans untouched.indicator⟩
    · obtain ⟨turns, recording, incomplete⟩ := open'
      obtain ⟨_, continues, ends, counts⟩ := recording_turn turns state turn recording incomplete
      rw [started, Bool.true_or]
      refine Or.inr ⟨rfl, ?_⟩
      by_cases complete : Complete (turns ++ [turn])
      · obtain ⟨idle, cleared⟩ := ends complete
        refine Or.inr ⟨Or.inl idle, cleared, ?_⟩
        intro field
        rw [counts]
        exact (complete_iff _).mp complete field
      · exact Or.inl ⟨turns ++ [turn], continues complete, complete⟩
    · rw [started, Bool.true_or]
      exact Or.inr ⟨rfl, Or.inr (spent_turn state turn spent)⟩

/-- Between turns the recorder is idle or recording. The value one of the crash status
is never seen there. -/
theorem run_settled (mallocp : Nat → Bool) (proc : Option ProcStat) (before : List (Turn F)) :
    (after (start mallocp proc) before).status.crashStatus = 0 ∨
      (after (start mallocp proc) before).status.crashStatus = 2 := by
  rcases run_phase mallocp proc before with ⟨_, untouched⟩ | ⟨_, ⟨_, recording, _⟩ | spent⟩
  · exact Or.inl untouched.idle
  · exact Or.inr recording.recording
  · exact spent.settled

/-- The post-crash window of the first crash of a run is the documented one: every
quantity gets its records, and the end comes with the mail that completes the channels.

Proof: a run without an announced crash is in the phase in which nothing was counted.
The crash then leaves an open episode with cleared counters, from which the invariant of
an open episode tells every later turn. -/
theorem first_window_exact (mallocp : Nat → Bool) (proc : Option ProcStat)
    (before : List (Turn F)) (trigger : Turn F)
    (first : announces .eventCrashStart (stored (start mallocp proc) before) = false)
    (crash : announces .eventCrashStart
      (storage (after (start mallocp proc) before) trigger) = true) :
    PostCrashExact (after (start mallocp proc) (before ++ [trigger])) := by
  have starts := (announces_start_iff _ trigger (run_settled mallocp proc before)).mp crash
  rw [after_snoc]
  rcases run_phase mallocp proc before with ⟨_, untouched⟩ | ⟨started, _⟩
  · exact recording_exact _ (first_crash _ trigger untouched starts)
  · rw [first] at started
    exact absurd started (by decide)

end

/-- The state after the quiet prelude and its jump, in which an episode has just been
opened. -/
def quietCrash : LoopState ℚ := after (start (fun _ => true) none) (prelude ++ [jump])

/-- The jump after the prelude opens an episode with nothing counted. Only the
longitudinal detector has seen anything but zeros. -/
theorem quiet_crash :
    Recording [] quietCrash ∧ quietCrash.status.cusLong = (cusum (rest 80) 9).1 ∧
      quietCrash.status.cusLat = rest 0 := by
  obtain ⟨silent, atRest, starts⟩ := prelude_jump (fun _ => true) none
  have untouched : Untouched (after (start (fun _ => true) none) prelude) := by
    rcases run_phase (fun _ => true) none prelude with ⟨_, untouched⟩ | ⟨started, _⟩
    · exact untouched
    · rw [silent] at started
      cases started
  rw [quietCrash, after_snoc]
  refine ⟨first_crash _ jump untouched starts, ?_, ?_⟩
  · have counted : received Axis.long.channel prelude = 80 :=
      (received_replicate ..).trans (if_pos rfl)
    have fed := turn_detector (after (start (fun _ => true) none) prelude) jump 9 rfl .long
    have seen := atRest .long
    dsimp only at seen
    rw [counted] at seen
    rw [if_pos (by decide), seen] at fed
    exact fed
  · have counted : received Axis.lat.channel prelude = 0 :=
      (received_replicate ..).trans (if_neg (by decide))
    have fed := turn_detector (after (start (fun _ => true) none) prelude) jump 9 rfl .lat
    have seen := atRest .lat
    dsimp only at seen
    rw [counted] at seen
    rw [if_neg (by decide), seen] at fed
    exact fed

/-- After eighty zeros, a jump on the longitudinal channel opens such a window, as the
first crash of its run. -/
theorem quiet_window_exact :
    announces .eventCrashStart (stored (start (fun _ => true) none) prelude) = false ∧
      PostCrashExact (after (start (fun _ => true) none) (prelude ++ [jump])) := by
  obtain ⟨first, crash⟩ := prelude_crash (fun _ => true) none
  exact ⟨first, first_window_exact _ _ _ _ first crash⟩

end EventRecorder.PostCrashWindow
