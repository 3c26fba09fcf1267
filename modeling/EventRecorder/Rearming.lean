import EventRecorder.PostCrashWindow

/-!
# Whether the recorder re-arms

The end of an episode clears the crash status and the indicator but none of the
twelve counters, so only the first episode after `safety_status_init` starts
from cleared counters. Every later episode finds them above the limit: none of
its mails is recorded live and its end is never announced.
-/

namespace EventRecorder.Rearming

open Arithmetic CText Detector SafetyStatus DriverAssist SafetyLoop QuietRuns PostCrashWindow

section

variable {F : Type} [Arithmetic F] [LogHeader]

/-- The same state with the counters and the indicator as initialisation leaves them. A
recorder that re-arms could not be told from it. -/
def fresh (state : LoopState F) : LoopState F :=
  { state with status := { state.status with
      logBefore := { state.status.logBefore with count := fun _ => 0, indicator := 0 } } }

/-- The post-crash phase that starts in a state is the documented one, and the
logger receives what it would receive from the state with fresh counters. -/
def Rearmed (state : LoopState F) : Prop :=
  PostCrashExact state ∧ ∀ turns, stored state turns = stored (fresh state) turns

omit [Arithmetic F] [LogHeader] in
/-- An open episode with nothing counted already has fresh counters. -/
theorem recording_fresh (state : LoopState F) (recording : Recording [] state) :
    fresh state = state := by
  have counts : state.status.logBefore.count = fun _ => 0 := funext recording.counts
  have indicator : state.status.logBefore.indicator = 0 := by
    rw [recording.indicator, exceeding, counts]
    rfl
  obtain ⟨⟨brake, cusLong, cusLat, meanI, sftResp, crashStatus, cpu, buf, count, ind⟩, counters⟩ :=
    state
  dsimp only at counts indicator
  rw [fresh, counts, indicator]

/-- An episode that finds every counter above the limit records none of its
mails and never ends. -/
theorem spent_run (state : LoopState F) (spent : Spent state)
    (recording : state.status.crashStatus = 2) (turns : List (Turn F)) :
    announces .eventCrashEnd (stored state turns) = false ∧
      (∀ field, liveCount field (stored state turns) = 0) ∧
      Spent (after state turns) ∧ (after state turns).status.crashStatus = 2 := by
  induction turns using List.reverseRecOn with
  | nil => exact ⟨rfl, fun _ => rfl, spent, recording⟩
  | append_singleton turns turn inductionHypothesis =>
    obtain ⟨unended, unsent, stillSpent, stillRecording⟩ := inductionHypothesis
    obtain ⟨nextRecording, nextSpent, noEnd, noRecord⟩ :=
      spent_recording _ turn stillSpent stillRecording
    rw [stored_snoc, after_snoc, announces_append, unended, noEnd]
    refine ⟨rfl, ?_, nextSpent, nextRecording⟩
    intro field
    rw [live_count_append, unsent field, noRecord field]

/-- Such an episode is not the documented one: its first mail, of whatever channel, is
not recorded. -/
theorem spent_not_exact (state : LoopState F) (spent : Spent state)
    (recording : state.status.crashStatus = 2) : ¬ PostCrashExact state := by
  intro exact'
  have trial := ((exact' [] not_complete_nil).2.2 (sampleTurn .brakeSwitchValue (lit 0))).2 .brake
  rw [(spent_run state spent recording _).2.1 .brake] at trial
  cases trial

/-- A crash that is not the first of its run finds every counter above the limit. -/
theorem later_crash (mallocp : Nat → Bool) (proc : Option ProcStat) (before : List (Turn F))
    (trigger : Turn F)
    (later : announces .eventCrashStart (stored (start mallocp proc) before) = true)
    (starts : Starts (after (start mallocp proc) before) trigger) :
    Spent (next (after (start mallocp proc) before) trigger) ∧
      (next (after (start mallocp proc) before) trigger).status.crashStatus = 2 := by
  obtain ⟨f, sampled, decided, idle⟩ := starts
  obtain ⟨_, _, crashStatus, _⟩ := turn_crash _ trigger f sampled decided idle
  refine ⟨?_, crashStatus⟩
  rcases run_phase mallocp proc before with ⟨none, _⟩ | ⟨_, ⟨_, recording, _⟩ | spent⟩
  · rw [later] at none
    cases none
  · rw [recording.recording] at idle
    cases idle
  · exact spent_turn _ trigger spent

/-- The recorder is re-armed for a crash exactly when it is the first crash of its run.

Proof: the phases of a run tell the two cases apart. A first crash finds the counters
cleared, which is the state that re-arming would give; a later one finds them above the
limit, where the mail behind it is not sent live. -/
theorem rearmed_iff_first (mallocp : Nat → Bool) (proc : Option ProcStat)
    (before : List (Turn F)) (trigger : Turn F)
    (crash : announces .eventCrashStart
      (storage (after (start mallocp proc) before) trigger) = true) :
    Rearmed (after (start mallocp proc) (before ++ [trigger])) ↔
      announces .eventCrashStart (stored (start mallocp proc) before) = false := by
  have starts := (announces_start_iff _ trigger (run_settled mallocp proc before)).mp crash
  rw [after_snoc]
  constructor
  · rintro ⟨documented, _⟩
    apply Bool.eq_false_of_not_eq_true
    intro later
    obtain ⟨spent, recording⟩ := later_crash mallocp proc before trigger later starts
    exact spent_not_exact _ spent recording documented
  · intro first
    have recording : Recording [] (next (after (start mallocp proc) before) trigger) := by
      rcases run_phase mallocp proc before with ⟨_, untouched⟩ | ⟨started, _⟩
      · exact first_crash _ trigger untouched starts
      · rw [first] at started
        cases started
    refine ⟨recording_exact _ recording, ?_⟩
    intro turns
    rw [recording_fresh _ recording]

end

/-- The crash that the quiet prelude prepares finds the recorder armed, as the first of
its run. -/
theorem quiet_crash_rearmed :
    Rearmed (after (start (fun _ => true) none) (prelude ++ [jump])) := by
  obtain ⟨first, crash⟩ := prelude_crash (fun _ => true) none
  exact (rearmed_iff_first _ _ _ _ crash).mpr first

/-- 301 zeros on each channel but one, which still lacks its last, so that the episode
is one mail from its end. -/
def almostEpisode : List (Turn ℚ) :=
  List.replicate 301 (sampleTurn .acceleratorPedalValue 0) ++
    List.replicate 301 (sampleTurn .vehicleSpeed 0) ++
    List.replicate 301 (sampleTurn .accelerationSpeedLongitudinal 0) ++
    List.replicate 301 (sampleTurn .accelerationSpeedLateral 0) ++
    List.replicate 300 (sampleTurn .brakeSwitchValue 0)

/-- A first crash and its whole post-crash window, behind which the recorder is idle
again. -/
def firstEpisode : List (Turn ℚ) :=
  prelude ++ [jump] ++ almostEpisode ++ [sampleTurn .brakeSwitchValue 0]

/-- The jump that starts the second crash. It is lateral, as the longitudinal detector
has seen the first one. -/
def secondJump : Turn ℚ := sampleTurn .accelerationSpeedLateral 9

/-- The mails of the first window, channel by channel, counted without going through
them. -/
theorem almost_received (channel : CanData) :
    received channel almostEpisode =
      if channel = .unknown then 0 else if channel = .brakeSwitchValue then 300 else 301 := by
  have joined : ∀ earlier later : List (Turn ℚ),
      received channel (earlier ++ later) = received channel earlier + received channel later := by
    intro earlier later
    simp [received]
  simp only [almostEpisode, joined, received_replicate]
  cases channel <;> rfl

/-- The last mail of the first window completes it, and no earlier one does, since it is
the 301st of its channel. -/
theorem almost_complete :
    ¬ Complete almostEpisode ∧ Complete (almostEpisode ++ [sampleTurn .brakeSwitchValue 0]) := by
  constructor
  · intro complete
    have enough := complete .brakeSwitchValue (by decide)
    rw [almost_received] at enough
    cases enough.not_ge (Nat.le_refl 300)
  · intro channel known
    rw [received_snoc, almost_received]
    cases channel with
    | unknown => exact absurd rfl known
    | _ => decide

/-- All mails of the first window are zeros, so that they start nothing themselves. -/
theorem almost_zeros (turn : Turn ℚ)
    (member : turn ∈ almostEpisode ++ [sampleTurn .brakeSwitchValue 0]) :
    turn.mail.sample = some 0 := by
  simp only [almostEpisode, List.mem_append, List.mem_replicate, List.mem_singleton] at member
  rcases member with ((((⟨_, rfl⟩ | ⟨_, rfl⟩) | ⟨_, rfl⟩) | ⟨_, rfl⟩) | ⟨_, rfl⟩) | rfl <;> rfl

/-- After the whole first window the second jump starts a second crash: the recorder is
idle, and the lateral detector has seen zeros only. -/
theorem second_jump_starts :
    announces .eventCrashStart (stored (start (fun _ => true) none) firstEpisode) = true ∧
      Starts (after (start (fun _ => true) none) firstEpisode) secondJump := by
  obtain ⟨_, announced⟩ := prelude_crash (fun _ => true) none
  obtain ⟨opened, _, lateral⟩ := quiet_crash
  obtain ⟨incomplete, complete⟩ := almost_complete
  obtain ⟨before, _⟩ := recording_run _ opened almostEpisode incomplete
  obtain ⟨_, _, closes, _⟩ :=
    recording_turn _ _ (sampleTurn .brakeSwitchValue 0) before incomplete
  have split : firstEpisode = prelude ++ [jump] ++
      (almostEpisode ++ [sampleTurn .brakeSwitchValue 0]) := by simp [firstEpisode]
  constructor
  · rw [split, stored_append, stored_snoc, announces_append, announces_append, announced]
    simp
  · have atRest : quietCrash.status.detector .lat = rest 0 := lateral
    have stillAtRest := zeros_at_rest _ almost_zeros atRest
    rw [split, after_append]
    change Starts (after quietCrash _) secondJump
    have fed : secondJump.mail.channel = Axis.lat.channel := rfl
    refine jump_starts secondJump rfl fed stillAtRest ?_ ?_
    · rw [received_snoc, almost_received]
      exact Nat.le_add_left_of_le (by decide)
    · rw [after_snoc]
      exact (closes complete).1

/-- The second crash of that run does not find the recorder armed, although its first
episode has ended properly. -/
theorem second_crash_not_rearmed :
    announces .eventCrashStart
        (storage (after (start (fun _ => true) none) firstEpisode) secondJump) = true ∧
      ¬ Rearmed (after (start (fun _ => true) none) (firstEpisode ++ [secondJump])) := by
  obtain ⟨later, starts⟩ := second_jump_starts
  have settled := run_settled (fun _ => true) none firstEpisode
  obtain ⟨spent, recording⟩ := later_crash _ _ _ _ later starts
  refine ⟨(announces_start_iff _ _ settled).mpr starts, ?_⟩
  rintro ⟨documented, _⟩
  rw [after_snoc] at documented
  exact spent_not_exact _ spent recording documented

end EventRecorder.Rearming
