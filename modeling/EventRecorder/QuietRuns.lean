import EventRecorder.SafetyLoop

/-!
# Quiet runs

A detector that has only ever received zeros reports nothing, and after eighty
of them a jump to nine is a shift. This module follows rational runs of zeros
through the safety loop: they keep an idle recorder idle and silent, whatever the
channels, and they bring either detector to the point where a crash can start.

The log header is outside the repository. The instance below takes the event
codes that the repository's analysis script selects by, and is used to evaluate
runs only.
-/

namespace EventRecorder.QuietRuns

open Arithmetic CText Detector SafetyStatus DriverAssist SafetyLoop

/-- A log header for evaluation, with the codes that the analysis script selects by and
texts of 256 bytes. -/
instance sampleHeader : LogHeader where
  logDataSize := 256
  logCode
    | .data => 1
    | .ui => 2
    | .eventError => 16
    | .eventCrashStart => 32
    | .eventCrashMid => 64
    | .eventCrashEnd => 128
    | .error => 256
    | .dbError => 257
  errorCode
    | .log => 0
    | .invldPid => 1
    | .invldHsh => 2
    | .restrPrcs => 3
    | .other code => code
  dbDataFloat := 0

/-- A turn that receives a sample on a channel, with a clock that reads nothing. -/
def sampleTurn {F : Type} (channel : CanData) (value : F) : Turn F where
  mail := ⟨1, mtSafety, .float value, [Char.ofNat channel.code]⟩
  proc := none
  clock _ := []

/-- The loop handles such a turn, and its sample is the value. -/
@[simp] theorem sample_turn_sample {F : Type} (channel : CanData) (value : F) :
    (sampleTurn channel value).mail.sample = some value := rfl

/-- The channel of such a turn is read back from its byte. -/
@[simp] theorem sample_turn_channel {F : Type} (channel : CanData) (value : F) :
    (sampleTurn channel value).mail.channel = channel := by
  cases channel <;> rfl

/-- Repeated samples are received on their channel only, and there all of them. -/
@[simp] theorem received_replicate {F : Type} (channel other : CanData) (count : Nat) (value : F) :
    received other (List.replicate count (sampleTurn channel value)) =
      if channel = other then count else 0 := by
  simp [received, List.countP_replicate]

/-- The detectors have seen only zeros, so many each. Nothing is said of the rest of the
state. -/
def AtRest (counts : Axis → Nat) (state : LoopState ℚ) : Prop :=
  ∀ axis, state.status.detector axis = rest (counts axis)

/-- Initialisation leaves both detectors at rest, with no zero seen yet. -/
theorem start_at_rest (mallocp : Nat → Bool) (proc : Option ProcStat) :
    AtRest (fun _ => 0) (start mallocp proc) := by
  rintro ⟨⟩ <;> rfl

/-- A zero keeps a detector at rest: one of its channel is counted, and others it does
not see. -/
theorem zero_turn {state : LoopState ℚ} {axis : Axis} {count : Nat} (turn : Turn ℚ)
    (zero : turn.mail.sample = some 0) (atRest : state.status.detector axis = rest count) :
    (next state turn).status.detector axis =
      rest (count + if turn.mail.channel = axis.channel then 1 else 0) := by
  rw [turn_detector state turn 0 zero, atRest, cusum_rest]
  split_ifs <;> rfl

/-- Zeros on any channels leave a detector at rest, with those of its channel counted.
By induction on the turns. -/
theorem zeros_at_rest {state : LoopState ℚ} {axis : Axis} {count : Nat} (turns : List (Turn ℚ))
    (zeros : ∀ turn ∈ turns, turn.mail.sample = some 0)
    (atRest : state.status.detector axis = rest count) :
    (after state turns).status.detector axis = rest (count + received axis.channel turns) := by
  induction turns using List.reverseRecOn with
  | nil => exact atRest
  | append_singleton turns turn inductionHypothesis =>
    have earlier := inductionHypothesis fun turn member => zeros turn (by simp [member])
    have zero := zeros turn (by simp)
    have further := zero_turn turn zero earlier
    simpa [after_snoc, received_snoc, zero, Nat.add_assoc] using further

/-- A zero starts no episode when both detectors are at rest, as neither reports
anything then. -/
theorem zero_turn_quiet {state : LoopState ℚ} {counts : Axis → Nat} (turn : Turn ℚ)
    (zero : turn.mail.sample = some 0) (atRest : AtRest counts state) : ¬ Starts state turn := by
  rintro ⟨value, sampled, decided, _⟩
  have same : value = 0 := Option.some.inj (sampled.symm.trans zero)
  obtain ⟨axis, _, decision⟩ := shift_decision_some _ _ _ _ decided
  rw [same, atRest axis, cusum_rest] at decision
  cases decision

/-- Zeros on any channels leave an idle recorder idle and send nothing, for as long as
they come. -/
theorem zeros_silent {state : LoopState ℚ} {counts : Axis → Nat} (turns : List (Turn ℚ))
    (zeros : ∀ turn ∈ turns, turn.mail.sample = some 0) (atRest : AtRest counts state)
    (idle : state.status.crashStatus = 0) :
    stored state turns = [] ∧ (after state turns).status.crashStatus = 0 := by
  induction turns using List.reverseRecOn with
  | nil => exact ⟨rfl, idle⟩
  | append_singleton turns turn inductionHypothesis =>
    have earlier : ∀ turn ∈ turns, turn.mail.sample = some 0 := fun turn member =>
      zeros turn (by simp [member])
    obtain ⟨silent, stillIdle⟩ := inductionHypothesis earlier
    have quiet := zero_turn_quiet turn (zeros turn (by simp)) fun axis =>
      zeros_at_rest turns earlier (atRest axis)
    obtain ⟨nothing, nextIdle, _⟩ := turn_idle _ turn stillIdle quiet
    rw [stored_snoc, after_snoc, silent, nothing]
    exact ⟨rfl, nextIdle⟩

/-- A jump on a detector that has seen eighty zeros starts an episode, in any idle state
whose other members may be anything. -/
theorem jump_starts {state : LoopState ℚ} {axis : Axis} {count : Nat} (turn : Turn ℚ)
    (jump : turn.mail.sample = some 9) (fed : turn.mail.channel = axis.channel)
    (atRest : state.status.detector axis = rest count) (many : 80 ≤ count)
    (idle : state.status.crashStatus = 0) : Starts state turn := by
  refine ⟨9, jump, ?_, idle⟩
  rw [shift_decision_of_channel _ _ _ axis fed, atRest, cusum_jump count many]

/-- The shortest such prelude: eighty zeros on the longitudinal channel, and nothing on
the others. -/
def prelude : List (Turn ℚ) := List.replicate 80 (sampleTurn .accelerationSpeedLongitudinal 0)

/-- The jump that then starts an episode, on the same channel. -/
def jump : Turn ℚ := sampleTurn .accelerationSpeedLongitudinal 9

/-- After the prelude nothing was sent, the detectors are at rest and the jump starts an
episode, whatever was allocated. -/
theorem prelude_jump (mallocp : Nat → Bool) (proc : Option ProcStat) :
    stored (start mallocp proc) prelude = [] ∧
      AtRest (fun axis => received axis.channel prelude) (after (start mallocp proc) prelude) ∧
      Starts (after (start mallocp proc) prelude) jump := by
  have zeros : ∀ turn ∈ prelude, turn.mail.sample = some 0 := by
    intro turn member
    rw [List.eq_of_mem_replicate member]
    rfl
  have idle := (init_idle (F := ℚ) mallocp proc).1
  have atRest : AtRest (fun axis => received axis.channel prelude)
      (after (start mallocp proc) prelude) := by
    intro axis
    have law := zeros_at_rest prelude zeros (start_at_rest mallocp proc axis)
    rwa [Nat.zero_add] at law
  obtain ⟨silent, stillIdle⟩ := zeros_silent prelude zeros (start_at_rest mallocp proc) idle
  have many : received Axis.long.channel prelude = 80 :=
    (received_replicate ..).trans (if_pos rfl)
  exact ⟨silent, atRest, jump_starts jump rfl rfl (atRest .long) many.ge stillIdle⟩

/-- The prelude announces no crash, and the jump after it does. With this a run reaches
the dump. -/
theorem prelude_crash (mallocp : Nat → Bool) (proc : Option ProcStat) :
    announces .eventCrashStart (stored (start mallocp proc) prelude) = false ∧
      announces .eventCrashStart (storage (after (start mallocp proc) prelude) jump) = true := by
  obtain ⟨silent, _, starts⟩ := prelude_jump mallocp proc
  have ⟨_, _, _, idle⟩ := starts
  rw [silent]
  exact ⟨rfl, (announces_start_iff _ jump (Or.inl idle)).mpr starts⟩

end EventRecorder.QuietRuns
