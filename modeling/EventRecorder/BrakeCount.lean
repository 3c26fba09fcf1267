import EventRecorder.BrakeRuns
import EventRecorder.Patterns
import EventRecorder.PedalRuns

/-!
# Frequent braking

`safety_da_update` counts the releases of the brake and takes one back when a pause
reaches its 41st sample behind the release. A press on five counted releases is
announced and starts the count anew. The countdown of a pause runs on below zero,
where it is never tested again.
-/

namespace EventRecorder.BrakeCount

open Arithmetic SafetyStatus DriverAssist SafetyRestart BrakeRuns PedalRuns Patterns Runs

universe u
variable {F : Type u} [Arithmetic F]

/-- `status->brake` and the static variables, which are what calls of driver assistance
leave to each other. -/
structure BrakeState where
  brake : Int
  counters : Counters

/-- Their values at process start, before any call. -/
def BrakeState.initial : BrakeState := ⟨0, Counters.initial⟩

/-- A call on the status that has kept `brake`; the other members are as the caller
left them. -/
def handled (state : BrakeState) (call : Call F) : List (Mail F) × Status F × Counters :=
  safetyDaUpdate { call.status with brake := state.brake } state.counters call.mail call.f

/-- The state after a call, with the brake count that the call has left in the status. -/
def nextState (state : BrakeState) (call : Call F) : BrakeState :=
  ⟨(handled state call).2.1.brake, (handled state call).2.2⟩

/-- A brake sample: whether the brake is down, and the mails sent on it, which are the
observation of the count. -/
structure BrakeSample (F : Type u) where
  down : Bool
  mails : List (Mail F)

/-- What a call tells about the brake: a sample if its mail is of that channel, and
otherwise nothing. -/
def brakeSample (state : BrakeState) (call : Call F) : List (BrakeSample F) :=
  if call.mail.channel = .brakeSwitchValue then
    [⟨truncate call.f ≠ 0, (handled state call).1⟩]
  else []

/-- The state after the calls of a process, from its start. -/
def stateAfter (calls : List (Call F)) : BrakeState := after nextState BrakeState.initial calls

/-- The brake samples of a process, each with what was sent on it. -/
def brakeSamples (calls : List (Call F)) : List (BrakeSample F) :=
  emitted nextState brakeSample BrakeState.initial calls

/-- The brake's positions since a sample sent the notification, the only mail that
brake samples send: that sample and those behind it. -/
def sinceNotified (samples : List (BrakeSample F)) : List Bool :=
  samples.foldl
    (fun since sample => if sample.mails = [] then since ++ [sample.down] else [sample.down]) []

/-- The brake is down, and then up for so many samples. A release and a pause are such
patterns. -/
def upFor (samples : Nat) : List Bool := true :: List.replicate samples false

/-- The releases of the brake: places where it is down and then up. -/
def releases (since : List Bool) : Nat := occurrences (upFor 1) since

/-- The pauses with 41 samples behind the one that releases the brake. A longer pause is
counted once. -/
def longPauses (since : List Bool) : Nat := occurrences (upFor 42) since

/-- The three numbers that brake samples move, as the calculation of a restart has them. -/
def brakesOf (state : BrakeState) : Brakes :=
  ⟨state.counters.breakp, state.counters.breakCount, state.brake⟩

/-- A brake sample moves them as the calculation says, and is announced when it is a
press and five releases are counted. -/
theorem handled_brake (state : BrakeState) (call : Call F)
    (channel : call.mail.channel = .brakeSwitchValue) :
    (handled state call).1 =
        (if truncate call.f ≠ 0 ∧ 5 ≤ state.brake then [mailNotifBrake] else []) ∧
      brakesOf (nextState state call) = (brakesOf state).next (truncate call.f ≠ 0) := by
  by_cases released : truncate call.f = 0
  · have update : handled state call = _ := da_released _ _ _ _ channel released
    have up : decide (truncate call.f ≠ 0) = false := by simp [released]
    rw [up]
    by_cases used : state.counters.breakp = 1
    · rw [if_pos used] at update
      rw [next_used _ used]
      simp [nextState, brakesOf, update, released]
    · rw [if_neg used] at update
      rw [next_unused _ used, nextState, update]
      exact ⟨by simp [released], rfl⟩
  · have update : handled state call = _ := da_pressed _ _ _ _ channel released
    simp [nextState, brakesOf, update, released, next_down]

/-- The other channels neither move them nor send the notification, so that a run is
followed on brake samples alone. -/
theorem handled_other (state : BrakeState) (call : Call F)
    (other : call.mail.channel ≠ .brakeSwitchValue) :
    mailNotifBrake ∉ (handled state call).1 ∧
      brakesOf (nextState state call) = brakesOf state := by
  have speed : (mailNotifBrake : Mail F) ≠ mailNotifSpeed := by
    simp [mailNotifBrake, mailNotifSpeed, assistMail]
  have assist : (mailNotifBrake : Mail F) ≠ mailAssist := by
    simp [mailNotifBrake, mailAssist, assistMail]
  have pedal : (mailNotifBrake : Mail F) ≠ mailAccPedal := by
    simp [mailNotifBrake, mailAccPedal, assistMail]
  unfold nextState brakesOf handled safetyDaUpdate
  cases channel : call.mail.channel with
  | brakeSwitchValue => exact absurd channel other
  | unknown => simp
  | vehicleSpeed => simp
  | acceleratorPedalValue => dsimp only; split_ifs <;> simp [pedal]
  | accelerationSpeedLongitudinal => dsimp only; split_ifs <;> simp [speed, assist]
  | accelerationSpeedLateral => dsimp only; split_ifs <;> simp [speed, assist]

/-- Where the brake is, behind the samples since the notification: unused, down, or
released so many samples ago. The numbers tell which. -/
inductive Phase (since : List Bool) (brakes : Brakes) : Prop where
  /-- It has not been used. -/
  | unused (up : brakes.breakp = 0) (idle : brakes.breakCount < 0) (none : true ∉ since)
  /-- It is down. -/
  | pressed (down : brakes.breakp = 1) (last : since.getLast? = some true)
      (few : brakes.brake ≤ 4)
  /-- It was released, and so many samples ago. -/
  | paused (front : List Bool) (samples : Nat) (up : brakes.breakp = 0)
      (running : brakes.breakCount = 40 - samples)
      (split : since = front ++ upFor (samples + 1))
      (held : samples ≤ 40 → 1 ≤ brakes.brake)

/-- What the numbers say about the samples since the notification: the count is that of
releases less long pauses, and the phase fits. -/
structure Tracks (since : List Bool) (brakes : Brakes) : Prop where
  counted : brakes.brake = (releases since : Int) - longPauses since
  nonneg : 0 ≤ brakes.brake
  few : brakes.brake ≤ 5
  phase : Phase since brakes

/-- A sample of a pressed brake ends no pause, since the pattern of a pause ends with a
brake that is up. -/
theorem up_for_pressed (samples : Nat) (since : List Bool) :
    occurrences (upFor (samples + 1)) (since ++ [true]) =
      occurrences (upFor (samples + 1)) since := by
  have inside : ¬ upFor (samples + 1) <:+ since ++ [true] :=
    not_marked_suffix_snoc (by decide) samples since
  rw [occurrences_snoc, if_neg inside, Nat.add_zero]

/-- A sample of a brake that has not been used ends none either, since a pause begins
with a use. -/
theorem up_for_unused (samples : Nat) (since : List Bool) (none : true ∉ since) :
    occurrences (upFor samples) (since ++ [false]) = occurrences (upFor samples) since := by
  have inside : ¬ upFor samples <:+ since ++ [false] :=
    not_marked_suffix samples _ (by simp [none])
  rw [occurrences_snoc, if_neg inside, Nat.add_zero]

/-- A sample behind a use and some samples of its pause ends the pause of as many. -/
theorem up_for_released (samples behind : Nat) (front : List Bool) :
    occurrences (upFor samples) (front ++ upFor behind ++ [false]) =
      occurrences (upFor samples) (front ++ upFor behind) +
        if samples = behind + 1 then 1 else 0 := by
  have grown : front ++ upFor behind ++ [false] = front ++ upFor (behind + 1) := by
    simp [upFor, List.replicate_succ']
  have fits : upFor samples <:+ front ++ upFor (behind + 1) ↔ samples = behind + 1 :=
    marked_suffix_iff (by decide) front samples (behind + 1)
  rw [occurrences_snoc, grown]
  simp only [fits]

/-- The samples since the notification, one sample later: an announced press begins them
anew. -/
def sinceNext (since : List Bool) (brakes : Brakes) (down : Bool) : List Bool :=
  if down ∧ 5 ≤ brakes.brake then [true] else since ++ [down]

/-- A press that is announced starts the count anew, with itself as the only sample
since. -/
theorem tracks_announced (brakes : Brakes) (full : 5 ≤ brakes.brake) :
    Tracks [true] (brakes.next true) := by
  have none (samples : Nat) (some : 1 ≤ samples) : occurrences (upFor samples) [true] = 0 := by
    apply occurrences_single
    simp only [upFor, List.length_cons, List.length_replicate]
    omega
  rw [next_down, if_pos full]
  constructor
  case counted => simp [releases, longPauses, none]
  case nonneg => exact le_rfl
  case few => exact Int.zero_le_ofNat 5
  case phase => exact .pressed rfl rfl (Int.zero_le_ofNat 4)

/-- Any other press changes nothing: it is neither a release nor the end of a pause. -/
theorem tracks_pressed (since : List Bool) (brakes : Brakes) (tracks : Tracks since brakes)
    (free : ¬ 5 ≤ brakes.brake) : Tracks (since ++ [true]) (brakes.next true) := by
  rw [next_down, if_neg free]
  constructor
  case counted =>
    rw [releases, longPauses, up_for_pressed 0, up_for_pressed 41]
    exact tracks.counted
  case nonneg => exact tracks.nonneg
  case few => exact tracks.few
  case phase =>
    have few : brakes.brake ≤ 4 := by omega
    exact .pressed rfl (List.getLast?_concat ..) few

/-- A brake that has not been used stays unused, and the countdown of an earlier pause
runs on below zero. -/
theorem tracks_unused (since : List Bool) (brakes : Brakes) (tracks : Tracks since brakes)
    (up : brakes.breakp = 0) (idle : brakes.breakCount < 0) (none : true ∉ since) :
    Tracks (since ++ [false]) (brakes.next false) := by
  rw [next_unused _ (by rw [up]; decide), if_neg (by omega)]
  constructor
  case counted =>
    rw [releases, longPauses, up_for_unused 1 since none, up_for_unused 42 since none]
    exact tracks.counted
  case nonneg => exact tracks.nonneg
  case few => exact tracks.few
  case phase => exact .unused up (by simp only; omega) (by simp [none])

/-- The first sample behind a press is a release, which is counted and starts the
countdown of its pause. -/
theorem tracks_release (front : List Bool) (brakes : Brakes)
    (tracks : Tracks (front ++ [true]) brakes) (down : brakes.breakp = 1)
    (few : brakes.brake ≤ 4) :
    Tracks (front ++ [true] ++ [false]) (brakes.next false) := by
  have nonneg := tracks.nonneg
  have single : releases (front ++ [true] ++ [false]) = releases (front ++ [true]) + 1 :=
    up_for_released 1 0 front
  have long : longPauses (front ++ [true] ++ [false]) = longPauses (front ++ [true]) :=
    up_for_released 42 0 front
  rw [next_used _ down]
  constructor
  case counted =>
    rw [single, long, tracks.counted]
    push_cast
    ring
  case nonneg => exact Int.le_add_one nonneg
  case few => exact Int.add_le_add_right few 1
  case phase =>
    refine .paused front 0 rfl rfl (by simp [upFor]) ?_
    intro _
    exact Int.le_add_of_nonneg_left nonneg

/-- Behind a release the pause goes on, and its 41st sample takes the release back: the
countdown is zero then, and at no other sample. -/
theorem tracks_pause (front : List Bool) (samples : Nat) (brakes : Brakes)
    (tracks : Tracks (front ++ upFor (samples + 1)) brakes) (up : brakes.breakp = 0)
    (running : brakes.breakCount = 40 - samples) (held : samples ≤ 40 → 1 ≤ brakes.brake) :
    Tracks (front ++ upFor (samples + 1) ++ [false]) (brakes.next false) := by
  have nonneg := tracks.nonneg
  have few := tracks.few
  have single : releases (front ++ upFor (samples + 1) ++ [false]) =
      releases (front ++ upFor (samples + 1)) := by
    rw [releases, up_for_released, if_neg (by omega), Nat.add_zero, releases]
  have long : longPauses (front ++ upFor (samples + 1) ++ [false]) =
      longPauses (front ++ upFor (samples + 1)) + if samples = 40 then 1 else 0 := by
    rw [longPauses, up_for_released, longPauses]
    congr 2
    simp [eq_comm]
  rw [next_unused _ (by rw [up]; decide)]
  constructor
  case counted =>
    rw [single, long, tracks.counted]
    dsimp only
    split_ifs <;> omega
  case nonneg =>
    dsimp only
    split_ifs <;> omega
  case few =>
    dsimp only
    split_ifs <;> omega
  case phase =>
    refine .paused front (samples + 1) up (by dsimp only; omega) ?_ ?_
    · simp [upFor, List.replicate_succ']
    · intro short
      dsimp only
      rw [if_neg (by omega)]
      exact held (by omega)

/-- A sample of a brake that is up counts a release, takes one back or changes nothing. -/
theorem tracks_released (since : List Bool) (brakes : Brakes) (tracks : Tracks since brakes) :
    Tracks (since ++ [false]) (brakes.next false) := by
  cases tracks.phase with
  | unused up idle none => exact tracks_unused since brakes tracks up idle none
  | pressed down last few =>
    obtain ⟨front, rfl⟩ := List.getLast?_eq_some_iff.mp last
    exact tracks_release front brakes tracks down few
  | paused front samples up running split held =>
    subst split
    exact tracks_pause front samples brakes tracks up running held

/-- Every sample keeps the account, whether the brake is down or up in it. -/
theorem tracks_next (since : List Bool) (brakes : Brakes) (down : Bool)
    (tracks : Tracks since brakes) :
    Tracks (sinceNext since brakes down) (brakes.next down) := by
  rw [sinceNext]
  cases down with
  | false =>
    rw [if_neg (by simp)]
    exact tracks_released since brakes tracks
  | true =>
    by_cases full : 5 ≤ brakes.brake
    · rw [if_pos ⟨rfl, full⟩]
      exact tracks_announced brakes full
    · rw [if_neg (by simp [full])]
      exact tracks_pressed since brakes tracks full

/-- A press is announced exactly if it is the first sample of the press and five
releases are left. -/
theorem announced_iff (since : List Bool) (brakes : Brakes) (tracks : Tracks since brakes) :
    5 ≤ brakes.brake ↔
      since.getLast? ≠ some true ∧ (releases since : Int) - longPauses since = 5 := by
  have few := tracks.few
  rw [← tracks.counted]
  constructor
  · intro full
    refine ⟨?_, by omega⟩
    intro last
    cases tracks.phase with
    | unused _ _ none => exact none (List.mem_of_getLast? last)
    | pressed _ _ few => omega
    | paused front samples _ _ split _ =>
      rw [split, upFor, List.replicate_succ', ← List.cons_append, ← List.append_assoc,
        List.getLast?_concat] at last
      cases last
  · rintro ⟨-, five⟩
    omega

omit [Arithmetic F] in
/-- One sample more: if a mail was sent on it, the samples since the notification begin
with it. -/
theorem since_notified_snoc (samples : List (BrakeSample F)) (sample : BrakeSample F) :
    sinceNotified (samples ++ [sample]) =
      if sample.mails = [] then sinceNotified samples ++ [sample.down] else [sample.down] := by
  simp [sinceNotified]

omit [Arithmetic F] in
/-- The last sample since the notification is the last sample, so that the position of
the brake can be read off from either. -/
theorem since_notified_last (samples : List (BrakeSample F)) :
    (sinceNotified samples).getLast? = samples.getLast?.map BrakeSample.down := by
  induction samples using List.reverseRecOn with
  | nil => rfl
  | append_singleton samples sample =>
    rw [since_notified_snoc]
    split_ifs <;> simp

/-- The samples since the notification keep the account along every run. By induction on
the calls, from the last one. -/
theorem run_tracks (calls : List (Call F)) :
    Tracks (sinceNotified (brakeSamples calls)) (brakesOf (stateAfter calls)) := by
  induction calls using List.reverseRecOn with
  | nil =>
    exact ⟨rfl, le_rfl, Int.zero_le_ofNat 5,
      .unused rfl (Int.negSucc_lt_zero 0) List.not_mem_nil⟩
  | append_singleton calls call tracks =>
    have reached : stateAfter (calls ++ [call]) = nextState (stateAfter calls) call := by
      simp [stateAfter]
    have sampled : brakeSamples (calls ++ [call]) =
        brakeSamples calls ++ brakeSample (stateAfter calls) call := by
      simp [brakeSamples, stateAfter]
    rw [reached, sampled, brakeSample]
    by_cases channel : call.mail.channel = .brakeSwitchValue
    · obtain ⟨mails, moved⟩ := handled_brake (stateAfter calls) call channel
      have next := tracks_next _ _ (truncate call.f ≠ 0) tracks
      have same : sinceNext (sinceNotified (brakeSamples calls)) (brakesOf (stateAfter calls))
          (truncate call.f ≠ 0) =
            sinceNotified (brakeSamples calls ++
              [⟨truncate call.f ≠ 0, (handled (stateAfter calls) call).1⟩]) := by
        rw [since_notified_snoc, mails, sinceNext]
        by_cases announced : truncate call.f ≠ 0 ∧ 5 ≤ (stateAfter calls).brake
        · simp [brakesOf, announced]
        · simp [brakesOf, announced]
      rwa [if_pos channel, moved, ← same]
    · rwa [if_neg channel, List.append_nil, (handled_other _ call channel).2]

/-- At any point of a run of driver assistance from process start, with the counters as
unbounded integers: the brake count is between zero and five, and a call sends the
notification exactly if it handles the first sample of a press before which the releases
since the last notification exceed the long pauses since then by five.

Proof: the account of the samples since the notification is an invariant. Under it the
count is five exactly when the samples say so, and the test of a press is a test of the
count. -/
theorem hard_braking_exact (calls : List (Call F)) (call : Call F) :
    let samples := brakeSamples calls
    let since := sinceNotified samples
    0 ≤ (stateAfter calls).brake ∧ (stateAfter calls).brake ≤ 5 ∧
      (mailNotifBrake ∈ (handled (stateAfter calls) call).1 ↔
        call.mail.channel = .brakeSwitchValue ∧ truncate call.f ≠ 0 ∧
          samples.getLast?.map BrakeSample.down ≠ some true ∧
          (releases since : Int) - longPauses since = 5) := by
  intro samples since
  have tracks := run_tracks calls
  refine ⟨tracks.nonneg, tracks.few, ?_⟩
  by_cases channel : call.mail.channel = .brakeSwitchValue
  · have full : 5 ≤ (stateAfter calls).brake ↔ _ := announced_iff _ _ tracks
    rw [(handled_brake _ call channel).1, ← since_notified_last, List.mem_ite_nil_right,
      List.mem_singleton, full]
    simp only [channel, true_and, and_true]
    rfl
  · simp [(handled_other _ call channel).1, channel]

end EventRecorder.BrakeCount
