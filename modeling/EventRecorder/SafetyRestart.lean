import EventRecorder.QuietRuns

/-!
# Restarting the safety thread

A restart runs `safety_status_init` again. The status is then that of a new process,
but the static variables of `da.cpp` keep their values. Two of them can be observed:
a brake that was down, and a count of brake samples that has not run out. The pedal
count never reaches its limit, and the flag of a speed shift is cleared by the first
acceleration sample, which starts no episode.

That a first sample is quiet rests on laws of the floating-point operations on zero.
-/

namespace EventRecorder.SafetyRestart

open Arithmetic CText Detector SafetyStatus DriverAssist SafetyLoop QuietRuns

universe u

/-- Laws of C arithmetic on zero: a difference of equal numbers is zero or not a number,
which an operation passes on and `fmax` and `fmin` ignore. `EPS` is 0.1. -/
structure FloatLaws (F : Type u) [Arithmetic F] (nan : F → Prop) : Prop where
  sub_self : ∀ x : F, fsub x x = flit 0 ∨ nan (fsub x x)
  nan_add : ∀ x y : F, nan x ∨ nan y → nan (fadd x y)
  nan_sub : ∀ x y : F, nan x ∨ nan y → nan (fsub x y)
  max_nan : ∀ x y : F, nan y → fmax x y = x
  min_nan : ∀ x y : F, nan y → fmin x y = x
  add_zero : fadd (flit 0) (flit 0) = (flit 0 : F)
  max_zero : fmax (flit 0) (flit 0) = (flit 0 : F)
  min_zero : fmin (flit 0) (flit 0) = (flit 0 : F)
  one_mul_zero : fmul (flit 1) (flit 0) = (flit 0 : F)
  sub_eps : lt (sub (flit 0 : F) (lit (1 / 10))) (lit 0) = true
  add_eps : lt (lit 0) (add (flit 0 : F) (lit (1 / 10))) = true
  truncate_flit : ∀ n : Nat, n < 2 ^ 24 → truncate (flit n : F) = n

/-- The rationals are lawful, and all are numbers, so that results under the laws can be
evaluated. -/
theorem rational_laws : FloatLaws ℚ fun _ => False where
  sub_self x := .inl (by simp [fsub, flit, sub, toFloat, lit])
  nan_add := by simp
  nan_sub := by simp
  max_nan := by simp
  min_nan := by simp
  add_zero := by simp [fadd, flit, add, toFloat, lit]
  max_zero := by simp [fmax]
  min_zero := by simp [fmin]
  one_mul_zero := by simp [fmul, flit, mul, toFloat, lit]
  sub_eps := by simp [flit, sub, toFloat, lit, lt]
  add_eps := by simp [flit, add, toFloat, lit, lt]
  truncate_flit n _ := by simp [flit, truncate, toFloat, lit]

variable {F : Type u} [Arithmetic F] {nan : F → Prop}

/-- A new detector reports no shift on its first sample: the sample is its own mean, and
both sums stay at zero. -/
theorem first_sample_quiet (laws : FloatLaws F nan) (x : F) :
    (cusum (safetyStatusCusum Cusum.zero) x).2 = 0 := by
  have none : ∀ y : F, y = flit 0 ∨ nan y →
      fmax (flit 0) y = flit 0 ∧ fmin (flit 0) y = flit 0 := by
    rintro y (rfl | undefined)
    · exact ⟨laws.max_zero, laws.min_zero⟩
    · exact ⟨laws.max_nan _ _ undefined, laws.min_nan _ _ undefined⟩
  have high : fmax (flit 0) (fsub (fadd (flit 0) (fsub x x)) (flit 0)) = (flit 0 : F) := by
    apply (none _ _).1
    rcases laws.sub_self x with zero | undefined
    · rw [zero, laws.add_zero]
      exact laws.sub_self _
    · exact .inr (laws.nan_sub _ _ (.inl (laws.nan_add _ _ (.inr undefined))))
  have low : fmin (flit 0) (fadd (fadd (flit 0) (fsub x x)) (flit 0)) = (flit 0 : F) := by
    apply (none _ _).2
    rcases laws.sub_self x with zero | undefined
    · exact .inl (by rw [zero, laws.add_zero, laws.add_zero])
    · exact .inr (laws.nan_add _ _ (.inl (laws.nan_add _ _ (.inr undefined))))
  simp only [cusum, safetyStatusCusum, Cusum.zero, ↓reduceIte, laws.one_mul_zero, high, low,
    decideShift, laws.sub_eps, laws.add_eps, Bool.and_self]

/-! ## Driver assistance, channel by channel -/

section

variable (status : Status F) (counters : Counters) (mail : Mail F) (f : F)

/-- A channel that feeds a detector: one of the two accelerations. -/
def Fed (mail : Mail F) : Prop := ∃ axis : Axis, mail.channel = axis.channel

/-- The brake is down: a count of five is announced and given up, and the other
variables only note the position. -/
theorem da_pressed (channel : mail.channel = .brakeSwitchValue) (pressed : truncate f ≠ 0) :
    safetyDaUpdate status counters mail f =
      (if 5 ≤ status.brake then [mailNotifBrake] else [],
        { status with brake := if 5 ≤ status.brake then 0 else status.brake },
        { counters with breakp := 1 }) := by
  simp only [safetyDaUpdate, channel, if_pos pressed]
  split_ifs <;> rfl

/-- The brake is up, after it was down or not: a use is counted, or the countdown of the
last one goes on. -/
theorem da_released (channel : mail.channel = .brakeSwitchValue) (released : truncate f = 0) :
    safetyDaUpdate status counters mail f =
      if counters.breakp = 1 then
        ([], { status with brake := status.brake + 1 },
          { counters with breakp := 0, breakCount := 40 })
      else
        ([], { status with
            brake := if counters.breakCount = 0 then status.brake - 1 else status.brake },
          { counters with breakCount := counters.breakCount - 1 }) := by
  simp only [safetyDaUpdate, channel, if_neg (not_not.mpr released)]

/-- The pedal count stays far below its limit, so that a sample of the accelerator sends
nothing. -/
theorem da_pedal (channel : mail.channel = .acceleratorPedalValue)
    (below : counters.accPedal ≤ 20) :
    ∃ accPedal accPedalToggle, accPedal ≤ 20 ∧ safetyDaUpdate status counters mail f =
      ([], status, { counters with accPedal := accPedal, accPedalToggle := accPedalToggle }) := by
  have bound : (if lt (lit 30) f then counters.accPedal + 1 else counters.accPedal) ≤ 21 := by
    split_ifs <;> omega
  simp only [safetyDaUpdate, channel]
  generalize (if lt (lit 30) f then counters.accPedal + 1 else counters.accPedal) = count at bound
  rw [if_neg (fun both => absurd both.2.1 (by omega))]
  by_cases many : 20 < count
  · rw [if_pos many]
    exact ⟨_, _, by omega, rfl⟩
  · rw [if_neg many]
    exact ⟨_, _, by omega, rfl⟩

/-- A sample of an acceleration sets or clears the flag of a speed shift, and asks for
help when it sets it. -/
theorem da_fed (fed : Fed mail) :
    safetyDaUpdate status counters mail f =
      if status.crashStatus = 1 ∧ counters.speedShift = 0 then
        ([mailNotifSpeed, mailAssist], status, { counters with speedShift := 1 })
      else ([], status, { counters with speedShift := 0 }) := by
  obtain ⟨axis, channel⟩ := fed
  cases axis <;> simp only [safetyDaUpdate, channel, Axis.channel]

/-- The other channels change no variable and send nothing. -/
theorem da_other (brake : mail.channel ≠ .brakeSwitchValue)
    (pedal : mail.channel ≠ .acceleratorPedalValue) (unfed : ¬ Fed mail) :
    safetyDaUpdate status counters mail f = ([], status, counters) := by
  unfold safetyDaUpdate
  cases channel : mail.channel with
  | brakeSwitchValue => exact absurd channel brake
  | acceleratorPedalValue => exact absurd channel pedal
  | accelerationSpeedLongitudinal => exact absurd ⟨.long, channel⟩ unfed
  | accelerationSpeedLateral => exact absurd ⟨.lat, channel⟩ unfed
  | vehicleSpeed => rfl
  | unknown => rfl

end

/-! ## Two sets of counters -/

/-- Counters that only the flag of a speed shift can tell apart: a countdown below zero
is never tested again. -/
structure Related (left right : Counters) : Prop where
  breakp : left.breakp = right.breakp
  breakCount : left.breakCount = right.breakCount ∨ left.breakCount < 0 ∧ right.breakCount < 0
  leftPedal : left.accPedal ≤ 20
  rightPedal : right.accPedal ≤ 20

/-- From related counters the same mails are sent and the status is the same. Unless an
episode starts, an acceleration sample clears the flag of a speed shift. -/
theorem da_alike (status : Status F) (left right : Counters) (mail : Mail F) (f : F)
    (related : Related left right)
    (shift : left.speedShift = right.speedShift ∨ (Fed mail → status.crashStatus ≠ 1)) :
    (safetyDaUpdate status left mail f).1 = (safetyDaUpdate status right mail f).1 ∧
      (safetyDaUpdate status left mail f).2.1 = (safetyDaUpdate status right mail f).2.1 ∧
      Related (safetyDaUpdate status left mail f).2.2 (safetyDaUpdate status right mail f).2.2 ∧
      (left.speedShift = right.speedShift ∨ Fed mail →
        (safetyDaUpdate status left mail f).2.2.speedShift =
          (safetyDaUpdate status right mail f).2.2.speedShift) := by
  obtain ⟨breakp, breakCount, leftPedal, rightPedal⟩ := related
  by_cases fed : Fed mail
  · rw [da_fed _ _ _ _ fed, da_fed _ _ _ _ fed]
    have same : (status.crashStatus = 1 ∧ left.speedShift = 0) ↔
        (status.crashStatus = 1 ∧ right.speedShift = 0) := by
      rcases shift with same | calm
      · rw [same]
      · exact iff_of_false (fun both => calm fed both.1) fun both => calm fed both.1
    by_cases shifted : status.crashStatus = 1 ∧ left.speedShift = 0
    · rw [if_pos shifted, if_pos (same.mp shifted)]
      exact ⟨rfl, rfl, ⟨breakp, breakCount, leftPedal, rightPedal⟩, fun _ => rfl⟩
    · rw [if_neg shifted, if_neg (same.not.mp shifted)]
      exact ⟨rfl, rfl, ⟨breakp, breakCount, leftPedal, rightPedal⟩, fun _ => rfl⟩
  by_cases brake : mail.channel = .brakeSwitchValue
  · by_cases pressed : truncate f = 0
    · rw [da_released _ _ _ _ brake pressed, da_released _ _ _ _ brake pressed, ← breakp]
      by_cases released : left.breakp = 1
      · rw [if_pos released, if_pos released]
        exact ⟨rfl, rfl, ⟨rfl, .inl rfl, leftPedal, rightPedal⟩, fun kept => kept.resolve_right fed⟩
      · rw [if_neg released, if_neg released]
        refine ⟨rfl, ?_, ⟨rfl, ?_, leftPedal, rightPedal⟩, fun kept => kept.resolve_right fed⟩
        · rcases breakCount with same | ⟨leftOut, rightOut⟩
          · rw [same]
          · simp only [if_neg (Int.ne_of_lt leftOut), if_neg (Int.ne_of_lt rightOut)]
        · simp only
          omega
    · rw [da_pressed _ _ _ _ brake pressed, da_pressed _ _ _ _ brake pressed]
      exact ⟨rfl, rfl, ⟨rfl, breakCount, leftPedal, rightPedal⟩, fun kept => kept.resolve_right fed⟩
  by_cases pedal : mail.channel = .acceleratorPedalValue
  · obtain ⟨_, _, leftBelow, leftAfter⟩ := da_pedal status left mail f pedal leftPedal
    obtain ⟨_, _, rightBelow, rightAfter⟩ := da_pedal status right mail f pedal rightPedal
    rw [leftAfter, rightAfter]
    exact ⟨rfl, rfl, ⟨breakp, breakCount, leftBelow, rightBelow⟩,
      fun kept => kept.resolve_right fed⟩
  · rw [da_other _ _ _ _ brake pedal fed, da_other _ _ _ _ brake pedal fed]
    exact ⟨rfl, rfl, ⟨breakp, breakCount, leftPedal, rightPedal⟩,
      fun kept => kept.resolve_right fed⟩

/-! ## Two runs -/

variable [LogHeader]

/-- The mails one turn sends to the user interface, which are those of driver
assistance. -/
def assist (state : LoopState F) (turn : Turn F) : List (Mail F) := (safetyTurn state turn).2.1

/-- The notifications and requests for help that a list of turns sends, in order, from
some state. -/
def notified (state : LoopState F) (turns : List (Turn F)) : List (Mail F) :=
  Runs.emitted next assist state turns

/-- The thread has been restarted: the status is new, and the static variables of
`da.cpp` are not. -/
def restarted (mallocp : Nat → Bool) (proc : Option ProcStat) (state : LoopState F) :
    LoopState F := { (start mallocp proc : LoopState F) with counters := state.counters }

/-- What driver assistance makes of a sample, on the status that the update leaves. -/
def assistance (state : LoopState F) (turn : Turn F) (f : F) :
    List (Mail F) × Status F × Counters :=
  safetyDaUpdate (safetyStatusUpdate state.status turn.mail f turn.proc) state.counters turn.mail f

/-- A turn sends what driver assistance decides, and logs the status it leaves. The
counters are those it leaves too. -/
theorem turn_assist (state : LoopState F) (turn : Turn F) (f : F)
    (sampled : turn.mail.sample = some f) :
    assist state turn = (assistance state turn f).1 ∧
      (next state turn).status =
        (safetyStatusLog (assistance state turn f).2.1 turn.mail f turn.clock).2 ∧
      (next state turn).counters = (assistance state turn f).2.2 := by
  simp [assist, next, safetyTurn, sampled, assistance]

/-- Neither detector has seen a sample, and no episode is open, as right after an
initialisation. -/
structure Untouched (status : Status F) : Prop where
  detectors : ∀ axis, status.detector axis = safetyStatusCusum Cusum.zero
  idle : status.crashStatus = 0

omit [LogHeader] in
/-- The first sample of a detector starts no episode, whatever its value. -/
theorem untouched_calm (laws : FloatLaws F nan) (status : Status F) (untouched : Untouched status)
    (mail : Mail F) (f : F) (proc : Option ProcStat) :
    (safetyStatusUpdate status mail f proc).crashStatus ≠ 1 := by
  rw [update_crash_status, untouched.idle]
  split_ifs with starts
  · obtain ⟨axis, _, decision⟩ := shift_decision_some _ _ _ _ starts.1
    rw [untouched.detectors axis, first_sample_quiet laws] at decision
    cases decision
  · exact Nat.zero_ne_one

/-- Samples of other channels leave the detectors untouched, however many come before
the first acceleration. -/
theorem untouched_next (state : LoopState F) (turn : Turn F) (untouched : Untouched state.status)
    (unfed : ¬ Fed turn.mail) : Untouched (next state turn).status := by
  cases sampled : turn.mail.sample with
  | none => rwa [(turn_ignored state turn sampled).1]
  | some f =>
    constructor
    · intro axis
      rw [turn_detector state turn f sampled, if_neg fun fed => unfed ⟨axis, fed⟩]
      exact untouched.detectors axis
    · have quiet : ¬ Starts state turn := by
        rintro ⟨value, _, decided, _⟩
        obtain ⟨axis, fed, _⟩ := shift_decision_some _ _ _ _ decided
        exact unfed ⟨axis, fed⟩
      exact (turn_idle state turn untouched.idle quiet).2.1

/-- States that no run tells apart: the flag of a speed shift may differ only until the
detectors have seen a sample. -/
structure Alike (left right : LoopState F) : Prop where
  status : left.status = right.status
  counters : Related left.counters right.counters
  shift : left.counters.speedShift = right.counters.speedShift ∨ Untouched left.status

/-- States alike send the same in a turn and stay alike. The cases are the channels,
each with its part of the counters. -/
theorem turn_alike (laws : FloatLaws F nan) (left right : LoopState F) (turn : Turn F)
    (alike : Alike left right) :
    assist left turn = assist right turn ∧ Alike (next left turn) (next right turn) := by
  cases sampled : turn.mail.sample with
  | none =>
    rw [(turn_ignored left turn sampled).1, (turn_ignored right turn sampled).1]
    exact ⟨by simp [assist, safetyTurn, sampled], alike⟩
  | some f =>
    obtain ⟨leftSent, leftStatus, leftCounters⟩ := turn_assist left turn f sampled
    obtain ⟨rightSent, rightStatus, rightCounters⟩ := turn_assist right turn f sampled
    have shift : left.counters.speedShift = right.counters.speedShift ∨ (Fed turn.mail →
        (safetyStatusUpdate left.status turn.mail f turn.proc).crashStatus ≠ 1) := by
      refine alike.shift.imp_right fun untouched _ => ?_
      exact untouched_calm laws left.status untouched turn.mail f turn.proc
    obtain ⟨sent, status, counters, cleared⟩ := da_alike
      (safetyStatusUpdate left.status turn.mail f turn.proc) left.counters right.counters
      turn.mail f
      alike.counters shift
    have same : assistance right turn f = safetyDaUpdate
        (safetyStatusUpdate left.status turn.mail f turn.proc) right.counters turn.mail f := by
      rw [assistance, alike.status]
    rw [same] at rightSent rightStatus rightCounters
    refine ⟨leftSent.trans (sent.trans rightSent.symm), ?_, ?_, ?_⟩
    · rw [leftStatus, rightStatus, ← status]
      rfl
    · rw [leftCounters, rightCounters]
      exact counters
    · by_cases settled : left.counters.speedShift = right.counters.speedShift ∨ Fed turn.mail
      · rw [leftCounters, rightCounters]
        exact .inl (cleared settled)
      · obtain ⟨apart, unfed⟩ := not_or.mp settled
        exact .inr (untouched_next left turn (alike.shift.resolve_left apart) unfed)

/-- States alike send the same in every run, by induction on its turns. -/
theorem notified_alike (laws : FloatLaws F nan) (left right : LoopState F)
    (alike : Alike left right) (turns : List (Turn F)) :
    notified left turns = notified right turns :=
  Runs.emitted_alike next assist Alike (turn_alike laws) left right alike turns

end EventRecorder.SafetyRestart
