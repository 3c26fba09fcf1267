import EventRecorder.SafetyRestart

/-!
# Brake samples after a restart

On an idle recorder brake samples move three numbers: whether the brake was down, how
many samples are left until a use of it is forgotten, and how often it was used. After
a restart these tell the static variables from those of a new process: enough uses of
the brake send the notification for hard braking one use earlier or later.
-/

namespace EventRecorder.BrakeRuns

open Arithmetic CText Detector SafetyStatus DriverAssist SafetyLoop SafetyRestart QuietRuns

universe u

/-- The counters that brake samples move, apart from everything else that a turn does. -/
structure Brakes where
  breakp : Int
  breakCount : Int
  brake : Int
  deriving DecidableEq, Repr

/-- A sample of a brake that is down or up, as `safety_da_update` has it. -/
def Brakes.next (brakes : Brakes) (down : Bool) : Brakes :=
  if down then { brakes with breakp := 1, brake := if 5 ≤ brakes.brake then 0 else brakes.brake }
  else if brakes.breakp = 1 then ⟨0, 40, brakes.brake + 1⟩
  else { brakes with
    breakCount := brakes.breakCount - 1
    brake := if brakes.breakCount = 0 then brakes.brake - 1 else brakes.brake }

/-- A brake that is down gives up a count of five, which is then announced, and starts
no countdown. -/
theorem next_down (brakes : Brakes) : brakes.next true =
    { brakes with breakp := 1, brake := if 5 ≤ brakes.brake then 0 else brakes.brake } := rfl

/-- Behind a brake that was down one that is up is counted as used, and forty samples
are left. -/
theorem next_used (brakes : Brakes) (down : brakes.breakp = 1) :
    brakes.next false = ⟨0, 40, brakes.brake + 1⟩ := by
  simp [Brakes.next, down]

/-- Behind one that was up the countdown goes on, and takes a use back at zero. -/
theorem next_unused (brakes : Brakes) (up : brakes.breakp ≠ 1) : brakes.next false =
    { brakes with
      breakCount := brakes.breakCount - 1
      brake := if brakes.breakCount = 0 then brakes.brake - 1 else brakes.brake } := by
  simp [Brakes.next, up]

/-- The counters after samples of the brake, one after the other. -/
def Brakes.after (brakes : Brakes) (samples : List Bool) : Brakes :=
  samples.foldl Brakes.next brakes

/-- Samples in two parts are taken in one after the other. -/
@[simp] theorem brakes_after_append (brakes : Brakes) (earlier later : List Bool) :
    brakes.after (earlier ++ later) = (brakes.after earlier).after later := List.foldl_append ..

/-- The first sample comes before the others. -/
@[simp] theorem brakes_after_cons (brakes : Brakes) (down : Bool) (rest : List Bool) :
    brakes.after (down :: rest) = (brakes.next down).after rest := rfl

/-- Without samples the counters stay as they are. -/
@[simp] theorem brakes_after_nil (brakes : Brakes) : brakes.after [] = brakes := rfl

/-- So many uses of the brake: each a sample in which it is down and one in which it is
up. -/
def uses (count : Nat) : List Bool := (List.replicate count [true, false]).flatten

/-- Uses of a brake that is up are counted, up to five, whatever is left of an earlier
countdown. -/
theorem uses_counted (count : Nat) (breakCount brake : Int) (few : brake + count ≤ 5) :
    ((⟨0, breakCount, brake⟩ : Brakes).after (uses count)).brake = brake + count := by
  induction count generalizing breakCount brake with
  | zero => simp [uses]
  | succ count inductionHypothesis =>
    have soft : ¬ 5 ≤ brake := by omega
    have once : (⟨0, breakCount, brake⟩ : Brakes).after (uses (count + 1)) =
        (⟨0, 40, brake + 1⟩ : Brakes).after (uses count) := by
      simp [uses, List.replicate_succ, next_down, next_used, soft]
    rw [once, inductionHypothesis 40 (brake + 1) (by omega)]
    omega

/-- A count that runs out takes a use back, with the sample behind its last, and is
below zero then. -/
theorem count_runs_out (count : Nat) (brake : Int) :
    (⟨0, count, brake⟩ : Brakes).after (List.replicate (count + 1) false) = ⟨0, -1, brake - 1⟩ := by
  induction count with
  | zero => rfl
  | succ count inductionHypothesis =>
    have running : ((count : Int) + 1 ≠ 0) := by omega
    rw [List.replicate_succ, brakes_after_cons, next_unused _ Int.zero_ne_one]
    simpa [running] using inductionHypothesis

/-- A count that has run out takes none back, however long the brake stays up. -/
theorem count_ran_out (samples : Nat) (breakCount brake : Int) (out : breakCount < 0) :
    (⟨0, breakCount, brake⟩ : Brakes).after (List.replicate samples false) =
      ⟨0, breakCount - samples, brake⟩ := by
  induction samples generalizing breakCount with
  | zero => simp
  | succ samples inductionHypothesis =>
    have running : breakCount ≠ 0 := Int.ne_of_lt out
    rw [List.replicate_succ, brakes_after_cons, next_unused _ Int.zero_ne_one]
    simp only [if_neg running]
    rw [inductionHypothesis (breakCount - 1) (by omega)]
    congr 1
    omega

/-! ## Brake samples in the safety loop -/

section

variable {F : Type u} [Arithmetic F] [LogHeader] {nan : F → Prop}

/-- The brake counters of a state, of which one is in the status and two are static
variables. -/
def brakes (state : LoopState F) : Brakes :=
  ⟨state.counters.breakp, state.counters.breakCount, state.status.brake⟩

/-- A turn with a brake sample, on any state. -/
def brakeTurn (down : Bool) : Turn F where
  mail := ⟨1, mtSafety, .float (flit (if down then 1 else 0)),
    [Char.ofNat CanData.brakeSwitchValue.code]⟩
  proc := none
  clock _ := []

omit [LogHeader] in
/-- The sample says whether the brake is down, as its number is zero or one in any
lawful arithmetic. -/
theorem truncate_brake (laws : FloatLaws F nan) (down : Bool) :
    truncate (flit (if down then 1 else 0) : F) = if down then 1 else 0 := by
  cases down with
  | false =>
    have zero := laws.truncate_flit 0 (by decide)
    rwa [Nat.cast_zero] at zero
  | true =>
    have one := laws.truncate_flit 1 (by decide)
    rwa [Nat.cast_one] at one

/-- A brake sample moves the brake counters of an idle recorder, and is announced when the
brake was used five times. -/
theorem brake_turn (laws : FloatLaws F nan) (state : LoopState F) (down : Bool)
    (idle : state.status.crashStatus = 0) :
    assist state (brakeTurn down) =
        (if down ∧ 5 ≤ state.status.brake then [mailNotifBrake] else []) ∧
      brakes (SafetyLoop.next state (brakeTurn down)) = (brakes state).next down ∧
      (SafetyLoop.next state (brakeTurn down)).status.crashStatus = 0 := by
  have channel : (brakeTurn down : Turn F).mail.channel = .brakeSwitchValue := rfl
  have sampled : (brakeTurn down : Turn F).mail.sample = some (flit (if down then 1 else 0)) := rfl
  have value := truncate_brake laws down
  obtain ⟨sent, status, counters⟩ := turn_assist state (brakeTurn down) _ sampled
  -- The update writes the buffer of the brake and nothing else.
  obtain ⟨updated, update, brake, calm⟩ : ∃ updated : Status F,
      safetyStatusUpdate state.status (brakeTurn down : Turn F).mail
          (flit (if down then 1 else 0)) (brakeTurn down : Turn F).proc = updated ∧
        updated.brake = state.status.brake ∧ updated.crashStatus = 0 := by
    refine ⟨_, rfl, ?_, ?_⟩
    · simp [safetyStatusUpdate, channel, Status.write]
    · simpa [safetyStatusUpdate, channel, Status.write] using idle
  have unlogged : ∀ status : Status F, status.crashStatus = 0 → ∀ mail f clock,
      (safetyStatusLog status mail f clock).2 = status := by
    intro status quiet mail f clock
    simp [safetyStatusLog, quiet]
  rw [assistance, update] at sent status counters
  cases down with
  | true =>
    rw [da_pressed _ _ _ _ channel (by rw [value]; decide)] at sent status counters
    rw [unlogged { updated with brake := if 5 ≤ updated.brake then 0 else updated.brake } calm]
      at status
    rw [sent, brakes, status, counters, brake]
    exact ⟨by simp, (next_down (brakes state)).symm, calm⟩
  | false =>
    rw [da_released _ _ _ _ channel (by rw [value]; rfl)] at sent status counters
    by_cases released : state.counters.breakp = 1
    · rw [if_pos released] at sent status counters
      rw [unlogged { updated with brake := updated.brake + 1 } calm] at status
      rw [sent, brakes, status, counters, brake]
      exact ⟨by simp, (next_used (brakes state) released).symm, calm⟩
    · rw [if_neg released] at sent status counters
      rw [unlogged { updated with
        brake := if state.counters.breakCount = 0 then updated.brake - 1 else updated.brake } calm]
        at status
      rw [sent, brakes, status, counters, brake]
      exact ⟨by simp, (next_unused (brakes state) released).symm, calm⟩

/-- Brake samples move the brake counters of an idle recorder as calculated, and it
stays idle. By induction on the samples. -/
theorem brake_run (laws : FloatLaws F nan) (state : LoopState F) (samples : List Bool)
    (idle : state.status.crashStatus = 0) :
    brakes (Runs.after SafetyLoop.next state (samples.map brakeTurn)) =
        (brakes state).after samples ∧
      (Runs.after SafetyLoop.next state (samples.map brakeTurn)).status.crashStatus = 0 := by
  induction samples generalizing state with
  | nil => exact ⟨rfl, idle⟩
  | cons down samples inductionHypothesis =>
    obtain ⟨_, moved, still⟩ := brake_turn laws state down idle
    obtain ⟨further, last⟩ := inductionHypothesis (SafetyLoop.next state (brakeTurn down)) still
    refine ⟨?_, last⟩
    rw [List.map_cons, Runs.after_cons, further, moved, brakes_after_cons]

/-- Idle recorders that no run tells apart count as many uses of the brake, as far as the
notification shows. -/
theorem brakes_alike (laws : FloatLaws F nan) (left right : LoopState F)
    (leftIdle : left.status.crashStatus = 0) (rightIdle : right.status.crashStatus = 0)
    (alike : ∀ turns, notified left turns = notified right turns) (samples : List Bool) :
    5 ≤ ((brakes left).after samples).brake ↔ 5 ≤ ((brakes right).after samples).brake := by
  obtain ⟨leftBrakes, leftStill⟩ := brake_run laws left samples leftIdle
  obtain ⟨rightBrakes, rightStill⟩ := brake_run laws right samples rightIdle
  have same := Runs.emit_alike SafetyLoop.next assist left right alike (samples.map brakeTurn)
    (brakeTurn true)
  rw [(brake_turn laws _ true leftStill).1, (brake_turn laws _ true rightStill).1] at same
  rw [← leftBrakes, ← rightBrakes]
  simp only [brakes]
  by_cases hard : 5 ≤ (Runs.after SafetyLoop.next left (samples.map brakeTurn)).status.brake
  · rw [if_pos ⟨rfl, hard⟩] at same
    refine iff_of_true hard ?_
    by_contra soft
    rw [if_neg fun both => soft both.2] at same
    cases same
  · rw [if_neg fun both => hard both.2] at same
    refine iff_of_false hard fun other => ?_
    rw [if_pos ⟨rfl, other⟩] at same
    cases same

/-! ## After a restart -/

/-- What holds of the static variables in every run from process start, and at a restart
too. -/
structure Reached (counters : Counters) : Prop where
  breakp : counters.breakp = 0 ∨ counters.breakp = 1
  pedal : counters.accPedal ≤ 20

omit [LogHeader] in
/-- Every call keeps it, on whatever channel. -/
theorem da_reached (status : Status F) (counters : Counters) (mail : Mail F) (f : F)
    (reached : Reached counters) : Reached (safetyDaUpdate status counters mail f).2.2 := by
  obtain ⟨breakp, below⟩ := reached
  by_cases fed : Fed mail
  · rw [da_fed _ _ _ _ fed]
    split_ifs <;> exact ⟨breakp, below⟩
  by_cases brake : mail.channel = .brakeSwitchValue
  · by_cases pressed : truncate f = 0
    · rw [da_released _ _ _ _ brake pressed]
      by_cases released : counters.breakp = 1
      · rw [if_pos released]
        exact ⟨.inl rfl, below⟩
      · rw [if_neg released]
        exact ⟨breakp, below⟩
    · rw [da_pressed _ _ _ _ brake pressed]
      exact ⟨.inr rfl, below⟩
  by_cases pedal : mail.channel = .acceleratorPedalValue
  · obtain ⟨_, _, few, after⟩ := da_pedal status counters mail f pedal below
    rw [after]
    exact ⟨breakp, few⟩
  · rw [da_other _ _ _ _ brake pedal fed]
    exact ⟨breakp, below⟩

/-- The static variables after any history are such, by induction on its turns. -/
theorem run_reached (mallocp : Nat → Bool) (proc : Option ProcStat) (history : List (Turn F)) :
    Reached (after (start mallocp proc) history).counters := by
  refine Runs.invariant (fun _ (state : LoopState F) => Reached state.counters)
    ⟨.inl rfl, Nat.zero_le _⟩ ?_ history
  intro _ state turn reached
  cases sampled : turn.mail.sample with
  | none => rwa [(turn_ignored state turn sampled).1]
  | some f =>
    rw [(turn_assist state turn f sampled).2.2]
    exact da_reached _ _ _ _ reached

/-- A brake that was down at the restart counts as used once more: its release is
counted by the restarted thread and not by a new process, and four uses later one
notifies and the other does not. -/
theorem down_differs (laws : FloatLaws F nan) (mallocp : Nat → Bool) (proc : Option ProcStat)
    (state : LoopState F) (down : state.counters.breakp = 1) :
    ¬ ∀ turns,
      notified (restarted mallocp proc state) turns = notified (start mallocp proc) turns := by
  intro alike
  have same := brakes_alike laws (restarted mallocp proc state) (start mallocp proc) rfl rfl alike
    (false :: uses 4)
  have left : brakes (restarted mallocp proc state) =
      ⟨state.counters.breakp, state.counters.breakCount, 0⟩ := rfl
  have right : brakes (start mallocp proc : LoopState F) = ⟨0, -1, 0⟩ := rfl
  have used : (⟨1, state.counters.breakCount, 0⟩ : Brakes).next false = ⟨0, 40, 1⟩ :=
    next_used _ rfl
  have unused : (⟨0, -1, 0⟩ : Brakes).next false = ⟨0, -2, 0⟩ := by decide
  rw [left, right, down, brakes_after_cons, brakes_after_cons, used, unused,
    uses_counted 4 _ _ (by decide), uses_counted 4 _ _ (by decide)] at same
  revert same
  decide

/-- A count that has not run out at the restart takes a use of the brake back. -/
theorem count_differs (laws : FloatLaws F nan) (mallocp : Nat → Bool) (proc : Option ProcStat)
    (state : LoopState F) (up : state.counters.breakp = 0) (count : Nat)
    (running : state.counters.breakCount = count) :
    ¬ ∀ turns,
      notified (restarted mallocp proc state) turns = notified (start mallocp proc) turns := by
  intro alike
  have same := brakes_alike laws (restarted mallocp proc state) (start mallocp proc) rfl rfl alike
    (List.replicate (count + 1) false ++ uses 5)
  have left : brakes (restarted mallocp proc state) =
      ⟨state.counters.breakp, state.counters.breakCount, 0⟩ := rfl
  have right : brakes (start mallocp proc : LoopState F) = ⟨0, -1, 0⟩ := rfl
  rw [left, right, up, running, brakes_after_append, brakes_after_append, count_runs_out,
    count_ran_out _ _ _ (by decide), uses_counted 5 _ _ (by decide),
    uses_counted 5 _ _ (by decide)] at same
  revert same
  decide

/-- After any history, a restarted thread sends the same notifications and requests for
help as a new process, in every continuation, exactly when the brake was up and the
count of brake samples had run out.

Proof: if it was down, or a count still runs, there is a continuation of brake samples
that tells the two apart. Otherwise the two states are alike up to counts below zero and
the flag of a speed shift, and states alike send the same in every run. -/
theorem restart_fresh_iff (laws : FloatLaws F nan) (firstMallocp mallocp : Nat → Bool)
    (firstProc proc : Option ProcStat) (history : List (Turn F)) :
    (∀ continuation : List (Turn F),
        notified (restarted mallocp proc (after (start firstMallocp firstProc) history))
            continuation =
          notified (start mallocp proc) continuation) ↔
      (after (start firstMallocp firstProc) history).counters.breakp = 0 ∧
        (after (start firstMallocp firstProc) history).counters.breakCount < 0 := by
  obtain ⟨breakp, pedal⟩ := run_reached firstMallocp firstProc history
  generalize after (start firstMallocp firstProc) history = state at breakp pedal ⊢
  constructor
  · intro alike
    have up : state.counters.breakp = 0 :=
      breakp.resolve_right fun down => down_differs laws mallocp proc state down alike
    refine ⟨up, ?_⟩
    by_contra running
    exact count_differs laws mallocp proc state up state.counters.breakCount.toNat
      (Int.toNat_of_nonneg (Int.not_lt.mp running)).symm alike
  · rintro ⟨up, out⟩ continuation
    apply notified_alike laws
    refine ⟨rfl, ⟨up, .inr ⟨out, (by decide : (-1 : Int) < 0)⟩, pedal, Nat.zero_le _⟩,
      .inr ⟨?_, rfl⟩⟩
    rintro ⟨⟩ <;> rfl

end

/-- Restarted before the first mail, a thread is like new, since its static variables
are. -/
theorem unused_restart_fresh :
    notified (restarted (fun _ => true) none (after (start (fun _ => true) none) []))
        [brakeTurn true, brakeTurn false] =
      notified (start (fun _ => true) none : LoopState ℚ) [brakeTurn true, brakeTurn false] :=
  (restart_fresh_iff rational_laws (fun _ => true) (fun _ => true) none none []).mpr
    ⟨rfl, by decide⟩ _

/-- Restarted while the brake is down, a thread announces hard braking one use early. -/
theorem down_restart_differs :
    ¬ ∀ continuation : List (Turn ℚ),
      notified (restarted (fun _ => true) none (after (start (fun _ => true) none)
          [brakeTurn true])) continuation =
        notified (start (fun _ => true) none) continuation := by
  apply down_differs rational_laws
  decide

end EventRecorder.BrakeRuns
