import EventRecorder.PostCrashWindow
import EventRecorder.SafetyRestart

/-!
# Requests for assistance

A crash asks for assistance once: the mail whose turn announces it also sends the
notification of a speed shift and the request, and no other mail sends either. The
flag `speed_shift` is set by such a mail and survives restarts of the safety thread, so
it has to be clear again before the next crash can start.

The next acceleration sample clears it. Without one an episode cannot end, since the
quantities of the other channels are too few; and after a restart a detector has to see
a first sample, which starts no episode.
-/

namespace EventRecorder.AssistanceRequest

open Arithmetic SafetyStatus DriverAssist SafetyLoop PostCrashWindow SafetyRestart

section

universe u
variable {F : Type u} [Arithmetic F] [LogHeader] {nan : F → Prop}

/-- A mail reaches the safety thread, or the thread is restarted and runs its
initialisation again. -/
inductive Op (F : Type u) where
  | turn (turn : Turn F)
  | restart (mallocp : Nat → Bool) (proc : Option ProcStat)

/-- The state after a mail or a restart. A restart keeps the static variables of
`da.cpp` and nothing else. -/
def next (state : LoopState F) : Op F → LoopState F
  | .turn turn => SafetyLoop.next state turn
  | .restart mallocp proc => restarted mallocp proc state

/-- A mail that starts a crash sends the notification of a speed shift and then the request
for assistance, and nothing else; any other mail sends neither of them. -/
def AsksOnce (state : LoopState F) : Op F → Prop
  | .turn turn =>
    if announces .eventCrashStart (storage state turn) then
      assist state turn = [mailNotifSpeed, mailAssist]
    else mailNotifSpeed ∉ assist state turn ∧ mailAssist ∉ assist state turn
  | .restart _ _ => True

/-- The quantities of the channels that feed no detector, which are four of the twelve. -/
def unfedFields : List LogField := [.brake, .accPedal, .speed, .cpuTime]

/-- A flag that is set was set by the crash of the open episode, and no acceleration was
received since, or the detectors are new. -/
structure Latched (state : LoopState F) : Prop where
  settled : state.status.crashStatus = 0 ∨ state.status.crashStatus = 2
  idle : state.status.crashStatus = 0 → state.status.logBefore.indicator = 0
  pedal : state.counters.accPedal ≤ 20
  flag : state.counters.speedShift = 0 ∨ Untouched state.status ∨
    state.status.crashStatus = 2 ∧ state.status.logBefore.indicator ≤
      unfedFields.countP fun field => statusLogAfterSize < state.status.logBefore.count field

omit [Arithmetic F] [LogHeader] in
/-- Of a channel that feeds no detector, the quantities are among the four, so that
counting all twelve counts no more than these. -/
theorem count_unfed (count : LogField → Nat) (mail : Mail F) (unfed : ¬ Fed mail) :
    LogField.all.countP (fun field =>
        field.channel = mail.channel ∧ count field = statusLogAfterSize) =
      unfedFields.countP fun field =>
        field.channel = mail.channel ∧ count field = statusLogAfterSize := by
  have long : CanData.accelerationSpeedLongitudinal ≠ mail.channel :=
    fun same => unfed ⟨.long, same.symm⟩
  have lat : CanData.accelerationSpeedLateral ≠ mail.channel :=
    fun same => unfed ⟨.lat, same.symm⟩
  simp [LogField.all, unfedFields, List.countP_cons, LogField.channel, long, lat]

/-- The turn of a mail that feeds no detector keeps an episode open that was open with few
quantities counted. -/
theorem unfed_turn (state : LoopState F) (turn : Turn F) (unfed : ¬ Fed turn.mail)
    (recording : state.status.crashStatus = 2)
    (few : state.status.logBefore.indicator ≤
      unfedFields.countP fun field => statusLogAfterSize < state.status.logBefore.count field) :
    (SafetyLoop.next state turn).status.crashStatus = 2 ∧
      (SafetyLoop.next state turn).status.logBefore.indicator ≤
        unfedFields.countP fun field =>
          statusLogAfterSize < (SafetyLoop.next state turn).status.logBefore.count field := by
  cases sampled : turn.mail.sample with
  | none =>
    rw [(turn_ignored state turn sampled).1]
    exact ⟨recording, few⟩
  | some f =>
    obtain ⟨_, _, _, crashStatus, indicator, counts⟩ :=
      turn_recording state turn f sampled recording
    have step := exceeding_step unfedFields state.status.logBefore.count turn.mail.channel
    have bound := List.countP_le_length (l := unfedFields) (p := fun field =>
      decide (statusLogAfterSize <
        state.status.logBefore.count field + if field.channel = turn.mail.channel then 1 else 0))
    have four : unfedFields.length = 4 := rfl
    rw [count_unfed _ _ unfed] at crashStatus indicator
    rw [if_neg (by omega)] at crashStatus indicator
    refine ⟨crashStatus, ?_⟩
    simp only [counts]
    omega

omit [Arithmetic F] [LogHeader] in
/-- Mails for the user interface with different texts differ, so that one is not taken
for the other. -/
theorem assist_mail_ne (msg other info otherInfo : String) (differ : msg.toList ≠ other.toList) :
    (assistMail msg info : Mail F) ≠ assistMail other otherInfo := by
  intro same
  injection same with _ _ data
  injection data with text
  exact differ text

omit [LogHeader] in
/-- The channels that feed no detector leave the flag alone, and only the brake
notifies: the count of the accelerator stays too low for its notification. -/
theorem da_unfed (status : Status F) (counters : Counters) (mail : Mail F) (f : F)
    (unfed : ¬ Fed mail) (below : counters.accPedal ≤ 20) :
    (∀ sent ∈ (safetyDaUpdate status counters mail f).1, sent = mailNotifBrake) ∧
      (safetyDaUpdate status counters mail f).2.2.accPedal ≤ 20 ∧
      (safetyDaUpdate status counters mail f).2.2.speedShift = counters.speedShift := by
  by_cases brake : mail.channel = .brakeSwitchValue
  · by_cases pressed : truncate f = 0
    · rw [da_released _ _ _ _ brake pressed]
      split_ifs <;> exact ⟨List.forall_mem_nil _, below, rfl⟩
    · rw [da_pressed _ _ _ _ brake pressed]
      refine ⟨?_, below, rfl⟩
      split_ifs <;> simp
  by_cases pedal : mail.channel = .acceleratorPedalValue
  · obtain ⟨_, _, few, after⟩ := da_pedal status counters mail f pedal below
    rw [after]
    exact ⟨List.forall_mem_nil _, few, rfl⟩
  · rw [da_other _ _ _ _ brake pedal unfed]
    exact ⟨List.forall_mem_nil _, below, rfl⟩

/-- A turn that starts an episode finds the flag clear, asks for assistance and sets it. -/
theorem crash_turn (laws : FloatLaws F nan) (state : LoopState F) (turn : Turn F)
    (latched : Latched state) (starts : Starts state turn) :
    Latched (SafetyLoop.next state turn) ∧ assist state turn = [mailNotifSpeed, mailAssist] := by
  obtain ⟨f, sampled, decided, idle⟩ := starts
  obtain ⟨_, _, recording, _, indicator⟩ := turn_crash state turn f sampled decided idle
  obtain ⟨sent, _, counters⟩ := turn_assist state turn f sampled
  obtain ⟨axis, fed, _⟩ := shift_decision_some _ _ _ _ decided
  have crash : (safetyStatusUpdate state.status turn.mail f turn.proc).crashStatus = 1 := by
    rw [update_crash_status, if_pos ⟨decided, idle⟩]
  have clear : state.counters.speedShift = 0 := by
    rcases latched.flag with clear | untouched | ⟨busy, _⟩
    · exact clear
    · exact absurd crash (untouched_calm laws state.status untouched turn.mail f turn.proc)
    · omega
  rw [assistance, da_fed _ _ _ _ ⟨axis, fed⟩, if_pos ⟨crash, clear⟩] at sent counters
  refine ⟨⟨.inr recording, fun ended => by omega, ?_, .inr (.inr ⟨recording, ?_⟩)⟩, sent⟩
  · rw [counters]
    exact latched.pedal
  · rw [indicator, latched.idle idle]
    exact Nat.zero_le _

/-- Any other turn sends neither mail, and keeps what is known of the flag: it stays as
it is, or is cleared by an acceleration sample. -/
theorem calm_turn (state : LoopState F) (turn : Turn F) (latched : Latched state)
    (quiet : ¬ Starts state turn) :
    Latched (SafetyLoop.next state turn) ∧
      mailNotifSpeed ∉ assist state turn ∧ mailAssist ∉ assist state turn := by
  have speed : (mailNotifSpeed : Mail F) ≠ mailNotifBrake := assist_mail_ne _ _ _ _ (by decide)
  have help : (mailAssist : Mail F) ≠ mailNotifBrake := assist_mail_ne _ _ _ _ (by decide)
  cases sampled : turn.mail.sample with
  | none =>
    rw [(turn_ignored state turn sampled).1]
    exact ⟨latched, by simp [assist, safetyTurn, sampled]⟩
  | some f =>
    obtain ⟨sent, _, counters⟩ := turn_assist state turn f sampled
    have calm : (safetyStatusUpdate state.status turn.mail f turn.proc).crashStatus ≠ 1 := by
      rw [update_crash_status, if_neg fun both => quiet ⟨f, sampled, both⟩]
      have settled := latched.settled
      omega
    have episode : ((SafetyLoop.next state turn).status.crashStatus = 0 ∨
          (SafetyLoop.next state turn).status.crashStatus = 2) ∧
        ((SafetyLoop.next state turn).status.crashStatus = 0 →
          (SafetyLoop.next state turn).status.logBefore.indicator = 0) := by
      rcases latched.settled with idle | recording
      · obtain ⟨_, still, _, indicator⟩ := turn_idle state turn idle quiet
        exact ⟨.inl still, fun _ => indicator.trans (latched.idle idle)⟩
      · obtain ⟨_, _, _, crashStatus, indicator, _⟩ :=
          turn_recording state turn f sampled recording
        rw [crashStatus, indicator]
        split_ifs <;> simp
    by_cases fed : Fed turn.mail
    · rw [assistance, da_fed _ _ _ _ fed, if_neg fun both => calm both.1] at sent counters
      rw [sent]
      refine ⟨⟨episode.1, episode.2, ?_, .inl ?_⟩, by simp⟩
      · rw [counters]
        exact latched.pedal
      · rw [counters]
    · obtain ⟨brake, below, same⟩ := da_unfed
        (safetyStatusUpdate state.status turn.mail f turn.proc) state.counters turn.mail f fed
        latched.pedal
      rw [sent, assistance]
      refine ⟨⟨episode.1, episode.2, ?_, ?_⟩, fun member => speed (brake _ member),
        fun member => help (brake _ member)⟩
      · rw [counters]
        exact below
      · rw [counters, assistance, same]
        rcases latched.flag with clear | untouched | ⟨recording, few⟩
        · exact .inl clear
        · exact .inr (.inl (untouched_next state turn untouched fed))
        · exact .inr (.inr (unfed_turn state turn fed recording few))

omit [LogHeader] in
/-- A restart makes the detectors new, and the flag may keep what it has: the first
sample that could start a crash clears it. -/
theorem restart_latched (state : LoopState F) (mallocp : Nat → Bool) (proc : Option ProcStat)
    (below : state.counters.accPedal ≤ 20) : Latched (restarted mallocp proc state) := by
  obtain ⟨idle, _, indicator⟩ := init_idle (F := F) mallocp proc
  refine ⟨.inl idle, fun _ => indicator, below, .inr (.inl ⟨?_, idle⟩)⟩
  rintro ⟨⟩ <;> rfl

/-- In every run, with restarts between any two mails, each crash asks for assistance
once and nothing else does.

Proof: what is known of the flag is an invariant of mails and restarts. Where it is set,
the episode of its crash is still open or the detectors are new, and neither lets the
next mail start a crash; so a mail that starts one finds it clear. -/
theorem asks_once (laws : FloatLaws F nan) (mallocp : Nat → Bool) (proc : Option ProcStat)
    (ops : List (Op F)) :
    Runs.EveryStep next (start mallocp proc) ops fun _ state op => AsksOnce state op := by
  have latched (before : List (Op F)) : Latched (Runs.after next (start mallocp proc) before) := by
    have initial : Latched (start mallocp proc : LoopState F) :=
      restart_latched ⟨(start mallocp proc).status, Counters.initial⟩ mallocp proc (Nat.zero_le _)
    refine Runs.invariant (fun _ state => Latched state) initial ?_ before
    intro _ state op latched
    cases op with
    | restart mallocp proc => exact restart_latched state mallocp proc latched.pedal
    | turn turn =>
      by_cases starts : Starts state turn
      · exact (crash_turn laws state turn latched starts).1
      · exact (calm_turn state turn latched starts).1
  intro before op rest _
  have now := latched before
  cases op with
  | restart mallocp proc => trivial
  | turn turn =>
    have announced := announces_start_iff _ turn now.settled
    simp only [AsksOnce]
    split_ifs with starts
    · exact (crash_turn laws _ turn now (announced.mp starts)).2
    · exact (calm_turn _ turn now (announced.not.mp starts)).2

end

/-- A crash before a restart, and zeros after it, with the flag still set at the
restart. -/
theorem restarted_run_asks_once :
    Runs.EveryStep next (start (fun _ => true) none : LoopState ℚ)
      (QuietRuns.prelude.map .turn ++ [.turn QuietRuns.jump, .restart (fun _ => true) none] ++
        QuietRuns.prelude.map .turn) fun _ state op => AsksOnce state op :=
  asks_once rational_laws _ _ _

end EventRecorder.AssistanceRequest
