import EventRecorder.PostCrashWindow

/-!
# Buffered and live records of one mail

While recording, a mail's quantities are written to the pre-crash buffers by
`safety_status_update` and sent live by `safety_status_log`. Two separately
written `switch` statements name the quantities, their process ids and the
detector members. They agree on all but one: the live record of the lateral
deviation estimate reads the longitudinal detector.
-/

namespace EventRecorder.BufferedLive

open Arithmetic CText Detector SafetyStatus DriverAssist SafetyLoop QuietRuns PostCrashWindow

/-- The deviation estimate of the lateral detector once it has seen a sample, which is
what the update writes to the buffer. -/
def lateralDeviation {F : Type} [Arithmetic F] (status : Status F) (f : F) : F :=
  (cusum status.cusLat f).1.estStdDev

section

variable {F : Type} [Arithmetic F] [LogHeader]

/-- The process ids and values that the update writes into the buffers for the
mail of a turn; `update_buffers` ties them to the buffers' contents. -/
def buffered (state : LoopState F) (turn : Turn F) (f : F) : List (Int × F) :=
  (updateWrites state.status turn.mail f turn.proc).map Prod.snd

/-- While a channel's counters are below the limit, every macro call sends, so that the
records are the calls themselves. -/
theorem live_readings (state : LoopState F) (turn : Turn F) (f : F)
    (sampled : turn.mail.sample = some f) (recording : state.status.crashStatus = 2)
    (below : ∀ field : LogField, field.channel = turn.mail.channel →
      state.status.logBefore.count field < statusLogAfterSize) :
    readings (storage state turn) =
      (liveCalls (state.assisted turn f) turn.mail f).map Prod.snd := by
  obtain ⟨sent, _⟩ := turn_recording state turn f sampled recording
  have visited := (visited_fields (state.assisted turn f) turn.mail f turn.proc).2
  have every : ∀ call ∈ liveCalls (state.assisted turn f) turn.mail f,
      state.status.logBefore.count call.1 < statusLogAfterSize := by
    intro call member
    have listed : call.1 ∈ (liveCalls (state.assisted turn f) turn.mail f).map Prod.fst :=
      List.mem_map_of_mem member
    rw [visited, List.mem_filter] at listed
    exact below call.1 (by simpa using listed.2)
  rw [sent, List.filter_eq_self.mpr (by simpa using every)]

omit [LogHeader] in
/-- The live calls, with every value named by the state before the turn. They are the
writes of the update but for the lateral deviation. -/
theorem live_calls_before (state : LoopState F) (turn : Turn F) (f : F) :
    liveCalls (state.assisted turn f) turn.mail f =
      (updateWrites state.status turn.mail f turn.proc).map fun write =>
        if write.1 = .cusumAccLatEstStdDev then (write.1, write.2.1, state.status.cusLong.estStdDev)
        else write := by
  have long := update_detector state.status turn.mail f turn.proc .long
  have lat := update_detector state.status turn.mail f turn.proc .lat
  have cpu := update_cpu state.status turn.mail f turn.proc
  rw [assisted_status]
  unfold liveCalls updateWrites
  cases channel : turn.mail.channel with
  | vehicleSpeed =>
    rw [if_pos channel] at cpu
    simp [cpu]
  | accelerationSpeedLongitudinal =>
    rw [channel, if_pos (by rfl)] at long
    simp only [Status.detector] at long
    simp [long]
  | accelerationSpeedLateral =>
    rw [channel, if_pos (by rfl)] at lat
    rw [channel, if_neg (by decide)] at long
    simp only [Status.detector] at long lat
    simp [long, lat]
  | _ => rfl

/-- Buffered and live records of a mail agree exactly when the mail is not of the
lateral channel, or the lateral deviation estimate that the mail leads to happens to
equal the longitudinal one.

Proof: the live calls are the writes of the update with one value replaced. Only on the
lateral channel is that value among them. -/
theorem live_is_buffered_iff (state : LoopState F) (turn : Turn F) (f : F)
    (sampled : turn.mail.sample = some f) (recording : state.status.crashStatus = 2)
    (below : ∀ field : LogField, field.channel = turn.mail.channel →
      state.status.logBefore.count field < statusLogAfterSize) :
    readings (storage state turn) = buffered state turn f ↔
      (turn.mail.channel = .accelerationSpeedLateral →
        lateralDeviation state.status f = state.status.cusLong.estStdDev) := by
  rw [live_readings state turn f sampled recording below, live_calls_before, buffered]
  unfold updateWrites lateralDeviation
  cases turn.mail.channel with
  | accelerationSpeedLateral => simp [eq_comm]
  | _ => simp

end

/-- Right after a crash no quantity has been counted up to the limit, so that every call
of the next mail sends. -/
theorem quiet_below (field : LogField) :
    quietCrash.status.logBefore.count field < statusLogAfterSize := by
  rw [quiet_crash.1.counts]
  apply Nat.zero_lt_succ

/-- A zero on the speed channel, right after a crash, is recorded alike: that channel
has nothing of the lateral detector. -/
theorem quiet_speed_alike :
    readings (storage quietCrash (sampleTurn .vehicleSpeed 0)) =
      buffered quietCrash (sampleTurn .vehicleSpeed 0) 0 := by
  obtain ⟨recording, _⟩ := quiet_crash
  exact (live_is_buffered_iff _ _ 0 rfl recording.recording fun field _ =>
    quiet_below field).mpr (by decide)

/-- A zero on the lateral channel is not: the buffer receives the lateral
estimate 0 and the logger the longitudinal estimate 1. -/
theorem quiet_lateral_differs :
    quietCrash.status.crashStatus = 2 ∧
      (∀ field, quietCrash.status.logBefore.count field = 0) ∧
      readings (storage quietCrash (sampleTurn .accelerationSpeedLateral 0)) ≠
        buffered quietCrash (sampleTurn .accelerationSpeedLateral 0) 0 := by
  obtain ⟨recording, long, lat⟩ := quiet_crash
  refine ⟨recording.recording, recording.counts, ?_⟩
  have longEstimate : (cusum (rest 80) 9).1.estStdDev = 1 := by decide +kernel
  have latEstimate : (rest (0 + 1)).estStdDev = 0 := by decide +kernel
  rw [live_readings _ _ 0 rfl recording.recording fun field _ => quiet_below field,
    live_calls_before, buffered]
  simp [updateWrites, lat, cusum_rest, long, longEstimate, latEstimate]

end EventRecorder.BufferedLive
