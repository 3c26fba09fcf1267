import EventRecorder.SafetyRestart

/-!
# Long use of the accelerator

`safety_da_update` counts the accelerator samples above thirty and would send a
notification once it has counted more than two hundred. A count above twenty
falls by twenty on every sample that sends nothing, so it never gets there: the
notification is sent by no run.
-/

namespace EventRecorder.PedalRuns

open Arithmetic SafetyStatus DriverAssist SafetyRestart Runs

universe u
variable {F : Type u} [Arithmetic F]

/-- A call of `safety_da_update`: the status is as the caller left it, and may be any. -/
structure Call (F : Type u) where
  status : Status F
  mail : Mail F
  f : F

/-- The static variables after a call, which are all that it leaves to the next as far
as the accelerator is concerned. -/
def nextCounters (counters : Counters) (call : Call F) : Counters :=
  (safetyDaUpdate call.status counters call.mail call.f).2.2

/-- An accelerator sample: whether it is above thirty, and the mails sent on it, among
which a report would be. -/
structure PedalSample (F : Type u) where
  above : Bool
  mails : List (Mail F)

/-- What a call tells about the accelerator: a sample if its mail is of that channel,
and otherwise nothing. -/
def pedalSample (counters : Counters) (call : Call F) : List (PedalSample F) :=
  if call.mail.channel = .acceleratorPedalValue then
    [⟨lt (lit 30) call.f, (safetyDaUpdate call.status counters call.mail call.f).1⟩]
  else []

/-- The accelerator samples of a run from process start, with the mails sent on each. -/
def pedalSamples (calls : List (Call F)) : List (PedalSample F) :=
  emitted nextCounters pedalSample Counters.initial calls

/-- Samples that follow each other somewhere in a run, all of them above thirty. -/
def Stretch (samples stretch : List (PedalSample F)) : Prop :=
  stretch <:+: samples ∧ ∀ sample ∈ stretch, sample.above = true

/-- The samples above thirty that come last, back to the first that is not. -/
def lastStretch (samples : List (PedalSample F)) : List (PedalSample F) :=
  (samples.reverse.takeWhile PedalSample.above).reverse

/-- Of 201 samples above thirty that follow each other, the last has the notification
behind it, sent on one of them or earlier in the same stretch; and no stretch has the
notification twice. -/
structure Reported (samples : List (PedalSample F)) : Prop where
  sent : ∀ before stretch after, samples = before ++ stretch ++ after → stretch.length = 201 →
    (∀ sample ∈ stretch, sample.above = true) →
    ∃ sample ∈ lastStretch before ++ stretch, mailAccPedal ∈ sample.mails
  once : ∀ stretch, Stretch samples stretch →
    ¬ [mailAccPedal, mailAccPedal].Sublist (stretch.flatMap PedalSample.mails)

/-- No call brings the count above twenty: from there a sample that sends nothing takes
twenty off again. -/
theorem next_acc_pedal (counters : Counters) (call : Call F) (below : counters.accPedal ≤ 20) :
    (nextCounters counters call).accPedal ≤ 20 := by
  rw [nextCounters]
  by_cases pedal : call.mail.channel = .acceleratorPedalValue
  · obtain ⟨_, _, few, after⟩ := da_pedal call.status counters call.mail call.f pedal below
    rw [after]
    exact few
  by_cases brake : call.mail.channel = .brakeSwitchValue
  · by_cases released : truncate call.f = 0
    · rw [da_released _ _ _ _ brake released]
      split
      · exact below
      · exact below
    · rw [da_pressed _ _ _ _ brake released]
      exact below
  by_cases fed : Fed call.mail
  · rw [da_fed _ _ _ _ fed]
    split
    · exact below
    · exact below
  · rw [da_other _ _ _ _ brake pedal fed]
    exact below

/-- The count after any calls is twenty at most, where the notification asks for more
than two hundred. -/
theorem acc_pedal_le (calls : List (Call F)) :
    (after nextCounters Counters.initial calls).accPedal ≤ 20 :=
  invariant (fun _ counters => counters.accPedal ≤ 20) (Nat.zero_le _)
    (fun _ counters call below => next_acc_pedal counters call below) calls

/-- No accelerator sample sends a mail, in any run. -/
theorem pedal_samples_silent (calls : List (Call F)) :
    ∀ sample ∈ pedalSamples calls, sample.mails = [] := by
  intro sample member
  obtain ⟨before, call, rest, -, emits⟩ := (mem_emitted _ _ _ _ _).mp member
  rw [pedalSample] at emits
  split at emits
  case isTrue pedal =>
    obtain ⟨_, _, _, silent⟩ := da_pedal call.status (after nextCounters Counters.initial before)
      call.mail call.f pedal (acc_pedal_le before)
    rw [List.mem_singleton.mp emits, silent]
  case isFalse => exact absurd emits List.not_mem_nil

omit [Arithmetic F] in
/-- A sample of the last stretch is a sample of the run. -/
theorem mem_last_stretch (samples : List (PedalSample F)) (sample : PedalSample F)
    (member : sample ∈ lastStretch samples) : sample ∈ samples :=
  List.mem_reverse.mp ((List.takeWhile_subset _) (List.mem_reverse.mp member))

/-- A stretch of 201 samples is not reported, since nothing is. The report would be due
on its last sample. -/
theorem unreported_of_long (calls : List (Call F)) (stretch : List (PedalSample F))
    (long : 201 ≤ stretch.length) (follows : Stretch (pedalSamples calls) stretch) :
    ¬ Reported (pedalSamples calls) := by
  intro reported
  obtain ⟨⟨before, behind, split⟩, above⟩ := follows
  have cut : pedalSamples calls = before ++ stretch.take 201 ++ (stretch.drop 201 ++ behind) := by
    rw [← split]
    simp only [List.append_assoc]
    rw [← List.append_assoc (stretch.take 201), List.take_append_drop]
  obtain ⟨sample, member, sent⟩ := reported.sent before (stretch.take 201) _ cut
    (by rw [List.length_take, Nat.min_eq_left long])
    fun sample member => above sample (List.mem_of_mem_take member)
  have handled : sample ∈ pedalSamples calls := by
    rw [cut]
    apply List.mem_append_left
    rcases List.mem_append.mp member with earlier | inside
    · exact List.mem_append_left _ (mem_last_stretch before sample earlier)
    · exact List.mem_append_right _ inside
  rw [pedal_samples_silent calls sample handled] at sent
  exact absurd sent List.not_mem_nil

/-- In every run of driver assistance from process start, long use of the accelerator is
reported exactly when there is none: no 201 samples above thirty follow each other.

Proof: the count never exceeds twenty, so that nothing is ever sent. A run without such
a stretch has then nothing to report, and one with it lacks its report. -/
theorem reported_iff (calls : List (Call F)) :
    Reported (pedalSamples calls) ↔
      ∀ stretch, Stretch (pedalSamples calls) stretch → stretch.length < 201 := by
  constructor
  · intro reported stretch follows
    by_contra long
    exact unreported_of_long calls stretch (Nat.le_of_not_lt long) follows reported
  · intro short
    constructor
    case sent =>
      intro before stretch behind split length above
      have less := short stretch ⟨⟨before, behind, split.symm⟩, above⟩
      omega
    case once =>
      rintro stretch ⟨part, -⟩ twice
      have none : stretch.flatMap PedalSample.mails = [] := by
        rw [List.flatMap_eq_nil_iff]
        intro sample member
        exact pedal_samples_silent calls sample (part.subset member)
      rw [none] at twice
      cases twice

/-- A rational accelerator sample of 31, just above the threshold. -/
def hardSample : Call ℚ where
  status := (safetyStatusInit (fun _ => true) none).2
  mail := ⟨1, mtSafety, .float 31, [Char.ofNat CanData.acceleratorPedalValue.code]⟩
  f := 31

/-- 201 samples of 31 are not reported, although that is the shortest stretch that
should be. -/
theorem hard_samples_unreported :
    ¬ Reported (pedalSamples (List.replicate 201 hardSample)) := by
  have above : (pedalSamples (List.replicate 201 hardSample)).map PedalSample.above =
      List.replicate 201 true := by decide +kernel
  apply unreported_of_long _ _ _ ⟨List.infix_rfl, _⟩
  · have length := congrArg List.length above
    rw [List.length_map, List.length_replicate] at length
    exact length.ge
  · intro sample member
    have marked := List.mem_map_of_mem (f := PedalSample.above) member
    rw [above] at marked
    exact List.eq_of_mem_replicate marked

end EventRecorder.PedalRuns
