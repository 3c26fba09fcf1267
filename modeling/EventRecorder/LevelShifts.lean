import EventRecorder.CumulativeSums
import EventRecorder.SteadySamples
import Mathlib.Algebra.BigOperators.Intervals

/-!
# What a reported shift says about the samples

The distance of a sample to the moving mean that takes it in is a fixed share of the
step the mean makes, so the cumulative sums telescope. The upper one is the greatest
rise of the moving mean since an earlier sample, in units of the share and less the
deviations estimated on the way; the lower one is the least, with the deviations
added. A report is a statement about these alone.
-/

namespace EventRecorder.LevelShifts

open Arithmetic Detector ExactArithmetic ExactDetector DetectorSymmetry Runs CumulativeSums
open SteadySamples

universe u
variable {K : Type u} [Field K] [LinearOrder K] [FloorRing K] (root : K → K)

/-- The moving mean after the first samples, so many of them. At zero it is that of the
initial detector. -/
def movingMean (samples : List K) (count : Nat) : K :=
  (exactAfter root (samples.take count)).mean

/-- The deviation estimated by the call that takes in the last of the first samples. -/
def deviation (samples : List K) (count : Nat) : K :=
  (exactAfter root (samples.take count)).estStdDev

/-- The rise of the moving mean since the first samples, in units of the share, less the
deviations estimated behind them. -/
def risen (samples : List K) (count : Nat) : K :=
  7 / 3 * (movingMean root samples samples.length - movingMean root samples count) -
    ∑ later ∈ Finset.Ioc count samples.length, deviation root samples later

/-- The same with the deviations added, so that a fall shows as a negative number. -/
def fallen (samples : List K) (count : Nat) : K :=
  7 / 3 * (movingMean root samples samples.length - movingMean root samples count) +
    ∑ later ∈ Finset.Ioc count samples.length, deviation root samples later

/-- What a sample adds to the upper sum before this is clipped: its distance to the new
mean, less the new deviation. -/
def upward (cus : Cusum K) (x : K) : K :=
  x - (exactCusum root cus x).1.mean - (exactCusum root cus x).1.estStdDev

/-- What it adds to the lower sum: the distance and the deviation. -/
def downward (cus : Cusum K) (x : K) : K :=
  x - (exactCusum root cus x).1.mean + (exactCusum root cus x).1.estStdDev

/-- What the samples add to the upper sum, one after the other, each from the detector
that the samples before it have left. -/
def upwards (samples : List K) : List K :=
  emitted (fun cus x => (exactCusum root cus x).1) (fun cus x => [upward root cus x])
    (exactInit root) samples

/-- What they add to the lower one, in the same way. -/
def downwards (samples : List K) : List K :=
  emitted (fun cus x => (exactCusum root cus x).1) (fun cus x => [downward root cus x])
    (exactInit root) samples

/-! ## One sample more -/

/-- One more sample adds once more, from the detector after the others. -/
@[simp] theorem upwards_snoc (samples : List K) (x : K) :
    upwards root (samples ++ [x]) =
      upwards root samples ++ [upward root (exactAfter root samples) x] := by
  simp [upwards, exactAfter]

/-- The same of the lower sum. -/
@[simp] theorem downwards_snoc (samples : List K) (x : K) :
    downwards root (samples ++ [x]) =
      downwards root samples ++ [downward root (exactAfter root samples) x] := by
  simp [downwards, exactAfter]

/-- Each sample adds once to either sum, so that positions among the samples are
positions among what they add. -/
theorem upwards_length (samples : List K) :
    (upwards root samples).length = samples.length ∧
      (downwards root samples).length = samples.length := by
  induction samples using List.reverseRecOn with
  | nil => exact ⟨rfl, rfl⟩
  | append_singleton samples x inductionHypothesis =>
    obtain ⟨up, down⟩ := inductionHypothesis
    exact ⟨by simp [up], by simp [down]⟩

/-- The sums that the detector keeps are cumulative sums of these, clipped at zero from
one side. By induction from the last sample. -/
theorem sums_cumulative (samples : List K) :
    (exactAfter root samples).shPrev = climb (upwards root samples) ∧
      (exactAfter root samples).slPrev = descend (downwards root samples) := by
  induction samples using List.reverseRecOn with
  | nil => exact ⟨init_sh root, init_sl root⟩
  | append_singleton samples x inductionHypothesis =>
    obtain ⟨up, down⟩ := inductionHypothesis
    obtain ⟨slack, _, _⟩ := exact_after_constants root samples
    rw [exact_after_snoc]
    constructor
    · rw [sh_next, slack, up]
      simp [climb, upward, add_sub_assoc]
    · rw [sl_next, slack, down]
      simp [descend, downward, add_assoc]

/-- The mean and the deviation after the first samples do not depend on what comes
behind them. -/
theorem moving_mean_snoc (samples : List K) (x : K) (count : Nat)
    (inside : count ≤ samples.length) :
    movingMean root (samples ++ [x]) count = movingMean root samples count ∧
      deviation root (samples ++ [x]) count = deviation root samples count := by
  rw [movingMean, movingMean, deviation, deviation, List.take_append_of_le_length inside]
  exact ⟨rfl, rfl⟩

/-- With all of them there is one more step of the mean, which is that of the last call. -/
theorem moving_mean_last (samples : List K) (x : K) :
    movingMean root (samples ++ [x]) (samples ++ [x]).length =
        (exactCusum root (exactAfter root samples) x).1.mean ∧
      deviation root (samples ++ [x]) (samples ++ [x]).length =
        (exactCusum root (exactAfter root samples) x).1.estStdDev := by
  rw [movingMean, deviation, List.take_length, exact_after_snoc]
  exact ⟨rfl, rfl⟩

/-- The distance of a later sample to the new mean is 7/3 of the step of the mean: what
the mean leaves of the distance is seven tenths, and what it takes is three. -/
theorem distance_eq (cus : Cusum K) (x : K) (later : cus.meanI ≠ 0) :
    x - (exactCusum root cus x).1.mean = 7 / 3 * ((exactCusum root cus x).1.mean - cus.mean) := by
  rw [mean_next, if_neg later]
  ring

/-- The first sample adds nothing: it is its own mean, and a single sample has no
deviation. -/
theorem first_upward (x : K) :
    upward root (exactInit root) x = 0 ∧ downward root (exactInit root) x = 0 := by
  simp [upward, downward, mean_next, est_std_dev_next]

/-- From one sample on, the rise since the first samples grows by what a sample adds,
since the distance it adds is a step of the mean. -/
theorem risen_snoc (samples : List K) (x : K) (count : Nat) (some : 1 ≤ count)
    (inside : count ≤ samples.length) :
    risen root (samples ++ [x]) count =
        risen root samples count + upward root (exactAfter root samples) x ∧
      fallen root (samples ++ [x]) count =
        fallen root samples count + downward root (exactAfter root samples) x := by
  obtain ⟨_, _, counted⟩ := exact_after_constants root samples
  obtain ⟨lastMean, lastDeviation⟩ := moving_mean_last root samples x
  have distance := distance_eq root (exactAfter root samples) x (by omega)
  have before : movingMean root samples samples.length = (exactAfter root samples).mean := by
    rw [movingMean, List.take_length]
  have sum : ∑ later ∈ Finset.Ioc count (samples ++ [x]).length,
        deviation root (samples ++ [x]) later =
      ∑ later ∈ Finset.Ioc count samples.length, deviation root samples later +
        (exactCusum root (exactAfter root samples) x).1.estStdDev := by
    rw [← lastDeviation, List.length_append, List.length_singleton,
      Finset.sum_Ioc_succ_top inside]
    congr 1
    apply Finset.sum_congr rfl
    intro later member
    exact (moving_mean_snoc root samples x later (Finset.mem_Ioc.mp member).2).2
  obtain ⟨same, _⟩ := moving_mean_snoc root samples x count inside
  constructor
  · rw [risen, risen, sum, lastMean, same, before, upward, distance]
    ring
  · rw [fallen, fallen, sum, lastMean, same, before, downward, distance]
    ring

/-- The sums over the last samples are rises of the mean: the steps telescope. By
induction from the last sample. -/
theorem tails_risen (samples : List K) (count : Nat) (some : 1 ≤ count)
    (inside : count ≤ samples.length) :
    ((upwards root samples).drop count).sum = risen root samples count ∧
      ((downwards root samples).drop count).sum = fallen root samples count := by
  induction samples using List.reverseRecOn with
  | nil => simp at inside; omega
  | append_singleton samples x inductionHypothesis =>
    obtain ⟨upLength, downLength⟩ := upwards_length root samples
    rcases Nat.lt_or_ge samples.length count with last | earlier
    · have all : count = (samples ++ [x]).length := by
        simp only [List.length_append, List.length_singleton] at inside ⊢
        omega
      rw [List.drop_eq_nil_of_le (by simp [upLength, all]),
        List.drop_eq_nil_of_le (by simp [downLength, all]), risen, fallen, all]
      simp
    · obtain ⟨up, down⟩ := inductionHypothesis earlier
      obtain ⟨more, less⟩ := risen_snoc root samples x count some earlier
      rw [upwards_snoc, downwards_snoc, List.drop_append_of_le_length (by omega),
        List.drop_append_of_le_length (by omega), List.sum_append, List.sum_append,
        List.sum_singleton, List.sum_singleton, up, down, more, less]
      exact ⟨rfl, rfl⟩

/-- The sums over the last of some samples are the rises since one sample or more. The
sum over all of them is that behind the first, which adds nothing. -/
theorem tails_eq (first : K) (rest : List K) :
    Tails (upwards root (first :: rest)) =
        {total | ∃ count, 1 ≤ count ∧ count ≤ (first :: rest).length ∧
          total = risen root (first :: rest) count} ∧
      Tails (downwards root (first :: rest)) =
        {total | ∃ count, 1 ≤ count ∧ count ≤ (first :: rest).length ∧
          total = fallen root (first :: rest) count} := by
  obtain ⟨upLength, downLength⟩ := upwards_length root (first :: rest)
  obtain ⟨upZero, downZero⟩ := first_upward root first
  have one : 1 ≤ (first :: rest).length := by simp
  -- The first of all sums is the second one: the first sample adds nothing.
  have upFirst : (upwards root (first :: rest)).sum =
      ((upwards root (first :: rest)).drop 1).sum := by
    rw [upwards, emitted_cons, upZero]
    simp
  have downFirst : (downwards root (first :: rest)).sum =
      ((downwards root (first :: rest)).drop 1).sum := by
    rw [downwards, emitted_cons, downZero]
    simp
  constructor
  · ext total
    constructor
    · rintro ⟨position, bound, rfl⟩
      rw [upLength] at bound
      rcases Nat.eq_zero_or_pos position with rfl | some
      · exact ⟨1, le_rfl, one, by
          rw [List.drop_zero, upFirst, (tails_risen root _ 1 le_rfl one).1]⟩
      · exact ⟨position, some, bound, (tails_risen root _ position some bound).1⟩
    · rintro ⟨count, some, bound, rfl⟩
      exact ⟨count, by rw [upLength]; exact bound, (tails_risen root _ count some bound).1.symm⟩
  · ext total
    constructor
    · rintro ⟨position, bound, rfl⟩
      rw [downLength] at bound
      rcases Nat.eq_zero_or_pos position with rfl | some
      · exact ⟨1, le_rfl, one, by
          rw [List.drop_zero, downFirst, (tails_risen root _ 1 le_rfl one).2]⟩
      · exact ⟨position, some, bound, (tails_risen root _ position some bound).2⟩
    · rintro ⟨count, some, bound, rfl⟩
      exact ⟨count, by rw [downLength]; exact bound, (tails_risen root _ count some bound).2.symm⟩

/-- A call decides on the sums after its sample, with a limit of five of the deviations
it estimates. -/
theorem report_decided (samples : List K) (x : K) :
    (exactCusum root (exactAfter root samples) x).2 =
      @decideShift K (exactArithmetic root) (exactAfter root (samples ++ [x])).shPrev
        (exactAfter root (samples ++ [x])).slPrev
        (5 * deviation root (samples ++ [x]) (samples ++ [x]).length) := by
  obtain ⟨_, height, _⟩ := exact_after_constants root samples
  obtain ⟨_, last⟩ := moving_mean_last root samples x
  rw [exact_after_snoc, last, decision_eq, height]

/-- After 99 zeros a one is reported: the mean of the samples is a hundredth and the
deviation a tenth. -/
theorem hundredth_reported :
    (exactCusum Real.sqrt (exactAfter Real.sqrt (List.replicate 99 0)) 1).2 = 1 := by
  have deviation : √((99 + 1 : Nat) : ℝ) = 10 := by
    rw [Real.sqrt_eq_iff_mul_self_eq (by positivity) (by norm_num)]
    norm_num
  have sums := step_members 0 1 99 (by norm_num)
  have step := decide_up 1 (1 / 10) one_pos (by norm_num)
  obtain ⟨estStdDev, sh, sl⟩ := sums
  obtain ⟨_, height, _⟩ := exact_after_constants Real.sqrt (List.replicate 99 (0 : ℝ))
  rw [zero_add, deviation, abs_one] at estStdDev
  rw [zero_add] at sh sl
  rw [decision_eq, sh, sl, height, estStdDev]
  rw [one_mul, if_pos (by norm_num)] at step
  exact step

variable [IsStrictOrderedRing K]

/-- The sums of a detector that has seen samples are the greatest and the least of the
rises, as clipped sums are over their tails. -/
theorem sums_bounded (first : K) (rest : List K) :
    IsGreatest {total | ∃ count, 1 ≤ count ∧ count ≤ (first :: rest).length ∧
        total = risen root (first :: rest) count} (exactAfter root (first :: rest)).shPrev ∧
      IsLeast {total | ∃ count, 1 ≤ count ∧ count ≤ (first :: rest).length ∧
        total = fallen root (first :: rest) count} (exactAfter root (first :: rest)).slPrev := by
  obtain ⟨up, down⟩ := tails_eq root first rest
  obtain ⟨sh, sl⟩ := sums_cumulative root (first :: rest)
  rw [sh, sl, ← up, ← down]
  exact ⟨climb_greatest _, descend_least _⟩

/-- The sums after any samples, at least one: the greatest rise of the moving mean since
a sample, less the deviations, and the least, with them.

Proof: the clipped recursions are the greatest and the least over the last increments,
an increment is a step of the moving mean up to the deviation, and so the sums over the
last increments telescope. -/
theorem sums_exact (first : K) (rest : List K) :
    let samples := first :: rest
    IsGreatest {total | ∃ count, 1 ≤ count ∧ count ≤ samples.length ∧
        total = risen root samples count} (exactAfter root samples).shPrev ∧
      IsLeast {total | ∃ count, 1 ≤ count ∧ count ≤ samples.length ∧
        total = fallen root samples count} (exactAfter root samples).slPrev :=
  sums_bounded root first rest

/-- After two zeros and a one, the upper sum is the rise since the zeros, and the lower
sum is the rise since the one, which is none. -/
theorem third_sums :
    IsGreatest {total | ∃ count, 1 ≤ count ∧ count ≤ [0, 0, (1 : ℚ)].length ∧
        total = risen sixDigitSqrt [0, 0, 1] count} (12265 / 100000) ∧
      IsLeast {total | ∃ count, 1 ≤ count ∧ count ≤ [0, 0, (1 : ℚ)].length ∧
        total = fallen sixDigitSqrt [0, 0, 1] count} 0 := by
  have upper : (exactAfter sixDigitSqrt [0, 0, 1]).shPrev = 12265 / 100000 := by decide +kernel
  have lower : (exactAfter sixDigitSqrt [0, 0, 1]).slPrev = 0 := by decide +kernel
  have sums := sums_exact sixDigitSqrt 0 [0, (1 : ℚ)]
  simp only [upper, lower] at sums
  exact sums

/-- One of the sums is not small: there is a rise or a fall by as much. A call that
finds both small reports nothing. -/
def Loud (eps : K) (samples : List K) : Prop :=
  ∃ count, 1 ≤ count ∧ count ≤ samples.length ∧
    (eps ≤ risen root samples count ∨ fallen root samples count ≤ -eps)

omit [Field K] [LinearOrder K] [FloorRing K] [IsStrictOrderedRing K] in
/-- The branches of the decision, each by the condition under which it is taken. -/
theorem decision_cases (quiet above below : Prop) [Decidable quiet] [Decidable above]
    [Decidable below] :
    let code : Int := if quiet then 0 else if above then 1 else if below then -1 else 0
    (code = 1 ↔ ¬ quiet ∧ above) ∧ (code = -1 ↔ ¬ quiet ∧ ¬ above ∧ below) := by
  by_cases quiet
  · simp [*]
  · by_cases above
    · simp [*]
    · by_cases below <;> simp [*]

/-- The decision on the sums of a detector that has seen samples. That the greatest rise
exceeds a limit says that some rise does, and that it does not says that none does. -/
theorem decision_of_sums (first : K) (rest : List K) (limit : K) :
    let samples := first :: rest
    let report := @decideShift K (exactArithmetic root) (exactAfter root samples).shPrev
      (exactAfter root samples).slPrev limit
    (report = 1 ↔ Loud root (1 / 10) samples ∧
      ∃ count, 1 ≤ count ∧ count ≤ samples.length ∧ limit < risen root samples count) ∧
    (report = -1 ↔ Loud root (1 / 10) samples ∧
      (∀ count, 1 ≤ count → count ≤ samples.length → risen root samples count ≤ limit) ∧
      ∃ count, 1 ≤ count ∧ count ≤ samples.length ∧ fallen root samples count < -limit) := by
  intro samples report
  obtain ⟨greatest, least⟩ := sums_bounded root first rest
  have above : limit < (exactAfter root samples).shPrev ↔
      ∃ count, 1 ≤ count ∧ count ≤ samples.length ∧ limit < risen root samples count := by
    rw [lt_isLUB_iff greatest.isLUB]
    constructor
    · rintro ⟨_, ⟨count, some, inside, rfl⟩, more⟩
      exact ⟨count, some, inside, more⟩
    · rintro ⟨count, some, inside, more⟩
      exact ⟨_, ⟨count, some, inside, rfl⟩, more⟩
  have below : (exactAfter root samples).slPrev < -limit ↔
      ∃ count, 1 ≤ count ∧ count ≤ samples.length ∧ fallen root samples count < -limit := by
    rw [isGLB_lt_iff least.isGLB]
    constructor
    · rintro ⟨_, ⟨count, some, inside, rfl⟩, less⟩
      exact ⟨count, some, inside, less⟩
    · rintro ⟨count, some, inside, less⟩
      exact ⟨_, ⟨count, some, inside, rfl⟩, less⟩
  have loud : ¬ ((exactAfter root samples).shPrev < 1 / 10 ∧
      -(1 / 10) < (exactAfter root samples).slPrev) ↔ Loud root (1 / 10) samples := by
    constructor
    · intro busy
      by_contra quiet
      have small (count : Nat) (some : 1 ≤ count) (inside : count ≤ samples.length) :
          risen root samples count < 1 / 10 ∧ -(1 / 10) < fallen root samples count := by
        by_contra large
        rw [not_and_or, not_lt, not_lt] at large
        exact quiet ⟨count, some, inside, large⟩
      apply busy
      obtain ⟨upCount, upSome, upInside, up⟩ := greatest.1
      obtain ⟨downCount, downSome, downInside, down⟩ := least.1
      rw [up, down]
      exact ⟨(small upCount upSome upInside).1, (small downCount downSome downInside).2⟩
    · rintro ⟨count, some, inside, rise | fall⟩ quiet
      · exact quiet.1.not_ge (rise.trans (greatest.2 ⟨count, some, inside, rfl⟩))
      · exact quiet.2.not_ge ((least.2 ⟨count, some, inside, rfl⟩).trans fall)
  have noMore : ¬ limit < (exactAfter root samples).shPrev ↔
      ∀ count, 1 ≤ count → count ≤ samples.length → risen root samples count ≤ limit := by
    rw [above]
    constructor
    · intro none count some inside
      exact not_lt.mp fun more => none ⟨count, some, inside, more⟩
    · rintro all ⟨count, some, inside, more⟩
      exact (all count some inside).not_gt more
  have code : report = if (exactAfter root samples).shPrev < 1 / 10 ∧
      -(1 / 10) < (exactAfter root samples).slPrev then 0
      else if limit < (exactAfter root samples).shPrev then 1
      else if (exactAfter root samples).slPrev < -limit then -1
      else 0 := decide_shift_exact root _ _ _
  rw [← loud, ← above, ← below, ← noMore, code]
  exact decision_cases _ _ _

/-- What a call reports after any samples: an upward shift if and only if one of the
sums is not small and the mean has risen by more than five deviations since a sample; a
downward one if it has not and has fallen by more.

Proof: a call decides on the sums after its sample, and these are extremes of rises;
each branch of the decision then speaks of some rise or of all. -/
theorem report_iff (samples : List K) (x : K) :
    let all := samples ++ [x]
    let report := (exactCusum root (exactAfter root samples) x).2
    let limit := 5 * deviation root all all.length
    (report = 1 ↔ Loud root (1 / 10) all ∧
      ∃ count, 1 ≤ count ∧ count ≤ all.length ∧ limit < risen root all count) ∧
    (report = -1 ↔ Loud root (1 / 10) all ∧
      (∀ count, 1 ≤ count → count ≤ all.length → risen root all count ≤ limit) ∧
      ∃ count, 1 ≤ count ∧ count ≤ all.length ∧ fallen root all count < -limit) := by
  intro all report limit
  obtain ⟨first, rest, split⟩ := List.exists_cons_of_ne_nil
    (List.append_ne_nil_of_right_ne_nil samples (List.cons_ne_nil x []))
  have decided := decision_of_sums root first rest limit
  simp only [← split] at decided
  have code := report_decided root samples x
  simp only [report, code]
  exact decided

/-- A one after 99 zeros is such a rise, read off from its report. -/
theorem hundredth_loud :
    let all : List ℝ := List.replicate 99 0 ++ [1]
    Loud Real.sqrt (1 / 10) all ∧ ∃ count, 1 ≤ count ∧ count ≤ all.length ∧
      5 * deviation Real.sqrt all all.length < risen Real.sqrt all count :=
  (report_iff Real.sqrt (List.replicate 99 0) 1).1.mp hundredth_reported

/-- No deviation is negative: it is zero or a root. -/
theorem deviation_nonneg (samples : List ℝ) (count : Nat) :
    0 ≤ deviation Real.sqrt samples count := by
  rw [deviation]
  obtain empty | ⟨before, x, split⟩ := List.eq_nil_or_concat (samples.take count)
  · rw [empty]
    simp [exactAfter, exactInit, safetyStatusCusum]
  · rw [split, List.concat_eq_append, exact_after_snoc, est_std_dev_next]
    split_ifs
    · exact le_rfl
    · exact Real.sqrt_nonneg _

/-- An upward shift is reported only when the moving mean is more than 18/7 of the
deviation above what it was after an earlier sample.

Proof: some rise exceeds five deviations. The deviations it subtracts are not negative
and have this call's own among them, so that 7/3 of the rise of the mean alone exceeds
six. -/
theorem report_needs_rise (samples : List ℝ) (x : ℝ) :
    let all := samples ++ [x]
    (exactCusum Real.sqrt (exactAfter Real.sqrt samples) x).2 = 1 →
      ∃ count, 1 ≤ count ∧ count < all.length ∧
        18 / 7 * deviation Real.sqrt all all.length <
          movingMean Real.sqrt all all.length - movingMean Real.sqrt all count := by
  intro all reported
  obtain ⟨first, rest, split⟩ := List.exists_cons_of_ne_nil
    (List.append_ne_nil_of_right_ne_nil samples (List.cons_ne_nil x []))
  have decided := (decision_of_sums Real.sqrt first rest
    (5 * deviation Real.sqrt all all.length)).1
  simp only [← split] at decided
  rw [report_decided Real.sqrt samples x] at reported
  obtain ⟨_, count, some, inside, more⟩ := decided.mp reported
  have last := deviation_nonneg all all.length
  have earlier : count < all.length := by
    rcases inside.lt_or_eq with earlier | same
    · exact earlier
    · rw [same, risen, Finset.Ioc_self, Finset.sum_empty] at more
      linarith
  refine ⟨count, some, earlier, ?_⟩
  have member : all.length ∈ Finset.Ioc count all.length := Finset.mem_Ioc.mpr ⟨earlier, le_rfl⟩
  have single := Finset.single_le_sum (fun later _ => deviation_nonneg all later) member
  have rise : risen Real.sqrt all count =
      7 / 3 * (movingMean Real.sqrt all all.length - movingMean Real.sqrt all count) -
        ∑ later ∈ Finset.Ioc count all.length, deviation Real.sqrt all later := rfl
  rw [rise] at more
  linarith

/-- After 99 zeros a one is reported, and so the mean has risen by so much since one of
them. -/
theorem hundredth_rise :
    (exactCusum Real.sqrt (exactAfter Real.sqrt (List.replicate 99 0)) 1).2 = 1 ∧
      ∃ count, 1 ≤ count ∧ count < (List.replicate 99 (0 : ℝ) ++ [1]).length ∧
        18 / 7 * deviation Real.sqrt (List.replicate 99 0 ++ [1])
            (List.replicate 99 (0 : ℝ) ++ [1]).length <
          movingMean Real.sqrt (List.replicate 99 0 ++ [1])
              (List.replicate 99 (0 : ℝ) ++ [1]).length -
            movingMean Real.sqrt (List.replicate 99 0 ++ [1]) count := by
  exact ⟨hundredth_reported, report_needs_rise _ _ hundredth_reported⟩

end EventRecorder.LevelShifts
