import EventRecorder.DetectorSymmetry
import Mathlib.Analysis.Real.Sqrt

/-!
# A step after steady samples

While all samples are the same the detector is at rest. The first sample that differs
is reported by its sign if and only if enough samples came before it and it differs by
enough: the deviation it brings with it shrinks with the root of the number of samples,
and only from 74 samples on does a step, however large, exceed five of them.
-/

namespace EventRecorder.SteadySamples

open Arithmetic Detector ExactArithmetic ExactDetector DetectorSymmetry Runs

section

universe u
variable {K : Type u} [Field K] [LinearOrder K] [FloorRing K] (root : K → K)

/-- A call takes its sample into the run, behind the others. -/
theorem exact_after_snoc (samples : List K) (x : K) :
    exactAfter root (samples ++ [x]) = (exactCusum root (exactAfter root samples) x).1 := by
  simp [exactAfter]

/-- The members that no call changes, which are the slack and the limit, and the number
of samples. -/
theorem exact_after_constants (samples : List K) :
    (exactAfter root samples).shiftDetect = 1 ∧ (exactAfter root samples).h = 5 ∧
      (exactAfter root samples).meanI = samples.length := by
  induction samples using List.reverseRecOn with
  | nil => exact ⟨by simp [exactAfter, exactInit, safetyStatusCusum], by simp [exactAfter], rfl⟩
  | append_singleton samples x inductionHypothesis =>
    obtain ⟨slack, height, count⟩ := inductionHypothesis
    rw [exact_after_snoc]
    exact ⟨slack, height, by rw [mean_i_next, count, List.length_append, List.length_singleton]⟩

/-- A detector that has seen one value only: its sums and squares are zero, and both
means are the value as soon as there is a sample. -/
structure Steady (value : K) (cus : Cusum K) : Prop where
  sh : cus.shPrev = 0
  sl : cus.slPrev = 0
  squares : cus.q = 0
  moving : cus.meanI ≠ 0 → cus.mean = value
  running : cus.meanI ≠ 0 → cus.a = value

/-- So it is before any sample, for whatever value. -/
theorem steady_init (value : K) : Steady value (exactInit root) where
  sh := init_sh root
  sl := init_sl root
  squares := init_q root
  moving some := absurd (init_mean_i root) some
  running some := absurd (init_mean_i root) some

/-- The means of a call on the value are the value, and no deviation from it is added. -/
theorem steady_means (value : K) (cus : Cusum K) (steady : Steady value cus) :
    (exactCusum root cus value).1.mean = value ∧ (exactCusum root cus value).1.a = value ∧
      (exactCusum root cus value).1.q = 0 := by
  have mean : (exactCusum root cus value).1.mean = value := by
    rw [mean_next]
    split_ifs with fresh
    · rfl
    · rw [steady.moving fresh]
      ring
  have running : (exactCusum root cus value).1.a = value := by
    rw [a_next]
    by_cases fresh : cus.meanI = 0
    · simp [fresh]
    · rw [steady.running fresh]
      simp
  exact ⟨mean, running, by rw [q_next, running, steady.squares]; simp⟩

/-- The same value again changes nothing, if zero is its own root, and reports nothing:
it has no distance to the mean. -/
theorem steady_next (zero : root 0 = 0) (value : K) (cus : Cusum K)
    (steady : Steady value cus) :
    Steady value (exactCusum root cus value).1 ∧ (exactCusum root cus value).1.estStdDev = 0 := by
  obtain ⟨mean, running, squares⟩ := steady_means root value cus steady
  have deviation : (exactCusum root cus value).1.estStdDev = 0 := by
    rw [est_std_dev_next, squares, zero_div, zero, ite_self]
  refine ⟨⟨?_, ?_, squares, fun _ => mean, fun _ => running⟩, deviation⟩
  · rw [sh_next, mean, deviation, steady.sh]
    simp
  · rw [sl_next, mean, deviation, steady.sl]
    simp

/-- After any number of samples of one value the detector is steady. By induction on
their number. -/
theorem exact_after_steady (zero : root 0 = 0) (value : K) (count : Nat) :
    Steady value (exactAfter root (List.replicate count value)) := by
  induction count with
  | zero => exact steady_init root value
  | succ count inductionHypothesis =>
    rw [List.replicate_succ', exact_after_snoc]
    exact (steady_next root zero value _ inductionHypothesis).1

variable [IsStrictOrderedRing K]

/-- Another one is not reported, since both sums stay at zero and so within the
small-value test. -/
theorem steady_unreported (zero : root 0 = 0) (value : K) (count : Nat) :
    (exactCusum root (exactAfter root (List.replicate count value)) value).2 = 0 := by
  obtain ⟨steady, _⟩ := steady_next root zero value _ (exact_after_steady root zero value count)
  rw [decision_eq, steady.sh, steady.sl, decide_shift_exact]
  norm_num

end

/-! ## The step -/

/-- The members after a step that follows steady samples: the moving mean takes three
tenths of it, and the deviation is the step over the root of the number of samples. -/
theorem step_members (value step : ℝ) (count : Nat) (some : 1 ≤ count) :
    let cus := (exactCusum Real.sqrt (exactAfter Real.sqrt (List.replicate count value))
      (value + step)).1
    cus.estStdDev = |step| / √(count + 1 : Nat) ∧
      cus.shPrev = max 0 (7 / 10 * step - cus.estStdDev) ∧
      cus.slPrev = min 0 (7 / 10 * step + cus.estStdDev) := by
  intro cus
  have steady := exact_after_steady Real.sqrt Real.sqrt_zero value count
  obtain ⟨slack, _, counted⟩ := exact_after_constants Real.sqrt (List.replicate count value)
  rw [List.length_replicate] at counted
  have seen : (exactAfter Real.sqrt (List.replicate count value)).meanI ≠ 0 := by omega
  have positive : (0 : ℝ) < count := by exact_mod_cast some
  have mean : cus.mean = value + 3 / 10 * step := by
    simp only [cus, mean_next, if_neg seen, steady.moving seen]
    ring
  have running : cus.a = value + step / (count + 1 : Nat) := by
    simp only [cus, a_next, steady.running seen, counted]
    ring
  have squares : cus.q / count = step ^ 2 / (count + 1 : Nat) := by
    have total : cus.q = step * (step - step / (count + 1 : Nat)) := by
      simp only [cus, q_next, steady.squares, steady.running seen]
      simp only [cus] at running
      rw [running]
      ring
    rw [total]
    push_cast
    field_simp
    ring
  have deviation : cus.estStdDev = |step| / √(count + 1 : Nat) := by
    have root : cus.estStdDev = √(cus.q / count) := by
      have later : count ≠ 0 := by omega
      simp only [cus, est_std_dev_next, counted, if_neg later]
    rw [root, squares, Real.sqrt_div (sq_nonneg step), Real.sqrt_sq_eq_abs]
  have distance : value + step - cus.mean = 7 / 10 * step := by
    rw [mean]
    ring
  refine ⟨deviation, ?_, ?_⟩
  · have sh : cus.shPrev = max 0 (0 + (value + step - cus.mean) - 1 * cus.estStdDev) := by
      simp only [cus, sh_next, steady.sh, slack]
    rw [sh, distance, zero_add, one_mul]
  · have sl : cus.slPrev = min 0 (0 + (value + step - cus.mean) + 1 * cus.estStdDev) := by
      simp only [cus, sl_next, steady.sl, slack]
    rw [sl, distance, zero_add, one_mul]

/-- Five deviations and the one of slack are less than what a step leaves if and only if
it is the 74th sample or a later one: (60/7)² lies between 73 and 74. -/
theorem enough_samples (count : Nat) : 6 * (1 / √(count + 1 : Nat)) < 7 / 10 ↔ 73 ≤ count := by
  have positive : (0 : ℝ) < (count + 1 : Nat) := by exact_mod_cast Nat.succ_pos count
  have root := Real.sqrt_pos.mpr positive
  have bound : 6 * (1 / √(count + 1 : Nat)) < 7 / 10 ↔ 60 / 7 < √(count + 1 : Nat) := by
    rw [mul_one_div, div_lt_div_iff₀ root (by norm_num), div_lt_iff₀ (by norm_num)]
    constructor <;> intro less <;> linarith
  rw [bound, Real.lt_sqrt (by norm_num)]
  constructor
  · intro large
    have more : (73 : ℝ) < (count + 1 : Nat) := lt_trans (by norm_num) large
    have whole : 73 < count + 1 := by exact_mod_cast more
    omega
  · intro many
    have more : (74 : ℝ) ≤ (count + 1 : Nat) := by exact_mod_cast Nat.succ_le_succ many
    exact lt_of_lt_of_le (by norm_num) more

/-- The first sample is not reported, however large, since it is its own mean. -/
theorem first_unreported (x : ℝ) : (exactCusum Real.sqrt (exactInit Real.sqrt) x).2 = 0 := by
  rw [decision_eq, decide_shift_exact, sh_next, sl_next, mean_next, est_std_dev_next]
  norm_num

/-- The decision on the sums that an upward step leaves. The lower sum is zero then, and
the small-value test looks at the upper one. -/
theorem decide_up (step share : ℝ) (up : 0 < step) (positive : 0 < share) :
    @decideShift ℝ (exactArithmetic Real.sqrt) (max 0 (7 / 10 * step - step * share))
        (min 0 (7 / 10 * step + step * share)) (5 * (step * share)) =
      if 6 * share < 7 / 10 ∧ 1 / 10 ≤ step * (7 / 10 - share) then 1 else 0 := by
  have product : 0 < step * share := mul_pos up positive
  have lower : min 0 (7 / 10 * step + step * share) = 0 := min_eq_left (by linarith)
  have left : 7 / 10 * step - step * share = step * (7 / 10 - share) := by ring
  rw [decide_shift_exact, lower, left]
  by_cases large : 1 / 10 ≤ step * (7 / 10 - share)
  · have upper : max 0 (step * (7 / 10 - share)) = step * (7 / 10 - share) :=
      max_eq_right (by linarith)
    have exceeds : 5 * (step * share) < step * (7 / 10 - share) ↔ 6 * share < 7 / 10 := by
      constructor
      · intro more
        have scaled : step * (6 * share) < step * (7 / 10) := by linarith
        exact lt_of_mul_lt_mul_left scaled up.le
      · intro enough
        have scaled := mul_lt_mul_of_pos_left enough up
        linarith
    have never : ¬ (0 : ℝ) < -(5 * (step * share)) := by linarith
    rw [upper, if_neg fun quiet => quiet.1.not_ge large, if_neg never]
    simp only [exceeds, large, and_true]
  · have small : max 0 (step * (7 / 10 - share)) < 1 / 10 :=
      max_lt (by norm_num) (not_le.mp large)
    rw [if_pos ⟨small, by norm_num⟩, if_neg fun both => large both.2]

/-- The decision on the sums that a downward step leaves, with the roles of the sums
exchanged. -/
theorem decide_down (step share : ℝ) (down : step ≤ 0) (positive : 0 < share) :
    @decideShift ℝ (exactArithmetic Real.sqrt) (max 0 (7 / 10 * step - -step * share))
        (min 0 (7 / 10 * step + -step * share)) (5 * (-step * share)) =
      if 6 * share < 7 / 10 ∧ 1 / 10 ≤ -step * (7 / 10 - share) then -1 else 0 := by
  rcases down.eq_or_lt with rfl | down
  · rw [decide_shift_exact]
    norm_num
  · have mirrored := decide_up (-step) share (neg_pos.mpr down) positive
    have product : 0 < -step * share := mul_pos (neg_pos.mpr down) positive
    have upper : max 0 (7 / 10 * step - -step * share) = 0 := max_eq_left (by linarith)
    have lower : min 0 (7 / 10 * -step + -step * share) = 0 := min_eq_left (by linarith)
    have negated : min 0 (7 / 10 * step + -step * share) =
        -max 0 (7 / 10 * -step - -step * share) := by
      rw [← min_neg_neg, neg_zero]
      congr 1
      ring
    have clear : ¬ (5 * (-step * share) < max 0 (7 / 10 * -step - -step * share) ∧
        (0 : ℝ) < -(5 * (-step * share)) ∧
        ¬ (max 0 (7 / 10 * -step - -step * share) < 1 / 10 ∧ -(1 / 10) < (0 : ℝ))) := by
      rintro ⟨_, below, _⟩
      linarith
    have opposite := decide_shift_mirrored Real.sqrt _ _ _ clear
    rw [lower] at mirrored
    rw [neg_zero, mirrored] at opposite
    rw [upper, negated, opposite]
    split_ifs <;> rfl

/-- After any number of equal samples, a sample that differs by a step is reported by
its sign if and only if at least 73 samples came before it and what the step leaves in
its sum, `|step| * (7/10 - 1/√(count + 1))`, is a tenth or more.

Proof: after equal samples both sums are zero and the means are the value, so that the
members of the call can be calculated from the step. The limit is then a question of the
number of samples alone, and the small-value test one of the size of the step. -/
theorem step_response (value step : ℝ) (count : Nat) :
    (exactCusum Real.sqrt (exactAfter Real.sqrt (List.replicate count value)) (value + step)).2 =
      if 73 ≤ count ∧ 1 / 10 ≤ |step| * (7 / 10 - 1 / √(count + 1 : Nat)) then
        if 0 < step then 1 else -1
      else 0 := by
  rcases Nat.eq_zero_or_pos count with rfl | some
  · exact first_unreported (value + step)
  obtain ⟨deviation, sh, sl⟩ := step_members value step count some
  obtain ⟨_, height, _⟩ := exact_after_constants Real.sqrt (List.replicate count value)
  have share : 0 < 1 / √(count + 1 : Nat) := by positivity
  simp only [← enough_samples count]
  rw [decision_eq, sh, sl, height, deviation, div_eq_mul_one_div |step|]
  rcases lt_or_ge 0 step with up | down
  · rw [abs_of_pos up, if_pos up]
    exact decide_up step _ up share
  · rw [abs_of_nonpos down, if_neg down.not_gt]
    exact decide_down step _ down share

end EventRecorder.SteadySamples
