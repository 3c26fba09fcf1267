import EventRecorder.ExactDetector
import EventRecorder.Statistics
import Mathlib.Algebra.Order.Archimedean.Real.Basic
import Mathlib.Analysis.Real.Sqrt

/-!
# The detector's statistics

`cusum` keeps a count, a mean and a sum of squared deviations in one pass. In
exact arithmetic they are those of all samples fed so far, and the estimated
deviation is the corrected sample deviation, so no call divides by zero or takes
the root of a negative number.
-/

namespace EventRecorder.RunningStatistics

open Detector ExactArithmetic ExactDetector Runs Statistics

universe u

section OrderedField

variable {K : Type u} [Field K] [LinearOrder K] [FloorRing K] (root : K → K)

/-- The members of a detector describe the samples fed so far: their number, their mean
and the sum of their squared deviations. -/
structure Describes (samples : List K) (cus : Cusum K) : Prop where
  counted : cus.meanI = samples.length
  mean : cus.a = mean samples
  deviations : cus.q = squaredDeviations samples

/-- The initial detector describes no samples, all three being zero. -/
theorem describes_init : Describes [] (exactInit root) where
  counted := rfl
  mean := by simp [Statistics.mean]
  deviations := by simp [squaredDeviations, squaresAbout]

/-- A call takes its sample into the description, as the recurrences of the mean and of
the squared deviations are those that the code computes. -/
theorem describes_next (samples : List K) (cus : Cusum K) (x : K)
    (describes : Describes samples cus) :
    Describes (samples ++ [x]) (exactCusum root cus x).1 := by
  have newMean : (exactCusum root cus x).1.a = Statistics.mean (samples ++ [x]) := by
    rw [a_next, describes.mean, describes.counted, mean_snoc]
  constructor
  case counted => rw [mean_i_next, describes.counted, List.length_append, List.length_singleton]
  case mean => exact newMean
  case deviations =>
    rw [q_next, newMean, describes.mean, describes.deviations, squared_deviations_snoc]

/-- So after every run the members describe all of its samples. -/
theorem exact_after_describes (samples : List K) :
    Describes samples (exactAfter root samples) :=
  invariant Describes (describes_init root) (describes_next root) samples

/-- The estimated deviation after one more sample is the corrected sample deviation of
all of them, or zero for the first. -/
theorem est_std_dev_after (samples : List K) (x : K) :
    (exactAfter root (samples ++ [x])).estStdDev =
      if samples.length = 0 then 0
      else root (squaredDeviations (samples ++ [x]) / samples.length) := by
  have before := exact_after_describes root samples
  have now := exact_after_describes root (samples ++ [x])
  have step : exactAfter root (samples ++ [x]) =
      (exactCusum root (exactAfter root samples) x).1 := by
    simp [exactAfter]
  rw [step] at now ⊢
  rw [est_std_dev_next, before.counted, now.deviations]

/-- A run in checked arithmetic meets no undefined operation: at each call the squared
deviations are those of samples, and not negative. -/
theorem checked_after [IsStrictOrderedRing K] (samples : List K) :
    checkedAfter root samples = defined (exactAfter root samples) := by
  have related := after_alike (fun cus x => (checkedCusum root cus x).1) some
    (fun exact checked => checked = defined exact ∧ 0 ≤ exact.q)
    (by
      rintro exact - x ⟨rfl, nonnegative⟩
      exact ⟨by rw [checked_step root exact x nonnegative],
        nonnegative.trans (q_grows root exact x)⟩)
    (exactInit root) (checkedInit root) ⟨checked_init root, by simp⟩ samples
  exact related.1

end OrderedField

/-- After any samples, at least one, `mean_i` is their number, `a` their mean, `q` the
sum of their squared deviations from it, which is not negative, and `est_std_dev` zero
after the first sample and the root of `q / (n - 1)` after every later one. All of them
are defined: no call has divided by zero or taken the root of a negative number.

Proof: the description of the samples is an invariant of the run, by the one-pass
recurrences; and as long as it holds a checked call has a value in each member. -/
theorem running_statistics (first : ℝ) (rest : List ℝ) :
    let samples := first :: rest
    ∃ cus : Cusum ℝ, checkedAfter Real.sqrt samples = defined cus ∧
      cus.meanI = samples.length ∧ cus.a = mean samples ∧ cus.q = squaredDeviations samples ∧
      0 ≤ cus.q ∧
      cus.estStdDev = if samples.length = 1 then 0 else √(cus.q / (samples.length - 1)) := by
  intro samples
  have describes := exact_after_describes Real.sqrt samples
  refine ⟨exactAfter Real.sqrt samples, checked_after _ _, describes.counted, describes.mean,
    describes.deviations, ?_, ?_⟩
  · rw [describes.deviations]
    exact squared_deviations_nonneg samples
  · rw [describes.deviations]
    obtain empty | ⟨before, last, split⟩ := List.eq_nil_or_concat' samples
    · exact absurd empty (List.cons_ne_nil first rest)
    · rw [split, est_std_dev_after]
      by_cases none : before.length = 0
      · simp [none]
      · simp [none]

end EventRecorder.RunningStatistics
