import EventRecorder.ExactDetector
import Mathlib.Algebra.Order.Archimedean.Real.Basic

/-!
# Shifted and mirrored samples

Two runs of the detector are compared call by call. Adding a constant to every
sample moves both means by it and changes nothing that a call reports. Negating
every sample swaps the two cumulative sums and negates them, and with them the
decision, except where both sums are beyond the limit: the upper one is tested
first, so either run reports an upward shift.
-/

namespace EventRecorder.DetectorSymmetry

open Arithmetic Detector ExactArithmetic ExactDetector Runs

universe u
variable {K : Type u} [Field K] [LinearOrder K] [FloorRing K] (root : K → K)

/-- Both sums are beyond the limit and the small-value test fails. The order in which
the source tests them then decides. -/
def BothBeyond (cus : Cusum K) : Prop :=
  cus.h * cus.estStdDev < cus.shPrev ∧ cus.slPrev < -(cus.h * cus.estStdDev) ∧
    ¬ (cus.shPrev < (1 / 10 : ℚ) ∧ -(1 / 10 : ℚ) < cus.slPrev)

/-- The same with the constants of the test as numbers rather than as converted
rationals, in which form the calculations have them. -/
theorem both_beyond_iff (cus : Cusum K) :
    BothBeyond cus ↔ cus.h * cus.estStdDev < cus.shPrev ∧
      cus.slPrev < -(cus.h * cus.estStdDev) ∧ ¬ (cus.shPrev < 1 / 10 ∧ -(1 / 10) < cus.slPrev) := by
  simp [BothBeyond]

/-- The second call reports what the first does: its sums, its deviation and its
decision. -/
structure SameReport (first second : Cusum K × Int) : Prop where
  sh : second.1.shPrev = first.1.shPrev
  sl : second.1.slPrev = first.1.slPrev
  deviation : second.1.estStdDev = first.1.estStdDev
  code : second.2 = first.2

/-- The second call reports the mirror image of the first. With a tie, where both sums
are beyond the limit, it reports an upward shift as the first does. -/
structure MirroredReport (first second : Cusum K × Int) : Prop where
  sh : second.1.shPrev = -first.1.slPrev
  sl : second.1.slPrev = -first.1.shPrev
  deviation : second.1.estStdDev = first.1.estStdDev
  code : ¬ BothBeyond first.1 → second.2 = -first.2
  tie : BothBeyond first.1 → first.2 = 1 ∧ second.2 = 1

/-- The states of a run and of the run on the samples shifted by a constant. The
means agree up to the constant once there is a sample. -/
structure Offset (c : K) (first second : Cusum K) : Prop where
  sh : second.shPrev = first.shPrev
  sl : second.slPrev = first.slPrev
  count : second.meanI = first.meanI
  slack : second.shiftDetect = first.shiftDetect
  height : second.h = first.h
  squares : second.q = first.q
  moving : first.meanI ≠ 0 → second.mean = first.mean + c
  running : first.meanI ≠ 0 → second.a = first.a + c

/-- The states of a run and of the run on the negated samples: the sums have changed
places and sign, and so have the means, while counts and squares agree. -/
structure Mirrored (first second : Cusum K) : Prop where
  sh : second.shPrev = -first.slPrev
  sl : second.slPrev = -first.shPrev
  count : second.meanI = first.meanI
  slack : second.shiftDetect = first.shiftDetect
  height : second.h = first.h
  squares : second.q = first.q
  moving : second.mean = -first.mean
  running : second.a = -first.a

section Shift

variable {c : K} {first second : Cusum K} (x : K)

/-- The moving mean moves by the constant. Its weights add up to one, and the first
sample is the mean whatever the mean was before it. -/
theorem offset_mean (offset : Offset c first second) :
    (exactCusum root second (x + c)).1.mean = (exactCusum root first x).1.mean + c := by
  rw [mean_next, mean_next, offset.count]
  by_cases fresh : first.meanI = 0
  · simp [fresh]
  · simp only [fresh, if_false, offset.moving fresh]
    ring

/-- So does the running mean. The first sample is the mean whatever the mean was before
it. -/
theorem offset_a (offset : Offset c first second) :
    (exactCusum root second (x + c)).1.a = (exactCusum root first x).1.a + c := by
  rw [a_next, a_next, offset.count]
  by_cases fresh : first.meanI = 0
  · simp [fresh]
  · rw [offset.running fresh]
    ring

/-- The squared deviations are of distances between samples and means, from which the
constant drops out. -/
theorem offset_q (offset : Offset c first second) :
    (exactCusum root second (x + c)).1.q = (exactCusum root first x).1.q := by
  rw [q_next, q_next, offset_a root x offset, offset.squares]
  by_cases fresh : first.meanI = 0
  · have reached : (exactCusum root first x).1.a = x := by simp [a_next, fresh]
    rw [reached]
    ring
  · rw [offset.running fresh]
    ring

/-- With the squares and the count the estimated deviation is the same, whatever the
square root is. -/
theorem offset_deviation (offset : Offset c first second) :
    (exactCusum root second (x + c)).1.estStdDev = (exactCusum root first x).1.estStdDev := by
  rw [est_std_dev_next, est_std_dev_next, offset_q root x offset, offset.count]

/-- The upper sum grows by the distance of the sample to the moving mean, from which the
constant drops out. -/
theorem offset_sh (offset : Offset c first second) :
    (exactCusum root second (x + c)).1.shPrev = (exactCusum root first x).1.shPrev := by
  rw [sh_next, sh_next, offset_mean root x offset,
    offset_deviation root x offset, offset.sh, offset.slack, add_sub_add_right_eq_sub]

/-- The lower sum moves by the same distance, with the deviation added in place of
subtracted. -/
theorem offset_sl (offset : Offset c first second) :
    (exactCusum root second (x + c)).1.slPrev = (exactCusum root first x).1.slPrev := by
  rw [sl_next, sl_next, offset_mean root x offset,
    offset_deviation root x offset, offset.sl, offset.slack, add_sub_add_right_eq_sub]

/-- A call on the shifted sample reports the same, since the decision is taken from the
sums and the deviation alone. -/
theorem offset_report (offset : Offset c first second) :
    SameReport (exactCusum root first x) (exactCusum root second (x + c)) where
  sh := offset_sh root x offset
  sl := offset_sl root x offset
  deviation := offset_deviation root x offset
  code := by
    rw [decision_eq, decision_eq, offset_sh root x offset,
      offset_sl root x offset, offset_deviation root x offset,
      offset.height]

/-- It keeps the states related, so that the relation holds along the whole run. -/
theorem offset_next (offset : Offset c first second) :
    Offset c (exactCusum root first x).1 (exactCusum root second (x + c)).1 where
  sh := offset_sh root x offset
  sl := offset_sl root x offset
  count := by rw [mean_i_next, mean_i_next, offset.count]
  slack := by rw [shift_detect_next, shift_detect_next, offset.slack]
  height := by rw [h_next, h_next, offset.height]
  squares := offset_q root x offset
  moving _ := offset_mean root x offset
  running _ := offset_a root x offset

end Shift

section Mirror

variable {first second : Cusum K} (x : K)

/-- The moving mean of the negated samples is the negated one, as it is linear in them. -/
theorem mirrored_mean (mirrored : Mirrored first second) :
    (exactCusum root second (-x)).1.mean = -(exactCusum root first x).1.mean := by
  rw [mean_next, mean_next, mirrored.count, mirrored.moving]
  split
  · rfl
  · ring

/-- So is the running mean, which moves by a share of the negated distance. -/
theorem mirrored_a (mirrored : Mirrored first second) :
    (exactCusum root second (-x)).1.a = -(exactCusum root first x).1.a := by
  rw [a_next, a_next, mirrored.count, mirrored.running]
  ring

/-- A product of two negated distances is that of the distances. -/
theorem mirrored_q (mirrored : Mirrored first second) :
    (exactCusum root second (-x)).1.q = (exactCusum root first x).1.q := by
  rw [q_next, q_next, mirrored_a root x mirrored, mirrored.squares, mirrored.running]
  ring

/-- The squares and the count agree, so the root of their quotient does. -/
theorem mirrored_deviation (mirrored : Mirrored first second) :
    (exactCusum root second (-x)).1.estStdDev = (exactCusum root first x).1.estStdDev := by
  rw [est_std_dev_next, est_std_dev_next, mirrored_q root x mirrored, mirrored.count]

variable [IsStrictOrderedRing K]

/-- The upper sum of the negated samples is clipped where the lower one of the samples
is, on the other side of zero. -/
theorem mirrored_sh (mirrored : Mirrored first second) :
    (exactCusum root second (-x)).1.shPrev = -(exactCusum root first x).1.slPrev := by
  rw [sh_next, sl_next, mirrored_mean root x mirrored, mirrored_deviation root x mirrored,
    mirrored.sh, mirrored.slack, ← max_neg_neg, neg_zero]
  congr 1
  ring

/-- And the lower sum where the upper one is. -/
theorem mirrored_sl (mirrored : Mirrored first second) :
    (exactCusum root second (-x)).1.slPrev = -(exactCusum root first x).1.shPrev := by
  rw [sh_next, sl_next, mirrored_mean root x mirrored, mirrored_deviation root x mirrored,
    mirrored.sl, mirrored.slack, ← min_neg_neg, neg_zero]
  congr 1
  ring

/-- A call on the negated sample keeps the states related, so that the relation holds
along the whole run. -/
theorem mirrored_next (mirrored : Mirrored first second) :
    Mirrored (exactCusum root first x).1 (exactCusum root second (-x)).1 where
  sh := mirrored_sh root x mirrored
  sl := mirrored_sl root x mirrored
  count := by rw [mean_i_next, mean_i_next, mirrored.count]
  slack := by rw [shift_detect_next, shift_detect_next, mirrored.slack]
  height := by rw [h_next, h_next, mirrored.height]
  squares := mirrored_q root x mirrored
  moving := mirrored_mean root x mirrored
  running := mirrored_a root x mirrored

/-- The decision on exact values, with the tests of the source in their order: first
that both sums are small, then the upper limit, then the lower one. -/
theorem decide_shift_exact (sh sl limit : K) :
    @decideShift K (exactArithmetic root) sh sl limit =
      if sh < 1 / 10 ∧ -(1 / 10) < sl then 0
      else if limit < sh then 1
      else if sl < -limit then -1
      else 0 := by
  have upper : sh - 10⁻¹ < 0 ↔ sh < 10⁻¹ := sub_lt_zero
  have lower : 0 < sl + 10⁻¹ ↔ -10⁻¹ < sl := neg_lt_iff_pos_add.symm
  simp [decideShift, upper, lower]

/-- The mirrored sums give the opposite decision unless both are beyond the limit:
then the upper one decides in both. -/
theorem decide_shift_mirrored (sh sl limit : K)
    (clear : ¬ (limit < sh ∧ sl < -limit ∧ ¬ (sh < 1 / 10 ∧ -(1 / 10) < sl))) :
    @decideShift K (exactArithmetic root) (-sl) (-sh) limit =
      -@decideShift K (exactArithmetic root) sh sl limit := by
  rw [decide_shift_exact, decide_shift_exact]
  have small : -sl < 1 / 10 ∧ -(1 / 10) < -sh ↔ sh < 1 / 10 ∧ -(1 / 10) < sl := by
    rw [neg_lt_neg_iff, neg_lt, and_comm]
  have up : limit < -sl ↔ sl < -limit := lt_neg
  have down : -sh < -limit ↔ limit < sh := neg_lt_neg_iff
  simp only [small, up, down]
  by_cases quiet : sh < 1 / 10 ∧ -(1 / 10) < sl
  · rw [if_pos quiet, if_pos quiet, neg_zero]
  · rw [if_neg quiet, if_neg quiet]
    by_cases above : limit < sh
    · have inside : ¬ sl < -limit := by
        intro below
        exact clear ⟨above, below, quiet⟩
      simp [above, inside]
    · by_cases below : sl < -limit
      · simp [above, below]
      · simp [above, below]

/-- Where both sums are beyond the limit, the decision is an upward shift: that test
comes first. -/
theorem decide_shift_tie (sh sl limit : K) (above : limit < sh)
    (busy : ¬ (sh < 1 / 10 ∧ -(1 / 10) < sl)) :
    @decideShift K (exactArithmetic root) sh sl limit = 1 := by
  rw [decide_shift_exact, if_neg busy, if_pos above]

/-- A call on the negated sample reports the mirror image. Away from a tie the opposite
decision follows from the mirrored sums; in a tie both runs decide upward. -/
theorem mirrored_report (mirrored : Mirrored first second) :
    MirroredReport (exactCusum root first x) (exactCusum root second (-x)) where
  sh := mirrored_sh root x mirrored
  sl := mirrored_sl root x mirrored
  deviation := mirrored_deviation root x mirrored
  code := by
    intro clear
    rw [both_beyond_iff] at clear
    rw [decision_eq, decision_eq, mirrored_sh root x mirrored, mirrored_sl root x mirrored,
      mirrored_deviation root x mirrored, mirrored.height]
    exact decide_shift_mirrored root _ _ _ clear
  tie := by
    intro tied
    obtain ⟨above, below, busy⟩ := (both_beyond_iff _).mp tied
    rw [h_next] at above below
    have busyMirrored : ¬ (-(exactCusum root first x).1.slPrev < 1 / 10 ∧
        -(1 / 10) < -(exactCusum root first x).1.shPrev) := by
      rwa [neg_lt_neg_iff, neg_lt, and_comm]
    constructor
    · rw [decision_eq]
      exact decide_shift_tie root _ _ _ above busy
    · rw [decision_eq, mirrored_sh root x mirrored, mirrored_sl root x mirrored,
        mirrored_deviation root x mirrored, mirrored.height]
      exact decide_shift_tie root _ _ _ (lt_neg.mpr below) busyMirrored

end Mirror

/-- At every call of every run over exact numbers, whatever the square root: the run on
the samples shifted by a constant reports the same sums, deviation and decision, and the
run on the negated samples reports the mirrored ones.

Proof: the states of two such runs are related from the start, and each call keeps them
so. What a call reports is then compared member by member. -/
theorem offset_and_mirror (root : ℝ → ℝ) (c : ℝ) (samples : List ℝ) (x : ℝ) :
    let call := exactCusum root (exactAfter root samples) x
    SameReport call (exactCusum root (exactAfter root (samples.map (· + c))) (x + c)) ∧
      MirroredReport call (exactCusum root (exactAfter root (samples.map (- ·))) (-x)) := by
  have offset := after_alike (fun cus x => (exactCusum root cus x).1) (· + c) (Offset c)
    (fun _ _ x => offset_next root x) (exactInit root) (exactInit root)
    ⟨rfl, rfl, rfl, rfl, rfl, rfl, by simp, by simp⟩ samples
  have mirrored := after_alike (fun cus x => (exactCusum root cus x).1) (- ·) Mirrored
    (fun _ _ x => mirrored_next root x) (exactInit root) (exactInit root)
    ⟨by simp, by simp, rfl, rfl, rfl, rfl, by simp, by simp⟩ samples
  exact ⟨offset_report root x offset, mirrored_report root x mirrored⟩

end EventRecorder.DetectorSymmetry
