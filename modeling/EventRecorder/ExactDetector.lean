import EventRecorder.ExactArithmetic
import EventRecorder.Runs
import EventRecorder.SafetyStatus
import Mathlib.Tactic.Positivity

/-!
# The shift detector in exact arithmetic

The members that `cusum` computes, one law each, over an ordered field with an
abstract square root. In checked arithmetic a call computes the same members as
long as its squared deviations are not negative: the divisors are the sample
count and its predecessor, which is used from the second sample on.
-/

namespace EventRecorder.ExactDetector

open Arithmetic Detector ExactArithmetic Runs SafetyStatus

universe u
variable {K : Type u} [Field K] [LinearOrder K] [FloorRing K] (root : K → K)

/-- `cusum` without rounding: the definition of the source, evaluated in exact
arithmetic. -/
def exactCusum (cus : Cusum K) (x : K) : Cusum K × Int := @cusum K (exactArithmetic root) cus x

/-- `cusum` where undefined operations give no value, on a detector some of whose
members may have none. -/
def checkedCusum (cus : Cusum (Option K)) (x : Option K) : Cusum (Option K) × Int :=
  @cusum (Option K) (checkedArithmetic root) cus x

/-- A detector as `safety_status_init` leaves it: all zero but for the constants of the
test. -/
def exactInit : Cusum K :=
  @safetyStatusCusum K (exactArithmetic root) (@Cusum.zero K (exactArithmetic root))

/-- The same detector in checked arithmetic, where each of its members has a value. -/
def checkedInit : Cusum (Option K) :=
  @safetyStatusCusum (Option K) (checkedArithmetic root)
    (@Cusum.zero (Option K) (checkedArithmetic root))

/-- Every member of an exact detector, as a defined value. A checked run that meets no
undefined operation stays within the image of this. -/
def defined (cus : Cusum K) : Cusum (Option K) where
  shPrev := some cus.shPrev
  slPrev := some cus.slPrev
  mean := some cus.mean
  meanI := cus.meanI
  xPrev := some cus.xPrev
  shiftDetect := some cus.shiftDetect
  estStdDev := some cus.estStdDev
  h := some cus.h
  a := some cus.a
  q := some cus.q

/-- The exact detector after the samples, each given to one call. -/
def exactAfter (samples : List K) : Cusum K :=
  after (fun cus x => (exactCusum root cus x).1) (exactInit root) samples

/-- The checked detector after the samples, all of which have a value. -/
def checkedAfter (samples : List K) : Cusum (Option K) :=
  after (fun cus x => (checkedCusum root cus x).1) (checkedInit root) (samples.map some)

/-- Both detectors of `safety_status_init` are the initial one, however its allocations
go. -/
theorem init_detectors (mallocp : Nat → Bool) (proc : Option ProcStat) :
    let status := (@safetyStatusInit (Option K) (checkedArithmetic root) mallocp proc).2
    status.cusLong = checkedInit root ∧ status.cusLat = checkedInit root := ⟨rfl, rfl⟩

section Members

variable (cus : Cusum K) (x : K)

/-- The count grows by one with every sample. The laws below name the other members by
this call's own, in the order in which the source computes them. -/
@[simp] theorem mean_i_next : (exactCusum root cus x).1.meanI = cus.meanI + 1 := rfl

/-- The slack is a constant of the detector, which no call changes. -/
@[simp] theorem shift_detect_next :
    (exactCusum root cus x).1.shiftDetect = cus.shiftDetect := rfl

/-- The control limit is a constant of the detector too. -/
@[simp] theorem h_next : (exactCusum root cus x).1.h = cus.h := rfl

/-- The moving mean: the first sample, and later seven tenths of what it was and three
of the sample. -/
theorem mean_next : (exactCusum root cus x).1.mean =
    if cus.meanI = 0 then x else cus.mean * (7 / 10) + x * (3 / 10) := by
  simp [exactCusum, cusum, meanMov]

/-- The running mean moves to the sample by its share, which is one over the count that
has the sample. -/
theorem a_next : (exactCusum root cus x).1.a =
    cus.a + (x - cus.a) / (cus.meanI + 1 : Nat) := by
  simp [exactCusum, cusum]

/-- The squared deviations grow by the product of the distances to the mean before the
sample and to the mean with it. -/
theorem q_next : (exactCusum root cus x).1.q =
    cus.q + (x - cus.a) * (x - (exactCusum root cus x).1.a) := by
  simp [exactCusum, cusum]

/-- The deviation is zero for a single sample, and then the root of the squares over one
less than the count. -/
theorem est_std_dev_next : (exactCusum root cus x).1.estStdDev =
    if cus.meanI = 0 then 0 else root ((exactCusum root cus x).1.q / cus.meanI) := by
  simp [exactCusum, cusum]

/-- The upper sum adds the distance to the moving mean, less a slack of deviations, and
does not fall below zero. -/
theorem sh_next : (exactCusum root cus x).1.shPrev =
    max 0 (cus.shPrev + (x - (exactCusum root cus x).1.mean) -
      cus.shiftDetect * (exactCusum root cus x).1.estStdDev) := by
  simp [exactCusum, cusum]

/-- The lower sum adds the distance and the slack, and does not rise above zero. -/
theorem sl_next : (exactCusum root cus x).1.slPrev =
    min 0 (cus.slPrev + (x - (exactCusum root cus x).1.mean) +
      cus.shiftDetect * (exactCusum root cus x).1.estStdDev) := by
  simp [exactCusum, cusum]

/-- The returned decision is taken from the members the call leaves: the two sums, and a
limit of so many deviations. -/
theorem decision_eq : (exactCusum root cus x).2 =
    @decideShift K (exactArithmetic root) (exactCusum root cus x).1.shPrev
      (exactCusum root cus x).1.slPrev (cus.h * (exactCusum root cus x).1.estStdDev) := by
  simp [exactCusum, cusum]

end Members

/-- The initial detector has seen no sample, so that the first call takes its sample for
the mean. -/
@[simp] theorem init_mean_i : (exactInit root).meanI = 0 := rfl

/-- The control limit is five deviations from the start. -/
@[simp] theorem init_h : (exactInit root).h = 5 := by
  simp [exactInit, safetyStatusCusum]

/-- The running mean starts at zero, and is replaced by the first sample. -/
@[simp] theorem init_a : (exactInit root).a = 0 := by
  simp [exactInit, safetyStatusCusum, Cusum.zero]

/-- No deviations were counted yet. -/
@[simp] theorem init_q : (exactInit root).q = 0 := by
  simp [exactInit, safetyStatusCusum, Cusum.zero]

/-- The upper sum starts at zero. -/
@[simp] theorem init_sh : (exactInit root).shPrev = 0 := by
  simp [exactInit, safetyStatusCusum, Cusum.zero]

/-- The lower sum starts at zero. -/
@[simp] theorem init_sl : (exactInit root).slPrev = 0 := by
  simp [exactInit, safetyStatusCusum, Cusum.zero]

/-- The moving mean starts at zero, and is replaced by the first sample. -/
@[simp] theorem init_mean : (exactInit root).mean = 0 := by
  simp [exactInit, safetyStatusCusum, Cusum.zero]

/-- The checked detector starts with a value in each member. -/
theorem checked_init : checkedInit root = defined (exactInit root) := rfl

/-- The decision compares defined values only, and so it is the exact one. -/
theorem checked_decide_shift (sh sl limit : K) :
    @decideShift (Option K) (checkedArithmetic root) (some sh) (some sl) (some limit) =
      @decideShift K (exactArithmetic root) sh sl limit := rfl

variable [IsStrictOrderedRing K]

/-- The squared deviations never fall: the product of the distances to the old and the
new mean is a share of the square of the first. -/
theorem q_grows (cus : Cusum K) (x : K) : cus.q ≤ (exactCusum root cus x).1.q := by
  have positive : ((cus.meanI + 1 : Nat) : K) ≠ 0 := Nat.cast_ne_zero.mpr (Nat.succ_ne_zero _)
  have product : (x - cus.a) * (x - (exactCusum root cus x).1.a) =
      (x - cus.a) ^ 2 * (cus.meanI / (cus.meanI + 1 : Nat)) := by
    rw [a_next]
    field_simp
    push_cast
    ring
  rw [q_next, product]
  have share : 0 ≤ (x - cus.a) ^ 2 * ((cus.meanI : K) / (cus.meanI + 1 : Nat)) := by positivity
  linarith

/-- From a detector whose squared deviations are not negative, a checked call has no
undefined operation: it divides by counts that are not zero, and takes the root of
squared deviations over such a count. -/
theorem checked_step (cus : Cusum K) (x : K) (nonnegative : 0 ≤ cus.q) :
    checkedCusum root (defined cus) (some x) =
      (defined (exactCusum root cus x).1, (exactCusum root cus x).2) := by
  have counted : (cus.meanI : K) + 1 ≠ 0 := Nat.cast_add_one_ne_zero _
  have radicand : 0 ≤ cus.q +
      (x - cus.a) * (x - (cus.a + (x - cus.a) / ((cus.meanI : K) + 1))) := by
    have grown := q_grows root cus x
    rw [q_next, a_next, Nat.cast_add_one] at grown
    exact nonnegative.trans grown
  by_cases first : cus.meanI = 0
  · simp [checkedCusum, exactCusum, cusum, defined, first, checked_fdiv, checked_decide_shift]
  · have later : (cus.meanI : K) ≠ 0 := Nat.cast_ne_zero.mpr first
    have variance := div_nonneg radicand (Nat.cast_nonneg cus.meanI : (0 : K) ≤ cus.meanI)
    simp [checkedCusum, exactCusum, cusum, meanMov, defined, first, checked_fdiv, counted, later,
      checked_root, variance, checked_decide_shift]

end EventRecorder.ExactDetector
