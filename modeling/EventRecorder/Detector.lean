import EventRecorder.Arithmetic
import Mathlib.Tactic.Linarith
import Mathlib.Tactic.FieldSimp

/-!
# The CUSUM shift detector

`cusum` updates the running statistics of one acceleration channel with a
sample and decides whether its level has shifted up, down or not at all. The
control limit is `h` estimated standard deviations.
-/

namespace EventRecorder.Detector

open Arithmetic

universe u
variable {F : Type u} [Arithmetic F]

/-- `cusum_t`: the running statistics of one acceleration channel, the two cumulative
sums, and the constants of the test. The counter `time`, which nothing reads, is left
out. -/
structure Cusum (F : Type u) where
  shPrev : F
  slPrev : F
  mean : F
  meanI : Nat
  xPrev : F
  shiftDetect : F
  estStdDev : F
  h : F
  a : F
  q : F

/-- The all-zero detector that `memset` leaves, before `safety_status_cusum` sets its
constants. -/
def Cusum.zero : Cusum F where
  shPrev := flit 0
  slPrev := flit 0
  mean := flit 0
  meanI := 0
  xPrev := flit 0
  shiftDetect := flit 0
  estStdDev := flit 0
  h := flit 0
  a := flit 0
  q := flit 0

/-- `mean_mov`: seven tenths of the mean before and three of the sample. The source
ignores the sample count. -/
def meanMov (meanPrev : F) (_n : Nat) (x : F) : F :=
  fadd (fmul meanPrev (flit (7 / 10))) (fmul x (flit (3 / 10)))

/-- The small-value test and the two limit tests. `EPS` is a double constant,
so its sums are not rounded to float. -/
def decideShift (sh sl limit : F) : Int :=
  if lt (sub sh (lit (1 / 10))) (lit 0) && lt (lit 0) (add sl (lit (1 / 10))) then 0
  else if lt limit sh then 1
  else if lt sl (neg limit) then -1
  else 0

/-- `cusum`: the detector after the sample and the returned decision. The sample counter
is incremented before it is used in the mean, the variance and the deviation.

The sums are taken with the moving mean that already has the sample, so that a sample
pulls on the very mean it is compared with. -/
def cusum (cus : Cusum F) (x : F) : Cusum F × Int :=
  let meanI := cus.meanI + 1
  let mean := if cus.meanI = 0 then x else meanMov cus.mean meanI x
  let a := fadd cus.a (fdiv (fsub x cus.a) (flit meanI))
  let q := fadd cus.q (fmul (fsub x cus.a) (fsub x a))
  let estStdDev := if meanI = 1 then flit 0 else toFloat (sqrt (fdiv q (flit (meanI - 1 : Nat))))
  let sh := fmax (flit 0)
    (fsub (fadd cus.shPrev (fsub x mean)) (fmul cus.shiftDetect estStdDev))
  let sl := fmin (flit 0)
    (fadd (fadd cus.slPrev (fsub x mean)) (fmul cus.shiftDetect estStdDev))
  let limit := fmul cus.h estStdDev
  ({ cus with shPrev := sh, slPrev := sl, mean := mean, meanI := meanI, xPrev := x,
              estStdDev := estStdDev, a := a, q := q }, decideShift sh sl limit)

/-- `safety_status_cusum`: a slack of one deviation and a control limit of five. The
estimated deviation starts at zero. -/
def safetyStatusCusum (cus : Cusum F) : Cusum F :=
  { cus with shiftDetect := flit 1, estStdDev := flit 0, h := flit 5 }

/-- A rational detector that has seen only zeros since its initialisation. Runs of zeros
evaluate to it, however long they are. -/
def rest (count : Nat) : Cusum ℚ := { safetyStatusCusum Cusum.zero with meanI := count }

/-- Another zero leaves the detector at rest and reports nothing, so that only the
counter tells how long it has been there. -/
theorem cusum_rest (count : Nat) : cusum (rest count) 0 = (rest (count + 1), 0) := by
  have zeroRoot : sixDigitSqrt 0 = 0 := by decide +kernel
  have noShift : decideShift (0 : ℚ) 0 0 = 0 := by decide +kernel
  simp [cusum, rest, safetyStatusCusum, Cusum.zero, meanMov, flit, fadd, fsub, fmul, fdiv,
    lit, toFloat, add, sub, mul, div, sqrt, fmax, fmin, zeroRoot, noShift]

/-- The square root of a fraction is at most one, also when it is rounded down at six
decimals. -/
theorem root_le_one (value : ℚ) (small : value ≤ 1) : sixDigitSqrt value ≤ 1 := by
  have floored : (value * 10 ^ 12).floor.toNat ≤ (10 ^ 6) ^ 2 := by
    have scaled : value * 10 ^ 12 ≤ 10 ^ 12 := by linarith
    have bound : (value * 10 ^ 12).floor ≤ 10 ^ 12 := by
      have monotone := Rat.floor_monotone scaled
      have whole : ((10 : ℚ) ^ 12).floor = 10 ^ 12 := by decide +kernel
      rwa [whole] at monotone
    omega
  have root : Nat.sqrt (value * 10 ^ 12).floor.toNat ≤ 10 ^ 6 := by
    have monotone := Nat.sqrt_le_sqrt floored
    rwa [Nat.sqrt_eq'] at monotone
  have rational : (Nat.sqrt (value * 10 ^ 12).floor.toNat : ℚ) ≤ 10 ^ 6 := by
    exact_mod_cast root
  rw [sixDigitSqrt, div_le_one (by norm_num)]
  exact rational

/-- After at least eighty zeros, a jump to nine is reported as an upward shift:
the deviation is then at most one, so the cumulative sum exceeds five of them. -/
theorem cusum_jump (count : Nat) (long : 80 ≤ count) : (cusum (rest count) 9).2 = 1 := by
  have positive : count ≠ 0 := by omega
  have many : (80 : ℚ) ≤ count := by exact_mod_cast long
  have spread : (0 + 9 * (9 - (0 + 9 / ((count : ℚ) + 1)))) / count = 81 / (count + 1) := by
    have nonzero : (count : ℚ) ≠ 0 := by exact_mod_cast positive
    have above : (count : ℚ) + 1 ≠ 0 := by linarith
    field_simp
    ring
  have deviation : sixDigitSqrt (81 / ((count : ℚ) + 1)) ≤ 1 := by
    apply root_le_one
    rw [div_le_one (by linarith)]
    linarith
  have nonnegative : 0 ≤ sixDigitSqrt (81 / ((count : ℚ) + 1)) := by
    unfold sixDigitSqrt
    positivity
  have decision : (cusum (rest count) 9).2 = decideShift
      (max 0 (63 / 10 - sixDigitSqrt (81 / ((count : ℚ) + 1))))
      (min 0 (63 / 10 + sixDigitSqrt (81 / ((count : ℚ) + 1))))
      (5 * sixDigitSqrt (81 / ((count : ℚ) + 1))) := by
    rw [← spread]
    simp only [cusum, rest, safetyStatusCusum, Cusum.zero, meanMov, flit, fadd, fsub, fmul, fdiv,
      lit, toFloat, add, sub, mul, div, sqrt, fmax, fmin, id_eq]
    norm_num [positive]
  rw [decision, max_eq_right (by linarith), min_eq_left (by linarith)]
  have large : ¬ (63 / 10 - sixDigitSqrt (81 / ((count : ℚ) + 1)) < 10⁻¹) := by
    rw [not_lt]
    linarith
  have exceeded : 5 * sixDigitSqrt (81 / ((count : ℚ) + 1)) <
      63 / 10 - sixDigitSqrt (81 / ((count : ℚ) + 1)) := by linarith
  simp [decideShift, lt, sub, lit, large, exceeded]

end EventRecorder.Detector
