import Mathlib.Algebra.BigOperators.Group.List.Basic
import Mathlib.Algebra.BigOperators.Ring.List
import Mathlib.Algebra.Order.BigOperators.Group.List
import Mathlib.Algebra.Order.Field.Basic
import Mathlib.Tactic.FieldSimp
import Mathlib.Tactic.Ring

/-!
# Mean and squared deviations of a list

The mean of a list and the sum of the squared deviations from it, over a field,
and what one more value makes of them. The deviation sum grows by
the product of the value's distances to the mean before it and to the mean with
it, so both can be kept in one pass.
-/

namespace EventRecorder.Statistics

universe u
variable {K : Type u} [Field K]

/-- The arithmetic mean of a list; that of the empty list is zero, as a quotient by zero
is. -/
def mean (values : List K) : K := values.sum / values.length

/-- The sum of the squared distances to a point, which need not be the mean. -/
def squaresAbout (point : K) (values : List K) : K :=
  (values.map fun value => (value - point) ^ 2).sum

/-- The sum of the squared deviations from the mean, which takes two passes: one for the
mean and one for the deviations. -/
def squaredDeviations (values : List K) : K := squaresAbout (mean values) values

/-- One more value adds the square of its distance, as long as the point stays where it
is. -/
theorem squares_about_snoc (point : K) (values : List K) (value : K) :
    squaresAbout point (values ++ [value]) = squaresAbout point values + (value - point) ^ 2 := by
  simp [squaresAbout]

/-- Expanding the square of each distance leaves the point only in front of the sum and
of the length. By induction on the values. -/
theorem squares_about_expanded (point : K) (values : List K) :
    squaresAbout point values =
      (values.map (· ^ 2)).sum - 2 * point * values.sum + values.length * point ^ 2 := by
  induction values with
  | nil => simp [squaresAbout]
  | cons value rest inductionHypothesis =>
    have tail : (rest.map fun value => (value - point) ^ 2).sum =
        (rest.map (· ^ 2)).sum - 2 * point * rest.sum + rest.length * point ^ 2 :=
      inductionHypothesis
    simp only [squaresAbout, List.map_cons, List.sum_cons, tail, List.length_cons, Nat.cast_add,
      Nat.cast_one]
    ring

section CharacteristicZero

variable [CharZero K]

/-- The mean times the length is the sum, also for the empty list. -/
theorem length_mul_mean (values : List K) : (values.length : K) * mean values = values.sum := by
  cases values with
  | nil => simp
  | cons value rest =>
    have positive : ((value :: rest).length : K) ≠ 0 := by
      rw [List.length_cons]
      exact Nat.cast_ne_zero.mpr (Nat.succ_ne_zero _)
    exact mul_div_cancel₀ _ positive

/-- The squared distances to a point are those to the mean, and for each value the
square of the distance between the two points. -/
theorem squares_about_eq (point : K) (values : List K) :
    squaresAbout point values =
      squaredDeviations values + values.length * (point - mean values) ^ 2 := by
  rw [squaredDeviations, squares_about_expanded point, squares_about_expanded (mean values),
    ← length_mul_mean values]
  ring

/-- One more value moves the mean by its share of the distance to it. -/
theorem mean_snoc (values : List K) (value : K) :
    mean (values ++ [value]) = mean values + (value - mean values) / (values.length + 1 : Nat) := by
  have positive : ((values.length + 1 : Nat) : K) ≠ 0 := Nat.cast_ne_zero.mpr (Nat.succ_ne_zero _)
  have total : mean (values ++ [value]) =
      (values.length * mean values + value) / (values.length + 1 : Nat) := by
    rw [length_mul_mean, mean, List.sum_append, List.sum_singleton, List.length_append,
      List.length_singleton]
  rw [total]
  field_simp
  push_cast
  ring

/-- One more value adds the product of its distances to the two means, the one without
it and the one with it. This is what makes one pass enough. -/
theorem squared_deviations_snoc (values : List K) (value : K) :
    squaredDeviations (values ++ [value]) =
      squaredDeviations values +
        (value - mean values) * (value - mean (values ++ [value])) := by
  have positive : ((values.length + 1 : Nat) : K) ≠ 0 := Nat.cast_ne_zero.mpr (Nat.succ_ne_zero _)
  rw [squaredDeviations, squares_about_snoc, squares_about_eq, mean_snoc]
  field_simp
  push_cast
  ring

end CharacteristicZero

/-- A sum of squares is not negative. -/
theorem squared_deviations_nonneg [LinearOrder K] [IsStrictOrderedRing K] (values : List K) :
    0 ≤ squaredDeviations values := by
  apply List.sum_nonneg
  intro square member
  obtain ⟨value, -, rfl⟩ := List.mem_map.mp member
  exact sq_nonneg _

end EventRecorder.Statistics
