import Mathlib.Algebra.BigOperators.Group.List.Basic
import Mathlib.Algebra.Order.Group.Defs
import Mathlib.Algebra.Order.Group.Unbundled.Basic
import Mathlib.Data.List.Induction
import Mathlib.Order.Bounds.Basic
import Mathlib.Tactic.Common

/-!
# Cumulative sums that stay on one side of zero

A cumulative sum that is put back to zero whenever it falls below is the greatest of
the sums over the last increments, of any number of them. One that is put back
whenever it rises above zero is the least.
-/

namespace EventRecorder.CumulativeSums

universe u
variable {α : Type u} [AddCommGroup α] [LinearOrder α] [IsOrderedAddMonoid α]

/-- The sum that does not fall below zero: it is put back there whenever an increment
would take it below. -/
def climb (increments : List α) : α :=
  increments.foldl (fun sum increment => max 0 (sum + increment)) 0

/-- The sum that does not rise above zero, the mirror image of the other. -/
def descend (increments : List α) : α :=
  increments.foldl (fun sum increment => min 0 (sum + increment)) 0

/-- The sums over the increments from a position on, to the last. The sum over none of
them is among these. -/
def Tails (increments : List α) : Set α :=
  {total | ∃ position ≤ increments.length, total = (increments.drop position).sum}

omit [LinearOrder α] [IsOrderedAddMonoid α] in
/-- With one more increment each of the sums is larger by it, and there is the empty sum
behind it. -/
theorem tails_snoc (increments : List α) (increment total : α) :
    total ∈ Tails (increments ++ [increment]) ↔
      total = 0 ∨ ∃ shorter ∈ Tails increments, total = shorter + increment := by
  constructor
  · rintro ⟨position, bound, rfl⟩
    rw [List.length_append, List.length_singleton] at bound
    rcases Nat.lt_or_ge increments.length position with beyond | inside
    · refine .inl ?_
      rw [List.drop_eq_nil_of_le (by rw [List.length_append, List.length_singleton]; omega)]
      rfl
    · refine .inr ⟨_, ⟨position, inside, rfl⟩, ?_⟩
      rw [List.drop_append_of_le_length inside, List.sum_append, List.sum_singleton]
  · rintro (rfl | ⟨_, ⟨position, inside, rfl⟩, rfl⟩)
    · exact ⟨(increments ++ [increment]).length, le_rfl, by rw [List.drop_length]; rfl⟩
    · refine ⟨position, ?_, ?_⟩
      · rw [List.length_append]
        exact Nat.le_add_right_of_le inside
      · rw [List.drop_append_of_le_length inside, List.sum_append, List.sum_singleton]

/-- The sum that does not fall below zero is the greatest over the last increments. By
induction from the last one: clipping at zero is the choice of the empty sum. -/
theorem climb_greatest (increments : List α) :
    IsGreatest (Tails increments) (climb increments) := by
  induction increments using List.reverseRecOn with
  | nil => exact ⟨⟨0, le_rfl, rfl⟩, by rintro _ ⟨position, _, rfl⟩; simp [climb]⟩
  | append_singleton increments increment inductionHypothesis =>
    obtain ⟨reached, above⟩ := inductionHypothesis
    have step : climb (increments ++ [increment]) = max 0 (climb increments + increment) := by
      simp [climb]
    rw [step]
    constructor
    · rw [tails_snoc]
      rcases max_choice 0 (climb increments + increment) with zero | more
      · exact .inl zero
      · exact .inr ⟨_, reached, more⟩
    · intro total member
      rcases (tails_snoc increments increment total).mp member with rfl | ⟨shorter, inside, rfl⟩
      · exact le_max_left _ _
      · exact (add_le_add_left (above inside) increment).trans (le_max_right _ _)

/-- The sum that does not rise above zero is the least over the last increments, by the
same induction with the order turned round. -/
theorem descend_least (increments : List α) : IsLeast (Tails increments) (descend increments) := by
  induction increments using List.reverseRecOn with
  | nil => exact ⟨⟨0, le_rfl, rfl⟩, by rintro _ ⟨position, _, rfl⟩; simp [descend]⟩
  | append_singleton increments increment inductionHypothesis =>
    obtain ⟨reached, below⟩ := inductionHypothesis
    have step : descend (increments ++ [increment]) = min 0 (descend increments + increment) := by
      simp [descend]
    rw [step]
    constructor
    · rw [tails_snoc]
      rcases min_choice 0 (descend increments + increment) with zero | less
      · exact .inl zero
      · exact .inr ⟨_, reached, less⟩
    · intro total member
      rcases (tails_snoc increments increment total).mp member with rfl | ⟨shorter, inside, rfl⟩
      · exact min_le_left _ _
      · exact (min_le_right _ _).trans (add_le_add_left (below inside) increment)

end EventRecorder.CumulativeSums
