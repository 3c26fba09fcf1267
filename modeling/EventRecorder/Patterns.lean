import Mathlib.Data.List.Infix

/-!
# Occurrences of a pattern

How often a pattern occurs in a list is how many of the list's beginnings end
with it. A list that grows at its end by one element gains an occurrence exactly
when it then ends with the pattern.

Patterns of one mark followed by a number of blanks fit only one such end.
-/

namespace EventRecorder.Patterns

universe u
variable {α : Type u} [DecidableEq α]

/-- The beginnings of a list that end with a pattern, counted. Occurrences may overlap. -/
def occurrences (pattern list : List α) : Nat := list.inits.countP (pattern <:+ ·)

/-- One more element adds the one occurrence that ends with it, if there is one. -/
theorem occurrences_snoc (pattern list : List α) (element : α) :
    occurrences pattern (list ++ [element]) =
      occurrences pattern list + if pattern <:+ list ++ [element] then 1 else 0 := by
  have beginnings : (list ++ [element]).inits = list.inits ++ [list ++ [element]] := by
    simp [List.inits_append]
  rw [occurrences, beginnings, List.countP_append, occurrences, List.countP_singleton]
  simp

/-- A list of one element other than the pattern's last has no occurrence, nor has any
list of one for a longer pattern. -/
theorem occurrences_single (pattern : List α) (element : α) (long : 2 ≤ pattern.length) :
    occurrences pattern [element] = 0 := by
  rw [occurrences, List.countP_eq_zero]
  intro beginning member fits
  have short := List.IsInfix.length_le (List.mem_inits _ _ |>.mp member).isInfix
  have fitting := List.IsSuffix.length_le (of_decide_eq_true fits)
  simp only [List.length_singleton] at short
  omega

variable {mark blank : α}

omit [DecidableEq α] in
/-- A list without marks ends with no pattern that has one, however many blanks follow
it. -/
theorem not_marked_suffix (count : Nat) (list : List α) (unmarked : mark ∉ list) :
    ¬ mark :: List.replicate count blank <:+ list := by
  intro suffix
  exact unmarked (suffix.subset List.mem_cons_self)

omit [DecidableEq α] in
/-- A mark and blanks behind it are the end of a list that ends that way exactly if
there are as many blanks. -/
theorem marked_suffix_iff (distinct : mark ≠ blank) (front : List α) (count length : Nat) :
    mark :: List.replicate count blank <:+ front ++ mark :: List.replicate length blank ↔
      count = length := by
  -- Of two marked ends of one list, one is an end of the other, so it is the other.
  have same (fewer more : Nat)
      (suffix : mark :: List.replicate fewer blank <:+ mark :: List.replicate more blank) :
      fewer = more := by
    rcases List.suffix_cons_iff.mp suffix with equal | inside
    · simpa using congrArg List.length equal
    · exact absurd inside (not_marked_suffix fewer _ fun member =>
        distinct (List.eq_of_mem_replicate member))
  constructor
  · intro suffix
    rcases List.suffix_or_suffix_of_suffix suffix (List.suffix_append _ _) with inside | inside
    · exact same count length inside
    · exact (same length count inside).symm
  · rintro rfl
    exact List.suffix_append ..

omit [DecidableEq α] in
/-- A list that ends with a mark ends with no pattern that has blanks behind its mark. -/
theorem not_marked_suffix_snoc (distinct : mark ≠ blank) (count : Nat) (list : List α) :
    ¬ mark :: List.replicate (count + 1) blank <:+ list ++ [mark] := by
  rintro ⟨front, same⟩
  have last := congrArg List.getLast? same
  rw [List.replicate_succ', ← List.cons_append, ← List.append_assoc, List.getLast?_concat,
    List.getLast?_concat, Option.some_inj] at last
  exact distinct last.symm

end EventRecorder.Patterns
