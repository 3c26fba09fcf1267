import Mathlib.Data.Nat.ModEq
import Mathlib.Data.List.Induction

/-!
# Circular buffers and the history they retain

A ring of fixed positive size receives one value after another; the n-th value
goes to slot n modulo the size. A slot that no value has reached stays
unwritten. The ring therefore retains the last values of its history, one per
slot, and a full turn that starts at the next write position visits the
unwritten slots first and then the retained values from oldest to newest.
-/

namespace EventRecorder.Ring

universe u
variable {α : Type u}

/-- The cells of a ring after the values of a history were written to it in
order: the last `size` of them are in their slots, and slots the history has
not reached are unwritten. -/
structure Holds (size : Nat) (cells : List (Option α)) (history : List α) : Prop where
  length : cells.length = size
  recent : ∀ back, 0 < back → back ≤ size → back ≤ history.length →
    cells[(history.length - back) % size]? = some history[history.length - back]?
  unwritten : ∀ slot, history.length ≤ slot → slot < size → cells[slot]? = some none

/-- Slots a ring was allocated with hold an empty history: none of them was written yet. -/
theorem empty_holds (size : Nat) : Holds size (List.replicate size (none : Option α)) [] where
  length := List.length_replicate
  recent := by
    intro back positive _ beyond
    exact absurd beyond (by simpa using Nat.pos_iff_ne_zero.mp positive)
  unwritten := by
    intro slot _ inside
    simp [inside]

/-- Going back by less than a full turn reaches a different slot, so that a write leaves
the retained values but the oldest in place. -/
theorem slot_ne (count back size : Nat) (positive : 0 < back) (short : back < size)
    (inside : back ≤ count) : (count - back) % size ≠ count % size := by
  intro same
  have divides : size ∣ count - (count - back) := (Nat.modEq_iff_dvd' (Nat.sub_le _ _)).mp same
  have whole : count - (count - back) = back := by omega
  rw [whole] at divides
  exact absurd (Nat.le_of_dvd positive divides) (by omega)

/-- The last values of a history whose first was written to a given slot are in their
slots. Of the other slots nothing is said. -/
def Recent (size start : Nat) (cells : List (Option α)) (history : List α) : Prop :=
  ∀ back, 0 < back → back ≤ size → back ≤ history.length →
    cells[(start + (history.length - back)) % size]? = some history[history.length - back]?

/-- Writing the next value keeps them there, but for the one it takes the slot of: by
then that value is a full turn back and no longer among the last. -/
theorem write_recent {size start : Nat} {cells : List (Option α)} {history : List α} (value : α)
    (positive : 0 < size) (length : cells.length = size)
    (recent : Recent size start cells history) :
    Recent size start (cells.set ((start + history.length) % size) (some value))
      (history ++ [value]) := by
  intro back backPositive short inside
  have target : (start + history.length) % size < cells.length := by
    rw [length]
    exact Nat.mod_lt _ positive
  rw [List.length_append, List.length_singleton] at inside ⊢
  by_cases newest : back = 1
  · subst newest
    simp [target]
  · have earlier : history.length + 1 - back = history.length - (back - 1) := by omega
    have distinct := slot_ne (start + history.length) (back - 1) size (by omega) (by omega)
      (by omega)
    rw [Nat.add_sub_assoc (by omega)] at distinct
    rw [earlier, List.getElem?_set_ne distinct.symm, List.getElem?_append_left (by omega)]
    exact recent (back - 1) (by omega) (by omega) (by omega)

/-- Writing the next value to slot `length % size` extends the history by it. The slot
was either unwritten or held the oldest of the retained values. -/
theorem write_holds {size : Nat} {cells : List (Option α)} {history : List α} (value : α)
    (positive : 0 < size) (holds : Holds size cells history) :
    Holds size (cells.set (history.length % size) (some value)) (history ++ [value]) where
  length := by simpa using holds.length
  recent := by
    have recent : Recent size 0 cells history := by simpa [Recent] using holds.recent
    simpa [Recent] using write_recent value positive holds.length recent
  unwritten := by
    intro slot beyond inside
    rw [List.length_append, List.length_singleton] at beyond
    have distinct : history.length % size ≠ slot := by
      have bound : history.length % size ≤ history.length := Nat.mod_le _ _
      omega
    rw [List.getElem?_set_ne distinct]
    exact holds.unwritten slot (by omega) inside

/-- The cells a traversal visits from a start position, `count` slots forward and around
the end of the ring. -/
def window (size : Nat) (cells : List (Option α)) (start count : Nat) :
    List (Option (Option α)) :=
  (List.range count).map fun step => cells[(start + step) % size]?

/-- One full turn from the next write position visits the slots that were never
written, and then the retained part of the history from oldest to newest.

The visited slot is compared with the one `size - step` values back: before that
many values exist it is unwritten, afterwards it holds that value. -/
theorem full_turn {size : Nat} {cells : List (Option α)} {history : List α}
    (positive : 0 < size) (holds : Holds size cells history) :
    window size cells (history.length % size) size =
      List.replicate (size - history.length) (some none) ++
        (history.drop (history.length - size)).map (fun value => some (some value)) := by
  apply List.ext_getElem?
  intro step
  by_cases inside : step < size
  · have visited : (window size cells (history.length % size) size)[step]? =
        some cells[(history.length + step) % size]? := by
      simp [window, inside]
    rw [visited]
    by_cases early : history.length + step < size
    · have unwritten := holds.unwritten (history.length + step) (by omega) early
      rw [Nat.mod_eq_of_lt early, unwritten, List.getElem?_append_left (by simp; omega),
        List.getElem?_replicate, if_pos (by omega)]
    · have back := holds.recent (size - step) (by omega) (by omega) (by omega)
      have turned : (history.length + step) % size =
          (history.length - (size - step)) % size := by
        rw [← Nat.add_mod_right (history.length - (size - step)) size]
        congr 1
        omega
      have position : history.length - size + (step - (size - history.length)) =
          history.length - (size - step) := by omega
      have exists_value : history.length - (size - step) < history.length := by omega
      rw [turned, back, List.getElem?_append_right (by simp; omega), List.length_replicate,
        List.getElem?_map, List.getElem?_drop, position, List.getElem?_eq_getElem exists_value]
      rfl
  · rw [List.getElem?_eq_none (by simp [window]; omega), List.getElem?_eq_none (by simp; omega)]

end EventRecorder.Ring
