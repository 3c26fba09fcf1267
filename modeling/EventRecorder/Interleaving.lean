import Mathlib.Data.List.Basic
import Mathlib.Tactic.Common

/-!
# Interleavings of lists

Elements from some lists, each with the position of the list it comes from: those from
one list are all of its elements, in its order. An interleaving is taken apart and put
together at its first element, which is the first of its list.
-/

namespace EventRecorder.Interleaving

universe u v
variable {α : Type u} {β : Type v}

/-- The elements that come from one list, in order, by the positions of the lists they
were taken from. -/
def comingFrom (index : Nat) (sources : List Nat) (elements : List α) : List α :=
  ((sources.zip elements).filter fun taken => taken.1 = index).map Prod.snd

/-- The elements of some lists, mixed: every element has a source among the lists, and
those from one list are all of it in its order. -/
structure Interleaves (lists : List (List α)) (sources : List Nat) (elements : List α) :
    Prop where
  sourced : sources.length = elements.length
  known : ∀ source ∈ sources, source < lists.length
  whole : ∀ (index : Nat) (list : List α), lists[index]? = some list →
    comingFrom index sources elements = list

/-- Where no positions are left, no element comes from any list. -/
@[simp] theorem coming_from_nil (index : Nat) (elements : List α) :
    comingFrom index [] elements = [] := rfl

/-- An element taken from the list in question is the first of what comes from it. -/
@[simp] theorem coming_from_self (index : Nat) (sources : List Nat) (element : α)
    (elements : List α) : comingFrom index (index :: sources) (element :: elements) =
      element :: comingFrom index sources elements := by
  simp [comingFrom]

/-- An element taken from one list does not count for what comes from another. -/
@[simp] theorem coming_from_other (index source : Nat) (sources : List Nat) (element : α)
    (elements : List α) (other : source ≠ index) :
    comingFrom index (source :: sources) (element :: elements) =
      comingFrom index sources elements := by
  simp [comingFrom, other]

/-- As many elements come from a list as its position is among the sources, which counts
what every list contributed. -/
theorem coming_from_length (index : Nat) (sources : List Nat) (elements : List α)
    (sourced : sources.length = elements.length) :
    (comingFrom index sources elements).length = sources.count index := by
  induction sources generalizing elements with
  | nil => rfl
  | cons source sources inductionHypothesis =>
    cases elements with
    | nil => cases sourced
    | cons element elements =>
      have rest := inductionHypothesis elements (Nat.succ.inj sourced)
      by_cases own : source = index
      · subst own
        simp [rest]
      · simp [own, rest]

/-- No elements come from empty lists: the interleaving of these is the empty one, and
it is where an induction over mixing starts. -/
theorem interleaves_nil (lists : List (List α))
    (empty : ∀ (index : Nat) (list : List α), lists[index]? = some list → list = []) :
    Interleaves lists [] [] :=
  ⟨rfl, by simp, fun index list found => (empty index list found).symm⟩

/-- A list that an element is taken from holds what is left of it, at the same position
among the lists as before. -/
theorem set_found (lists : List (List α)) (index : Nat) (element : α) (rest : List α)
    (found : lists[index]? = some (element :: rest)) :
    (lists.set index rest)[index]? = some rest := by
  have inside := (List.getElem?_eq_some_iff.mp found).1
  rw [List.getElem?_set_self inside]

/-- An element in front of an interleaving is the first of its list, as long as the rest
mixes what is left of that list with the others. -/
theorem interleaves_cons (lists : List (List α)) (index : Nat) (element : α) (rest : List α)
    (sources : List Nat) (elements : List α) (found : lists[index]? = some (element :: rest))
    (interleaves : Interleaves (lists.set index rest) sources elements) :
    Interleaves lists (index :: sources) (element :: elements) := by
  obtain ⟨sourced, known, whole⟩ := interleaves
  refine ⟨congrArg Nat.succ sourced, ?_, ?_⟩
  · intro source member
    rcases List.mem_cons.mp member with rfl | later
    · exact (List.getElem?_eq_some_iff.mp found).1
    · simpa using known source later
  · intro other list contents
    by_cases own : index = other
    · subst other
      obtain rfl := Option.some.inj (found.symm.trans contents)
      rw [coming_from_self, whole index rest (set_found lists index element rest found)]
    · rw [coming_from_other other index sources element elements own]
      exact whole other list (by rw [List.getElem?_set_ne own]; exact contents)

/-- The first element of an interleaving is the first of its list, and the others are an
interleaving of what is left. -/
theorem interleaves_uncons (lists : List (List α)) (index : Nat) (sources : List Nat)
    (element : α) (elements : List α)
    (interleaves : Interleaves lists (index :: sources) (element :: elements)) :
    ∃ rest, lists[index]? = some (element :: rest) ∧
      Interleaves (lists.set index rest) sources elements := by
  obtain ⟨sourced, known, whole⟩ := interleaves
  have inside := known index List.mem_cons_self
  have found := List.getElem?_eq_getElem inside
  have first := whole index lists[index] found
  rw [coming_from_self] at first
  refine ⟨_, by rw [found, ← first], Nat.succ.inj sourced, ?_, ?_⟩
  · intro source member
    simpa using known source (List.mem_cons_of_mem _ member)
  · intro other list contents
    by_cases own : index = other
    · subst other
      rw [List.getElem?_set_self inside] at contents
      exact Option.some.inj contents
    · rw [List.getElem?_set_ne own] at contents
      rw [← whole other list contents, coming_from_other other index sources element elements own]

/-- What holds of the elements of each list holds of those that come from it, position
by position. -/
theorem interleaves_related (related : Nat → α → Prop) (lists : List (List α))
    (sources : List Nat) (elements : List α) (interleaves : Interleaves lists sources elements)
    (each : ∀ (index : Nat) (list : List α), lists[index]? = some list →
      ∀ element ∈ list, related index element) :
    List.Forall₂ related sources elements := by
  induction sources generalizing lists elements with
  | nil =>
    obtain rfl := List.length_eq_zero_iff.mp interleaves.sourced.symm
    exact .nil
  | cons index sources inductionHypothesis =>
    cases elements with
    | nil => cases interleaves.sourced
    | cons element elements =>
      obtain ⟨rest, found, later⟩ := interleaves_uncons lists index sources element elements
        interleaves
      refine .cons (each index _ found element List.mem_cons_self)
        (inductionHypothesis (lists.set index rest) elements later ?_)
      intro other list contents next member
      by_cases own : index = other
      · subst other
        rw [set_found lists index element rest found] at contents
        obtain rfl := Option.some.inj contents
        exact each index _ found next (List.mem_cons_of_mem _ member)
      · rw [List.getElem?_set_ne own] at contents
        exact each other list contents next member

/-- Where a property tells the elements of one list, those that have it come from that
list. -/
theorem filter_coming_from (property : α → Bool) (index : Nat) (sources : List Nat)
    (elements : List α)
    (tells : List.Forall₂ (fun source element => property element = decide (source = index))
      sources elements) : elements.filter property = comingFrom index sources elements := by
  induction tells with
  | nil => rfl
  | @cons source element sources elements here _ inductionHypothesis =>
    by_cases own : source = index
    · subst own
      rw [List.filter_cons_of_pos (by simpa using here), coming_from_self, inductionHypothesis]
    · rw [List.filter_cons_of_neg (by simpa [own] using here), coming_from_other _ _ _ _ _ own,
        inductionHypothesis]

/-- An interleaving of images is the image of an interleaving of the lists themselves,
with the same sources.

Proof: by induction on the sources. The first image comes from the first element of its
list, and `interleaves_cons` puts that element in front of what the induction hypothesis
gives for the rest. -/
theorem interleaves_preimage (images : List (List β)) (image : α → β) (lists : List (List α))
    (sources : List Nat) (elements : List β) (imaged : images = lists.map (List.map image))
    (interleaves : Interleaves images sources elements) :
    ∃ originals, Interleaves lists sources originals ∧ elements = originals.map image := by
  induction sources generalizing images lists elements with
  | nil =>
    obtain rfl := List.length_eq_zero_iff.mp interleaves.sourced.symm
    refine ⟨[], interleaves_nil lists ?_, rfl⟩
    intro index list found
    have empty := interleaves.whole index (list.map image) (by
      rw [imaged, List.getElem?_map, found]
      rfl)
    simpa using empty.symm
  | cons index sources inductionHypothesis =>
    cases elements with
    | nil => cases interleaves.sourced
    | cons element elements =>
      obtain ⟨rest, found, later⟩ := interleaves_uncons images index sources element elements
        interleaves
      rw [imaged, List.getElem?_map] at found
      obtain ⟨list, listed, mapped⟩ := Option.map_eq_some_iff.mp found
      cases list with
      | nil => cases mapped
      | cons original others =>
        obtain ⟨rfl, rfl⟩ := List.cons.inj mapped
        obtain ⟨originals, interleaved, rfl⟩ := inductionHypothesis
          (images.set index (others.map image)) (lists.set index others) elements
          (by rw [imaged, List.map_set]) later
        exact ⟨original :: originals,
          interleaves_cons lists index original others sources originals listed interleaved, rfl⟩

end EventRecorder.Interleaving
