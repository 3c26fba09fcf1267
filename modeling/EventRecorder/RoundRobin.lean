import Mathlib.Data.List.Nodup

/-!
# Drawing in rounds

Sources are drawn from in rounds. A round draws once from each source that is left,
in any order; a source that is used up leaves, and the next round begins when no
source is due in this one.

No draw ever has nobody to draw from while a source is left, and of any two sources
the one that is still left has been drawn from at most once less often.
-/

namespace EventRecorder.RoundRobin

universe u
variable {α : Type u} [DecidableEq α]

/-- The sources that are left, and those of them that are due in this round. -/
structure Rounds (α : Type u) where
  left : List α
  due : List α

/-- Draw from a source, which is then used up or not. Where nobody is due afterwards a
new round begins. -/
def Rounds.draw (rounds : Rounds α) (source : α) (used : Bool) : Rounds α :=
  let left := if used then rounds.left.erase source else rounds.left
  let due := rounds.due.erase source
  ⟨left, if due = [] then left else due⟩

/-- What holds after some draws: the sources that are due have been drawn from so
often as there were rounds, the others that are left once more, and none more often. -/
structure Even (drawn : List α) (rounds : Rounds α) : Prop where
  distinct : rounds.left.Nodup
  among : rounds.due.Sublist rounds.left
  goes : rounds.due = [] → rounds.left = []
  round : ∃ number, (∀ source ∈ rounds.due, drawn.count source = number) ∧
    (∀ source ∈ rounds.left, source ∉ rounds.due → drawn.count source = number + 1) ∧
    ∀ source, drawn.count source ≤ number + 1

/-- Before any draw all sources are due, and none is ahead of another. -/
theorem even_start (sources : List α) (distinct : sources.Nodup) :
    Even [] ⟨sources, sources⟩ where
  distinct := distinct
  among := List.Sublist.refl sources
  goes := id
  round := ⟨0, fun _ _ => rfl, fun _ member absent => absurd member absent,
    fun _ => Nat.zero_le _⟩

/-- A draw from a source that is due keeps the rounds even: it is ahead of the others by
one at most, until they have drawn. -/
theorem even_draw (drawn : List α) (rounds : Rounds α) (source : α) (used : Bool)
    (even : Even drawn rounds) (due : source ∈ rounds.due) :
    Even (drawn ++ [source]) (rounds.draw source used) := by
  obtain ⟨distinct, among, -, number, dueCount, leftCount, most⟩ := even
  have dueDistinct := distinct.sublist among
  have once (other : α) (different : other ≠ source) :
      (drawn ++ [source]).count other = drawn.count other := by
    simp [List.count_append, Ne.symm different]
  have more : (drawn ++ [source]).count source = number + 1 := by
    simp [List.count_append, dueCount source due]
  -- A source of the round other than this one is left, and not this one if that leaves.
  have leftSublist : (rounds.due.erase source).Sublist
      (if used then rounds.left.erase source else rounds.left) := by
    split_ifs
    · exact among.erase source
    · exact List.erase_sublist.trans among
  have leftDistinct : (if used then rounds.left.erase source else rounds.left).Nodup := by
    split_ifs
    · exact distinct.erase source
    · exact distinct
  have leftMember (other : α)
      (member : other ∈ (if used then rounds.left.erase source else rounds.left)) :
      other ∈ rounds.left := by
    split_ifs at member
    · exact List.mem_of_mem_erase member
    · exact member
  have bound (other : α) : (drawn ++ [source]).count other ≤ number + 1 := by
    by_cases same : other = source
    · exact Nat.le_of_eq (by rw [same, more])
    · rw [once other same]
      exact most other
  simp only [Rounds.draw]
  by_cases ended : rounds.due.erase source = []
  · -- The last one of its round: all that are left have been drawn from once more.
    rw [if_pos ended]
    refine ⟨leftDistinct, List.Sublist.refl _, id, number + 1, ?_, ?_, ?_⟩
    · intro other member
      by_cases same : other = source
      · rw [same, more]
      · rw [once other same]
        apply leftCount other (leftMember other member)
        intro otherDue
        have remaining := (List.mem_erase_of_ne same).mpr otherDue
        rw [ended] at remaining
        cases remaining
    · exact fun other member absent => absurd member absent
    · exact fun other => Nat.le_trans (bound other) (Nat.le_succ _)
  · rw [if_neg ended]
    refine ⟨leftDistinct, leftSublist, fun empty => absurd empty ended, number, ?_, ?_, bound⟩
    · intro other member
      have different : other ≠ source := by
        rintro rfl
        exact dueDistinct.not_mem_erase member
      rw [once other different]
      exact dueCount other (List.mem_of_mem_erase member)
    · intro other member absent
      by_cases same : other = source
      · rw [same, more]
      · rw [once other same]
        exact leftCount other (leftMember other member) fun otherDue =>
          absent ((List.mem_erase_of_ne same).mpr otherDue)

/-- Of any two sources the one that is left has been drawn from at most once less
often. -/
theorem Even.fair {drawn : List α} {rounds : Rounds α} (even : Even drawn rounds)
    (source other : α) (left : source ∈ rounds.left) :
    drawn.count other ≤ drawn.count source + 1 := by
  obtain ⟨number, dueCount, leftCount, most⟩ := even.round
  have atLeast : number ≤ drawn.count source := by
    by_cases due : source ∈ rounds.due
    · exact Nat.le_of_eq (dueCount source due).symm
    · rw [leftCount source left due]
      exact Nat.le_succ number
  exact Nat.le_trans (most other) (Nat.succ_le_succ atLeast)

end EventRecorder.RoundRobin
