import EventRecorder.PostOffice
import Mathlib.Data.List.Perm.Subperm

/-!
# The subscription table

Whatever the interleaving of the callers, the row of a mail type holds the ids of
the callers that want it and are past the row. A first call returns only after
every participant has arrived at the barrier; by then every row is complete, and
since a marked caller returns at once, it stays as it is.
-/

namespace EventRecorder.Subscriptions

open PostOffice

/-- The processes have distinct ids below `b_size`. Callers without a mail type have no
id. -/
structure Admissible (bSize : Nat) (callers : List Caller) : Prop where
  distinct : ∀ (i j : Nat) (left right : Caller), callers[i]? = some left →
    callers[j]? = some right → left.mask ≠ 0 → right.mask ≠ 0 → left.id = right.id → i = j
  inside : ∀ (k : Nat) (caller : Caller), callers[k]? = some caller → caller.mask ≠ 0 →
    0 ≤ caller.id ∧ caller.id < bSize

/-- Callers with distinct ids in range are admissible, whatever their masks. -/
theorem admissible_of_nodup {bSize : Nat} {callers : List Caller}
    (distinct : (callers.map Caller.id).Nodup)
    (inside : ∀ caller ∈ callers, 0 ≤ caller.id ∧ caller.id < bSize) :
    Admissible bSize callers where
  distinct i j left right leftFound rightFound _ _ same := by
    have below : i < callers.length := (List.getElem?_eq_some_iff.mp leftFound).1
    apply (List.getElem?_inj (by simpa using below) distinct).mp
    rw [List.getElem?_map, List.getElem?_map, leftFound, rightFound, Option.map_some,
      Option.map_some, same]
  inside k caller found _ := inside caller (List.mem_of_getElem? found)

/-- A caller that wants a type has a mask, and hence an id of its own. -/
theorem mask_ne_zero (caller : Caller) (row : Nat) (wants : caller.wants row = true) :
    caller.mask ≠ 0 := by
  intro empty
  rw [Caller.wants, empty] at wants
  simp at wants

/-- The rows a place in the function is past, all of them at the barrier. -/
def pcRows : Pc → Nat
  | .outside | .called => 0
  | .subscribing row => row
  | .arriving | .waiting _ => mtSize

/-- The rows a caller is past. A call that has returned is past all. -/
def rowsPast (sys : System) (k : Nat) : Nat :=
  if sys.returned k = 0 then pcRows (sys.pc k) else mtSize

/-! ## Fields after a move -/

section

variable (sys : System) (k other : Nat) (pc : Pc)

/-- The caller that moves on is where it goes. -/
@[simp] theorem goto_pc_self : (sys.goto k pc).pc k = pc := Function.update_self ..

/-- The others are where they were. -/
@[simp] theorem goto_pc_other (different : other ≠ k) : (sys.goto k pc).pc other = sys.pc other :=
  Function.update_of_ne different ..

/-- No call returns by moving on. -/
@[simp] theorem goto_returned : (sys.goto k pc).returned = sys.returned := rfl

/-- The office is as it was. -/
@[simp] theorem goto_office : (sys.goto k pc).office = sys.office := rfl

/-- The barrier has not opened by it. -/
@[simp] theorem goto_generation : (sys.goto k pc).generation = sys.generation := rfl

/-- Nobody has arrived by it. -/
@[simp] theorem goto_arrived : (sys.goto k pc).arrived = sys.arrived := rfl

/-- A caller whose call returns is outside again. -/
@[simp] theorem finish_pc_self : (sys.finish k).pc k = .outside := Function.update_self ..

/-- The others are where they were. -/
@[simp] theorem finish_pc_other (different : other ≠ k) : (sys.finish k).pc other = sys.pc other :=
  Function.update_of_ne different ..

/-- One more of its calls has returned. -/
@[simp] theorem finish_returned_self : (sys.finish k).returned k = sys.returned k + 1 :=
  Function.update_self ..

/-- The calls of others have not. -/
@[simp] theorem finish_returned_other (different : other ≠ k) :
    (sys.finish k).returned other = sys.returned other := Function.update_of_ne different ..

/-- The office is as it was. -/
@[simp] theorem finish_office : (sys.finish k).office = sys.office := rfl

/-- The barrier has not opened by it. -/
@[simp] theorem finish_generation : (sys.finish k).generation = sys.generation := rfl

/-- Nobody has arrived by it. -/
@[simp] theorem finish_arrived : (sys.finish k).arrived = sys.arrived := rfl

end

/-- A move leaves the place and the returned calls of every other caller. -/
theorem moves_other {callers : List Caller} {sys after : System} {k : Nat}
    (moves : Moves callers sys k after) (other : Nat) (different : other ≠ k) :
    after.pc other = sys.pc other ∧ after.returned other = sys.returned other := by
  cases moves <;> simp [different]

/-- No move changes what the barrier was initialised for. -/
theorem moves_barrier {callers : List Caller} {sys after : System} {k : Nat}
    (moves : Moves callers sys k after) : after.barrier = sys.barrier := by
  cases moves <;> rfl

/-! ## Rows of the allocation -/

/-- Positions of different rows differ, as long as both are inside their rows. -/
theorem position_ne (office : Office) (row other i j : Nat) (different : other ≠ row)
    (left : i < office.bSize) (right : j < office.bSize) :
    office.position other j ≠ office.position row i := by
  intro same
  unfold Office.position at same
  have quotient : ∀ row i, i < office.bSize → (office.bSize * row + i) / office.bSize = row := by
    intro row i below
    rw [Nat.mul_add_div (by omega), Nat.div_eq_of_lt below, Nat.add_zero]
  have rows := congrArg (· / office.bSize) same
  rw [quotient row i left, quotient other j right] at rows
  exact different rows

/-- An append puts the id behind those of its row. -/
theorem append_row_self (office : Office) (row : Nat) (id : Int) :
    (office.append row id).row row = office.row row ++ [id] := by
  have size : (office.append row id).sSize row = office.sSize row + 1 := Function.update_self ..
  rw [Office.row, size, List.range_succ, List.map_append, List.map_singleton]
  congr 1
  · apply List.map_congr_left
    intro i member
    have below := List.mem_range.mp member
    apply Function.update_of_ne
    simp only [Office.position, Office.append]
    omega
  · exact congrArg (fun last => [last]) (Function.update_self ..)

/-- It leaves the other rows, if it is inside its own. -/
theorem append_row_other (office : Office) (row other : Nat) (id : Int) (different : other ≠ row)
    (room : office.sSize row < office.bSize) (fits : office.sSize other ≤ office.bSize) :
    (office.append row id).row other = office.row other := by
  have size : (office.append row id).sSize other = office.sSize other :=
    Function.update_of_ne different ..
  rw [Office.row, Office.row, size]
  apply List.map_congr_left
  intro i member
  have below := List.mem_range.mp member
  exact Function.update_of_ne (position_ne office row other _ i different room (by omega)) ..

/-- Distinct ids below a bound are at most as many, which keeps every row inside its
part of the allocation. -/
theorem ids_length_le (ids : List Int) (bound : Nat) (distinct : ids.Nodup)
    (inside : ∀ id ∈ ids, 0 ≤ id ∧ id < bound) : ids.length ≤ bound := by
  have among : ids ⊆ (List.range bound).map Int.ofNat := by
    intro id member
    obtain ⟨lower, upper⟩ := inside id member
    refine List.mem_map.mpr ⟨id.toNat, List.mem_range.mpr (by omega), ?_⟩
    exact Int.toNat_of_nonneg lower
  simpa using (distinct.subperm among).length_le

/-! ## The invariant -/

/-- What holds at every point of every interleaving. It is the invariant of the module. -/
structure Subscribed (bSize : Nat) (callers : List Caller) (sys : System) : Prop where
  size : sys.office.bSize = bSize
  /-- The barrier does not open for fewer than the callers. -/
  counted : callers.length ≤ sys.barrier
  /-- A process is unmarked exactly before its first call marks it. -/
  marked : ∀ (k : Nat) (caller : Caller), callers[k]? = some caller → caller.mask ≠ 0 →
    (sys.office.subi caller.id = 0 ↔
      sys.returned k = 0 ∧ (sys.pc k = .outside ∨ sys.pc k = .called))
  /-- A process that has returned once does not subscribe again. -/
  once : ∀ (k : Nat) (caller : Caller), callers[k]? = some caller → caller.mask ≠ 0 →
    sys.returned k ≠ 0 → sys.pc k = .outside ∨ sys.pc k = .called
  below : ∀ k row, sys.pc k = .subscribing row → row ≤ mtSize
  /-- A row holds, once each, the ids that want it and are past it. -/
  rows : ∀ row < mtSize, (sys.office.row row).Nodup ∧
    ∀ id, id ∈ sys.office.row row ↔ ∃ (k : Nat) (caller : Caller), callers[k]? = some caller ∧
      caller.id = id ∧ caller.wants row = true ∧ row < rowsPast sys k
  /-- Before the barrier opens, no call has returned, and the barrier counts the
  callers that wait. -/
  closed : sys.generation = 0 → (∀ k, sys.returned k = 0) ∧
    sys.arrived = ((Finset.range callers.length).filter fun k => sys.pc k = .waiting 0).card
  waits : ∀ k generation, sys.pc k = .waiting generation → generation ≤ sys.generation
  /-- After it has opened, every caller is past every row. -/
  opened : 0 < sys.generation → ∀ k < callers.length, rowsPast sys k = mtSize

variable {bSize : Nat} {callers : List Caller} {sys after : System} {k : Nat}

/-- The ids in a row fit it, being distinct ids of boxes. -/
theorem Subscribed.row_fits (admissible : Admissible bSize callers)
    (subscribed : Subscribed bSize callers sys) (row : Nat) (below : row < mtSize) :
    sys.office.sSize row ≤ bSize := by
  obtain ⟨distinct, members⟩ := subscribed.rows row below
  have fits := ids_length_le (sys.office.row row) bSize distinct (by
    intro id member
    obtain ⟨k, caller, found, rfl, wants, _⟩ := (members id).mp member
    exact admissible.inside k caller found (mask_ne_zero caller row wants))
  simpa [Office.row] using fits

/-- A caller that appends is not in the row yet, and there is room for it. -/
theorem Subscribed.append_room (admissible : Admissible bSize callers)
    (subscribed : Subscribed bSize callers sys) (caller : Caller) (row : Nat)
    (found : callers[k]? = some caller) (pc : sys.pc k = .subscribing row) (below : row < mtSize)
    (wants : caller.wants row = true) :
    sys.returned k = 0 ∧ caller.id ∉ sys.office.row row ∧ sys.office.sSize row < bSize := by
  obtain ⟨distinct, members⟩ := subscribed.rows row below
  have some := mask_ne_zero caller row wants
  have first : sys.returned k = 0 := by
    by_contra returned
    have place := subscribed.once k caller found some returned
    simp [pc] at place
  have new : caller.id ∉ sys.office.row row := by
    intro member
    obtain ⟨other, twin, otherFound, same, otherWants, past⟩ := (members _).mp member
    obtain rfl := admissible.distinct other k twin caller otherFound found
      (mask_ne_zero twin row otherWants) some same
    simp [rowsPast, first, pc, pcRows] at past
  have longer := ids_length_le (caller.id :: sys.office.row row) bSize
    (List.nodup_cons.mpr ⟨new, distinct⟩) (by
      intro id member
      rcases List.mem_cons.mp member with rfl | member
      · exact admissible.inside k caller found some
      · obtain ⟨other, twin, otherFound, rfl, otherWants, _⟩ := (members id).mp member
        exact admissible.inside other twin otherFound (mask_ne_zero twin row otherWants))
  refine ⟨first, new, ?_⟩
  simpa [Office.row, Nat.succ_le_iff] using longer

/-- Before any call, in an office with no marks and empty rows. -/
theorem initial_subscribed (office : Office) (barrier : Nat) (size : office.bSize = bSize)
    (counted : callers.length ≤ barrier) (unmarked : ∀ id, office.subi id = 0)
    (none : ∀ row, office.sSize row = 0) :
    Subscribed bSize callers (System.initial office barrier) := by
  refine ⟨size, counted, ?_, ?_, ?_, ?_, ?_, ?_, ?_⟩
  · intro k caller _ _
    simp [System.initial, unmarked]
  · intro k caller _ _ returned
    exact absurd rfl returned
  · intro k row pc
    cases pc
  · intro row _
    simp [System.initial, Office.row, none, rowsPast, pcRows]
  · intro _
    simp [System.initial]
  · intro k generation pc
    cases pc
  · intro opened
    cases opened

/-! ## One move -/

/-- A move takes the mark of its own caller at most, and only when its first call sets
it. -/
theorem moves_marked (admissible : Admissible bSize callers)
    (subscribed : Subscribed bSize callers sys) (moves : Moves callers sys k after)
    (j : Nat) (caller : Caller) (found : callers[j]? = some caller) (some : caller.mask ≠ 0) :
    after.office.subi caller.id = 0 ↔
      after.returned j = 0 ∧ (after.pc j = .outside ∨ after.pc j = .called) := by
  have before := subscribed.marked j caller found some
  by_cases own : j = k
  · subst own
    cases moves with
    | stays => exact before
    | calls _ _ pc => simpa [pc] using before
    | ignores twin twinFound _ empty =>
      obtain rfl := Option.some.inj (twinFound.symm.trans found)
      exact absurd empty some
    | restarted twin twinFound _ _ marked =>
      obtain rfl := Option.some.inj (twinFound.symm.trans found)
      simpa using marked
    | marks twin twinFound =>
      obtain rfl := Option.some.inj (twinFound.symm.trans found)
      simp [Office.mark]
    | appends _ _ _ pc => simpa [pc, Office.append] using before
    | skips _ _ _ pc => simpa [pc] using before
    | subscribed _ _ _ pc => simpa [pc] using before
    | waits _ _ pc => simpa [pc] using before
    | releases _ _ pc => simpa [pc] using before
    | leaves _ _ _ pc => simpa [pc] using before
  · obtain ⟨pc, returned⟩ := moves_other moves j own
    rw [pc, returned, ← before]
    cases moves with
    | marks twin twinFound _ twinSome =>
      have apart : caller.id ≠ twin.id := fun same =>
        own (admissible.distinct j k caller twin found twinFound some twinSome same)
      have kept : (sys.office.mark twin.id).subi caller.id = sys.office.subi caller.id :=
        Function.update_of_ne apart ..
      simp [kept]
    | _ => rfl

/-- A caller that has returned only ever calls and returns. -/
theorem moves_once (subscribed : Subscribed bSize callers sys)
    (moves : Moves callers sys k after) (j : Nat) (caller : Caller)
    (found : callers[j]? = some caller) (some : caller.mask ≠ 0) (returned : after.returned j ≠ 0) :
    after.pc j = .outside ∨ after.pc j = .called := by
  have before := subscribed.once j caller found some
  have mark := subscribed.marked j caller found some
  by_cases own : j = k
  · subst own
    cases moves with
    | stays => exact before returned
    | calls => simp
    | ignores twin twinFound _ empty =>
      obtain rfl := Option.some.inj (twinFound.symm.trans found)
      exact absurd empty some
    | restarted => simp
    | marks twin twinFound pc _ unmarked =>
      obtain rfl := Option.some.inj (twinFound.symm.trans found)
      exact absurd (mark.mp unmarked).1 returned
    | appends _ _ _ pc => simpa [pc] using before returned
    | skips _ _ _ pc => simpa [pc] using before returned
    | subscribed _ _ _ pc => simpa [pc] using before returned
    | waits _ _ pc => simpa [pc] using before returned
    | releases => simp
    | leaves => simp
  · obtain ⟨pc, same⟩ := moves_other moves j own
    rw [pc]
    exact before (same ▸ returned)

/-- The loop stops at the last row. -/
theorem moves_below (subscribed : Subscribed bSize callers sys)
    (moves : Moves callers sys k after) (j row : Nat) (pc : after.pc j = .subscribing row) :
    row ≤ mtSize := by
  by_cases own : j = k
  · subst own
    cases moves with
    | stays => exact subscribed.below j row pc
    | appends _ _ last _ below =>
      obtain rfl : last + 1 = row := by simpa using pc
      exact below
    | skips _ _ last _ below =>
      obtain rfl : last + 1 = row := by simpa using pc
      exact below
    | marks =>
      obtain rfl : 0 = row := by simpa using pc
      exact Nat.zero_le _
    | _ => simp at pc
  · rw [(moves_other moves j own).1] at pc
    exact subscribed.below j row pc

/-- No caller is past more than all rows. -/
theorem Subscribed.past_le (subscribed : Subscribed bSize callers sys) (j : Nat) :
    rowsPast sys j ≤ mtSize := by
  unfold rowsPast
  split_ifs
  · cases pc : sys.pc j with
    | subscribing row => exact subscribed.below j row pc
    | _ => simp [pcRows]
  · exact Nat.le_refl _

/-- The rows another caller is past do not change with a move. -/
theorem moves_past_other (moves : Moves callers sys k after) (j : Nat) (different : j ≠ k) :
    rowsPast after j = rowsPast sys j := by
  obtain ⟨pc, returned⟩ := moves_other moves j different
  rw [rowsPast, rowsPast, pc, returned]

/-- A caller never falls back, even when it is restarted. -/
theorem moves_past (subscribed : Subscribed bSize callers sys)
    (moves : Moves callers sys k after) (j : Nat) : rowsPast sys j ≤ rowsPast after j := by
  by_cases own : j = k
  · subst own
    have bound := subscribed.past_le j
    cases moves with
    | stays => exact Nat.le_refl _
    | calls _ _ pc => simp [rowsPast, pc, pcRows]
    | ignores => simpa [rowsPast, pcRows] using bound
    | restarted => simpa [rowsPast] using bound
    | marks _ _ pc => simp [rowsPast, pc, pcRows]
    | appends _ _ row pc =>
      simp only [rowsPast, pc, pcRows, goto_returned, goto_pc_self]
      split_ifs <;> omega
    | skips _ _ row pc =>
      simp only [rowsPast, pc, pcRows, goto_returned, goto_pc_self]
      split_ifs <;> omega
    | subscribed _ _ row pc => simpa [rowsPast, pc, pcRows] using bound
    | waits _ _ pc => simp [rowsPast, pc, pcRows]
    | releases => simpa [rowsPast] using bound
    | leaves => simpa [rowsPast] using bound
  · exact (moves_past_other moves j own).ge

/-- A move that appends nothing takes no caller past a row it wants. -/
theorem moves_past_iff (subscribed : Subscribed bSize callers sys)
    (moves : Moves callers sys k after)
    (quiet : ∀ caller row, callers[k]? = some caller → sys.pc k = .subscribing row →
      caller.wants row = false ∨ mtSize ≤ row)
    (j row : Nat) (caller : Caller) (found : callers[j]? = some caller) (below : row < mtSize)
    (wants : caller.wants row = true) : row < rowsPast after j ↔ row < rowsPast sys j := by
  by_cases own : j = k
  · subst own
    constructor
    · have some := mask_ne_zero caller row wants
      have mark := subscribed.marked j caller found some
      intro past
      by_contra behind
      cases moves with
      | stays => exact behind past
      | calls _ _ pc => exact behind (by simpa [rowsPast, pc, pcRows] using past)
      | ignores twin twinFound _ empty =>
        obtain rfl := Option.some.inj (twinFound.symm.trans found)
        exact some empty
      | restarted twin twinFound pc _ marked =>
        obtain rfl := Option.some.inj (twinFound.symm.trans found)
        have returned : sys.returned j ≠ 0 := fun none => marked (mark.mpr ⟨none, .inr pc⟩)
        exact behind (by simpa [rowsPast, returned] using below)
      | marks _ _ pc => exact behind (by simpa [rowsPast, pc, pcRows] using past)
      | appends twin twinFound last pc lastBelow lastWants =>
        rcases quiet twin last twinFound pc with other | late
        · simp [other] at lastWants
        · omega
      | skips twin twinFound last pc _ other =>
        obtain rfl := Option.some.inj (twinFound.symm.trans found)
        have different : row ≠ last := by
          rintro rfl
          simp [other] at wants
        simp only [rowsPast, pc, pcRows, goto_returned, goto_pc_self] at past behind
        split_ifs at past behind <;> omega
      | subscribed _ _ last pc late =>
        simp only [rowsPast, pc, pcRows] at behind
        split_ifs at behind <;> omega
      | waits _ _ pc => exact behind (by simpa [rowsPast, pc, pcRows] using below)
      | releases _ _ pc => exact behind (by simpa [rowsPast, pc, pcRows] using below)
      | leaves _ _ _ pc => exact behind (by simpa [rowsPast, pc, pcRows] using below)
    · intro past
      exact Nat.lt_of_lt_of_le past (moves_past subscribed moves j)
  · rw [moves_past_other moves j own]

/-- A row holds, each once, the ids of the callers that want it and are past it. -/
def RowHolds (callers : List Caller) (sys : System) (row : Nat) : Prop :=
  (sys.office.row row).Nodup ∧
    ∀ id, id ∈ sys.office.row row ↔ ∃ (k : Nat) (caller : Caller), callers[k]? = some caller ∧
      caller.id = id ∧ caller.wants row = true ∧ row < rowsPast sys k

/-- A row that is left as it is, by callers that stay on their side of it. -/
theorem row_unchanged (row : Nat) (holds : RowHolds callers sys row)
    (same : after.office.row row = sys.office.row row)
    (past : ∀ (j : Nat) (caller : Caller), callers[j]? = some caller → caller.wants row = true →
      (row < rowsPast after j ↔ row < rowsPast sys j)) :
    RowHolds callers after row := by
  obtain ⟨distinct, members⟩ := holds
  rw [RowHolds, same]
  refine ⟨distinct, fun id => ?_⟩
  rw [members id]
  constructor
  · rintro ⟨j, caller, found, own, wants, was⟩
    exact ⟨j, caller, found, own, wants, (past j caller found wants).mpr was⟩
  · rintro ⟨j, caller, found, own, wants, is⟩
    exact ⟨j, caller, found, own, wants, (past j caller found wants).mp is⟩

/-- A row that the next caller of it appends to holds the ids of one caller more. -/
theorem row_appended (row : Nat) (holds : RowHolds callers sys row) (caller : Caller)
    (found : callers[k]? = some caller) (wants : caller.wants row = true)
    (appended : after.office.row row = sys.office.row row ++ [caller.id])
    (new : caller.id ∉ sys.office.row row) (past : row < rowsPast after k)
    (others : ∀ j, j ≠ k → rowsPast after j = rowsPast sys j)
    (further : ∀ j, rowsPast sys j ≤ rowsPast after j) : RowHolds callers after row := by
  obtain ⟨distinct, members⟩ := holds
  rw [RowHolds, appended]
  refine ⟨?_, fun id => ?_⟩
  · refine List.nodup_append.mpr ⟨distinct, List.nodup_singleton _, ?_⟩
    intro id member other single
    rw [List.mem_singleton.mp single]
    rintro rfl
    exact new member
  · rw [List.mem_append, List.mem_singleton, members id]
    constructor
    · rintro (⟨j, twin, twinFound, same, twinWants, was⟩ | rfl)
      · exact ⟨j, twin, twinFound, same, twinWants, Nat.lt_of_lt_of_le was (further j)⟩
      · exact ⟨k, caller, found, rfl, wants, past⟩
    · rintro ⟨j, twin, twinFound, same, twinWants, is⟩
      by_cases itself : j = k
      · subst itself
        obtain rfl := Option.some.inj (twinFound.symm.trans found)
        exact .inr same.symm
      · exact .inl ⟨j, twin, twinFound, same, twinWants, by rwa [others j itself] at is⟩

/-- A row gains the id of the caller that appends to it; other moves leave every
row as it is. -/
theorem moves_rows (admissible : Admissible bSize callers)
    (subscribed : Subscribed bSize callers sys) (moves : Moves callers sys k after) (row : Nat)
    (below : row < mtSize) : RowHolds callers after row := by
  have holds : RowHolds callers sys row := subscribed.rows row below
  -- A move that neither appends nor passes a row that its caller wants.
  have quietly : after.office.row row = sys.office.row row →
      (∀ caller last, callers[k]? = some caller → sys.pc k = .subscribing last →
        caller.wants last = false ∨ mtSize ≤ last) → RowHolds callers after row :=
    fun same quiet => row_unchanged row holds same fun j caller found wants =>
      moves_past_iff subscribed moves quiet j row caller found below wants
  cases moves with
  | stays => exact holds
  | calls _ _ pc => exact quietly rfl (by simp [pc])
  | ignores _ _ pc => exact quietly rfl (by simp [pc])
  | restarted _ _ pc => exact quietly rfl (by simp [pc])
  | marks _ _ pc => exact quietly rfl (by simp [pc])
  | appends caller found last pc lastBelow lastWants =>
    obtain ⟨first, new, room⟩ :=
      subscribed.append_room admissible caller last found pc lastBelow lastWants
    have moves := Moves.appends caller found last pc lastBelow lastWants
    have advanced : rowsPast ({ sys with office := sys.office.append last caller.id }.goto k
        (.subscribing (last + 1))) k = last + 1 := by
      simp [rowsPast, first, pcRows]
    have was : rowsPast sys k = last := by simp [rowsPast, first, pc, pcRows]
    have others := moves_past_other moves
    by_cases own : row = last
    · subst own
      have past : row < rowsPast ({ sys with office := sys.office.append row caller.id }.goto k
          (.subscribing (row + 1))) k := by
        rw [advanced]
        exact Nat.lt_succ_self row
      apply row_appended row holds caller found lastWants _ new past others
        (moves_past subscribed moves)
      rw [goto_office, append_row_self]
    · have fits := subscribed.row_fits admissible row below
      have size := subscribed.size
      refine row_unchanged row holds ?_ ?_
      · exact append_row_other _ _ _ _ own (size.symm ▸ room) (size.symm ▸ fits)
      · intro j twin _ _
        by_cases itself : j = k
        · subst itself
          rw [advanced, was]
          omega
        · rw [others j itself]
  | skips caller found last pc _ other =>
    refine quietly rfl ?_
    rintro twin again twinFound place
    obtain rfl := Option.some.inj (twinFound.symm.trans found)
    obtain rfl := Pc.subscribing.inj (pc.symm.trans place)
    exact .inl other
  | subscribed _ _ last pc late =>
    refine quietly rfl ?_
    rintro twin again _ place
    obtain rfl := Pc.subscribing.inj (pc.symm.trans place)
    exact .inr late
  | waits _ _ pc => exact quietly rfl (by simp [pc])
  | releases _ _ pc => exact quietly rfl (by simp [pc])
  | leaves _ _ _ pc => exact quietly rfl (by simp [pc])

/-- The callers at the first barrier, when one that is not among them moves, are the
same. -/
theorem waiting_same (callers : List Caller) (sys after : System) (k : Nat)
    (others : ∀ j, j ≠ k → after.pc j = sys.pc j) (before : sys.pc k ≠ .waiting 0)
    (moved : after.pc k ≠ .waiting 0) :
    ((Finset.range callers.length).filter fun j => after.pc j = .waiting 0) =
      (Finset.range callers.length).filter fun j => sys.pc j = .waiting 0 := by
  apply Finset.filter_congr
  intro j _
  by_cases own : j = k
  · rw [own]
    exact iff_of_false moved before
  · rw [others j own]

/-- While the barrier is closed it counts the callers that wait, and none has returned. -/
theorem moves_closed (subscribed : Subscribed bSize callers sys)
    (moves : Moves callers sys k after) (closed : after.generation = 0) :
    (∀ j, after.returned j = 0) ∧
      after.arrived =
        ((Finset.range callers.length).filter fun j => after.pc j = .waiting 0).card := by
  have others := fun j different => (moves_other moves j different).1
  -- A move to a place other than the barrier, from a place other than the barrier.
  have aside : ∀ pc, sys.generation = 0 → sys.pc k ≠ .waiting 0 → pc ≠ .waiting 0 →
      sys.arrived = ((Finset.range callers.length).filter fun j =>
        (sys.goto k pc).pc j = .waiting 0).card := by
    intro pc closed before moved
    have elsewhere := fun j different => goto_pc_other sys k j pc different
    rw [waiting_same callers sys (sys.goto k pc) k elsewhere before (by simpa using moved)]
    exact (subscribed.closed closed).2
  cases moves with
  | stays => exact subscribed.closed closed
  | calls _ _ pc =>
    exact ⟨(subscribed.closed closed).1, aside .called closed (by simp [pc]) (by simp)⟩
  | ignores _ _ pc =>
    exact ⟨(subscribed.closed closed).1, aside .arriving closed (by simp [pc]) (by simp)⟩
  | restarted caller found pc some marked =>
    have returned := (subscribed.closed closed).1 k
    exact absurd ((subscribed.marked k caller found some).mpr ⟨returned, .inr pc⟩) marked
  | marks _ _ pc =>
    exact ⟨(subscribed.closed closed).1, aside (.subscribing 0) closed (by simp [pc]) (by simp)⟩
  | appends _ _ row pc =>
    exact ⟨(subscribed.closed closed).1,
      aside (.subscribing (row + 1)) closed (by simp [pc]) (by simp)⟩
  | skips _ _ row pc =>
    exact ⟨(subscribed.closed closed).1,
      aside (.subscribing (row + 1)) closed (by simp [pc]) (by simp)⟩
  | subscribed _ _ _ pc =>
    exact ⟨(subscribed.closed closed).1, aside .arriving closed (by simp [pc]) (by simp)⟩
  | waits caller found pc =>
    have before : sys.generation = 0 := closed
    have below : k < callers.length := (List.getElem?_eq_some_iff.mp found).1
    refine ⟨(subscribed.closed before).1, ?_⟩
    have gained : ((Finset.range callers.length).filter fun j =>
        ({ sys with arrived := sys.arrived + 1 }.goto k (.waiting sys.generation)).pc j =
          .waiting 0) =
        insert k ((Finset.range callers.length).filter fun j => sys.pc j = .waiting 0) := by
      ext j
      by_cases own : j = k
      · simp [own, below, before]
      · simp [own]
    rw [gained, Finset.card_insert_of_notMem (by simp [pc]), ← (subscribed.closed before).2]
    rfl
  | releases => exact absurd closed (Nat.succ_ne_zero _)
  | leaves _ _ generation pc released =>
    have earlier := subscribed.waits k generation pc
    have before : sys.generation = 0 := closed
    omega

/-- Nobody waits for a generation to come, so that an open barrier holds nobody back. -/
theorem moves_waits (subscribed : Subscribed bSize callers sys) (moves : Moves callers sys k after)
    (j generation : Nat) (pc : after.pc j = .waiting generation) :
    generation ≤ after.generation := by
  have advances : sys.generation ≤ after.generation := by
    cases moves <;> simp
  by_cases own : j = k
  · subst own
    cases moves with
    | stays => exact subscribed.waits j generation pc
    | waits =>
      obtain rfl : sys.generation = generation := by simpa using pc
      exact Nat.le_refl _
    | _ => simp at pc
  · rw [(moves_other moves j own).1] at pc
    exact (subscribed.waits j generation pc).trans advances

/-- The callers at the closed barrier are others than one that is about to arrive there. -/
theorem waiting_others (callers : List Caller) (sys : System) (pc : sys.pc k = .arriving) :
    ((Finset.range callers.length).filter fun j => sys.pc j = .waiting 0) ⊆
      (Finset.range callers.length).erase k := by
  intro i member
  obtain ⟨range, waiting⟩ := Finset.mem_filter.mp member
  refine Finset.mem_erase.mpr ⟨?_, range⟩
  rintro rfl
  simp [pc] at waiting

/-- With one that is about to arrive there are no more of them than callers. -/
theorem arriving_room (subscribed : Subscribed bSize callers sys) (closed : sys.generation = 0)
    (caller : Caller) (found : callers[k]? = some caller) (pc : sys.pc k = .arriving) :
    sys.arrived + 1 ≤ callers.length := by
  have inside : k < callers.length := (List.getElem?_eq_some_iff.mp found).1
  have few := Finset.card_le_card (waiting_others callers sys pc)
  rw [← (subscribed.closed closed).2, Finset.card_erase_of_mem (Finset.mem_range.mpr inside),
    Finset.card_range] at few
  omega

/-- When the last caller arrives at the closed barrier, all others wait there, by the
count. -/
theorem others_wait (subscribed : Subscribed bSize callers sys) (closed : sys.generation = 0)
    (caller : Caller) (found : callers[k]? = some caller) (pc : sys.pc k = .arriving)
    (last : sys.arrived + 1 = sys.barrier) (j : Nat) (other : j ≠ k)
    (below : j < callers.length) : sys.pc j = .waiting 0 := by
  have count := (subscribed.closed closed).2
  have inside : k < callers.length := (List.getElem?_eq_some_iff.mp found).1
  have counted := subscribed.counted
  have all := Finset.eq_of_subset_of_card_le (waiting_others callers sys pc) (by
    rw [Finset.card_erase_of_mem (Finset.mem_range.mpr inside), Finset.card_range]
    omega)
  have member : j ∈ (Finset.range callers.length).erase k :=
    Finset.mem_erase.mpr ⟨other, Finset.mem_range.mpr below⟩
  rw [← all] at member
  exact (Finset.mem_filter.mp member).2

/-- The barrier opens when every caller is past every row, since each has arrived at it. -/
theorem moves_opened (subscribed : Subscribed bSize callers sys)
    (moves : Moves callers sys k after) (opened : 0 < after.generation) (j : Nat)
    (below : j < callers.length) : rowsPast after j = mtSize := by
  have keeps : rowsPast sys j = mtSize → rowsPast after j = mtSize := by
    intro past
    have further := moves_past subscribed moves j
    have bound : rowsPast after j ≤ mtSize := by
      unfold rowsPast
      split_ifs
      · cases pc : after.pc j with
        | subscribing row => exact moves_below subscribed moves j row pc
        | _ => simp [pcRows]
      · exact Nat.le_refl _
    omega
  by_cases before : 0 < sys.generation
  · exact keeps (subscribed.opened before j below)
  · have closed : sys.generation = 0 := by omega
    cases moves with
    | releases caller found pc last =>
      by_cases own : j = k
      · simp [own, rowsPast]
      · -- All but the caller itself wait, so this one does.
        apply keeps
        have waiting := others_wait subscribed closed caller found pc last j own below
        simp [rowsPast, waiting, pcRows]
    | _ => exact absurd opened before

/-- Every move keeps the invariant, by cases on the move for each of its parts. -/
theorem moves_subscribed (admissible : Admissible bSize callers)
    (subscribed : Subscribed bSize callers sys) (moves : Moves callers sys k after) :
    Subscribed bSize callers after where
  size := by
    cases moves <;> exact subscribed.size
  counted := by
    rw [moves_barrier moves]
    exact subscribed.counted
  marked := moves_marked admissible subscribed moves
  once := moves_once subscribed moves
  below := moves_below subscribed moves
  rows := moves_rows admissible subscribed moves
  closed := moves_closed subscribed moves
  waits := moves_waits subscribed moves
  opened := moves_opened subscribed moves

/-! ## Runs -/

/-- Every interleaving keeps the invariant. -/
theorem run_subscribed (admissible : Admissible bSize callers)
    (initial : Subscribed bSize callers sys) (schedule : List Nat) :
    Subscribed bSize callers (Runs.after (subscribe callers) sys schedule) := by
  induction schedule generalizing sys with
  | nil => exact initial
  | cons k schedule inductionHypothesis =>
    exact inductionHypothesis (moves_subscribed admissible initial (subscribe_moves callers sys k))

/-- An append is inside its row, because there is room for one id more than are in it. -/
theorem Subscribed.written_inside (admissible : Admissible bSize callers)
    (subscribed : Subscribed bSize callers sys) (k row i : Nat)
    (writes : written callers sys k = some (row, i)) : row < mtSize ∧ i < bSize := by
  unfold written at writes
  split at writes
  · rename_i caller last found pc
    split_ifs at writes with appends
    obtain ⟨rfl, rfl⟩ : last = row ∧ sys.office.sSize last = i := by simpa using writes
    obtain ⟨below, wants⟩ := appends
    exact ⟨below, (subscribed.append_room admissible caller last found pc below wants).2.2⟩
  · cases writes

/-- A table where every row holds, once each, the ids of the callers that want it. -/
structure Exact (callers : List Caller) (office : Office) : Prop where
  rows : ∀ row < mtSize,
    (office.row row).Perm ((callers.filter fun caller => caller.wants row).map Caller.id)
  once : ∀ row < mtSize, (office.row row).Nodup
  sizes : ∀ row < mtSize, office.sSize row = (callers.filter fun caller => caller.wants row).length

/-- The ids of the callers that want a type are distinct. -/
theorem wanting_nodup (admissible : Admissible bSize callers) (row : Nat) :
    ((callers.filter fun caller => caller.wants row).map Caller.id).Nodup := by
  have apart : callers.Pairwise fun left right =>
      left.mask ≠ 0 → right.mask ≠ 0 → left.id ≠ right.id := by
    rw [List.pairwise_iff_getElem]
    intro i j left right before leftSome rightSome same
    have equal := admissible.distinct i j _ _ (List.getElem?_eq_getElem left)
      (List.getElem?_eq_getElem right) leftSome rightSome same
    omega
  rw [List.Nodup, List.pairwise_map]
  apply (apart.filter _).imp_of_mem
  intro left right leftMember rightMember different
  exact different (mask_ne_zero left row (List.mem_filter.mp leftMember).2)
    (mask_ne_zero right row (List.mem_filter.mp rightMember).2)

/-- After the first barrier the table is exact: each row holds the ids of those that
want it. -/
theorem Subscribed.exact (admissible : Admissible bSize callers)
    (subscribed : Subscribed bSize callers sys) (opened : 0 < sys.generation) :
    Exact callers sys.office := by
  have rows : ∀ row < mtSize, (sys.office.row row).Perm
      ((callers.filter fun caller => caller.wants row).map Caller.id) := by
    intro row below
    obtain ⟨distinct, members⟩ := subscribed.rows row below
    rw [List.perm_ext_iff_of_nodup distinct (wanting_nodup admissible row)]
    intro id
    rw [members id, List.mem_map]
    constructor
    · rintro ⟨k, caller, found, own, wants, _⟩
      exact ⟨caller, List.mem_filter.mpr ⟨List.mem_of_getElem? found, wants⟩, own⟩
    · rintro ⟨caller, member, own⟩
      obtain ⟨among, wants⟩ := List.mem_filter.mp member
      obtain ⟨k, found⟩ := List.mem_iff_getElem?.mp among
      have position : k < callers.length := (List.getElem?_eq_some_iff.mp found).1
      exact ⟨k, caller, found, own, wants, by rwa [subscribed.opened opened k position]⟩
  refine ⟨rows, fun row below => (subscribed.rows row below).1, fun row below => ?_⟩
  simpa [Office.row] using (rows row below).length_eq

/-- Once a call has returned, the barrier has opened. -/
theorem Subscribed.opened_of_returned (subscribed : Subscribed bSize callers sys)
    (returned : 0 < sys.returned k) : 0 < sys.generation := by
  by_contra closed
  have none := (subscribed.closed (by omega)).1 k
  omega

/-- After the first barrier a move leaves the office as it is, as everybody is marked
and past all rows. -/
theorem moves_office (subscribed : Subscribed bSize callers sys)
    (moves : Moves callers sys k after) (opened : 0 < sys.generation) :
    after.office = sys.office ∧ 0 < after.generation := by
  have past : ∀ (caller : Caller), callers[k]? = some caller → rowsPast sys k = mtSize :=
    fun caller found => subscribed.opened opened k (List.getElem?_eq_some_iff.mp found).1
  cases moves with
  | marks caller found pc some unmarked =>
    obtain ⟨first, _⟩ := (subscribed.marked k caller found some).mp unmarked
    have none := past caller found
    simp [rowsPast, first, pc, pcRows, mtSize] at none
  | appends caller found row pc below wants =>
    have first : sys.returned k = 0 := by
      by_contra returned
      have place := subscribed.once k caller found (mask_ne_zero caller row wants) returned
      simp [pc] at place
    have all := past caller found
    simp only [rowsPast, first, pc, pcRows, if_true] at all
    omega
  | releases => exact ⟨rfl, Nat.succ_pos _⟩
  | _ => exact ⟨rfl, opened⟩

/-- The office stays as it is in every run after the first barrier. -/
theorem run_office (admissible : Admissible bSize callers)
    (subscribed : Subscribed bSize callers sys) (opened : 0 < sys.generation)
    (schedule : List Nat) :
    (Runs.after (subscribe callers) sys schedule).office = sys.office := by
  induction schedule generalizing sys with
  | nil => rfl
  | cons k schedule inductionHypothesis =>
    have moves := subscribe_moves callers sys k
    obtain ⟨same, still⟩ := moves_office subscribed moves opened
    have rest := inductionHypothesis (moves_subscribed admissible subscribed moves) still
    exact rest.trans same

/-- The system before any call, with the office that `post_office_init` leaves and the
barrier initialised for so many callers. -/
def started (boxes : Nat) (memory : Nat → Int) (barrier : Nat) : System :=
  .initial (postOfficeInit boxes memory) barrier

/-- The invariant holds when `post_office_init` is done, whatever the allocation held
before. -/
theorem started_subscribed (boxes : Nat) (memory : Nat → Int) (callers : List Caller)
    (barrier : Nat) (counted : callers.length ≤ barrier) :
    Subscribed (boxes + 1) callers (started boxes memory barrier) :=
  initial_subscribed _ barrier rfl counted (fun _ => rfl) (fun _ => rfl)

/-- With a barrier for as many as the callers, in every interleaving each append is
inside its row. Once any call has returned the table is exact, and no later call changes
it.

Proof: `Subscribed` is kept by every move. It puts appends inside their rows; a returned
call says that the barrier has opened, and behind it the table is exact and stays. -/
theorem subscriptions_exact (boxes : Nat) (memory : Nat → Int) (callers : List Caller)
    (barrier : Nat) (counted : barrier = callers.length)
    (admissible : Admissible (boxes + 1) callers) (schedule : List Nat) :
    Runs.EveryStep (subscribe callers) (started boxes memory barrier) schedule
        (fun _ sys k => ∀ row i, written callers sys k = some (row, i) →
          row < mtSize ∧ i < boxes + 1) ∧
      ∀ k, 0 < (Runs.after (subscribe callers) (started boxes memory barrier)
          schedule).returned k →
        Exact callers (Runs.after (subscribe callers) (started boxes memory barrier)
            schedule).office ∧
          ∀ later, (Runs.after (subscribe callers) (started boxes memory barrier)
              (schedule ++ later)).office =
            (Runs.after (subscribe callers) (started boxes memory barrier) schedule).office := by
  have held := fun schedule => run_subscribed admissible
    (started_subscribed boxes memory callers barrier counted.ge) schedule
  constructor
  · intro before k _ _ row i writes
    exact (held before).written_inside admissible k row i writes
  · intro k returned
    have opened := (held schedule).opened_of_returned returned
    refine ⟨(held schedule).exact admissible opened, fun later => ?_⟩
    rw [Runs.after_append]
    exact run_office admissible (held schedule) opened later

/-- The postman and a storage process subscribe one after the other, then the
postman leaves the barrier. -/
theorem two_subscriptions_exact :
    Exact [⟨0, 64⟩, ⟨1, 16⟩] (Runs.after (subscribe [⟨0, 64⟩, ⟨1, 16⟩]) (started 1 (fun _ => 7) 2)
      (List.replicate 13 0 ++ List.replicate 13 1 ++ [0])).office := by
  have admissible : Admissible (1 + 1) [⟨0, 64⟩, ⟨1, 16⟩] :=
    admissible_of_nodup (by decide) (by decide)
  exact ((subscriptions_exact 1 _ _ 2 rfl admissible _).2 0 (by decide +kernel)).1

end EventRecorder.Subscriptions
