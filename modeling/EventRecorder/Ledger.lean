import Mathlib.Data.List.Basic

/-!
# Ledgers

A transactional store as a ledger of entries. An entry made outside a transaction is
committed at once. One made inside is pending until the transaction is committed, or is
rolled back with it. The ledger keeps the entries that were rolled back, each with its
fate, so that nothing ever leaves it: the settled and the pending entries together are
always what was entered, in the order of entry.

Two relations say what a computation on a store may do to its ledger when only some of
its calls are under control. `Undone` is the effect of a call that fails, and `Grows` is
that of any number of calls which enter the given entries.
-/

namespace EventRecorder

universe u

/-- What has become of an entry whose transaction is over: it is in the store, or it was
rolled back. -/
inductive Fate where
  | committed
  | undone
  deriving DecidableEq, Repr

/-- The entries whose fate is known, each with its fate, and those of the transaction
that is open. With no transaction open nothing can be pending. -/
structure Ledger (α : Type u) where
  settled : List (Fate × α)
  pending : List α
  isOpen : Bool
  closed : isOpen = false → pending = []

namespace Ledger

variable {α : Type u} (ledger : Ledger α)

/-- The ledger of a store in which nothing was entered and no transaction is open. -/
def empty : Ledger α := ⟨[], [], false, fun _ => rfl⟩

/-- All entries in the order in which they were made, whatever became of them. -/
def entries : List α := ledger.settled.map Prod.snd ++ ledger.pending

/-- The settled entries of one fate, in the order in which they were made, without those
of the other between them. -/
def ofFate (fate : Fate) : List α :=
  (ledger.settled.filter fun entry => entry.1 = fate).map Prod.snd

/-- The entries that the store holds: those which were committed. -/
def committed : List α := ledger.ofFate .committed

/-- The entries that the store has lost: those which were rolled back. -/
def undone : List α := ledger.ofFate .undone

/-- End the transaction, and give what was pending its fate. Entries settled before keep
theirs. -/
def settle (fate : Fate) : Ledger α :=
  ⟨ledger.settled ++ ledger.pending.map (Prod.mk fate), [], false, fun _ => rfl⟩

/-- Commit the transaction: what was pending is in the store from now on. -/
def commit : Ledger α := ledger.settle .committed

/-- Roll the transaction back. Outside a transaction this changes nothing, since nothing
is pending there. -/
def rollBack : Ledger α := ledger.settle .undone

/-- Open a transaction. What was committed before is not part of it. -/
def begin : Ledger α := { ledger with isOpen := true, closed := fun closed => by cases closed }

/-- Make an entry: inside a transaction it is pending, and outside it is committed. -/
def enter (entry : α) : Ledger α :=
  if opened : ledger.isOpen = true then
    { ledger with
      pending := ledger.pending ++ [entry]
      closed := fun closed => by rw [opened] at closed; cases closed }
  else { ledger with settled := ledger.settled ++ [(.committed, entry)] }

/-- The ledger begins without an entry. -/
@[simp] theorem entries_empty : (empty : Ledger α).entries = [] := rfl

/-- Opening a transaction makes no entry and loses none. -/
@[simp] theorem entries_begin : ledger.begin.entries = ledger.entries := rfl

/-- No transaction is open behind the end of one, whatever the fate of its entries. -/
@[simp] theorem is_open_settle (fate : Fate) : (ledger.settle fate).isOpen = false := rfl

/-- Nor is anything pending. -/
@[simp] theorem pending_settle (fate : Fate) : (ledger.settle fate).pending = [] := rfl

/-- An entry neither opens a transaction nor closes one. -/
@[simp] theorem is_open_enter (entry : α) : (ledger.enter entry).isOpen = ledger.isOpen := by
  unfold enter
  split_ifs <;> rfl

/-- The end of a transaction loses no entry from the account: it only settles what was
pending, and behind everything that was settled before. -/
@[simp] theorem entries_settle (fate : Fate) : (ledger.settle fate).entries = ledger.entries := by
  simp [entries, settle, Function.comp_def]

/-- An entry is the last one, inside a transaction or outside. Outside the pending
entries that would stand behind the settled ones are none. -/
@[simp] theorem entries_enter (entry : α) :
    (ledger.enter entry).entries = ledger.entries ++ [entry] := by
  unfold enter
  split_ifs with opened
  · simp [entries]
  · simp [entries, ledger.closed (Bool.of_not_eq_true opened)]

/-- An entry adds one at most to what is pending, and none outside a transaction. -/
theorem pending_enter (entry : α) :
    (ledger.enter entry).pending.length ≤ ledger.pending.length + 1 := by
  unfold enter
  split_ifs
  · simp
  · exact Nat.le_succ _

/-- Only a roll-back loses entries. Making one does not. -/
@[simp] theorem undone_enter (entry : α) : (ledger.enter entry).undone = ledger.undone := by
  unfold enter
  split_ifs
  · rfl
  · simp [undone, ofFate]

/-- Nor does opening a transaction. -/
@[simp] theorem undone_begin : ledger.begin.undone = ledger.undone := rfl

/-- Nor does a commit, which gives the pending entries the other fate. -/
@[simp] theorem undone_commit : ledger.commit.undone = ledger.undone := by
  simp [undone, ofFate, commit, settle, List.filter_eq_nil_iff]

/-- A roll-back outside a transaction is no change at all, as nothing is pending there. -/
theorem roll_back_closed (closed : ledger.isOpen = false) : ledger.rollBack = ledger := by
  obtain ⟨settled, pending, isOpen, empties⟩ := ledger
  obtain rfl : isOpen = false := closed
  obtain rfl : pending = [] := empties rfl
  simp [rollBack, settle]

/-- A store that has lost nothing holds every entry that is not pending: each settled entry
has then one fate, so that leaving out the others leaves out nothing. -/
theorem entries_of_undone_nil (kept : ledger.undone = []) :
    ledger.entries = ledger.committed ++ ledger.pending := by
  have fates : ∀ entry ∈ ledger.settled, entry.1 = Fate.committed := by
    intro entry member
    cases fate : entry.1 with
    | committed => rfl
    | undone =>
      have lost : entry.2 ∈ ledger.undone :=
        List.mem_map.mpr ⟨entry, List.mem_filter.mpr ⟨member, by simp [fate]⟩, rfl⟩
      rw [kept] at lost
      cases lost
  rw [entries, committed, ofFate,
    List.filter_eq_self.mpr fun entry member => by simp [fates entry member]]

/-! ## Effects of calls -/

/-- What a call that fails may do to a transaction: nothing, or roll it back. -/
def Undone (before after : Ledger α) : Prop := after = before ∨ after = before.rollBack

/-- What any number of calls may do that make these entries, in this order: beyond the
entries, and however transactions are opened and ended between them, they add no more
than the entries to what is pending. -/
structure Grows (rows : List α) (before after : Ledger α) : Prop where
  entries : after.entries = before.entries ++ rows
  pending : after.pending.length ≤ before.pending.length + rows.length

variable {first second third : Ledger α}

/-- Nothing done makes no entry. -/
theorem Grows.refl (ledger : Ledger α) : Grows [] ledger ledger :=
  ⟨(List.append_nil _).symm, Nat.le_refl _⟩

/-- Effects in succession are one effect, with the entries of both in their order. -/
theorem Grows.trans {earlier later : List α} (before : Grows earlier first second)
    (after : Grows later second third) : Grows (earlier ++ later) first third := by
  refine ⟨by rw [after.entries, before.entries, List.append_assoc], ?_⟩
  have bound := before.pending
  have further := after.pending
  rw [List.length_append]
  omega

/-- Making an entry grows a ledger by it, whether it is pending or committed. -/
theorem grows_enter (entry : α) : Grows [entry] ledger (ledger.enter entry) :=
  ⟨ledger.entries_enter entry, ledger.pending_enter entry⟩

/-- Opening a transaction grows it by nothing. -/
theorem grows_begin : Grows [] ledger ledger.begin :=
  ⟨(List.append_nil _).symm, Nat.le_refl _⟩

/-- Ending one grows it by nothing, with whatever fate: the pending entries stay in the
account. -/
theorem grows_settle (fate : Fate) : Grows [] ledger (ledger.settle fate) :=
  ⟨by simp, Nat.zero_le _⟩

/-- A call that fails makes no entry, although it may decide about those of others. -/
theorem Undone.grows (undone : Undone first second) : Grows [] first second := by
  rcases undone with rfl | rfl
  · exact Grows.refl _
  · exact grows_settle _ _

/-- Outside a transaction a call that fails changes nothing. -/
theorem Undone.closed (undone : Undone first second) (closed : first.isOpen = false) :
    second = first := by
  rcases undone with rfl | rfl
  · rfl
  · exact first.roll_back_closed closed

end Ledger

end EventRecorder
