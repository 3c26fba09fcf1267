import EventRecorder.Database
import EventRecorder.QuietRuns
import Mathlib.Data.Nat.Find

/-!
# Whether logging returns

`sqlite_local_db_log` records a failed insert by calling itself, with no guard on
the depth. A call therefore makes one insert after another, each of an error
record that describes the failure before it, until one of them succeeds. A
database that keeps failing is never left.
-/

namespace EventRecorder.ErrorRecursion

open Arithmetic CText Sha Database QuietRuns

section

variable {W F : Type} [Arithmetic F] [LogHeader]

/-- A call returns, given whatever depth of recursion that takes. The fuel is not part
of the program, so that any amount of it will do. -/
def Returns (env : Environment W F) (transactionCount : Nat) (log : Log F)
    (state : DbState W) : Prop :=
  ∃ fuel result, sqliteLocalDbLog env transactionCount fuel log state = some result

/-- The record and the state of the inserts a call makes while they fail: the
given record's insert is number zero. -/
def nested (env : Environment W F) (log : Log F) (state : DbState W) : Nat → Log F × DbState W
  | 0 => (log, state)
  | count + 1 =>
    let (log, state) := nested env log state count
    let state := describeFailure (dbSqlLog env log (beginBatch env state)).2
    (dbLog state.errs, state)

/-- The insert of that number fails, counted from the one of the call itself, on what
the failures before it left. -/
def Fails (env : Environment W F) (log : Log F) (state : DbState W) (count : Nat) : Prop :=
  let (log, state) := nested env log state count
  (dbSqlLog env log (beginBatch env state)).1 ≠ 0

/-- An attempt of the recursion is an insert, and it goes on exactly when the insert
fails. -/
theorem attempt_failed (env : Environment W F) (transactionCount : Nat) (log : Log F)
    (state : DbState W) :
    ((recovery env transactionCount).attempt (log, state)).1 = true ↔
      (dbSqlLog env log (beginBatch env state)).1 ≠ 0 := by
  simp only [recovery]
  split_ifs with failed <;> simp [failed]

/-- As long as the inserts fail, the recursion is at the nested ones, one deeper after
each. -/
theorem descend_nested (env : Environment W F) (transactionCount : Nat) (log : Log F)
    (state : DbState W) (count : Nat)
    (fail : ∀ earlier, earlier < count → Fails env log state earlier) :
    (recovery env transactionCount).descend count (log, state) = nested env log state count := by
  induction count with
  | zero => rfl
  | succ count inductionHypothesis =>
    have here := inductionHypothesis fun earlier short => fail earlier (Nat.lt_succ_of_lt short)
    have failed := fail count (Nat.lt_succ_self count)
    rw [Recovery.descend_succ', here]
    simp only [Fails] at failed
    simp only [recovery, nested, failed, ne_eq, not_false_eq_true, ↓reduceIte]

/-- So many nested inserts fail before one succeeds, which is the depth that the
recursion reaches. -/
def Failures (env : Environment W F) (log : Log F) (state : DbState W) (failures : Nat) : Prop :=
  (∀ earlier, earlier < failures → Fails env log state earlier) ∧ ¬ Fails env log state failures

/-- The recursion settles after as many failures as the nested inserts have, in the
terms of the library of such recursions. -/
theorem settles_iff (env : Environment W F) (transactionCount : Nat) (log : Log F)
    (state : DbState W) (failures : Nat) :
    (recovery env transactionCount).Settles (log, state) failures ↔
      Failures env log state failures := by
  have attempted : ∀ count, (∀ earlier, earlier < count → Fails env log state earlier) →
      (((recovery env transactionCount).attempt
        ((recovery env transactionCount).descend count (log, state))).1 = true ↔
          Fails env log state count) := by
    intro count fail
    rw [descend_nested env transactionCount log state count fail]
    exact attempt_failed ..
  constructor
  · rintro ⟨fail, succeed⟩
    have every : ∀ count, count ≤ failures →
        ∀ earlier, earlier < count → Fails env log state earlier := by
      intro count
      induction count with
      | zero => exact fun _ _ none => absurd none (Nat.not_lt_zero _)
      | succ count inductionHypothesis =>
        intro within earlier short
        have before := inductionHypothesis (Nat.le_of_succ_le within)
        rcases Nat.lt_succ_iff_lt_or_eq.mp short with smaller | same
        · exact before earlier smaller
        · subst same
          exact (attempted earlier before).mp (fail earlier within)
    have before := every failures (Nat.le_refl _)
    refine ⟨before, ?_⟩
    intro failed
    rw [(attempted failures before).mpr failed] at succeed
    cases succeed
  · rintro ⟨fail, succeed⟩
    refine ⟨?_, ?_⟩
    · intro earlier short
      have before : ∀ first, first < earlier → Fails env log state first := fun first smaller =>
        fail first (Nat.lt_trans smaller short)
      exact (attempted earlier before).mpr (fail earlier short)
    · exact Bool.eq_false_of_not_eq_true fun failed => succeed ((attempted failures fail).mp failed)

/-- A call returns exactly when its recursion settles, with fuel for one call more than
there are failures. -/
theorem returns_settles (env : Environment W F) (transactionCount : Nat) (log : Log F)
    (state : DbState W) :
    Returns env transactionCount log state ↔
      ∃ failures, (recovery env transactionCount).Settles (log, state) failures := by
  rw [← Recovery.returns_iff]
  simp only [Returns, sqlite_local_db_log_eq, Option.map_eq_some_iff]
  constructor
  · rintro ⟨fuel, _, inner, returned, _⟩
    exact ⟨fuel, inner, returned⟩
  · rintro ⟨fuel, inner, returned⟩
    exact ⟨fuel, _, inner, returned, rfl⟩

/-- A call returns exactly when not every nested insert fails.

Proof: the call is an instance of a recursion that attempts until it succeeds. This
returns if it settles, it settles after the first success, and there is a first success
if there is any. -/
theorem log_returns_iff (env : Environment W F) (transactionCount : Nat) (log : Log F)
    (state : DbState W) :
    Returns env transactionCount log state ↔ ∃ count, ¬ Fails env log state count := by
  classical
  rw [returns_settles]
  constructor
  · rintro ⟨failures, settles⟩
    exact ⟨failures, ((settles_iff ..).mp settles).2⟩
  · intro succeeds
    refine ⟨Nat.find succeeds, (settles_iff ..).mpr ⟨?_, Nat.find_spec succeeds⟩⟩
    intro earlier short
    exact Classical.not_not.mp (Nat.find_min succeeds short)

omit [Arithmetic F] [LogHeader] in
/-- An insert whose step fails returns 1, whether its hash and its bindings succeed or
one of them fails before. -/
theorem insert_step_failure (env : Environment W F) (stmt : Statement) (entry : Text)
    (columns : List (Value F)) (state : DbState W)
    (broken : ∀ world, (env.step stmt world).1 = false) :
    (insertEntry env stmt entry columns state).1 = 1 := by
  unfold insertEntry
  simp only [broken, Bool.not_false, ↓reduceIte]
  split_ifs <;> rfl

/-- A database whose steps all fail is never left, since every nested insert steps a
statement or fails before it does. -/
theorem persistent_failure (env : Environment W F) (log : Log F) (state : DbState W)
    (broken : ∀ stmt world, (env.step stmt world).1 = false) (count : Nat) :
    Fails env log state count := by
  unfold Fails
  simp only [dbSqlLog]
  split
  · simp only [dbSqlLogElog, insert_step_failure _ _ _ _ _ (broken .logs)]
    decide
  · simp only [dbSqlLogEerror, insert_step_failure _ _ _ _ _ (broken .errors)]
    decide
  · simp only [dbSqlLogEdata, insert_step_failure _ _ _ _ _ (broken .data)]
    decide

end

/-- A database that accepts every binding and completes the steps its script says,
and all after the script's end. -/
def scriptedDatabase : Environment (List Bool) ℚ where
  exec _ script := (true, script)
  bind _ _ _ script := (true, script)
  step _ script := (script.headD true, script.tail)
  reset _ script := (true, script)
  clock script := ([], script)
  openssl script := (.succeed, script)
  sha3 := zeroSha3

/-- A database that accepts every binding and completes no step, as one on a full disk
might. -/
def brokenDatabase : Environment Unit ℚ where
  exec _ world := (true, world)
  bind _ _ _ world := (true, world)
  step _ world := (false, world)
  reset _ world := (true, world)
  clock world := ([], world)
  openssl world := (.succeed, world)
  sha3 := zeroSha3

/-- With such a database no call returns, for the record of an error as for any other. -/
theorem broken_database_never_returns :
    ¬ Returns brokenDatabase 1 (dbLog []) (DbState.initial ()) := by
  rw [returns_settles]
  rintro ⟨failures, settles⟩
  have succeeds := ((settles_iff ..).mp settles).2
  exact succeeds (persistent_failure brokenDatabase _ _ (fun _ _ => rfl) failures)

end EventRecorder.ErrorRecursion
