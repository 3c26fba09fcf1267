import EventRecorder.Database
import EventRecorder.Ledger

/-!
# What is relied on of SQLite

SQLite is not part of the recorder. A development that follows rows into the database
takes it as a parameter: the calls are those of an environment, and a `Sqlite` over that
environment says what of its state can be observed and which documented rules its calls
keep to. Everything else about the calls is open, first of all whether they succeed.

The rules are those of the manual. `BEGIN` succeeds only outside a transaction and `END`
only inside one. A statement that completes inserts the values last bound to its
parameters. A call that fails may roll the whole transaction back, as it does where the
disk is full, memory is short or the file cannot be read; whether it did is seen from
`sqlite3_get_autocommit` alone. Closing a connection rolls an open transaction back, and
is refused while the prepared statements are not finalized, which the recorder never does.
-/

namespace EventRecorder

open Database

namespace Sqlite

variable {W F : Type}

/-- A row: the statement that inserts it, which stands for its table, and its columns. -/
abbrev Row (F : Type) := Statement × List (Option (Value F))

/-- The number of parameters in the text of a statement, by which a row has its columns. -/
def parameterCount : Statement → Nat
  | .logs => 4
  | .errors => 5
  | .data => 5

/-- The columns that a statement inserts with the parameters bound to it. A parameter to
which nothing was ever bound is `NULL`. -/
def columnsOf (bound : Statement → Nat → Option (Value F)) (stmt : Statement) :
    List (Option (Value F)) :=
  (List.range (parameterCount stmt)).map fun index => bound stmt (index + 1)

/-- The rule of parameters: a binding that succeeds sets the one parameter of the one
statement. What a binding that fails leaves of them is open. -/
def Binds (env : Environment W F) (bound : W → Statement → Nat → Option (Value F)) : Prop :=
  ∀ stmt parameter value world, (env.bind stmt parameter value world).1 = true →
    ∀ other index, bound (env.bind stmt parameter value world).2 other index =
      if other = stmt ∧ index = parameter then some value else bound world other index

/-- Bindings that all succeed set consecutive parameters in order, and leave those in
front of them as they were. By induction on the columns: the first binding sets the first
parameter, and the others, which begin behind it, keep it. -/
theorem Binds.columns {env : Environment W F} {bound : W → Statement → Nat → Option (Value F)}
    (binds : Binds env bound) (stmt : Statement) (parameter : Nat) (columns : List (Value F))
    (world : W) (all : (bindColumns env stmt parameter columns world).1 = true) :
    (∀ index, index < parameter →
      bound (bindColumns env stmt parameter columns world).2 stmt index =
        bound world stmt index) ∧
      ∀ index, index < columns.length →
        bound (bindColumns env stmt parameter columns world).2 stmt (parameter + index) =
          columns[index]? := by
  induction columns generalizing parameter world with
  | nil => exact ⟨fun _ _ => rfl, fun _ none => absurd none (Nat.not_lt_zero _)⟩
  | cons value rest inductionHypothesis =>
    rw [bind_columns_cons] at all ⊢
    split_ifs at all with first
    rw [if_pos first]
    have set := binds stmt parameter value world first
    obtain ⟨before, later⟩ := inductionHypothesis (parameter + 1) _ all
    constructor
    · intro index short
      rw [before index (by omega), set, if_neg (by omega)]
    · intro index short
      cases index with
      | zero =>
        rw [Nat.add_zero parameter, before parameter (by omega), set, if_pos ⟨rfl, rfl⟩]
        rfl
      | succ index =>
        have shift : parameter + (index + 1) = parameter + 1 + index := by omega
        rw [shift, later index (by simpa using short)]
        rfl

/-- Columns bound from the first parameter on are what is inserted, when they are as many
as the statement has parameters. -/
theorem columns_of_bound (bound : Statement → Nat → Option (Value F)) (stmt : Statement)
    (columns : List (Value F)) (complete : columns.length = parameterCount stmt)
    (values : ∀ index, index < columns.length → bound stmt (1 + index) = columns[index]?) :
    columnsOf bound stmt = columns.map some := by
  apply List.ext_getElem
  · simp [columnsOf, complete]
  · intro index inside within
    have short : index < columns.length := by simpa using within
    have value := values index short
    rw [Nat.add_comm] at value
    simp [columnsOf, value, short]

end Sqlite

open Sqlite

/-- What is relied on of SQLite, over the environment that stands for its calls.

`ledger` is the account of the rows inserted through the connection, with what became of
each, and whether a transaction is open (`sqlite3_get_autocommit` returns 0); `bound` are
the parameters of the statements; `close` is `sqlite3_close`. Each field below them is a
documented rule, for the calls that succeed and for those that fail. -/
structure Sqlite {W F : Type} (env : Environment W F) where
  ledger : W → Ledger (Row F)
  bound : W → Statement → Nat → Option (Value F)
  close : W → W
  begins : ∀ world, (env.exec .beginTransaction world).1 = true →
    (ledger world).isOpen = false ∧
      ledger (env.exec .beginTransaction world).2 = (ledger world).begin
  commits : ∀ world, (env.exec .endTransaction world).1 = true →
    (ledger world).isOpen = true ∧
      ledger (env.exec .endTransaction world).2 = (ledger world).commit
  exec_undone : ∀ query world, (env.exec query world).1 = false →
    Ledger.Undone (ledger world) (ledger (env.exec query world).2)
  binds : Binds env bound
  bind_kept : ∀ stmt parameter value world, (env.bind stmt parameter value world).1 = true →
    ledger (env.bind stmt parameter value world).2 = ledger world
  bind_undone : ∀ stmt parameter value world, (env.bind stmt parameter value world).1 = false →
    Ledger.Undone (ledger world) (ledger (env.bind stmt parameter value world).2)
  enters : ∀ stmt world, (env.step stmt world).1 = true →
    ledger (env.step stmt world).2 = (ledger world).enter (stmt, columnsOf (bound world) stmt)
  step_undone : ∀ stmt world, (env.step stmt world).1 = false →
    Ledger.Undone (ledger world) (ledger (env.step stmt world).2)
  reset_kept : ∀ stmt world, (env.reset stmt world).1 = true →
    ledger (env.reset stmt world).2 = ledger world
  reset_undone : ∀ stmt world, (env.reset stmt world).1 = false →
    Ledger.Undone (ledger world) (ledger (env.reset stmt world).2)
  clock_kept : ∀ world, ledger (env.clock world).2 = ledger world
  openssl_kept : ∀ world, ledger (env.openssl world).2 = ledger world
  closes : ∀ world, Ledger.Undone (ledger world) (ledger (close world))

namespace Sqlite

variable {W F : Type} {env : Environment W F} (sqlite : Sqlite env)

/-- The bindings of one insert make no entry. Only one that fails, which is the last one
that is tried, can undo anything. -/
theorem bind_columns_ledger (stmt : Statement) (parameter : Nat) (columns : List (Value F))
    (world : W) :
    let bound := bindColumns env stmt parameter columns world
    (bound.1 = true → sqlite.ledger bound.2 = sqlite.ledger world) ∧
      (bound.1 = false → Ledger.Undone (sqlite.ledger world) (sqlite.ledger bound.2)) := by
  induction columns generalizing parameter world with
  | nil => exact ⟨fun _ => rfl, fun none => by cases none⟩
  | cons value rest inductionHypothesis =>
    simp only [bind_columns_cons]
    split_ifs with first
    · have same := sqlite.bind_kept stmt parameter value world first
      obtain ⟨kept, undone⟩ := inductionHypothesis (parameter + 1)
        (env.bind stmt parameter value world).2
      exact ⟨fun all => (kept all).trans same, fun some => same ▸ undone some⟩
    · have undone := sqlite.bind_undone stmt parameter value world (Bool.of_not_eq_true first)
      exact ⟨fun all => (by cases all), fun _ => undone⟩

/-- `BEGIN` makes no entry, whether it succeeds or not. -/
theorem grows_begin (world : W) :
    Ledger.Grows [] (sqlite.ledger world)
      (sqlite.ledger (env.exec .beginTransaction world).2) := by
  cases done : (env.exec .beginTransaction world).1 with
  | false => exact (sqlite.exec_undone _ world done).grows
  | true =>
    rw [(sqlite.begins world done).2]
    exact Ledger.grows_begin _

/-- Nor does `END`, whether it succeeds or not and whatever becomes of the pending
entries. -/
theorem grows_end (world : W) :
    Ledger.Grows [] (sqlite.ledger world)
      (sqlite.ledger (env.exec .endTransaction world).2) := by
  cases done : (env.exec .endTransaction world).1 with
  | false => exact (sqlite.exec_undone _ world done).grows
  | true =>
    rw [(sqlite.commits world done).2]
    exact Ledger.grows_settle _ _

/-- Where `END` cannot fail inside a transaction, it leaves nothing pending, loses nothing
and leaves no transaction open: inside one it commits, and outside there is nothing that
its failure could undo. -/
theorem end_settles (world : W)
    (ends : (sqlite.ledger world).isOpen = true → (env.exec .endTransaction world).1 = true) :
    let ended := sqlite.ledger (env.exec .endTransaction world).2
    ended.pending = [] ∧ ended.isOpen = false ∧ ended.undone = (sqlite.ledger world).undone := by
  intro ended
  cases inside : (sqlite.ledger world).isOpen with
  | true =>
    rw [show ended = _ from (sqlite.commits world (ends inside)).2]
    exact ⟨rfl, rfl, Ledger.undone_commit _⟩
  | false =>
    have same : ended = sqlite.ledger world := by
      cases done : (env.exec .endTransaction world).1 with
      | true =>
        have opened := (sqlite.commits world done).1
        rw [inside] at opened
        cases opened
      | false => exact (sqlite.exec_undone _ world done).closed inside
    rw [same]
    exact ⟨(sqlite.ledger world).closed inside, inside, rfl⟩

/-! ## An environment that keeps to the rules -/

/-- A connection whose parameters and rows are kept beside the state of an environment,
which decides what fails. -/
structure Connection (W F : Type) where
  world : W
  bound : Statement → Nat → Option (Value F)
  ledger : Ledger (Row F)

/-- A connection on which nothing was done yet, in some state of the environment. -/
def Connection.fresh (world : W) : Connection W F := ⟨world, fun _ _ => none, .empty⟩

/-- A parameter is bound, and those of other statements and positions are not touched. -/
def Connection.assign (connection : Connection W F) (stmt : Statement) (parameter : Nat)
    (value : Value F) : Connection W F :=
  { connection with bound := fun other index =>
      if other = stmt ∧ index = parameter then some value else connection.bound other index }

/-- A call has failed. It rolls the transaction back where the state says so. -/
def Connection.fail (rollsBack : W → Bool) (connection : Connection W F) : Connection W F :=
  if rollsBack connection.world then { connection with ledger := connection.ledger.rollBack }
  else connection

/-- The calls of an environment, with the rows they insert. Whether a call succeeds is as
in that environment, but for `BEGIN` inside a transaction and `END` outside, which fail. -/
def connected (env : Environment W F) (rollsBack : W → Bool) :
    Environment (Connection W F) F where
  exec query connection :=
    let (done, world) := env.exec query connection.world
    let connection := { connection with world := world }
    match query with
    | .beginTransaction =>
      if done && !connection.ledger.isOpen then
        (true, { connection with ledger := connection.ledger.begin })
      else (false, connection.fail rollsBack)
    | .endTransaction =>
      if done && connection.ledger.isOpen then
        (true, { connection with ledger := connection.ledger.commit })
      else (false, connection.fail rollsBack)
  bind stmt parameter value connection :=
    let (bound, world) := env.bind stmt parameter value connection.world
    let connection := { connection with world := world }
    (bound, if bound then connection.assign stmt parameter value else connection.fail rollsBack)
  step stmt connection :=
    let (done, world) := env.step stmt connection.world
    let connection := { connection with world := world }
    (done,
      if done then
        { connection with
          ledger := connection.ledger.enter (stmt, columnsOf connection.bound stmt) }
      else connection.fail rollsBack)
  reset stmt connection :=
    let (ready, world) := env.reset stmt connection.world
    let connection := { connection with world := world }
    (ready, if ready then connection else connection.fail rollsBack)
  clock connection :=
    let (timestamp, world) := env.clock connection.world
    (timestamp, { connection with world := world })
  openssl connection :=
    let (md, world) := env.openssl connection.world
    (md, { connection with world := world })
  sha3 := env.sha3

/-- A failure undoes what was pending or nothing, which is what is relied on of it. -/
theorem fail_undone (rollsBack : W → Bool) (connection : Connection W F) :
    Ledger.Undone connection.ledger (connection.fail rollsBack).ledger := by
  unfold Connection.fail
  split_ifs
  · exact Or.inr rfl
  · exact Or.inl rfl

/-- The connection keeps to the rules, whatever environment it is over. Its account of the
rows is the one it carries, and closing it rolls an open transaction back. -/
def ofConnection (env : Environment W F) (rollsBack : W → Bool) :
    Sqlite (connected env rollsBack) where
  ledger := Connection.ledger
  bound := Connection.bound
  close connection := { connection with ledger := connection.ledger.rollBack }
  begins connection done := by
    simp only [connected] at done ⊢
    split_ifs at done ⊢ with ready
    exact ⟨by simpa using (Bool.and_eq_true_iff.mp ready).2, rfl⟩
  commits connection done := by
    simp only [connected] at done ⊢
    split_ifs at done ⊢ with ready
    exact ⟨(Bool.and_eq_true_iff.mp ready).2, rfl⟩
  exec_undone query connection failed := by
    cases query with
    | beginTransaction =>
      simp only [connected] at failed ⊢
      split_ifs at failed ⊢
      exact fail_undone rollsBack { connection with world := _ }
    | endTransaction =>
      simp only [connected] at failed ⊢
      split_ifs at failed ⊢
      exact fail_undone rollsBack { connection with world := _ }
  binds stmt parameter value connection done := by
    have bound : (env.bind stmt parameter value connection.world).1 = true := done
    intro other index
    simp [connected, bound, Connection.assign]
  bind_kept stmt parameter value connection done := by
    have bound : (env.bind stmt parameter value connection.world).1 = true := done
    simp [connected, bound, Connection.assign]
  bind_undone stmt parameter value connection failed := by
    have unbound : (env.bind stmt parameter value connection.world).1 = false := failed
    simpa [connected, unbound] using fail_undone rollsBack { connection with world := _ }
  enters stmt connection done := by
    have stepped : (env.step stmt connection.world).1 = true := done
    simp [connected, stepped]
  step_undone stmt connection failed := by
    have unfinished : (env.step stmt connection.world).1 = false := failed
    simpa [connected, unfinished] using fail_undone rollsBack { connection with world := _ }
  reset_kept stmt connection done := by
    have ready : (env.reset stmt connection.world).1 = true := done
    simp [connected, ready]
  reset_undone stmt connection failed := by
    have unready : (env.reset stmt connection.world).1 = false := failed
    simpa [connected, unready] using fail_undone rollsBack { connection with world := _ }
  clock_kept _ := rfl
  openssl_kept _ := rfl
  closes _ := Or.inr rfl

end Sqlite

end EventRecorder
