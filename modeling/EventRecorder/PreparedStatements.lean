import EventRecorder.ErrorRecursion
import EventRecorder.Runs
import EventRecorder.Sqlite

/-!
# Inserts through long-lived prepared statements

The three prepared statements live as long as the connection. SQLite refuses to
bind to a statement that has been stepped since its last reset, and an insert
resets its statement only after a step that completed. The database here follows
that rule and fails nothing else but the steps its inputs say.
-/

namespace EventRecorder.PreparedStatements

open Arithmetic CText Sha Database QuietRuns
open Sqlite (Binds columnsOf parameterCount columns_of_bound)

/-- The state of a connection: for each statement whether it has been stepped
since its last reset, and with which outcome, and its bound parameters; the rows
inserted so far, by statement; and what the next step and the clock will do. -/
structure Store (F : Type) where
  stepped : Statement → Option Bool
  bound : Statement → Nat → Option (Value F)
  rows : List (Statement × List (Option (Value F)))
  completes : Bool
  timestamp : Text

section

variable {F : Type}

/-- The row a statement inserts with its current parameters. One that was never bound is
null. -/
def Store.row (store : Store F) (stmt : Statement) : List (Option (Value F)) :=
  columnsOf store.bound stmt

/-- The connection with a statement stepped, or reset. The other statements keep their
marks. -/
def Store.mark (store : Store F) (stmt : Statement) (outcome : Option Bool) : Store F :=
  { store with stepped := fun other => if other = stmt then outcome else store.stepped other }

/-- The statement was reset and its next step completes, which is when an insert through
it succeeds. -/
def Store.inserts (store : Store F) (stmt : Statement) : Bool :=
  (store.stepped stmt).isNone && store.completes

/-- A database that follows SQLite's rules for prepared statements. Whether a step
completes is chosen from outside; a reset reports the failure of the step before it and
resets all the same. The rows are those that were inserted: what a roll-back leaves of
them is not followed here, but over `Sqlite`. -/
def sqlite (sha3 : Sha3) : Environment (Store F) F where
  exec _ store := (true, store)
  bind stmt parameter value store :=
    if (store.stepped stmt).isSome then (false, store)
    else (true, { store with
      bound := fun other index => if other = stmt ∧ index = parameter then some value
        else store.bound other index })
  step stmt store :=
    if store.completes then
      (true, { store with rows := store.rows ++ [(stmt, store.row stmt)] }.mark stmt (some true))
    else (false, store.mark stmt (some false))
  reset stmt store := (store.stepped stmt ≠ some false, store.mark stmt none)
  clock store := (store.timestamp, store)
  openssl store := (.succeed, store)
  sha3 := sha3

/-- Binding to a statement that was not reset is refused, at the first parameter
already. -/
theorem bind_stepped (sha3 : Sha3) (stmt : Statement) (parameter : Nat) (columns : List (Value F))
    (hash : Value F) (store : Store F) (outcome : Bool)
    (stepped : store.stepped stmt = some outcome) :
    bindColumns (sqlite sha3) stmt parameter (columns ++ [hash]) store = (false, store) := by
  have refused : ∀ value, (sqlite sha3).bind stmt parameter value store = (false, store) := by
    intro value
    simp [sqlite, stepped]
  cases columns with
  | nil => rw [List.nil_append, bind_columns_cons, refused, if_neg Bool.false_ne_true]
  | cons value rest => rw [List.cons_append, bind_columns_cons, refused, if_neg Bool.false_ne_true]

/-- The database keeps to the rule of parameters: a binding that it accepts, which it does
for a statement that was reset, sets that parameter and no other. -/
theorem sqlite_binds (sha3 : Sha3) : Binds (sqlite (F := F) sha3) Store.bound := by
  intro stmt parameter value store accepted other index
  cases stepped : store.stepped stmt with
  | some outcome => simp [sqlite, stepped] at accepted
  | none => simp [sqlite, stepped]

/-- Binding to a statement that was reset sets the parameters in order and
touches nothing else. -/
theorem bind_reset (sha3 : Sha3) (stmt : Statement) (parameter : Nat) (columns : List (Value F))
    (store : Store F) (ready : store.stepped stmt = none) :
    ∃ bound, bindColumns (sqlite sha3) stmt parameter columns store =
        (true, { store with bound := bound }) ∧
      ∀ index, index < columns.length → bound stmt (parameter + index) = columns[index]? := by
  have accepted : ∃ bound, bindColumns (sqlite sha3) stmt parameter columns store =
      (true, { store with bound := bound }) := by
    induction columns generalizing parameter store with
    | nil => exact ⟨store.bound, rfl⟩
    | cons value rest inductionHypothesis =>
      obtain ⟨bound, all⟩ := inductionHypothesis (parameter + 1)
        { store with
          bound := fun other index => if other = stmt ∧ index = parameter then some value
            else store.bound other index } ready
      have first : (sqlite sha3).bind stmt parameter value store = (true, { store with
          bound := fun other index => if other = stmt ∧ index = parameter then some value
            else store.bound other index }) := by
        simp [sqlite, ready]
      refine ⟨bound, ?_⟩
      rw [bind_columns_cons, first, if_pos rfl]
      exact all
  obtain ⟨bound, all⟩ := accepted
  have values := ((sqlite_binds sha3).columns stmt parameter columns store (by rw [all])).2
  rw [all] at values
  exact ⟨bound, all, values⟩

/-- Bound columns are the row, when they are as many as the parameters and were bound
from the first on. -/
theorem bound_row (store : Store F) (stmt : Statement) (columns : List (Value F))
    (complete : columns.length = parameterCount stmt)
    (values : ∀ index, index < columns.length → store.bound stmt (1 + index) = columns[index]?) :
    store.row stmt = columns.map some :=
  columns_of_bound store.bound stmt columns complete values

/-- The hash of an insert, for an output buffer of the right length: OpenSSL does not
fail here. -/
theorem entry_hashed (sha3 : Sha3) (entry : Text) (state : DbState (Store F))
    (room : state.shaOutput.length = sha256HashLength + 1) :
    ∃ shaOutput, shaHash (sqlite sha3 : Environment (Store F) F).sha3
          ((sqlite sha3 : Environment (Store F) F).openssl state.world).1
          (snprintf dbEntryMaxLen entry) state.shaOutput sha256HashLength = (0, shaOutput) ∧
      shaOutput.length = sha256HashLength + 1 ∧
      shaOutput.take sha256HashLength =
        hexDigits (sha3 (snprintf dbEntryMaxLen entry)).toList 32 := by
  obtain ⟨returned, length, digits⟩ := sha_hash_success sha3 .succeed
    (snprintf dbEntryMaxLen entry) state.shaOutput 32 rfl (Nat.le_refl 32)
    (by rw [room]; decide)
  refine ⟨(shaHash sha3 .succeed (snprintf dbEntryMaxLen entry) state.shaOutput (2 * 32)).2,
    ?_, length.trans room, ?_⟩
  · exact Prod.ext returned rfl
  · have whole : (hexDigits (sha3 (snprintf dbEntryMaxLen entry)).toList 32).length = 64 := by simp
    have cut := congrArg (List.take 64) digits
    rw [List.take_take, List.take_append_of_le_length whole.ge, ← whole, List.take_length] at cut
    rw [whole] at cut
    exact cut

/-- The row of columns with the hash of an entry, which every table has as its last
column. -/
def hashedRow (sha3 : Sha3) (entry : Text) (columns : List (Value F)) :
    List (Option (Value F)) :=
  (columns ++ [Value.text (hexDigits (sha3 (snprintf dbEntryMaxLen entry)).toList 32)]).map some

/-- An insert through a statement that was not reset does nothing: no row, and no reset
that would help the next one. -/
theorem insert_entry_refused (sha3 : Sha3) (stmt : Statement) (entry : Text)
    (columns : List (Value F)) (state : DbState (Store F)) (outcome : Bool)
    (room : state.shaOutput.length = sha256HashLength + 1)
    (marked : state.world.stepped stmt = some outcome) :
    ∃ shaOutput, shaOutput.length = sha256HashLength + 1 ∧
      insertEntry (sqlite sha3) stmt entry columns state =
        (1, { state with
          entryBuffer := snprintf dbEntryMaxLen entry
          shaOutput := shaOutput }) := by
  obtain ⟨shaOutput, hashed, length, digits⟩ := entry_hashed sha3 entry state room
  have law := insert_entry_hashed (sqlite sha3) stmt entry columns state shaOutput hashed
  have opened : ((sqlite sha3 : Environment (Store F) F).openssl state.world).2 = state.world := rfl
  have refused := bind_stepped sha3 stmt 1 columns
    (.text (hexDigits (sha3 (snprintf dbEntryMaxLen entry)).toList 32)) state.world outcome marked
  rw [digits, opened, refused] at law
  exact ⟨shaOutput, length, law⟩

/-- An insert through a statement that was reset takes the step; only a completed
step inserts the row and is reset. -/
theorem insert_entry_ready (sha3 : Sha3) (stmt : Statement) (entry : Text)
    (columns : List (Value F)) (state : DbState (Store F))
    (room : state.shaOutput.length = sha256HashLength + 1)
    (complete : columns.length + 1 = parameterCount stmt)
    (marked : state.world.stepped stmt = none) :
    ∃ shaOutput bound, shaOutput.length = sha256HashLength + 1 ∧
      insertEntry (sqlite sha3) stmt entry columns state =
        (if state.world.completes then 0 else 1, { state with
          entryBuffer := snprintf dbEntryMaxLen entry
          shaOutput := shaOutput
          world := if state.world.completes then
              ({ state.world with
                bound := bound
                rows := state.world.rows ++ [(stmt, hashedRow sha3 entry columns)] }.mark stmt
                  (some true)).mark stmt none
            else { state.world with bound := bound }.mark stmt (some false) }) := by
  obtain ⟨shaOutput, hashed, length, digits⟩ := entry_hashed sha3 entry state room
  have law := insert_entry_hashed (sqlite sha3) stmt entry columns state shaOutput hashed
  have opened : ((sqlite sha3 : Environment (Store F) F).openssl state.world).2 = state.world := rfl
  obtain ⟨bound, accepted, values⟩ := bind_reset sha3 stmt 1
    (columns ++ [.text (hexDigits (sha3 (snprintf dbEntryMaxLen entry)).toList 32)])
    state.world marked
  have row : Store.row { state.world with bound := bound } stmt = hashedRow sha3 entry columns :=
    bound_row { state.world with bound := bound } stmt _ (by simpa using complete) values
  rw [digits, opened, accepted] at law
  refine ⟨shaOutput, bound, length, ?_⟩
  cases completes : state.world.completes with
  | false =>
    have step : (sqlite sha3).step stmt { state.world with bound := bound } =
        (false, { state.world with bound := bound }.mark stmt (some false)) :=
      if_neg (by simp [completes])
    simp only [step] at law
    exact law
  | true =>
    have step : (sqlite sha3).step stmt { state.world with bound := bound } =
        (true, { state.world with
          bound := bound
          rows := state.world.rows ++ [(stmt, hashedRow sha3 entry columns)] }.mark stmt
            (some true)) := by
      rw [← row]
      exact if_pos completes
    have reset : (sqlite sha3).reset stmt ({ state.world with
          bound := bound
          rows := state.world.rows ++ [(stmt, hashedRow sha3 entry columns)] }.mark stmt
            (some true)) =
        (true, ({ state.world with
          bound := bound
          rows := state.world.rows ++ [(stmt, hashedRow sha3 entry columns)] }.mark stmt
            (some true)).mark stmt none) := by
      simp [sqlite, Store.mark]
    simp only [step, reset] at law
    exact law

/-- What an insert does to the rows and to the marks of the statements. It is all that
the run needs to know of one. -/
theorem insert_entry_law (sha3 : Sha3) (stmt : Statement) (entry : Text)
    (columns : List (Value F)) (state : DbState (Store F))
    (room : state.shaOutput.length = sha256HashLength + 1)
    (complete : columns.length + 1 = parameterCount stmt) :
    let inserted := insertEntry (sqlite sha3) stmt entry columns state
    inserted.1 = (if state.world.inserts stmt then 0 else 1) ∧
      inserted.2.world.rows =
        (if state.world.inserts stmt then
          state.world.rows ++ [(stmt, hashedRow sha3 entry columns)]
        else state.world.rows) ∧
      (∀ other, inserted.2.world.stepped other = none ↔
        state.world.stepped other = none ∧ (other = stmt → state.world.completes = true)) ∧
      inserted.2.shaOutput.length = sha256HashLength + 1 := by
  cases marked : state.world.stepped stmt with
  | some outcome =>
    obtain ⟨shaOutput, length, result⟩ :=
      insert_entry_refused sha3 stmt entry columns state outcome room marked
    have refuses : state.world.inserts stmt = false := by simp [Store.inserts, marked]
    rw [result, refuses]
    refine ⟨rfl, rfl, ?_, length⟩
    intro other
    by_cases same : other = stmt
    · subst same
      simp [marked]
    · simp [same]
  | none =>
    obtain ⟨shaOutput, bound, length, result⟩ :=
      insert_entry_ready sha3 stmt entry columns state room complete marked
    have inserts : state.world.inserts stmt = state.world.completes := by
      simp [Store.inserts, marked]
    rw [result, inserts]
    cases completes : state.world.completes with
    | false =>
      refine ⟨rfl, rfl, ?_, length⟩
      intro other
      by_cases same : other = stmt <;> simp [Store.mark, same]
    | true =>
      refine ⟨rfl, rfl, ?_, length⟩
      intro other
      by_cases same : other = stmt
      · subst same
        simp [Store.mark, marked]
      · simp [Store.mark, same]

variable [Arithmetic F] [LogHeader]

/-- The text whose hash a record is stored with, at a time of insertion. Data records
have a time of their own. -/
def entryText (log : Log F) (timestamp : Text) : Text :=
  match entryType log with
  | .logs => timestamp ++ decimal (Log.code log) ++ LogData.text log.data
  | .errors => timestamp ++ decimal (Log.code log) ++ LogData.errs log.data ++
      decimal (LogData.errc log.data)
  | .data => log.dbTime ++ decimal (LogData.pid log.data) ++ decimal LogHeader.dbDataFloat ++
      render (LogData.float log.data)

/-- The columns of a record but its hash, by the table it goes to. -/
def recordColumns (log : Log F) (timestamp : Text) : List (Value F) :=
  match entryType log with
  | .logs => [.text timestamp, .int (Log.code log), .text (LogData.text log.data)]
  | .errors => [.text timestamp, .int (Log.code log), .text (LogData.errs log.data),
      .int (LogData.errc log.data)]
  | .data => [.text log.dbTime, .int (LogData.pid log.data), .int LogHeader.dbDataFloat,
      .double (LogData.float log.data)]

/-- The row of a record: its columns and the hash of its text. -/
def recordRow (sha3 : Sha3) (log : Log F) (timestamp : Text) : List (Option (Value F)) :=
  hashedRow sha3 (entryText log timestamp) (recordColumns log timestamp)

/-- The insert of a record is that of its columns through the statement of its
kind. -/
theorem db_sql_log_entry (sha3 : Sha3) (log : Log F) (state : DbState (Store F)) :
    ∃ timed : DbState (Store F), timed.world = state.world ∧ timed.shaOutput = state.shaOutput ∧
      dbSqlLog (sqlite sha3) log state =
        insertEntry (sqlite sha3) (entryType log) (entryText log state.world.timestamp)
          (recordColumns log state.world.timestamp) timed := by
  unfold dbSqlLog entryText recordColumns
  cases entryType log with
  | logs => exact ⟨dbGetTime (sqlite sha3) state, rfl, rfl, rfl⟩
  | errors => exact ⟨dbGetTime (sqlite sha3) state, rfl, rfl, rfl⟩
  | data => exact ⟨state, rfl, rfl, rfl⟩

/-- One insert: the record, and what the step and the clock will do during it. -/
structure Insertion (F : Type) where
  log : Log F
  completes : Bool
  timestamp : Text

/-- The connection as the insert finds it, with the outcome that is chosen for its step. -/
def Insertion.meet (input : Insertion F) (state : DbState (Store F)) : DbState (Store F) :=
  { state with world := { state.world with
      completes := input.completes, timestamp := input.timestamp } }

/-- The state after an insert, whether it succeeded or not. -/
def insertNext (sha3 : Sha3) (state : DbState (Store F)) (input : Insertion F) :
    DbState (Store F) :=
  (dbSqlLog (sqlite sha3) input.log (input.meet state)).2

/-- An insert returns 0 and inserts exactly the row of its record. -/
def InsertsRow (sha3 : Sha3) (state : DbState (Store F)) (input : Insertion F) : Prop :=
  (dbSqlLog (sqlite sha3) input.log (input.meet state)).1 = 0 ∧
    (insertNext sha3 state input).world.rows =
      state.world.rows ++ [(entryType input.log, recordRow sha3 input.log input.timestamp)]

/-- A connection on which nothing was inserted yet, with its statements as they were
prepared. -/
def Store.fresh : Store F := ⟨fun _ => none, fun _ _ => none, [], true, []⟩

/-- The state after a list of inserts through fresh statements. -/
def inserted (sha3 : Sha3) (inputs : List (Insertion F)) : DbState (Store F) :=
  Runs.after (insertNext sha3) (DbState.initial Store.fresh) inputs

/-- The law of one insert in a run: a statement stays reset exactly while its own
inserts complete. -/
theorem insert_next_law (sha3 : Sha3) (state : DbState (Store F)) (input : Insertion F)
    (room : state.shaOutput.length = sha256HashLength + 1) :
    (InsertsRow sha3 state input ↔
        state.world.stepped (entryType input.log) = none ∧ input.completes = true) ∧
      (∀ stmt, (insertNext sha3 state input).world.stepped stmt = none ↔
        state.world.stepped stmt = none ∧
          (stmt = entryType input.log → input.completes = true)) ∧
      (insertNext sha3 state input).shaOutput.length = sha256HashLength + 1 := by
  obtain ⟨timed, world, output, entry⟩ := db_sql_log_entry sha3 input.log (input.meet state)
  have complete : (recordColumns input.log (input.meet state).world.timestamp).length + 1 =
      parameterCount (entryType input.log) := by
    unfold recordColumns
    cases entryType input.log <;> rfl
  obtain ⟨returned, rows, stepped, length⟩ := insert_entry_law sha3 (entryType input.log)
    (entryText input.log (input.meet state).world.timestamp) _ timed
    (by rw [output]; exact room) complete
  rw [← entry, world] at returned rows stepped
  rw [← entry] at length
  refine ⟨?_, stepped, length⟩
  have ready : (input.meet state).world.inserts (entryType input.log) = true ↔
      state.world.stepped (entryType input.log) = none ∧ input.completes = true := by
    simp [Store.inserts, Insertion.meet]
  rw [InsertsRow, ← ready, returned, insertNext, rows]
  constructor
  · rintro ⟨success, _⟩
    by_contra refuses
    rw [if_neg refuses] at success
    cases success
  · intro accepts
    rw [if_pos accepts, if_pos accepts]
    exact ⟨rfl, rfl⟩

/-- After a list of inserts a statement is reset exactly when all its own inserts
completed. -/
theorem inserted_stepped (sha3 : Sha3) (inputs : List (Insertion F)) :
    (∀ stmt, (inserted sha3 inputs).world.stepped stmt = none ↔
      ∀ earlier ∈ inputs, entryType earlier.log = stmt → earlier.completes = true) ∧
      (inserted sha3 inputs).shaOutput.length = sha256HashLength + 1 := by
  refine Runs.invariant
    (fun (before : List (Insertion F)) (state : DbState (Store F)) =>
      (∀ stmt, state.world.stepped stmt = none ↔
        ∀ earlier ∈ before, entryType earlier.log = stmt → earlier.completes = true) ∧
      state.shaOutput.length = sha256HashLength + 1) ?_ ?_ inputs
  · exact ⟨fun _ => by simp [DbState.initial, Store.fresh], initial_room _⟩
  · rintro before state input ⟨stepped, room⟩
    obtain ⟨_, further, length⟩ := insert_next_law sha3 state input room
    refine ⟨?_, length⟩
    intro stmt
    rw [further, stepped]
    simp only [List.mem_append, List.mem_singleton, or_imp, forall_and, forall_eq]
    constructor
    · rintro ⟨earlier, last⟩
      exact ⟨earlier, fun same => last same.symm⟩
    · rintro ⟨earlier, last⟩
      exact ⟨earlier, fun same => last same.symm⟩

/-- An insert whose own step would complete inserts its row exactly when no earlier
insert of the run failed its step on the same statement.

Proof: by induction on the inserts before it, a statement is free of a mark exactly when
none of these failed its step on it; and `insert_entry_law` makes that and the step's
completion the condition for a row. -/
theorem insert_exact_iff (sha3 : Sha3) (before : List (Insertion F)) (input : Insertion F)
    (completes : input.completes = true) :
    InsertsRow sha3 (inserted sha3 before) input ↔
      ∀ earlier ∈ before, entryType earlier.log = entryType input.log →
        earlier.completes = true := by
  obtain ⟨stepped, room⟩ := inserted_stepped sha3 before
  rw [(insert_next_law sha3 _ input room).1, stepped, and_iff_left completes]

end

/-- An error record whose step completes or not, at no particular time. -/
def errorInsert (completes : Bool) : Insertion ℚ := ⟨dbLog [], completes, []⟩

/-- A first insert inserts its row, as no statement has been stepped before it. -/
theorem first_insert_exact :
    InsertsRow zeroSha3 (inserted zeroSha3 []) (errorInsert true) :=
  (insert_exact_iff zeroSha3 [] (errorInsert true) rfl).mpr (by simp)

/-- After one failed step a second insert through the same statement inserts nothing,
although its own step would complete. -/
theorem second_insert_refused :
    ¬ InsertsRow zeroSha3 (inserted zeroSha3 [errorInsert false]) (errorInsert true) := by
  obtain ⟨stepped, room⟩ := inserted_stepped zeroSha3 [errorInsert false]
  rw [(insert_next_law zeroSha3 _ (errorInsert true) room).1, stepped]
  rintro ⟨every, _⟩
  cases every (errorInsert false) (List.mem_singleton.mpr rfl) rfl

end EventRecorder.PreparedStatements
