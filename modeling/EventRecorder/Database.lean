import EventRecorder.Mail
import EventRecorder.Recovery
import EventRecorder.Sha

/-!
# The local database log

`db_sql_log` hashes a record, binds its columns to the prepared statement of its
table, steps the statement and resets it; any call that fails ends it at once.
`sqlite_local_db_log` groups inserts into transactions of `TRANSACTION_COUNT`
and records a failed insert by calling itself with an error record.

SQLite, OpenSSL and the clock are an environment over the state they keep. Each
of its calls may succeed or fail as that state pleases. A record sets the union
member that its type selects; reading another member is not modelled and gives
an empty value.
-/

namespace EventRecorder.Database

open Arithmetic CText Sha

universe u v

/-- The prepared statements in `db->stmt`, by their table. There is one for each,
prepared when the database is opened. -/
inductive Statement where
  | logs
  | errors
  | data
  deriving DecidableEq, Repr

/-- A value bound to a parameter of a statement, of one of the three types that are
bound. -/
inductive Value (F : Type u) where
  | text (text : Text)
  | int (value : Int)
  | double (value : F)
  deriving DecidableEq

/-- The queries that open and close a transaction. They are executed and not prepared. -/
inductive Transaction where
  | beginTransaction
  | endTransaction
  deriving DecidableEq, Repr

/-- The calls out of the program: each returns whether it succeeded (`SQLITE_OK`,
for a step `SQLITE_DONE`) or what it read, and the state it leaves. -/
structure Environment (W : Type v) (F : Type u) where
  exec : Transaction → W → Bool × W
  bind : Statement → Nat → Value F → W → Bool × W
  step : Statement → W → Bool × W
  reset : Statement → W → Bool × W
  clock : W → Text × W
  openssl : W → MdCalls × W
  sha3 : Sha3

/-- `SHA256_HASH_LENGTH`, the digits of a digest of 32 bytes. -/
def sha256HashLength : Nat := 64

/-- `DB_ENTRY_MAX_LEN`, the size of the buffer in which an entry is put together before
it is hashed. -/
def dbEntryMaxLen : Nat := 600

/-- The static variables of `sqlite.c` and the state of the environment. Of
`db_log` only its text changes; of `db_time` only the timestamp is read. -/
structure DbState (W : Type v) where
  entryBuffer : Text
  shaOutput : Text
  dbTime : Text
  errs : Text
  transactN : Nat
  world : W

/-- The static variables at process start, when they are zero, and the state of the
world outside. -/
def DbState.initial {W : Type v} (world : W) : DbState W :=
  ⟨[], List.replicate (sha256HashLength + 1) nul, [], [], 0, world⟩

/-- The buffer of the digest has room for its digits and the terminator. -/
theorem initial_room {W : Type v} (world : W) :
    (DbState.initial world).shaOutput.length = sha256HashLength + 1 := List.length_replicate

variable {W : Type v} {F : Type u}

/-- `log->data.log`. Records with other data are not asked for it. -/
def LogData.text : LogData F → Text
  | .log text => text
  | _ => []

/-- `log->data.error.errs`. Records with other data are not asked for it. -/
def LogData.errs : LogData F → Text
  | .error _ errs => errs
  | _ => []

/-- `log->data.data.pid`. Records with other data are not asked for it. -/
def LogData.pid : LogData F → Int
  | .data pid _ => pid
  | _ => 0

/-- `db_log`, the record of a failed insert, with its text. -/
def dbLog (errs : Text) : Log F := ⟨.dbError, .error .log errs, []⟩

/-- `string_replace_char`, of the first characters of its arguments. It replaces every
occurrence. -/
def stringReplaceChar (str : Text) (orig rep : Char) : Text :=
  str.map fun char => if char = orig then rep else char

/-- `db_get_time`: only the static `db_time` is filled through it here, with what the
clock reads. -/
def dbGetTime (env : Environment W F) (state : DbState W) : DbState W :=
  let (timestamp, world) := env.clock state.world
  { state with dbTime := timestamp, world := world }

/-- The `sqlite3_bind` calls of one insert, for consecutive parameters from the
given one on. The first that fails ends them. -/
def bindColumns (env : Environment W F) (stmt : Statement) :
    Nat → List (Value F) → W → Bool × W
  | _, [], world => (true, world)
  | parameter, value :: rest, world =>
    let (bound, world) := env.bind stmt parameter value world
    if bound then bindColumns env stmt (parameter + 1) rest world else (false, world)

/-- The first value is bound to the next parameter, and the others only if that
succeeds. Proofs about bindings are by induction with it. -/
theorem bind_columns_cons (env : Environment W F) (stmt : Statement) (parameter : Nat)
    (value : Value F) (rest : List (Value F)) (world : W) :
    bindColumns env stmt parameter (value :: rest) world =
      if (env.bind stmt parameter value world).1 then
        bindColumns env stmt (parameter + 1) rest (env.bind stmt parameter value world).2
      else (false, (env.bind stmt parameter value world).2) := rfl

/-- What the three insert functions share: hash the entry, bind the columns and
the hash, step and reset. -/
def insertEntry (env : Environment W F) (stmt : Statement) (entry : Text)
    (columns : List (Value F)) (state : DbState W) : Nat × DbState W :=
  let entryBuffer := snprintf dbEntryMaxLen entry
  let (md, world) := env.openssl state.world
  let (hashed, shaOutput) := shaHash env.sha3 md entryBuffer state.shaOutput sha256HashLength
  let state := { state with
    entryBuffer := entryBuffer, shaOutput := shaOutput, world := world }
  if hashed = 1 then (1, state)
  else
    let hash := Value.text (shaOutput.take sha256HashLength)
    let (bound, world) := bindColumns env stmt 1 (columns ++ [hash]) state.world
    if !bound then (1, { state with world := world })
    else
      let (done, world) := env.step stmt world
      if !done then (1, { state with world := world })
      else
        let (ready, world) := env.reset stmt world
        if !ready then (1, { state with world := world })
        else (0, { state with world := world })

/-- An insert whose hash succeeds, by the outcome of its bindings, step and reset. The
first failure among these is what it returns. -/
theorem insert_entry_hashed (env : Environment W F) (stmt : Statement) (entry : Text)
    (columns : List (Value F)) (state : DbState W) (shaOutput : Text)
    (hashed : shaHash env.sha3 (env.openssl state.world).1 (snprintf dbEntryMaxLen entry)
      state.shaOutput sha256HashLength = (0, shaOutput)) :
    let bound := bindColumns env stmt 1
      (columns ++ [.text (shaOutput.take sha256HashLength)]) (env.openssl state.world).2
    let stepped := env.step stmt bound.2
    let ready := env.reset stmt stepped.2
    let finish := fun world => { state with
      entryBuffer := snprintf dbEntryMaxLen entry, shaOutput := shaOutput, world := world }
    insertEntry env stmt entry columns state =
      if bound.1 = false then (1, finish bound.2)
      else if stepped.1 = false then (1, finish stepped.2)
      else if ready.1 = false then (1, finish ready.2)
      else (0, finish ready.2) := by
  intro bound stepped ready finish
  have whole : insertEntry env stmt entry columns state =
      (let (failed, shaOutput) := shaHash env.sha3 (env.openssl state.world).1
          (snprintf dbEntryMaxLen entry) state.shaOutput sha256HashLength
        if failed = 1 then (1, { state with
          entryBuffer := snprintf dbEntryMaxLen entry, shaOutput := shaOutput
          world := (env.openssl state.world).2 })
        else
          let bound := bindColumns env stmt 1
            (columns ++ [.text (shaOutput.take sha256HashLength)]) (env.openssl state.world).2
          let stepped := env.step stmt bound.2
          let ready := env.reset stmt stepped.2
          let finish := fun world => { state with
            entryBuffer := snprintf dbEntryMaxLen entry, shaOutput := shaOutput, world := world }
          if !bound.1 then (1, finish bound.2)
          else if !stepped.1 then (1, finish stepped.2)
          else if !ready.1 then (1, finish ready.2)
          else (0, finish ready.2)) := rfl
  rw [whole, hashed]
  simp [bound, stepped, ready, finish]

variable [LogHeader]

/-- `log->data.error.errc`, as the number that the header gives the error. -/
def LogData.errc : LogData F → Int
  | .error errc _ => LogHeader.errorCode errc
  | _ => 0

/-- `log->type`, as a number. The order of these decides the table that a record goes
to. -/
def Log.code (log : Log F) : Int := LogHeader.logCode log.type

/-- `db_sql_log_elog`: the time is read anew, and the entry to be hashed is the columns
written one after the other. -/
def dbSqlLogElog (env : Environment W F) (log : Log F) (state : DbState W) :
    Nat × DbState W :=
  let state := dbGetTime env state
  insertEntry env .logs (state.dbTime ++ decimal (Log.code log) ++ LogData.text log.data)
    [.text state.dbTime, .int (Log.code log), .text (LogData.text log.data)] state

/-- `db_sql_log_eerror`, likewise, with the text of the error before its code in the
entry and in the columns. -/
def dbSqlLogEerror (env : Environment W F) (log : Log F) (state : DbState W) :
    Nat × DbState W :=
  let state := dbGetTime env state
  insertEntry env .errors
    (state.dbTime ++ decimal (Log.code log) ++ LogData.errs log.data ++
      decimal (LogData.errc log.data))
    [.text state.dbTime, .int (Log.code log), .text (LogData.errs log.data),
      .int (LogData.errc log.data)] state

variable [Arithmetic F]

/-- `log->data.data.data.f`. Records with other data are not asked for it. -/
def LogData.float : LogData F → F
  | .data _ f => f
  | _ => lit 0

/-- `db_sql_log_edata`. The time is the one the record came with, and the value is
printed into the entry but bound as a number. -/
def dbSqlLogEdata (env : Environment W F) (log : Log F) (state : DbState W) :
    Nat × DbState W :=
  insertEntry env .data
    (log.dbTime ++ decimal (LogData.pid log.data) ++ decimal LogHeader.dbDataFloat ++
      render (LogData.float log.data))
    [.text log.dbTime, .int (LogData.pid log.data), .int LogHeader.dbDataFloat,
      .double (LogData.float log.data)] state

/-- The statement that `db_sql_log` selects for a record: by the order of the codes
first, and by the one type that has data. -/
def entryType (log : Log F) : Statement :=
  if Log.code log < LogHeader.logCode .error then
    if log.type = .data then .data else .logs
  else .errors

/-- `db_sql_log`: the insert into the table of the record. -/
def dbSqlLog (env : Environment W F) (log : Log F) (state : DbState W) : Nat × DbState W :=
  match entryType log with
  | .logs => dbSqlLogElog env log state
  | .errors => dbSqlLogEerror env log state
  | .data => dbSqlLogEdata env log state

/-- The first part of `sqlite_local_db_log`: a failing `BEGIN` is only reported, and the
insert is made all the same. -/
def beginBatch (env : Environment W F) (state : DbState W) : DbState W :=
  if state.transactN = 0 then
    { state with world := (env.exec .beginTransaction state.world).2 }
  else state

/-- The last part of `sqlite_local_db_log`: a failing `END` is only reported, and the
count starts again as if it had succeeded. -/
def endBatch (env : Environment W F) (transactionCount : Nat) (state : DbState W) : DbState W :=
  let transactN := state.transactN + 1
  if transactionCount ≤ transactN then
    { state with transactN := 0, world := (env.exec .endTransaction state.world).2 }
  else { state with transactN := transactN }

/-- What follows a failed insert: the sanitised entry becomes the text of `db_log`, as
much of it as there is room for. -/
def describeFailure (state : DbState W) : DbState W :=
  let entryBuffer := stringReplaceChar state.entryBuffer '"' '\''
  { state with
    entryBuffer := entryBuffer
    errs := snprintf LogHeader.logDataSize
      ("writting log: '".toList ++ entryBuffer ++ "'\n".toList) }

/-- `sqlite_local_db_log`, with fuel for its calls of itself. A failed insert is
followed by that of the record about it, and only then by the end of the batch. -/
def sqliteLocalDbLog (env : Environment W F) (transactionCount : Nat) :
    Nat → Log F → DbState W → Option (Nat × DbState W)
  | 0, _, _ => none
  | fuel + 1, log, state =>
    let (failed, state) := dbSqlLog env log (beginBatch env state)
    if failed ≠ 0 then
      let state := describeFailure state
      (sqliteLocalDbLog env transactionCount fuel (dbLog state.errs) state).map
        fun (_, state) => (1, endBatch env transactionCount state)
    else some (0, endBatch env transactionCount state)

/-- The recursion of `sqlite_local_db_log`: its state is the record to insert next
to the static variables. -/
def recovery (env : Environment W F) (transactionCount : Nat) :
    Recovery (Log F × DbState W) where
  attempt := fun (log, state) =>
    let (failed, state) := dbSqlLog env log (beginBatch env state)
    if failed ≠ 0 then
      let state := describeFailure state
      (true, dbLog state.errs, state)
    else (false, log, state)
  finish := fun (log, state) => (log, endBatch env transactionCount state)

/-- `sqlite_local_db_log` is this recursion; it returns 1 when its own insert
failed, whatever became of the error record. -/
theorem sqlite_local_db_log_eq (env : Environment W F) (transactionCount fuel : Nat)
    (log : Log F) (state : DbState W) :
    sqliteLocalDbLog env transactionCount fuel log state =
      ((recovery env transactionCount).call fuel (log, state)).map fun finished =>
        (if (dbSqlLog env log (beginBatch env state)).1 = 0 then 0 else 1, finished.2) := by
  induction fuel generalizing log state with
  | zero => rfl
  | succ fuel inductionHypothesis =>
    simp only [sqliteLocalDbLog, Recovery.call, recovery]
    by_cases inserted : (dbSqlLog env log (beginBatch env state)).1 = 0
    · simp [inserted]
    · simp only [inserted, ne_eq, not_false_eq_true, ↓reduceIte, inductionHypothesis,
        Option.map_map]
      rfl

end EventRecorder.Database
