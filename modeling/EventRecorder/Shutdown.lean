import EventRecorder.Durability
import EventRecorder.LoggerRoutes

/-!
# The end of a recording

`logger` hands the records of its mails to the database, with the time behind the texts
that announce the middle and the end of a crash, and it takes nothing behind an end: it
sets `crashed` and sleeps, `safeguard_run` returns, and `safeguard_deinit` closes the
database. So what a recording leaves is a row for each record up to the end of the
crash, with SQLite as the parameter that it is in `Sqlite`.

The text of a record has room for the time behind it.
-/

namespace EventRecorder.Shutdown

open Arithmetic CText Sha Database ErrorRecursion PreparedStatements Durability LoggerRoutes
open QuietRuns
open Sqlite (Row Connection connected ofConnection)

/-- The record that `logger` takes from a mail. Mails of other types have none for it. -/
def recordOf {F : Type} (mail : Mail F) : Option (Log F) :=
  match mail.data with
  | .log record => if mail.type = mtStorage then some record else none
  | _ => none

/-! ## A database in which nothing fails -/

section

variable {W F : Type}

/-- Nothing fails: every call of the database and of OpenSSL succeeds, in whatever
state. -/
structure Willing (env : Environment W F) : Prop where
  bind : ∀ stmt parameter value world, (env.bind stmt parameter value world).1 = true
  step : ∀ stmt world, (env.step stmt world).1 = true
  reset : ∀ stmt world, (env.reset stmt world).1 = true
  openssl : ∀ world, (env.openssl world).1 = .succeed

/-- The rows that are kept beside an environment add no failure of bindings, steps, resets
or hashes. -/
theorem Willing.connected {env : Environment W F} (willing : Willing env)
    (rollsBack : W → Bool) : Willing (connected env rollsBack) where
  bind stmt parameter value _ := willing.bind stmt parameter value _
  step stmt _ := willing.step stmt _
  reset stmt _ := willing.reset stmt _
  openssl _ := willing.openssl _

/-- All bindings of an insert succeed then, by induction on the columns. -/
theorem Willing.binds {env : Environment W F} (willing : Willing env) (stmt : Statement)
    (parameter : Nat) (columns : List (Value F)) (world : W) :
    (bindColumns env stmt parameter columns world).1 = true := by
  induction columns generalizing parameter world with
  | nil => rfl
  | cons value rest inductionHypothesis =>
    rw [bind_columns_cons, if_pos (willing.bind ..)]
    exact inductionHypothesis _ _

/-- An insert then succeeds, and leaves the buffer of the digest as long as it was. -/
theorem Willing.inserts {env : Environment W F} (willing : Willing env) (stmt : Statement)
    (entry : Text) (columns : List (Value F)) (state : DbState W)
    (room : state.shaOutput.length = sha256HashLength + 1) :
    (insertEntry env stmt entry columns state).1 = 0 ∧
      (insertEntry env stmt entry columns state).2.shaOutput.length =
        sha256HashLength + 1 := by
  obtain ⟨shaOutput, hashed, length, _⟩ := entry_hashed env.sha3 entry
    { DbState.initial (Store.fresh (F := F)) with shaOutput := state.shaOutput } room
  rw [insert_entry_hashed env stmt entry columns state shaOutput
    (by rw [willing.openssl]; exact hashed)]
  simp [willing.binds, willing.step, willing.reset, length]

end

/-! ## The logger -/

section

variable {W F : Type} {env : Environment W F} [LogHeader]

/-- The record as it is logged: the middle and the end of a crash get the time. -/
def timed (env : Environment W F) (record : Log F) (world : W) : Log F × W :=
  if record.type = .eventCrashMid ∨ record.type = .eventCrashEnd then
    let (timestamp, world) := env.clock world
    ({ record with data := .log (LogData.text record.data ++
      snprintf LogHeader.logDataSize (' ' :: timestamp)) }, world)
  else (record, world)

/-- A record as it is logged at some time: with the time behind its text, if it is one
of those that get it. -/
def Prepared (env : Environment W F) (record log : Log F) : Prop :=
  ∃ world, log = (timed env record world).1

variable [Arithmetic F]

/-- `logger`, on the mails it receives: the records it logs, with what `DB_LOG` returns.
Behind the end of a crash it takes nothing more. -/
def logger (env : Environment W F) (transactionCount fuel : Nat) :
    List (Mail F) → DbState W → Option (List (Log F × Nat) × DbState W)
  | [], state => some ([], state)
  | mail :: mails, state =>
    match recordOf mail with
    | none => logger env transactionCount fuel mails state
    | some record =>
      let (log, world) := timed env record state.world
      match sqliteLocalDbLog env transactionCount fuel log { state with world := world } with
      | none => none
      | some (code, state) =>
        if record.type = .eventCrashEnd then some ([(log, code)], state)
        else (logger env transactionCount fuel mails state).map fun (calls, state) =>
          ((log, code) :: calls, state)

omit [LogHeader] [Arithmetic F] in
/-- Of the mails that `logger` takes a record from, it stops on those with an end. -/
theorem ends_eq (mail : Mail F) :
    ends mail = (recordOf mail).any fun record => record.type = .eventCrashEnd := by
  obtain ⟨_, type, data, _⟩ := mail
  cases data <;> by_cases storage : type = mtStorage <;>
    simp [ends, recordOf, Mail.logType, storage]

/-- A call of `logger` on a mail and those behind it: it takes no record of the mail and
goes on, or it logs one and stops on the end of a crash, or logs one and goes on. -/
theorem logger_cons {env : Environment W F} {transactionCount fuel : Nat} {mail : Mail F}
    {mails : List (Mail F)} {state after : DbState W} {calls : List (Log F × Nat)}
    (returned : logger env transactionCount fuel (mail :: mails) state = some (calls, after)) :
    recordOf mail = none ∧ logger env transactionCount fuel mails state = some (calls, after) ∨
      ∃ record code next, recordOf mail = some record ∧
        sqliteLocalDbLog env transactionCount fuel (timed env record state.world).1
          { state with world := (timed env record state.world).2 } = some (code, next) ∧
        (record.type = .eventCrashEnd ∧
            calls = [((timed env record state.world).1, code)] ∧ after = next ∨
          record.type ≠ .eventCrashEnd ∧ ∃ others,
            calls = ((timed env record state.world).1, code) :: others ∧
              logger env transactionCount fuel mails next = some (others, after)) := by
  rw [logger] at returned
  cases found : recordOf mail with
  | none =>
    rw [found] at returned
    exact Or.inl ⟨rfl, returned⟩
  | some record =>
    rw [found] at returned
    dsimp only at returned
    split at returned
    · cases returned
    rename_i code next called
    refine Or.inr ⟨record, code, next, rfl, called, ?_⟩
    split_ifs at returned with last
    · obtain ⟨rfl, rfl⟩ := Prod.mk.inj (Option.some.inj returned)
      exact Or.inl ⟨last, rfl, rfl⟩
    · obtain ⟨⟨others, final⟩, rest, whole⟩ := Option.map_eq_some_iff.mp returned
      obtain ⟨rfl, rfl⟩ := Prod.mk.inj whole
      exact Or.inr ⟨last, others, rfl, rest⟩

omit [Arithmetic F] in
/-- Reading the time prepares a record and makes no entry. -/
theorem timed_prepared (sqlite : Sqlite env) (record : Log F) (world : W) :
    Prepared env record (timed env record world).1 ∧
      sqlite.ledger (timed env record world).2 = sqlite.ledger world := by
  refine ⟨⟨world, rfl⟩, ?_⟩
  unfold timed
  split_ifs
  · exact sqlite.clock_kept world
  · rfl

/-- What `logger` logs, and the entries that its calls make: those of one call after the
other, up to the first end of a crash. -/
theorem logger_rows (sqlite : Sqlite env) (transactionCount fuel : Nat) (mails : List (Mail F))
    (state after : DbState W) (calls : List (Log F × Nat))
    (room : state.shaOutput.length = sha256HashLength + 1)
    (returned : logger env transactionCount fuel mails state = some (calls, after)) :
    List.Forall₂ (fun record call => Prepared env record call.1)
        ((untilEnd mails).filterMap recordOf) calls ∧
      ∃ groups, List.Forall₂ (RecordsRow env.sha3) calls groups ∧
        (sqlite.ledger after.world).entries =
          (sqlite.ledger state.world).entries ++ groups.flatten := by
  induction mails generalizing state calls with
  | nil =>
    obtain ⟨rfl, rfl⟩ := Prod.mk.inj (Option.some.inj returned)
    exact ⟨.nil, [], .nil, by simp⟩
  | cons mail mails inductionHypothesis =>
    rw [untilEnd, ends_eq]
    rcases logger_cons returned with ⟨found, rest⟩ | ⟨record, code, next, found, called, rest⟩
    · obtain ⟨logged, rows⟩ := inductionHypothesis state calls room rest
      exact ⟨by simpa [found] using logged, rows⟩
    · obtain ⟨prepared, ledger⟩ := timed_prepared sqlite record state.world
      obtain ⟨length, rows, entries, row⟩ :=
        call_rows sqlite transactionCount fuel _ _ next code (by exact room) called
      simp only [ledger] at entries
      rcases rest with ⟨last, rfl, rfl⟩ | ⟨last, others, rfl, rest⟩
      · refine ⟨?_, [rows], .cons row .nil, by simpa using entries⟩
        simpa [last, found] using prepared
      · obtain ⟨logged, groups, each, later⟩ := inductionHypothesis next others length rest
        refine ⟨?_, rows :: groups, .cons row each, ?_⟩
        · simpa [last, found] using ⟨prepared, logged⟩
        · rw [later, entries]
          simp

/-- Calls of `logger` that all return 0 lose no row, where no `END` fails inside a
transaction. -/
theorem logger_loses_none (sqlite : Sqlite env) (transactionCount fuel : Nat)
    (mails : List (Mail F)) (state after : DbState W) (calls : List (Log F × Nat))
    (ends : EndsSucceed sqlite) (room : state.shaOutput.length = sha256HashLength + 1)
    (counting : state.transactN = 0 → (sqlite.ledger state.world).isOpen = false)
    (success : ∀ call ∈ calls, call.2 = 0)
    (returned : logger env transactionCount fuel mails state = some (calls, after)) :
    (sqlite.ledger after.world).undone = (sqlite.ledger state.world).undone := by
  induction mails generalizing state calls with
  | nil =>
    obtain ⟨rfl, rfl⟩ := Prod.mk.inj (Option.some.inj returned)
    rfl
  | cons mail mails inductionHypothesis =>
    rcases logger_cons returned with ⟨_, rest⟩ | ⟨record, code, next, _, called, rest⟩
    · exact inductionHypothesis state calls room counting success rest
    · have ledger := (timed_prepared sqlite record state.world).2
      have zero : code = 0 := by
        rcases rest with ⟨_, rfl, _⟩ | ⟨_, others, rfl, _⟩
        · exact success _ List.mem_cons_self
        · exact success _ List.mem_cons_self
      subst zero
      obtain ⟨length, _⟩ := call_rows sqlite transactionCount fuel _ _ next _ (by exact room) called
      obtain ⟨kept, still⟩ := call_loses_none sqlite transactionCount fuel _
        { state with world := (timed env record state.world).2 } next ends room
        (fun zero => (congrArg Ledger.isOpen ledger).trans (counting zero)) called
      simp only [ledger] at kept
      rcases rest with ⟨_, rfl, rfl⟩ | ⟨_, others, rfl, rest⟩
      · exact kept
      · exact (inductionHypothesis next others length still
          (List.forall_mem_cons.mp success).2 rest).trans kept

/-- So does the call, without calling itself. -/
theorem Willing.logs {env : Environment W F} (willing : Willing env) (transactionCount : Nat)
    (log : Log F) (state : DbState W)
    (room : state.shaOutput.length = sha256HashLength + 1) :
    ∃ next, sqliteLocalDbLog env transactionCount 1 log state = some (0, next) ∧
      next.shaOutput.length = sha256HashLength + 1 := by
  have opened : (beginBatch env state).shaOutput = state.shaOutput := by
    unfold beginBatch
    split_ifs <;> rfl
  have closes (state : DbState W) :
      (endBatch env transactionCount state).shaOutput = state.shaOutput := by
    simp only [endBatch]
    split_ifs <;> rfl
  have inserted : (dbSqlLog env log (beginBatch env state)).1 = 0 ∧
      (dbSqlLog env log (beginBatch env state)).2.shaOutput.length =
        sha256HashLength + 1 := by
    unfold dbSqlLog
    cases entryType log <;> exact willing.inserts _ _ _ _ (by exact opened ▸ room)
  refine ⟨endBatch env transactionCount (dbSqlLog env log (beginBatch env state)).2, ?_, ?_⟩
  · simp [sqliteLocalDbLog, inserted.1]
  · rw [closes]
    exact inserted.2

/-- Where nothing fails, every record that the logger takes is inserted, and every call
returns 0. -/
theorem Willing.logger {env : Environment W F} (willing : Willing env) (transactionCount : Nat)
    (mails : List (Mail F)) (state : DbState W)
    (room : state.shaOutput.length = sha256HashLength + 1) :
    ∃ calls after, logger env transactionCount 1 mails state = some (calls, after) ∧
      ∀ call ∈ calls, call.2 = 0 := by
  induction mails generalizing state with
  | nil => exact ⟨[], state, rfl, by simp⟩
  | cons mail mails inductionHypothesis =>
    rw [Shutdown.logger]
    cases found : recordOf mail with
    | none => exact inductionHypothesis state room
    | some record =>
      obtain ⟨next, logged, length⟩ := willing.logs transactionCount
        (timed env record state.world).1
        { state with world := (timed env record state.world).2 } room
      simp only [logged]
      split_ifs with last
      · exact ⟨_, next, rfl, by simp⟩
      · obtain ⟨calls, after, returned, success⟩ := inductionHypothesis next length
        exact ⟨_, after, by rw [returned]; rfl, by simpa using success⟩

end

/-- The middle of a crash, a record of a value, the end, and a record behind it. -/
def crashMails : List (Mail ℚ) :=
  [notifMail .eventCrashMid "Crash Mid 3".toList, dataLog 6 9 [],
    notifMail .eventCrashEnd "Crash Ended 9".toList, dataLog 6 0 []]

end EventRecorder.Shutdown
