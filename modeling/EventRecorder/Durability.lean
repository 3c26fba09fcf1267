import EventRecorder.PreparedStatements

/-!
# What the database keeps

A row is inserted by a step that completes. It is in the database once its transaction has
been committed, and it is lost if that is rolled back: by SQLite itself when a call fails,
or by the next that opens the file when the recorder has gone without an `END`.
`sqlite_local_db_exit` ends the transaction before it closes the connection. So wherever a
batch stands then, and whatever has failed on the way, each row that was inserted is in
the database when the recorder has exited, but for those that an automatic roll-back has
undone. There is none of these where every call has returned 0 and no `END` fails inside a
transaction. A power failure between two calls costs less than a batch.

SQLite is a parameter. Nothing is assumed of which calls succeed, nor of which of those
that fail roll the transaction back, beyond what a theorem says.
-/

namespace EventRecorder.Durability

open Arithmetic CText Sha Database ErrorRecursion PreparedStatements QuietRuns
open Sqlite (Row Connection connected ofConnection columns_of_bound)

section

variable {W F : Type} {env : Environment W F}

/-- `sqlite_local_db_exit`. It asks with `sqlite3_get_autocommit` whether a transaction is
open. A failing `END` is only reported, and so is nothing of the `sqlite3_close`. -/
def sqliteLocalDbExit (sqlite : Sqlite env) (world : W) : W :=
  sqlite.close
    (if (sqlite.ledger world).isOpen then (env.exec .endTransaction world).2 else world)

/-- No `END` fails inside a transaction. Outside of one it does, and that loses nothing. -/
def EndsSucceed (sqlite : Sqlite env) : Prop :=
  ∀ world, (sqlite.ledger world).isOpen = true → (env.exec .endTransaction world).1 = true

/-- The exit settles every row, if its `END` succeeds: none is pending behind it, all are
accounted for, and no more are lost than had been before. Where none is lost, all of them
are in the database. The roll-back that closing the connection may bring finds no
transaction. -/
theorem exit_settles (sqlite : Sqlite env) (world : W)
    (ends : (sqlite.ledger world).isOpen = true → (env.exec .endTransaction world).1 = true) :
    let exited := sqlite.ledger (sqliteLocalDbExit sqlite world)
    exited.pending = [] ∧ exited.entries = (sqlite.ledger world).entries ∧
      exited.undone = (sqlite.ledger world).undone ∧
      (exited.undone = [] → exited.committed = (sqlite.ledger world).entries) := by
  intro exited
  have settles : exited.pending = [] ∧ exited.entries = (sqlite.ledger world).entries ∧
      exited.undone = (sqlite.ledger world).undone := by
    by_cases inside : (sqlite.ledger world).isOpen = true
    · obtain ⟨settled, closed, undone⟩ := sqlite.end_settles world ends
      have same : exited = sqlite.ledger (env.exec .endTransaction world).2 := by
        simp only [exited, sqliteLocalDbExit, if_pos inside]
        exact (sqlite.closes _).closed closed
      refine same ▸ ⟨settled, ?_, undone⟩
      have grown := (sqlite.grows_end world).entries
      rwa [List.append_nil] at grown
    · have outside := Bool.of_not_eq_true inside
      have same : exited = sqlite.ledger world := by
        simp only [exited, sqliteLocalDbExit, if_neg inside]
        exact (sqlite.closes world).closed outside
      rw [same]
      exact ⟨(sqlite.ledger world).closed outside, rfl, rfl⟩
  obtain ⟨settled, accounted, undone⟩ := settles
  refine ⟨settled, accounted, undone, fun kept => ?_⟩
  rw [← accounted, Ledger.entries_of_undone_nil _ kept, settled, List.append_nil]

/-! ## One insert -/

/-- What an insert of a row may do, by what it returns. Whether it fails before its step,
at it or behind it, it makes one entry at most, and that of the row where it returns 0. -/
structure Inserted (sqlite : Sqlite env) (row : Row F) (state : DbState W)
    (result : Nat × DbState W) : Prop where
  counter : result.2.transactN = state.transactN
  room : result.2.shaOutput.length = sha256HashLength + 1
  grows : ∃ rows : List (Row F), rows.length ≤ 1 ∧
    Ledger.Grows rows (sqlite.ledger state.world) (sqlite.ledger result.2.world)
  row : result.1 = 0 → sqlite.ledger result.2.world = (sqlite.ledger state.world).enter row

/-- An insert that fails without a completed step makes no entry, although its failure
may have undone those of others. -/
theorem Inserted.failed {sqlite : Sqlite env} {row : Row F} {state : DbState W}
    {result : Nat × DbState W} (counter : result.2.transactN = state.transactN)
    (room : result.2.shaOutput.length = sha256HashLength + 1) (code : result.1 = 1)
    (grows : Ledger.Grows [] (sqlite.ledger state.world) (sqlite.ledger result.2.world)) :
    Inserted sqlite row state result :=
  ⟨counter, room, ⟨[], Nat.zero_le _, grows⟩, fun zero => by rw [code] at zero; cases zero⟩

/-- One of the three inserts. The cases are the four ways in which it ends: a binding
fails, the step fails, the reset fails behind the completed step, or nothing does. -/
theorem insert_entry_inserted (sqlite : Sqlite env) (stmt : Statement) (entry : Text)
    (columns : List (Value F)) (state : DbState W)
    (room : state.shaOutput.length = sha256HashLength + 1)
    (complete : columns.length + 1 = Sqlite.parameterCount stmt) :
    Inserted sqlite (stmt, hashedRow env.sha3 entry columns) state
      (insertEntry env stmt entry columns state) := by
  by_cases success : (env.openssl state.world).1 = .succeed
  · obtain ⟨shaOutput, hashed, length, digits⟩ := entry_hashed env.sha3 entry
      { DbState.initial (Store.fresh (F := F)) with shaOutput := state.shaOutput } room
    have law := insert_entry_hashed env stmt entry columns state shaOutput
      (by rw [success]; exact hashed)
    rw [digits] at law
    have digested := sqlite.openssl_kept state.world
    generalize allColumns : columns ++
      [.text (hexDigits (env.sha3 (snprintf dbEntryMaxLen entry)).toList 32)] = whole at law
    have complete : whole.length = Sqlite.parameterCount stmt := by
      rw [← allColumns, ← complete]
      simp
    obtain ⟨kept, undone⟩ := sqlite.bind_columns_ledger stmt 1 whole (env.openssl state.world).2
    rw [digested] at kept undone
    rw [law]
    split_ifs with unbound unfinished unready
    · exact .failed rfl length rfl (undone unbound).grows
    · have same := kept (Bool.of_not_eq_false unbound)
      exact .failed rfl length rfl (same ▸ (sqlite.step_undone stmt _ unfinished).grows)
    all_goals
      have bound := Bool.of_not_eq_false unbound
      have values := (sqlite.binds.columns stmt 1 whole _ bound).2
      have row : Sqlite.columnsOf (sqlite.bound (bindColumns env stmt 1 whole
          (env.openssl state.world).2).2) stmt = hashedRow env.sha3 entry columns := by
        rw [columns_of_bound _ stmt whole complete values, hashedRow, allColumns]
      have entered := sqlite.enters stmt _ (Bool.of_not_eq_false unfinished)
      rw [row, kept bound] at entered
    · have undone := (sqlite.reset_undone stmt _ unready).grows
      rw [entered] at undone
      refine ⟨rfl, length, ⟨[(stmt, hashedRow env.sha3 entry columns)], Nat.le_refl 1, ?_⟩,
        fun zero => by cases zero⟩
      exact (Ledger.grows_enter _ _).trans undone
    · have ready := (sqlite.reset_kept stmt _ (Bool.of_not_eq_false unready)).trans entered
      refine ⟨rfl, length, ⟨[(stmt, hashedRow env.sha3 entry columns)], Nat.le_refl 1, ?_⟩,
        fun _ => ready⟩
      simp only [ready]
      exact Ledger.grows_enter _ _
  · have failed : (shaHash env.sha3 (env.openssl state.world).1 (snprintf dbEntryMaxLen entry)
        state.shaOutput sha256HashLength) = (1, state.shaOutput) :=
      sha_hash_failure _ _ _ _ _ success
    simp only [insertEntry, failed, ↓reduceIte]
    exact .failed rfl room rfl (sqlite.openssl_kept _ ▸ Ledger.Grows.refl _)

variable [Arithmetic F] [LogHeader]

/-- The insert of a record is that of its row, with the time that the clock shows then. -/
theorem db_sql_log_inserted (sqlite : Sqlite env) (log : Log F) (state : DbState W)
    (room : state.shaOutput.length = sha256HashLength + 1) :
    ∃ timestamp, Inserted sqlite (entryType log, recordRow env.sha3 log timestamp) state
      (dbSqlLog env log state) := by
  have entry : ∃ timed : DbState W, ∃ timestamp,
      sqlite.ledger timed.world = sqlite.ledger state.world ∧
        timed.shaOutput = state.shaOutput ∧ timed.transactN = state.transactN ∧
        dbSqlLog env log state = insertEntry env (entryType log) (entryText log timestamp)
          (recordColumns log timestamp) timed := by
    have clock := sqlite.clock_kept state.world
    unfold dbSqlLog entryText recordColumns
    cases entryType log with
    | logs => exact ⟨dbGetTime env state, _, clock, rfl, rfl, rfl⟩
    | errors => exact ⟨dbGetTime env state, _, clock, rfl, rfl, rfl⟩
    | data => exact ⟨state, [], rfl, rfl, rfl, rfl⟩
  obtain ⟨timed, timestamp, ledger, output, counter, entry⟩ := entry
  have complete : (recordColumns log timestamp).length + 1 =
      Sqlite.parameterCount (entryType log) := by
    unfold recordColumns
    cases entryType log <;> rfl
  have inserted := insert_entry_inserted sqlite (entryType log) (entryText log timestamp)
    (recordColumns log timestamp) timed (by rw [output]; exact room) complete
  rw [← entry] at inserted
  exact ⟨timestamp, inserted.counter.trans counter, inserted.room,
    ledger ▸ inserted.grows, fun zero => ledger ▸ inserted.row zero⟩

/-! ## One call -/

omit [Arithmetic F] [LogHeader] in
/-- The part of a call in front of its insert: it touches neither the buffer of the hash
nor the counter, and makes no entry. -/
theorem begin_batch_grows (sqlite : Sqlite env) (state : DbState W) :
    (beginBatch env state).shaOutput = state.shaOutput ∧
      (beginBatch env state).transactN = state.transactN ∧
      Ledger.Grows [] (sqlite.ledger state.world)
        (sqlite.ledger (beginBatch env state).world) := by
  unfold beginBatch
  split_ifs
  · exact ⟨rfl, rfl, sqlite.grows_begin state.world⟩
  · exact ⟨rfl, rfl, Ledger.Grows.refl _⟩

omit [Arithmetic F] [LogHeader] in
/-- The part behind the insert, which moves the counter, but makes no entry either: it
can settle the pending ones only. -/
theorem end_batch_grows (sqlite : Sqlite env) (transactionCount : Nat) (state : DbState W) :
    (endBatch env transactionCount state).shaOutput = state.shaOutput ∧
      Ledger.Grows [] (sqlite.ledger state.world)
        (sqlite.ledger (endBatch env transactionCount state).world) := by
  simp only [endBatch]
  split_ifs
  · exact ⟨rfl, sqlite.grows_end state.world⟩
  · exact ⟨rfl, Ledger.Grows.refl _⟩

/-- A call that returns has made entries, and where it returns 0 just that of its record.
By induction on the depth of the recursion: the entries of a call that failed are those of
its own insert and then those of the call that recorded the failure. -/
theorem call_rows (sqlite : Sqlite env) (transactionCount fuel : Nat) (log : Log F)
    (state after : DbState W) (code : Nat)
    (room : state.shaOutput.length = sha256HashLength + 1)
    (returned : sqliteLocalDbLog env transactionCount fuel log state = some (code, after)) :
    after.shaOutput.length = sha256HashLength + 1 ∧
      ∃ rows, (sqlite.ledger after.world).entries = (sqlite.ledger state.world).entries ++ rows ∧
        (code = 0 → ∃ timestamp,
          rows = [(entryType log, recordRow env.sha3 log timestamp)]) := by
  induction fuel generalizing log state after code with
  | zero => cases returned
  | succ fuel inductionHypothesis =>
    obtain ⟨output, _, opened⟩ := begin_batch_grows sqlite state
    obtain ⟨timestamp, inserted⟩ :=
      db_sql_log_inserted sqlite log (beginBatch env state) (by rw [output]; exact room)
    have closes := end_batch_grows sqlite transactionCount
    simp only [sqliteLocalDbLog] at returned
    split_ifs at returned with failed
    · obtain ⟨⟨inner, settled⟩, nested, whole⟩ := Option.map_eq_some_iff.mp returned
      obtain ⟨rfl, rfl⟩ := Prod.mk.inj whole
      obtain ⟨rows, _, grown⟩ := inserted.grows
      obtain ⟨length, more, entries, _⟩ :=
        inductionHypothesis _ _ settled inner (by exact inserted.room) nested
      refine ⟨by rw [(closes settled).1]; exact length, rows ++ more, ?_,
        fun zero => by cases zero⟩
      rw [(closes settled).2.entries, List.append_nil, entries]
      simp [describeFailure, (opened.trans grown).entries]
    · obtain ⟨rfl, rfl⟩ := Prod.mk.inj (Option.some.inj returned)
      have entered := inserted.row (not_not.mp failed)
      refine ⟨by rw [(closes _).1]; exact inserted.room, _, ?_, fun _ => ⟨timestamp, rfl⟩⟩
      rw [(closes _).2.entries, List.append_nil, entered, Ledger.entries_enter, opened.entries,
        List.append_nil]

/-- A call leaves no more pending than its counter says, those of its callers aside: a
caller has made an attempt that is not counted yet. The last part of a call counts it, and
where the counter is full it commits everything. -/
theorem call_pending (sqlite : Sqlite env) (transactionCount fuel callers : Nat) (log : Log F)
    (state after : DbState W) (code : Nat) (some : 1 ≤ transactionCount)
    (ends : EndsSucceed sqlite) (room : state.shaOutput.length = sha256HashLength + 1)
    (few : (sqlite.ledger state.world).pending.length ≤ state.transactN + callers)
    (returned : sqliteLocalDbLog env transactionCount fuel log state =
      Option.some (code, after)) :
    (sqlite.ledger after.world).pending.length ≤ after.transactN + callers ∧
      after.transactN < transactionCount := by
  induction fuel generalizing log state after code callers with
  | zero => cases returned
  | succ fuel inductionHypothesis =>
    obtain ⟨output, counter, opened⟩ := begin_batch_grows sqlite state
    obtain ⟨timestamp, inserted⟩ :=
      db_sql_log_inserted sqlite log (beginBatch env state) (by rw [output]; exact room)
    have counted := inserted.counter.trans counter
    have attempted : List.length
        (sqlite.ledger (dbSqlLog env log (beginBatch env state)).2.world).pending ≤
          state.transactN + (callers + 1) := by
      obtain ⟨rows, one, grown⟩ := inserted.grows
      have pending := (opened.trans grown).pending
      rw [List.nil_append] at pending
      omega
    have closes (state : DbState W)
        (few : (sqlite.ledger state.world).pending.length ≤ state.transactN + (callers + 1)) :
        (sqlite.ledger (endBatch env transactionCount state).world).pending.length ≤
            (endBatch env transactionCount state).transactN + callers ∧
          (endBatch env transactionCount state).transactN < transactionCount := by
      simp only [endBatch]
      split_ifs with full
      · rw [(sqlite.end_settles state.world (ends _)).1]
        exact ⟨Nat.zero_le _, some⟩
      · simp only
        omega
    simp only [sqliteLocalDbLog] at returned
    split_ifs at returned with failed
    · obtain ⟨⟨inner, settled⟩, nested, whole⟩ := Option.map_eq_some_iff.mp returned
      obtain ⟨rfl, rfl⟩ := Prod.mk.inj whole
      obtain ⟨less, _⟩ := inductionHypothesis (callers + 1) _ _ settled inner
        (by exact inserted.room) (by exact attempted.trans_eq (by rw [← counted]; rfl)) nested
      exact closes settled less
    · obtain ⟨rfl, rfl⟩ := Prod.mk.inj (Option.some.inj returned)
      exact closes _ (by rw [counted]; exact attempted)

/-- A call that returns 0 loses no row, not even by a `BEGIN` or an `END` that fails. For
between such calls a transaction is open only while the counter counts: the `BEGIN` is
tried outside a transaction, and an `END` that fails has found none. -/
theorem call_loses_none (sqlite : Sqlite env) (transactionCount fuel : Nat) (log : Log F)
    (state after : DbState W) (ends : EndsSucceed sqlite)
    (room : state.shaOutput.length = sha256HashLength + 1)
    (counting : state.transactN = 0 → (sqlite.ledger state.world).isOpen = false)
    (returned : sqliteLocalDbLog env transactionCount fuel log state = some (0, after)) :
    (sqlite.ledger after.world).undone = (sqlite.ledger state.world).undone ∧
      (after.transactN = 0 → (sqlite.ledger after.world).isOpen = false) := by
  cases fuel with
  | zero => cases returned
  | succ fuel =>
    obtain ⟨output, counter, _⟩ := begin_batch_grows sqlite state
    have opened : (sqlite.ledger (beginBatch env state).world).undone =
        (sqlite.ledger state.world).undone := by
      unfold beginBatch
      split_ifs with zero
      · cases done : (env.exec .beginTransaction state.world).1 with
        | true =>
          simp only [(sqlite.begins state.world done).2]
          exact Ledger.undone_begin _
        | false =>
          exact congrArg _ ((sqlite.exec_undone _ _ done).closed (counting zero))
      · rfl
    obtain ⟨timestamp, inserted⟩ :=
      db_sql_log_inserted sqlite log (beginBatch env state) (by rw [output]; exact room)
    simp only [sqliteLocalDbLog] at returned
    split_ifs at returned with failed
    · obtain ⟨⟨inner, settled⟩, _, whole⟩ := Option.map_eq_some_iff.mp returned
      cases (Prod.mk.inj whole).1
    · obtain ⟨_, rfl⟩ := Prod.mk.inj (Option.some.inj returned)
      have entered := inserted.row (not_not.mp failed)
      have kept : (sqlite.ledger (dbSqlLog env log (beginBatch env state)).2.world).undone =
          (sqlite.ledger state.world).undone := by
        rw [entered, Ledger.undone_enter, opened]
      simp only [endBatch]
      split_ifs with full
      · obtain ⟨_, closed, undone⟩ := sqlite.end_settles _ (ends
          (dbSqlLog env log (beginBatch env state)).2.world)
        exact ⟨undone.trans kept, fun _ => closed⟩
      · exact ⟨kept, fun zero => by cases zero⟩

/-! ## A run of calls -/

/-- So many records are logged, one after the other, each with fuel for its calls of
itself. The codes are what the calls return. -/
def logAll (env : Environment W F) (transactionCount fuel : Nat) :
    List (Log F) → DbState W → Option (List Nat × DbState W)
  | [], state => some ([], state)
  | log :: logs, state =>
    match sqliteLocalDbLog env transactionCount fuel log state with
    | none => none
    | some (code, state) =>
      (logAll env transactionCount fuel logs state).map fun (codes, state) => (code :: codes, state)

/-- A run that returns has made its first call, and then the others from where that one
left off. -/
theorem log_all_cons {env : Environment W F} {transactionCount fuel : Nat} {log : Log F}
    {logs : List (Log F)} {state after : DbState W} {codes : List Nat}
    (returned : logAll env transactionCount fuel (log :: logs) state = some (codes, after)) :
    ∃ code next others, codes = code :: others ∧
      sqliteLocalDbLog env transactionCount fuel log state = some (code, next) ∧
      logAll env transactionCount fuel logs next = some (others, after) := by
  rw [logAll] at returned
  cases called : sqliteLocalDbLog env transactionCount fuel log state with
  | none =>
    rw [called] at returned
    cases returned
  | some result =>
    obtain ⟨code, next⟩ := result
    rw [called] at returned
    obtain ⟨⟨others, last⟩, rest, whole⟩ := Option.map_eq_some_iff.mp returned
    obtain ⟨rfl, rfl⟩ := Prod.mk.inj whole
    exact ⟨code, next, others, rfl, rfl, rest⟩

/-- The rows of a call: where it returned 0 they are that of its record alone. -/
def RecordsRow (sha3 : Sha3) (call : Log F × Nat) (rows : List (Row F)) : Prop :=
  call.2 = 0 → ∃ timestamp, rows = [(entryType call.1, recordRow sha3 call.1 timestamp)]

/-- The entries of a run are the rows of its calls, one call after the other. -/
theorem run_rows (sqlite : Sqlite env) (transactionCount fuel : Nat) (logs : List (Log F))
    (state after : DbState W) (codes : List Nat)
    (room : state.shaOutput.length = sha256HashLength + 1)
    (returned : logAll env transactionCount fuel logs state = some (codes, after)) :
    codes.length = logs.length ∧ ∃ groups,
      List.Forall₂ (RecordsRow env.sha3) (logs.zip codes) groups ∧
        (sqlite.ledger after.world).entries =
          (sqlite.ledger state.world).entries ++ groups.flatten := by
  induction logs generalizing state codes with
  | nil =>
    obtain ⟨rfl, rfl⟩ := Prod.mk.inj (Option.some.inj returned)
    exact ⟨rfl, [], .nil, by simp⟩
  | cons log logs inductionHypothesis =>
    obtain ⟨code, next, others, rfl, called, rest⟩ := log_all_cons returned
    obtain ⟨length, rows, entries, row⟩ :=
      call_rows sqlite transactionCount fuel log state next code room called
    obtain ⟨same, groups, each, later⟩ := inductionHypothesis next others length rest
    refine ⟨by simp [same], rows :: groups, .cons row each, ?_⟩
    rw [later, entries]
    simp

/-- Between two calls less than a batch is pending. The invariant is that no more is
pending than the counter says, and that the counter is below the size of a batch. -/
theorem run_pending (sqlite : Sqlite env) (transactionCount fuel : Nat) (logs : List (Log F))
    (state after : DbState W) (codes : List Nat) (some : 1 ≤ transactionCount)
    (ends : EndsSucceed sqlite) (room : state.shaOutput.length = sha256HashLength + 1)
    (few : (sqlite.ledger state.world).pending.length ≤ state.transactN)
    (below : state.transactN < transactionCount)
    (returned : logAll env transactionCount fuel logs state = Option.some (codes, after)) :
    (sqlite.ledger after.world).pending.length < transactionCount := by
  induction logs generalizing state codes with
  | nil =>
    obtain ⟨rfl, rfl⟩ := Prod.mk.inj (Option.some.inj returned)
    omega
  | cons log logs inductionHypothesis =>
    obtain ⟨code, next, others, rfl, called, rest⟩ := log_all_cons returned
    obtain ⟨length, _⟩ := call_rows sqlite transactionCount fuel log state next code room called
    obtain ⟨less, counted⟩ := call_pending sqlite transactionCount fuel 0 log state next code some
      ends room few called
    exact inductionHypothesis next others length less counted rest

/-- A run whose calls all return 0 loses no row. The invariant is that a transaction is
open only while the counter counts. -/
theorem run_loses_none (sqlite : Sqlite env) (transactionCount fuel : Nat) (logs : List (Log F))
    (state after : DbState W) (codes : List Nat) (ends : EndsSucceed sqlite)
    (room : state.shaOutput.length = sha256HashLength + 1)
    (counting : state.transactN = 0 → (sqlite.ledger state.world).isOpen = false)
    (success : ∀ code ∈ codes, code = 0)
    (returned : logAll env transactionCount fuel logs state = some (codes, after)) :
    (sqlite.ledger after.world).undone = (sqlite.ledger state.world).undone := by
  induction logs generalizing state codes with
  | nil =>
    obtain ⟨rfl, rfl⟩ := Prod.mk.inj (Option.some.inj returned)
    rfl
  | cons log logs inductionHypothesis =>
    obtain ⟨code, next, others, rfl, called, rest⟩ := log_all_cons returned
    obtain ⟨first, remaining⟩ := List.forall_mem_cons.mp success
    subst first
    obtain ⟨length, _⟩ := call_rows sqlite transactionCount fuel log state next _ room called
    obtain ⟨kept, still⟩ := call_loses_none sqlite transactionCount fuel log state next ends room
      counting called
    exact (inductionHypothesis next others length still remaining rest).trans kept

end

/-- Two error records with the record of a value between them, whose step fails and rolls
the transaction back. -/
def rolledBackRun : Option (List Nat × DbState (Connection (List Bool) ℚ)) :=
  logAll (connected scriptedDatabase fun _ => true) 10 2
    [dbLog [], ⟨.data, .data 6 9, []⟩, dbLog []]
    (DbState.initial (Connection.fresh [true, false]))

section

variable {W F : Type} {env : Environment W F} [Arithmetic F] [LogHeader]

end

end EventRecorder.Durability
