import EventRecorder.ErrorRecursion
import EventRecorder.Runs

/-!
# Transaction bracketing

`sqlite_local_db_log` opens a transaction when its counter is zero and closes it
when the counter reaches `TRANSACTION_COUNT`. The nested calls that record a
failure run through the same two steps with the same counter: on the way down
each finds the counter as the first call found it, and on the way up each
increments it.

The database is one in which `BEGIN` succeeds exactly when no transaction is
open and `END` exactly when one is, whatever else succeeds or fails in it. It
notes, for each of these calls and each completed insert, whether a transaction
was open.
-/

namespace EventRecorder.Transactions

open Arithmetic CText Sha Database ErrorRecursion QuietRuns

/-- The calls whose place relative to a transaction matters. -/
inductive Call where
  | beginTransaction
  | endTransaction
  | insert
  deriving DecidableEq, Repr

/-- Such a call, with whether a transaction was open when it was issued. -/
structure Event where
  call : Call
  isOpen : Bool
  deriving DecidableEq, Repr

/-- `BEGIN` belongs outside a transaction, `END` and inserts inside one. -/
def Event.Placed (event : Event) : Prop :=
  event.isOpen = match event.call with
    | .beginTransaction => false
    | .endTransaction => true
    | .insert => true

instance (event : Event) : Decidable event.Placed := inferInstanceAs (Decidable (_ = _))

/-- The state of a database connection and what was noted on it. -/
structure Session (W : Type) where
  world : W
  isOpen : Bool
  events : List Event

section

variable {W F : Type}

/-- Note a call, with the transaction as it was before. -/
def Session.note (session : Session W) (call : Call) (isOpen : Bool) (world : W) : Session W :=
  ⟨world, isOpen, session.events ++ [⟨call, session.isOpen⟩]⟩

/-- An environment whose transactions follow SQLite's rule that `BEGIN` succeeds outside
of one only and `END` inside; its other calls behave as those of any environment. What a
failing call may do to an open transaction is not part of that rule, and is left to
`Sqlite`. -/
def bracketed (env : Environment W F) : Environment (Session W) F where
  exec query session :=
    let world := (env.exec query session.world).2
    match query with
    | .beginTransaction => (!session.isOpen, session.note .beginTransaction true world)
    | .endTransaction => (session.isOpen, session.note .endTransaction false world)
  bind stmt parameter value session :=
    let (bound, world) := env.bind stmt parameter value session.world
    (bound, { session with world := world })
  step stmt session :=
    let (done, world) := env.step stmt session.world
    (done, if done then session.note .insert session.isOpen world
      else { session with world := world })
  reset stmt session :=
    let (ready, world) := env.reset stmt session.world
    (ready, { session with world := world })
  clock session :=
    let (timestamp, world) := env.clock session.world
    (timestamp, { session with world := world })
  openssl session :=
    let (md, world) := env.openssl session.world
    (md, { session with world := world })
  sha3 := env.sha3

/-- Every noted call was in its place. -/
def AllPlaced (state : DbState (Session W)) : Prop :=
  ∀ event ∈ state.world.events, event.Placed

/-- Every noted call was in its place, and the counter is zero exactly when no
transaction is open. -/
structure Sound (state : DbState (Session W)) : Prop where
  placed : AllPlaced state
  closed_iff : state.transactN = 0 ↔ state.world.isOpen = false

/-- What a part of a call may do to the session between `BEGIN` and `END`: the
transaction stays as it is and nothing but inserts is noted. -/
structure Inserts (before after : Session W) : Prop where
  isOpen : after.isOpen = before.isOpen
  events : ∃ inserted, after.events = before.events ++ inserted ∧
    ∀ event ∈ inserted, event = ⟨.insert, before.isOpen⟩

/-- What leaves the transaction and notes nothing keeps to this. -/
theorem Inserts.unchanged {before after : Session W} (isOpen : after.isOpen = before.isOpen)
    (events : after.events = before.events) : Inserts before after :=
  ⟨isOpen, [], by simp [events], by simp⟩

/-- So does one after the other. -/
theorem Inserts.trans {first second third : Session W} (earlier : Inserts first second)
    (later : Inserts second third) : Inserts first third := by
  obtain ⟨insertedFirst, eventsFirst, onlyFirst⟩ := earlier.events
  obtain ⟨insertedSecond, eventsSecond, onlySecond⟩ := later.events
  refine ⟨later.isOpen.trans earlier.isOpen, insertedFirst ++ insertedSecond, ?_, ?_⟩
  · rw [eventsSecond, eventsFirst, List.append_assoc]
  · intro event member
    rcases List.mem_append.mp member with first | second
    · exact onlyFirst event first
    · rw [onlySecond event second, earlier.isOpen]

/-- Every call of the environment but those of transactions keeps to this. -/
theorem bracketed_inserts (env : Environment W F) (stmt : Statement) (parameter : Nat)
    (value : Value F) (session : Session W) :
    Inserts session ((bracketed env).bind stmt parameter value session).2 ∧
      Inserts session ((bracketed env).step stmt session).2 ∧
      Inserts session ((bracketed env).reset stmt session).2 ∧
      Inserts session ((bracketed env).clock session).2 ∧
      Inserts session ((bracketed env).openssl session).2 := by
  refine ⟨.unchanged rfl rfl, ?_, .unchanged rfl rfl, .unchanged rfl rfl, .unchanged rfl rfl⟩
  simp only [bracketed]
  split_ifs
  · exact ⟨rfl, [⟨.insert, session.isOpen⟩], rfl, by simp⟩
  · exact .unchanged rfl rfl

/-- So do the bindings of an insert, however far they get. -/
theorem bind_columns_inserts (env : Environment W F) (stmt : Statement) (parameter : Nat)
    (columns : List (Value F)) (session : Session W) :
    Inserts session (bindColumns (bracketed env) stmt parameter columns session).2 := by
  induction columns generalizing parameter session with
  | nil => exact .unchanged rfl rfl
  | cons value rest inductionHypothesis =>
    have first := (bracketed_inserts env stmt parameter value session).1
    simp only [bindColumns]
    split_ifs
    · exact first.trans (inductionHypothesis (parameter + 1) _)
    · exact first

/-- An insert, completed or not, keeps to this and to the counter. -/
theorem insert_entry_inserts (env : Environment W F) (stmt : Statement) (entry : Text)
    (columns : List (Value F)) (state : DbState (Session W)) :
    (insertEntry (bracketed env) stmt entry columns state).2.transactN = state.transactN ∧
      Inserts state.world (insertEntry (bracketed env) stmt entry columns state).2.world := by
  have hashed := (bracketed_inserts env stmt 0 (.int 0) state.world).2.2.2.2
  have bound := fun columns =>
    hashed.trans (bind_columns_inserts env stmt 1 columns ((bracketed env).openssl state.world).2)
  have stepped := fun session => (bracketed_inserts env stmt 0 (.int 0) session).2.1
  have reset := fun session => (bracketed_inserts env stmt 0 (.int 0) session).2.2.1
  unfold insertEntry
  simp only
  split_ifs
  · exact ⟨rfl, hashed⟩
  · exact ⟨rfl, bound _⟩
  · exact ⟨rfl, (bound _).trans (stepped _)⟩
  · exact ⟨rfl, ((bound _).trans (stepped _)).trans (reset _)⟩
  · exact ⟨rfl, ((bound _).trans (stepped _)).trans (reset _)⟩

/-- Inserts inside a transaction are in their place, so that they do not change whether
all calls are. -/
theorem Inserts.placed_iff {before after : DbState (Session W)}
    (inserts : Inserts before.world after.world) (inside : before.world.isOpen = true) :
    AllPlaced after ↔ AllPlaced before := by
  obtain ⟨inserted, events, only⟩ := inserts.events
  unfold AllPlaced
  rw [events]
  constructor
  · intro placed event member
    exact placed event (List.mem_append_left _ member)
  · intro placed event member
    rcases List.mem_append.mp member with earlier | later
    · exact placed event earlier
    · rw [only event later]
      exact inside

variable [Arithmetic F] [LogHeader]

/-- So does the insert of a record, into whichever table. -/
theorem db_sql_log_inserts (env : Environment W F) (log : Log F) (state : DbState (Session W)) :
    (dbSqlLog (bracketed env) log state).2.transactN = state.transactN ∧
      Inserts state.world (dbSqlLog (bracketed env) log state).2.world := by
  have timed := (bracketed_inserts env .logs 0 (.int 0 : Value F) state.world).2.2.2.1
  unfold dbSqlLog
  cases entryType log with
  | logs =>
    obtain ⟨transactN, inserts⟩ := insert_entry_inserts env .logs
      ((dbGetTime (bracketed env) state).dbTime ++ decimal (Log.code log) ++
        LogData.text log.data) _ (dbGetTime (bracketed env) state)
    exact ⟨transactN, timed.trans inserts⟩
  | errors =>
    obtain ⟨transactN, inserts⟩ := insert_entry_inserts env .errors
      ((dbGetTime (bracketed env) state).dbTime ++ decimal (Log.code log) ++
        LogData.errs log.data ++ decimal (LogData.errc log.data)) _
      (dbGetTime (bracketed env) state)
    exact ⟨transactN, timed.trans inserts⟩
  | data => exact insert_entry_inserts env .data _ _ state

omit [Arithmetic F] [LogHeader] in
/-- The first part of a call leaves a transaction open if one is open whenever
the counter is not zero. Its `BEGIN` is out of place when one is already open. -/
theorem begin_batch_session (env : Environment W F) (state : DbState (Session W))
    (ready : state.transactN ≠ 0 → state.world.isOpen = true) :
    (beginBatch (bracketed env) state).transactN = state.transactN ∧
      (beginBatch (bracketed env) state).world.isOpen = true ∧
      (AllPlaced (beginBatch (bracketed env) state) ↔
        AllPlaced state ∧ (state.transactN = 0 → state.world.isOpen = false)) := by
  unfold beginBatch
  split_ifs with zero
  · refine ⟨rfl, rfl, ?_⟩
    simp [AllPlaced, bracketed, Session.note, zero, or_imp, forall_and, Event.Placed]
  · exact ⟨rfl, ready zero, by simp [zero]⟩

/-- So does an attempt of the recursion, inserts included. -/
theorem attempt_session (env : Environment W F) (transactionCount : Nat) (log : Log F)
    (state : DbState (Session W)) (ready : state.transactN ≠ 0 → state.world.isOpen = true) :
    let attempted := ((recovery (bracketed env) transactionCount).attempt (log, state)).2.2
    attempted.transactN = state.transactN ∧ attempted.world.isOpen = true ∧
      (AllPlaced attempted ↔
        AllPlaced state ∧ (state.transactN = 0 → state.world.isOpen = false)) := by
  obtain ⟨counter, inside, placed⟩ := begin_batch_session env state ready
  obtain ⟨logged, inserts⟩ := db_sql_log_inserts env log (beginBatch (bracketed env) state)
  have described : ∀ state : DbState (Session W),
      (describeFailure state).transactN = state.transactN ∧
        (describeFailure state).world = state.world := fun _ => ⟨rfl, rfl⟩
  have inserted := inserts.placed_iff inside
  simp only [recovery]
  split_ifs
  · refine ⟨(described _).1.trans (logged.trans counter), ?_, ?_⟩
    · rw [(described _).2, inserts.isOpen, inside]
    · rw [← placed, ← inserted]
      rfl
  · refine ⟨logged.trans counter, inserts.isOpen.trans inside, ?_⟩
    rw [← placed, ← inserted]

/-- The way down, after one attempt and so many more: the counter is unchanged, a
transaction is open, and a `BEGIN` was out of place exactly when the counter is
zero and the first attempt was not the only one. -/
theorem descend_session (env : Environment W F) (transactionCount : Nat) (log : Log F)
    (state : DbState (Session W)) (sound : Sound state) (failures : Nat) :
    let reached := ((recovery (bracketed env) transactionCount).descend (failures + 1)
      (log, state)).2
    reached.transactN = state.transactN ∧ reached.world.isOpen = true ∧
      (AllPlaced reached ↔ (state.transactN = 0 → failures = 0)) := by
  have ready : state.transactN ≠ 0 → state.world.isOpen = true := by
    intro counting
    exact Bool.of_not_eq_false fun closed => counting (sound.closed_iff.mpr closed)
  induction failures with
  | zero =>
    obtain ⟨counter, inside, placed⟩ := attempt_session env transactionCount log state ready
    refine ⟨counter, inside, ?_⟩
    rw [Recovery.descend_succ', Recovery.descend_zero, placed]
    simp [sound.placed, sound.closed_iff]
  | succ failures inductionHypothesis =>
    obtain ⟨counter, inside, placed⟩ := inductionHypothesis
    rw [Recovery.descend_succ']
    cases reached : (recovery (bracketed env) transactionCount).descend (failures + 1)
        (log, state) with
    | mk nextLog next =>
      rw [reached] at counter inside placed
      dsimp only at counter inside placed
      obtain ⟨nextCounter, nextInside, nextPlaced⟩ :=
        attempt_session env transactionCount nextLog next fun _ => inside
      refine ⟨nextCounter.trans counter, nextInside, ?_⟩
      rw [nextPlaced, placed, counter, inside]
      simp only [Bool.true_eq_false, imp_false, Nat.add_eq_zero_iff, one_ne_zero, and_false]
      constructor
      · exact fun both => both.2
      · exact fun counting => ⟨fun zero => absurd zero counting, counting⟩

/-- The way up is a sequence of last parts of calls, one for each call that was nested. -/
theorem finish_iterate (env : Environment (Session W) F) (transactionCount count : Nat)
    (log : Log F) (state : DbState (Session W)) :
    (recovery env transactionCount).finish^[count] (log, state) =
      (log, (endBatch env transactionCount)^[count] state) := by
  induction count generalizing state with
  | zero => rfl
  | succ count inductionHypothesis =>
    exact inductionHypothesis (endBatch env transactionCount state)

omit [Arithmetic F] [LogHeader] in
/-- Below the count the last parts only increment the counter. -/
theorem end_batches_below (env : Environment W F) (transactionCount count : Nat)
    (state : DbState (Session W)) (below : state.transactN + count < transactionCount) :
    (endBatch (bracketed env) transactionCount)^[count] state =
      { state with transactN := state.transactN + count } := by
  induction count with
  | zero => rfl
  | succ count inductionHypothesis =>
    have still : ¬ transactionCount ≤ state.transactN + (count + 1) := by omega
    rw [Function.iterate_succ_apply', inductionHypothesis (by omega), endBatch]
    simp only [Nat.add_assoc, still, ↓reduceIte]

omit [Arithmetic F] [LogHeader] in
/-- The one that reaches the count closes the transaction, and it is the last. -/
theorem end_batches_reach (env : Environment W F) (transactionCount count : Nat)
    (state : DbState (Session W)) (inside : state.world.isOpen = true)
    (reached : state.transactN + (count + 1) = transactionCount) :
    let ended := (endBatch (bracketed env) transactionCount)^[count + 1] state
    ended.transactN = 0 ∧ ended.world.isOpen = false ∧ (AllPlaced ended ↔ AllPlaced state) := by
  have full : transactionCount ≤ state.transactN + count + 1 := by omega
  have closed : (endBatch (bracketed env) transactionCount)^[count + 1] state =
      { state with
        transactN := 0
        world := state.world.note .endTransaction false
          (env.exec .endTransaction state.world.world).2 } := by
    rw [Function.iterate_succ_apply', end_batches_below env transactionCount count state (by omega),
      endBatch]
    simp only [full, ↓reduceIte]
    rfl
  intro ended
  refine ⟨by rw [show ended = _ from closed], by rw [show ended = _ from closed]; rfl, ?_⟩
  rw [show ended = _ from closed]
  simp [AllPlaced, Session.note, inside, or_imp, forall_and, Event.Placed]

omit [Arithmetic F] [LogHeader] in
/-- Any that follow do so outside a transaction: they count one as open or issue
an `END` out of place. -/
theorem end_batch_closed (env : Environment W F) (transactionCount : Nat)
    (state : DbState (Session W)) (outside : state.world.isOpen = false) :
    (endBatch (bracketed env) transactionCount state).world.isOpen = false ∧
      ¬ Sound (endBatch (bracketed env) transactionCount state) := by
  unfold endBatch
  simp only
  split_ifs
  · refine ⟨rfl, ?_⟩
    intro sound
    have misplaced := sound.placed ⟨.endTransaction, state.world.isOpen⟩ (by
      simp [bracketed, Session.note])
    rw [outside] at misplaced
    cases misplaced
  · refine ⟨outside, ?_⟩
    intro sound
    have none := sound.closed_iff.mpr outside
    cases none

omit [Arithmetic F] [LogHeader] in
/-- More last parts than the batch has room for end unsoundly: what follows the one that
closes the transaction counts, or ends, one that is not open. -/
theorem end_batches_beyond (env : Environment W F) (transactionCount count : Nat)
    (state : DbState (Session W)) (inside : state.world.isOpen = true)
    (below : state.transactN < transactionCount)
    (beyond : transactionCount < state.transactN + count) :
    ¬ Sound ((endBatch (bracketed env) transactionCount)^[count] state) := by
  have outside : ∀ extra, ((endBatch (bracketed env) transactionCount)^[
      transactionCount - state.transactN + extra] state).world.isOpen = false := by
    intro extra
    induction extra with
    | zero =>
      obtain ⟨room, exact'⟩ : ∃ room, transactionCount - state.transactN = room + 1 :=
        ⟨transactionCount - state.transactN - 1, by omega⟩
      rw [Nat.add_zero, exact']
      exact (end_batches_reach env transactionCount room state inside (by omega)).2.1
    | succ extra inductionHypothesis =>
      rw [← Nat.add_assoc, Function.iterate_succ_apply']
      exact (end_batch_closed env transactionCount _ inductionHypothesis).1
  obtain ⟨extra, same⟩ : ∃ extra, count = transactionCount - state.transactN + extra + 1 :=
    ⟨count - (transactionCount - state.transactN) - 1, by omega⟩
  rw [same, Function.iterate_succ_apply']
  exact (end_batch_closed env transactionCount _ (outside extra)).2

/-- One call: with the counter below the count and everything in its place
before, it leaves everything in its place exactly when no nested insert failed,
or the batch was begun and has room for the inserts that failed and the last. -/
theorem call_sound_iff (env : Environment W F) (transactionCount fuel : Nat) (log : Log F)
    (state : DbState (Session W)) (result : Nat × DbState (Session W)) (failures : Nat)
    (sound : Sound state) (below : state.transactN < transactionCount)
    (returned : sqliteLocalDbLog (bracketed env) transactionCount fuel log state = some result)
    (failed : Failures (bracketed env) log state failures) :
    (Sound result.2 ↔ failures = 0 ∨
      1 ≤ state.transactN ∧ state.transactN + failures + 1 ≤ transactionCount) ∧
      (Sound result.2 → result.2.transactN < transactionCount) := by
  rw [sqlite_local_db_log_eq, Option.map_eq_some_iff] at returned
  obtain ⟨finished, returned, rfl⟩ := returned
  obtain ⟨settled, _, settles, rfl⟩ := (Recovery.call_some_iff ..).mp returned
  have same : settled = failures :=
    Recovery.settles_unique _ settles ((settles_iff ..).mpr failed)
  subst same
  obtain ⟨counter, inside, placed⟩ := descend_session env transactionCount log state sound settled
  cases reached : (recovery (bracketed env) transactionCount).descend (settled + 1)
      (log, state) with
  | mk lastLog last =>
    rw [reached] at counter inside placed
    dsimp only at counter inside placed
    rw [finish_iterate]
    dsimp only
    rcases Nat.lt_trichotomy (state.transactN + (settled + 1)) transactionCount with
      short | full | beyond
    · have counted := end_batches_below env transactionCount (settled + 1) last (by omega)
      rw [counted]
      refine ⟨?_, fun _ => by simp only; omega⟩
      constructor
      · intro result
        have begun := placed.mp result.placed
        omega
      · intro condition
        refine ⟨placed.mpr (by omega), ?_⟩
        simp [inside]
    · obtain ⟨cleared, closed, ended⟩ :=
        end_batches_reach env transactionCount settled last inside (by omega)
      refine ⟨?_, fun _ => by rw [cleared]; omega⟩
      constructor
      · intro result
        have begun := placed.mp (ended.mp result.placed)
        omega
      · intro condition
        exact ⟨ended.mpr (placed.mpr (by omega)), iff_of_true cleared closed⟩
    · have unsound := end_batches_beyond env transactionCount (settled + 1) last inside
        (by omega) (by omega)
      refine ⟨⟨fun result => absurd result unsound, ?_⟩, fun result => absurd result unsound⟩
      intro condition
      omega

/-- One call of `sqlite_local_db_log`, with the depth of recursion it is given. -/
def logCall (env : Environment W F) (transactionCount : Nat) (state : DbState W)
    (call : Log F × Nat) : DbState W :=
  match sqliteLocalDbLog env transactionCount call.2 call.1 state with
  | some (_, after) => after
  | none => state

/-- The condition on the state before a call and on the database: the nested inserts
of the call do not fail, or the batch was begun and has room for those that fail
and the one that succeeds. -/
def BatchHasRoom (env : Environment W F) (transactionCount : Nat) (state : DbState W)
    (log : Log F) : Prop :=
  ∀ failures, Failures env log state failures →
    failures = 0 ∨ 1 ≤ state.transactN ∧ state.transactN + failures + 1 ≤ transactionCount

/-- The law of one call, for a call that returns: it is sound if there is room for its
failures, and then the counter stays below the count. -/
theorem log_call_sound_iff (env : Environment W F) (transactionCount : Nat)
    (state : DbState (Session W)) (call : Log F × Nat) (sound : Sound state)
    (below : state.transactN < transactionCount)
    (returned : (sqliteLocalDbLog (bracketed env) transactionCount call.2 call.1 state).isSome) :
    (Sound (logCall (bracketed env) transactionCount state call) ↔
      BatchHasRoom (bracketed env) transactionCount state call.1) ∧
      (Sound (logCall (bracketed env) transactionCount state call) →
        (logCall (bracketed env) transactionCount state call).transactN < transactionCount) := by
  obtain ⟨result, returned⟩ := Option.isSome_iff_exists.mp returned
  have after : logCall (bracketed env) transactionCount state call = result.2 := by
    simp only [logCall, returned]
  obtain ⟨failures, settles⟩ := (returns_settles ..).mp ⟨call.2, result, returned⟩
  have failed := (settles_iff ..).mp settles
  obtain ⟨law, kept⟩ :=
    call_sound_iff env transactionCount call.2 call.1 state result failures sound below returned
      failed
  rw [after]
  refine ⟨law.trans ?_, kept⟩
  constructor
  · intro room others othersFailed
    have same := Recovery.settles_unique _ settles ((settles_iff ..).mpr othersFailed)
    rwa [← same]
  · exact fun room => room failures failed

/-- In a run of calls that all return, the calls leave everything in its place one after
another exactly when each of them finds room in its batch.

Proof: soundness and a counter below the count are the invariant. `log_call_sound_iff`
is the law of a call that returns where it holds, and gives both again behind the call. -/
theorem bracketing_iff (env : Environment W F) (transactionCount : Nat)
    (positive : 1 ≤ transactionCount) (world : W) (calls : List (Log F × Nat))
    (returning : Runs.EveryStep (logCall (bracketed env) transactionCount)
      (DbState.initial ⟨world, false, []⟩) calls fun _ state call =>
        (sqliteLocalDbLog (bracketed env) transactionCount call.2 call.1 state).isSome) :
    (Runs.EveryStep (logCall (bracketed env) transactionCount)
      (DbState.initial ⟨world, false, []⟩) calls fun _ state call =>
        Sound (logCall (bracketed env) transactionCount state call)) ↔
    Runs.EveryStep (logCall (bracketed env) transactionCount)
      (DbState.initial ⟨world, false, []⟩) calls fun _ state call =>
        BatchHasRoom (bracketed env) transactionCount state call.1 := by
  have initial : Sound (DbState.initial (⟨world, false, []⟩ : Session W)) :=
    ⟨fun _ none => absurd none List.not_mem_nil, iff_of_true rfl rfl⟩
  rw [← Runs.every_step_and_iff _ _ _ _ _ returning]
  conv_rhs => rw [← Runs.every_step_and_iff _ _ _ _ _ returning]
  apply Runs.every_step_iff fun _ state => Sound state ∧ state.transactN < transactionCount
  · exact ⟨initial, positive⟩
  · rintro before state call ⟨sound, below⟩
    constructor
    · rintro ⟨returned, after⟩
      exact ⟨returned, (log_call_sound_iff env _ state call sound below returned).1.mp after⟩
    · rintro ⟨returned, room⟩
      exact ⟨returned, (log_call_sound_iff env _ state call sound below returned).1.mpr room⟩
  · rintro before state call ⟨sound, below⟩ ⟨returned, room⟩
    obtain ⟨law, kept⟩ := log_call_sound_iff env _ state call sound below returned
    exact ⟨law.mpr room, kept (law.mpr room)⟩

end

/-- A single insert that succeeds is bracketed, in batches of one. -/
theorem single_insert_sound :
    Runs.EveryStep (logCall (bracketed scriptedDatabase) 1) (DbState.initial ⟨[], false, []⟩)
      [(dbLog [], 1)] fun _ state call =>
        Sound (logCall (bracketed scriptedDatabase) 1 state call) := by
  have returning : Runs.EveryStep (logCall (bracketed scriptedDatabase) 1)
      (DbState.initial ⟨[], false, []⟩) [(dbLog [], 1)] fun _ state call =>
        (sqliteLocalDbLog (bracketed scriptedDatabase) 1 call.2 call.1 state).isSome := by
    rw [Runs.every_step_cons]
    exact ⟨by decide, Runs.every_step_nil _ _ _⟩
  apply (bracketing_iff scriptedDatabase 1 (Nat.le_refl 1) [] _ returning).mpr
  rw [Runs.every_step_cons]
  refine ⟨?_, Runs.every_step_nil _ _ _⟩
  have succeeds : ¬ Fails (bracketed scriptedDatabase) (dbLog [])
      (DbState.initial ⟨[], false, []⟩) 0 := by
    unfold Fails
    decide
  rintro failures ⟨fail, _⟩
  rcases Nat.eq_zero_or_pos failures with none | some
  · exact Or.inl none
  · exact absurd (fail 0 some) succeeds

/-- A single insert that fails once, in batches of one: the nested call issues a
second `BEGIN`, and the outer call an `END` after the nested call's. -/
theorem failed_insert_misplaced :
    (sqliteLocalDbLog (bracketed scriptedDatabase) 1 2 (dbLog [])
        (DbState.initial ⟨[false], false, []⟩)).map (fun result => result.2.world.events) =
      some [⟨.beginTransaction, false⟩, ⟨.beginTransaction, true⟩, ⟨.insert, true⟩,
        ⟨.endTransaction, true⟩, ⟨.endTransaction, false⟩] ∧
      ¬ Sound (logCall (bracketed scriptedDatabase) 1 (DbState.initial ⟨[false], false, []⟩)
        (dbLog [], 2)) := by
  have events : (logCall (bracketed scriptedDatabase) 1 (DbState.initial ⟨[false], false, []⟩)
      (dbLog [], 2)).world.events = [⟨.beginTransaction, false⟩, ⟨.beginTransaction, true⟩,
        ⟨.insert, true⟩, ⟨.endTransaction, true⟩, ⟨.endTransaction, false⟩] := by decide
  refine ⟨by decide, ?_⟩
  rintro ⟨placed, _⟩
  have misplaced := placed ⟨.beginTransaction, true⟩ (by rw [events]; decide)
  exact absurd misplaced (by decide)

end EventRecorder.Transactions
